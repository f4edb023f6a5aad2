import Mathlib.Data.List.DropRight
import Mathlib.Data.List.Lex
import Mathlib.Data.Nat.Digits.Lemmas

/-! Python strings and the string operations that the services use. A string is its
list of code points, lone surrogates included. -/
namespace SoftwareHub.Python

/-- A `str`: its code points, lone surrogates included. -/
abbrev PyStr := List Nat

abbrev Bytes := List UInt8

-- Named, so that every membership test on strings is built from one instance.
instance : LawfulBEq PyStr := inferInstance

def py (s : String) : PyStr := s.toList.map Char.toNat

/-- The code points that `str.isspace` accepts, which `strip` and `split` use. -/
def isSpace (c : Nat) : Bool :=
  (9 ≤ c && c ≤ 13) || (0x1C ≤ c && c ≤ 0x20) || c == 0x85 || c == 0xA0 || c == 0x1680 ||
    (0x2000 ≤ c && c ≤ 0x200A) || c == 0x2028 || c == 0x2029 || c == 0x202F || c == 0x205F ||
    c == 0x3000

/-- `str.strip()`, at both ends. -/
def strip (s : PyStr) : PyStr := (s.dropWhile isSpace).rdropWhile isSpace

/-- `str.split()` without a separator: the runs of characters that are no blanks. -/
def words (s : PyStr) : List PyStr := (s.splitOnP isSpace).filter (· ≠ [])

/-- First code points of the blocks of ten decimal digits (category `Nd`). -/
def decimalBlocks : List Nat :=
  [0x30, 0x660, 0x6F0, 0x7C0, 0x966, 0x9E6, 0xA66, 0xAE6, 0xB66, 0xBE6, 0xC66, 0xCE6, 0xD66,
    0xDE6, 0xE50, 0xED0, 0xF20, 0x1040, 0x1090, 0x17E0, 0x1810, 0x1946, 0x19D0, 0x1A80, 0x1A90,
    0x1B50, 0x1BB0, 0x1C40, 0x1C50, 0xA620, 0xA8D0, 0xA900, 0xA9D0, 0xA9F0, 0xAA50, 0xABF0,
    0xFF10, 0x104A0, 0x10D30, 0x10D40, 0x11066, 0x110F0, 0x11136, 0x111D0, 0x112F0, 0x11450,
    0x114D0, 0x11650, 0x116C0, 0x116D0, 0x116DA, 0x11730, 0x118E0, 0x11950, 0x11BF0, 0x11C50,
    0x11D50, 0x11DA0, 0x11F50, 0x16130, 0x16A60, 0x16AC0, 0x16B50, 0x16D70, 0x1CCF0, 0x1D7CE,
    0x1D7D8, 0x1D7E2, 0x1D7EC, 0x1D7F6, 0x1E140, 0x1E2F0, 0x1E4F0, 0x1E5F1, 0x1E950, 0x1FBF0]

/-- The digit a code point stands for; `\d` of a `str` pattern matches these. -/
def decimalValue? (c : Nat) : Option Nat :=
  (decimalBlocks.find? fun first => first ≤ c && c < first + 10).map (c - ·)

def isDecimal (c : Nat) : Bool := (decimalValue? c).isSome

/-- An ASCII digit, as the grammars of JSON and ISO 8601 have it. -/
def isDigit (c : Nat) : Bool := 0x30 ≤ c && c ≤ 0x39

/-- `[0-9a-f]`, the digits of the identifiers and digests. -/
def isLowerHex (c : Nat) : Bool := isDigit c || (0x61 ≤ c && c ≤ 0x66)

/-- `[a-z0-9]`, the characters of slugs and user names. -/
def isLowerAlnum (c : Nat) : Bool := isDigit c || (0x61 ≤ c && c ≤ 0x7A)

/-- `re.fullmatch` of a sequence of one-character classes: as many characters, each
in its class. -/
def fullMatch (pattern : List (Nat → Bool)) (s : PyStr) : Bool :=
  pattern.length == s.length && (pattern.zip s).all fun (accepts, c) => accepts c

/-- The pattern that matches exactly one literal. -/
def literal (s : PyStr) : List (Nat → Bool) := s.map fun c => (c == ·)

/-- The value of a run of digits, most significant first. -/
def digitsValue (digits : List Nat) : Nat := digits.foldl (fun value digit => value * 10 + digit) 0

/-- The longest digit run that `int` converts; longer ones are a `ValueError`. -/
def intMaxStrDigits : Nat := 4300

/-- What `int` takes for a blank: the separators from U+001C to U+001F are blanks
for `strip` only. -/
def isIntSpace (c : Nat) : Bool := isSpace c && !(0x1C ≤ c && c ≤ 0x1F)

/-- `int(text)`: surrounding blanks, a sign, and decimal digits that single
underscores may separate. `none` is the `ValueError`. -/
def parseInt (s : PyStr) : Option Int :=
  let stripped := (s.dropWhile isIntSpace).rdropWhile isIntSpace
  let (negative, body) := match stripped with
    | 0x2D :: rest => (true, rest)
    | 0x2B :: rest => (false, rest)
    | rest => (false, rest)
  let groups := body.splitOn 0x5F
  if groups.any (· == []) then none
  else match groups.flatten.mapM decimalValue? with
    | none => none
    | some digits =>
        if digits.length ≤ intMaxStrDigits then
          some (if negative then -(digitsValue digits : Int) else digitsValue digits)
        else none

/-- The decimal notation of a natural number, without leading zeros. -/
def decimal (n : Nat) : PyStr :=
  if n = 0 then [0x30] else (Nat.digits 10 n).reverse.map (0x30 + ·)

/-- `str(n)` of an integer, with a sign when it is negative. -/
def intRepr : Int → PyStr
  | .ofNat n => decimal n
  | .negSucc n => 0x2D :: decimal (n + 1)

/-- Decimal notation padded with zeros to a width, as in `f"{n:04d}"`. -/
def padded (width n : Nat) : PyStr := List.replicate (width - (decimal n).length) 0x30 ++ decimal n

/-- `left <= right` on strings, which compares code points. -/
def strLe (left right : PyStr) : Bool := decide (left ≤ right)

theorem digitsValue_append (first second : List Nat) :
    digitsValue (first ++ second) = second.foldl (fun value digit => value * 10 + digit) (digitsValue first) := by
  simp [digitsValue]

/-- The value is the one that Mathlib gives to the digits in the other order. -/
theorem digitsValue_reverse (digits : List Nat) :
    digitsValue digits.reverse = Nat.ofDigits 10 digits := by
  induction digits with
  | nil => rfl
  | cons digit digits ih =>
      rw [List.reverse_cons, digitsValue_append, ih, Nat.ofDigits_cons]
      simp [Nat.mul_comm, Nat.add_comm]

/-- The decimal notation consists of ASCII digits. -/
theorem isDigit_of_mem_decimal {n c : Nat} (h : c ∈ decimal n) : isDigit c = true := by
  unfold decimal at h
  split at h
  · simp only [List.mem_singleton] at h
    subst h
    rfl
  · simp only [List.mem_map, List.mem_reverse] at h
    obtain ⟨digit, hDigit, rfl⟩ := h
    have := Nat.digits_lt_base (by decide : 1 < 10) hDigit
    simp [isDigit]
    omega

theorem decimal_ne_nil (n : Nat) : decimal n ≠ [] := by
  unfold decimal
  split
  · simp
  · rename_i h
    simp [Nat.digits_ne_nil_iff_ne_zero.mpr h]

/-- No superfluous zero in front, which a JSON number may not have: only zero itself
starts with one. -/
theorem decimal_head_zero {n : Nat} {rest : PyStr} (h : decimal n = 0x30 :: rest) : rest = [] := by
  unfold decimal at h
  split at h
  · simpa using h.symm
  · rename_i hn
    have hNe : Nat.digits 10 n ≠ [] := Nat.digits_ne_nil_iff_ne_zero.mpr hn
    have hLast := Nat.getLast_digit_ne_zero 10 hn
    have hReverse : (Nat.digits 10 n).reverse ≠ [] := by simpa using hNe
    obtain ⟨digit, tail, hEq⟩ := List.exists_cons_of_ne_nil hReverse
    rw [hEq] at h
    simp only [List.map_cons, List.cons.injEq] at h
    have hDigit : digit = 0 := by omega
    refine (hLast ?_).elim
    have hHead : (Nat.digits 10 n).reverse.head hReverse = digit := by simp [hEq]
    rw [List.head_reverse] at hHead
    rw [hHead, hDigit]

/-- A number is read back from its decimal notation. -/
theorem digitsValue_decimal (n : Nat) : digitsValue ((decimal n).map (· - 0x30)) = n := by
  unfold decimal
  split
  · rename_i h
    simp [h, digitsValue]
  · have hMap : ((Nat.digits 10 n).reverse.map (0x30 + ·)).map (· - 0x30) =
        (Nat.digits 10 n).reverse := by
      rw [List.map_map]
      conv_rhs => rw [← List.map_id (Nat.digits 10 n).reverse]
      congr 1
      funext digit
      simp
    rw [hMap, digitsValue_reverse, Nat.ofDigits_digits]

/-- Every character of a match is accepted by some class of the pattern. -/
theorem exists_of_fullMatch {pattern : List (Nat → Bool)} {s : PyStr}
    (h : fullMatch pattern s = true) : ∀ c ∈ s, ∃ accepts ∈ pattern, accepts c = true := by
  simp only [fullMatch, Bool.and_eq_true, beq_iff_eq] at h
  obtain ⟨hLength, hAll⟩ := h
  intro c hc
  obtain ⟨i, hi, rfl⟩ := List.getElem_of_mem hc
  have hZip : (pattern[i], s[i]) ∈ pattern.zip s := by
    rw [List.mem_iff_getElem]
    exact ⟨i, by simp [hLength, hi], by simp⟩
  exact ⟨pattern[i], List.getElem_mem _, List.all_eq_true.mp hAll _ hZip⟩

/-- A match of one pattern and a match of another one, joined. -/
theorem fullMatch_append {first second : List (Nat → Bool)} {s t : PyStr}
    (hFirst : fullMatch first s = true) (hSecond : fullMatch second t = true) :
    fullMatch (first ++ second) (s ++ t) = true := by
  simp only [fullMatch, Bool.and_eq_true, beq_iff_eq] at *
  obtain ⟨hLength, hAll⟩ := hFirst
  obtain ⟨hLength', hAll'⟩ := hSecond
  rw [List.zip_append hLength, List.all_append, hAll, hAll']
  simp [hLength, hLength']

theorem fullMatch_literal (s : PyStr) : fullMatch (literal s) s = true := by
  induction s with
  | nil => rfl
  | cons c s ih =>
      simp only [fullMatch, literal, Bool.and_eq_true, beq_iff_eq] at ih ⊢
      simpa using ih.2

theorem fullMatch_replicate {accepts : Nat → Bool} {s : PyStr} (h : ∀ c ∈ s, accepts c = true) :
    fullMatch (List.replicate s.length accepts) s = true := by
  induction s with
  | nil => rfl
  | cons c s ih =>
      have hTail := ih fun other hm => h other (by simp [hm])
      simp only [fullMatch, Bool.and_eq_true, beq_iff_eq, List.length_cons,
        List.replicate_succ, List.zip_cons_cons, List.all_cons] at hTail ⊢
      exact ⟨by simp, h c (by simp), hTail.2⟩

/-- `text.strip(chars)`, the set of characters given by its test. -/
def stripOf (p : Nat → Bool) (s : PyStr) : PyStr := (s.dropWhile p).rdropWhile p

theorem stripOf_isInfix (p : Nat → Bool) (s : PyStr) : stripOf p s <:+: s :=
  (List.rdropWhile_prefix p _).isInfix.trans (List.dropWhile_suffix p).isInfix

/-- What has been stripped neither starts nor ends with a character of the set. -/
theorem stripOf_ends (p : Nat → Bool) (s : PyStr) :
    (∀ c, (stripOf p s).head? = some c → p c = false) ∧ ∀ c, (stripOf p s).getLast? = some c → p c = false := by
  constructor
  · intro c hc
    obtain ⟨tail, hTail⟩ : stripOf p s <+: s.dropWhile p := List.rdropWhile_prefix p _
    have hHead : (s.dropWhile p).head? = some c := by
      rw [← hTail, List.head?_append, hc]
      rfl
    have hNot := List.head?_dropWhile_not p s
    rw [hHead] at hNot
    simpa using hNot
  · intro c hc
    have hNe : stripOf p s ≠ [] := fun h => by rw [h] at hc; cases hc
    have hLast := List.rdropWhile_last_not p (s.dropWhile p) hNe
    rw [List.getLast?_eq_some_getLast hNe, Option.some.injEq] at hc
    rw [← hc]
    exact Bool.eq_false_iff.mpr hLast

/-- A text with nothing to strip at its ends is left alone. -/
theorem stripOf_eq_self {p : Nat → Bool} {s : PyStr} (hHead : ∀ c, s.head? = some c → p c = false)
    (hLast : ∀ c, s.getLast? = some c → p c = false) : stripOf p s = s := by
  have hDrop : s.dropWhile p = s := by
    cases s with
    | nil => rfl
    | cons c s => simp [hHead c rfl]
  rw [stripOf, hDrop]
  refine List.rdropWhile_eq_self_iff.mpr fun hNil => ?_
  simp [hLast _ (List.getLast?_eq_some_getLast hNil)]

theorem stripOf_stripOf (p : Nat → Bool) (s : PyStr) : stripOf p (stripOf p s) = stripOf p s :=
  stripOf_eq_self (stripOf_ends p s).1 (stripOf_ends p s).2

theorem strip_isInfix (s : PyStr) : strip s <:+: s := stripOf_isInfix isSpace s

theorem strip_strip (s : PyStr) : strip (strip s) = strip s := stripOf_stripOf isSpace s

/-- A text without blanks is its own strip. -/
theorem strip_of_no_space {s : PyStr} (h : ∀ c ∈ s, isSpace c = false) : strip s = s :=
  stripOf_eq_self (fun c hc => h c (List.mem_of_mem_head? hc)) fun c hc => h c (List.mem_of_mem_getLast? hc)

theorem isSpace_of_strip_eq_nil {s : PyStr} (h : strip s = []) : ∀ c ∈ s, isSpace c = true := by
  rw [strip, List.rdropWhile_eq_nil_iff] at h
  have hNil : s.dropWhile isSpace = [] := by
    have hHead := List.head?_dropWhile_not isSpace s
    cases hRest : s.dropWhile isSpace with
    | nil => rfl
    | cons c rest =>
        rw [hRest] at h hHead
        have hSpace := h c List.mem_cons_self
        simp [hSpace] at hHead
  exact List.dropWhile_eq_nil_iff.mp hNil

/-- No blank is a digit, in any script. -/
theorem decimalValue?_of_isSpace {c : Nat} (h : isSpace c = true) : decimalValue? c = none := by
  have hNone : ∀ c ∈ [9, 10, 11, 12, 13, 0x1C, 0x1D, 0x1E, 0x1F, 0x20, 0x85, 0xA0, 0x1680, 0x2000, 0x2001, 0x2002, 0x2003,
      0x2004, 0x2005, 0x2006, 0x2007, 0x2008, 0x2009, 0x200A, 0x2028, 0x2029, 0x202F, 0x205F, 0x3000],
      decimalValue? c = none := by decide
  apply hNone
  simp only [isSpace, Bool.or_eq_true, Bool.and_eq_true, decide_eq_true_eq, beq_iff_eq] at h
  simp only [List.mem_cons, List.not_mem_nil, or_false]
  omega

/-- A text of blanks is no number, whichever of them `int` strips. -/
theorem parseInt_of_blank {s : PyStr} (h : strip s = []) : parseInt s = none := by
  have hInfix : (s.dropWhile isIntSpace).rdropWhile isIntSpace <:+: s := stripOf_isInfix isIntSpace s
  rw [parseInt]
  cases hStripped : (s.dropWhile isIntSpace).rdropWhile isIntSpace with
  | nil => rfl
  | cons c rest =>
      have hSpaces : ∀ other ∈ c :: rest, isSpace other = true := fun other hOther =>
        isSpace_of_strip_eq_nil h other (hInfix.subset (hStripped ▸ hOther))
      have hSign : c ≠ 0x2D ∧ c ≠ 0x2B := by
        have hFirst := hSpaces c List.mem_cons_self
        constructor
        · rintro rfl
          exact absurd hFirst (by decide)
        · rintro rfl
          exact absurd hFirst (by decide)
      have hSingle : (c :: rest).splitOn 0x5F = [c :: rest] := by
        rw [List.splitOn_eq_splitOnP]
        apply List.splitOnP_eq_singleton
        intro other hOther
        rw [beq_eq_false_iff_ne]
        rintro rfl
        exact absurd (hSpaces _ hOther) (by decide)
      have hDigit := decimalValue?_of_isSpace (hSpaces c List.mem_cons_self)
      simp [hSign.1, hSign.2, hSingle, hDigit]

end SoftwareHub.Python
