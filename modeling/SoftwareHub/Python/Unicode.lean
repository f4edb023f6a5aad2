import SoftwareHub.Python.Codec
import SoftwareHub.Python.Exceptions

/-! The Unicode database of the interpreter as a parameter, with what the code
relies on, and percent-encoding. -/
namespace SoftwareHub.Python

/-- The tables of `unicodedata` and `str.casefold` that the file name rules and the
searches consult. -/
structure Unicode where
  nfkc : PyStr → PyStr
  nfkd : PyStr → PyStr
  casefold : PyStr → PyStr
  /-- The general category, two letters. -/
  category : Nat → PyStr
  category_surrogate : ∀ c, isSurrogate c = true → category c = py "Cs"
  nfkc_codePoint : ∀ s : PyStr, (∀ c ∈ s, c < 0x110000) → ∀ c ∈ nfkc s, c < 0x110000

def isAsciiLetter (c : Nat) : Bool := (0x41 ≤ c && c ≤ 0x5A) || (0x61 ≤ c && c ≤ 0x7A)

/-- `str.isalnum` for an ASCII character. -/
def isAsciiAlnum (c : Nat) : Bool := isDigit c || isAsciiLetter c

/-- The lower-case letter of an ASCII capital, and any other character as it is. -/
def asciiLower (c : Nat) : Nat := if 0x41 ≤ c ∧ c ≤ 0x5A then c + 0x20 else c

/-- The tables on ASCII text, where punctuation is not told apart. They serve for
runs on sample data. -/
def Unicode.ascii : Unicode where
  nfkc s := s
  nfkd s := s
  casefold s := s.map asciiLower
  category c :=
    if isSurrogate c then py "Cs"
    else if c < 0x20 ∨ c = 0x7F then py "Cc"
    else if isDigit c then py "Nd"
    else if isAsciiLetter c then (if asciiLower c = c then py "Ll" else py "Lu")
    else py "Po"
  category_surrogate _ h := if_pos h
  nfkc_codePoint _ h := h

/-- `str.casefold` lowers ASCII text letter by letter, as Unicode has it. -/
def FoldsAscii (casefold : PyStr → PyStr) : Prop := ∀ s : PyStr, (∀ c ∈ s, c < 0x80) → casefold s = s.map asciiLower

abbrev Unicode.FoldsAscii (unicode : Unicode) : Prop := Python.FoldsAscii unicode.casefold

theorem Unicode.ascii_foldsAscii : Unicode.ascii.FoldsAscii := fun _ _ => rfl

/-- ASCII text without capitals is its own fold, as slugs and user names are. -/
theorem Unicode.FoldsAscii.casefold_eq {unicode : Unicode} (h : unicode.FoldsAscii) {s : PyStr}
    (hAscii : ∀ c ∈ s, c < 0x80) (hLower : s.map asciiLower = s) : unicode.casefold s = s :=
  (h s hAscii).trans hLower

/-- What the tables promise: normal text stays normal when it is cut, NUL is
a control character, and ASCII text folds letter by letter. -/
structure Unicode.Lawful (unicode : Unicode) : Prop where
  nfkc_idempotent : ∀ s, unicode.nfkc (unicode.nfkc s) = unicode.nfkc s
  nfkc_infix : ∀ s t : PyStr, s <:+: t → unicode.nfkc t = t → unicode.nfkc s = s
  category_nul : unicode.category 0 = py "Cc"
  foldsAscii : unicode.FoldsAscii

/-- The tables on ASCII text and `ß`, whose fold has two letters and so makes a text
longer. -/
def Unicode.sharpS : Unicode :=
  { Unicode.ascii with
    casefold := fun s => s.flatMap fun c => if c = 0xDF then py "ss" else [asciiLower c] }

theorem Unicode.sharpS_lawful : Unicode.sharpS.Lawful where
  nfkc_idempotent _ := rfl
  nfkc_infix _ _ _ _ := rfl
  category_nul := rfl
  foldsAscii s hAscii := by
    induction s with
    | nil => rfl
    | cons c s ih =>
        have hc : c ≠ 0xDF := by
          have hBelow := hAscii c List.mem_cons_self
          omega
        have hRest := ih fun other hm => hAscii other (List.mem_cons_of_mem c hm)
        change (if c = 0xDF then py "ss" else [asciiLower c]) ++ _ = asciiLower c :: _
        rw [if_neg hc, List.singleton_append, ← hRest]
        rfl

/-- `text.encode("ascii", "ignore").decode("ascii")`. -/
def asciiIgnore (s : PyStr) : PyStr := s.filter fun c => c < 0x80

/-- `text.strip(chars)`. -/
def stripChars (chars s : PyStr) : PyStr := (s.dropWhile fun c => c ∈ chars).rdropWhile fun c => c ∈ chars

def upperHexDigit (n : Nat) : Nat := if n < 10 then 0x30 + n else 0x37 + n

/-- One byte of a quoted text: itself when it is safe, else `%XX`. -/
def quoteByte (safe : PyStr) (b : UInt8) : PyStr :=
  if isAsciiAlnum b.toNat ∨ b.toNat ∈ py "_.-~" ∨ b.toNat ∈ safe then [b.toNat]
  else [0x25, upperHexDigit (b.toNat / 16), upperHexDigit (b.toNat % 16)]

/-- `urllib.parse.quote(text, safe=safe)`, with strict UTF-8. -/
def quote (safe s : PyStr) : Except PyException PyStr :=
  match encodeUtf8 s with
  | some data => .ok (data.flatMap (quoteByte safe))
  | none => .error .unicodeEncodeError

/-- A text without surrogates can be quoted, whatever its characters are. -/
theorem exists_quote {safe s : PyStr} (h : ∀ c ∈ s, isScalar c = true) : ∃ quoted, quote safe s = .ok quoted := by
  have hAll : s.all isScalar = true := List.all_eq_true.mpr h
  exact ⟨(s.flatMap utf8Char).flatMap (quoteByte safe), by simp [quote, encodeUtf8, hAll]⟩

end SoftwareHub.Python
