import SoftwareHub.Python.Json

/-! Reading back what `dumps` wrote, shape by shape, and reading in general: every
scan moves on in the text, so that the fuel of the scanner never runs out. -/
namespace SoftwareHub.Python.Json

/-- An escape below the surrogates never joins with the one after it. -/
theorem scanString_unicodeEscape {a b c d value : Nat} (hValue : hex4? a b c d = some value)
    (hLow : value < 0xD800) (rest : PyStr) :
    scanString (0x5C :: 0x75 :: a :: b :: c :: d :: rest) = (scanString rest).map (consFst value) := by
  rw [scanString, hValue]
  dsimp only
  split
  · rename_i e f g h tail
    cases hNext : hex4? e f g h with
    | none =>
        have hRest : scanString (0x5C :: 0x75 :: e :: f :: g :: h :: tail) = none := by
          rw [scanString, hNext]
        simp [hRest]
    | some low => simp [show ¬0xD800 ≤ value by omega]
  · rfl

/-- The escape of a control character is read back. -/
theorem hex4?_control {c : Nat} (h : c < 0x20) :
    hex4? 0x30 0x30 (hexDigit (c / 16)) (hexDigit (c % 16)) = some c := by
  have hAll : ∀ c < 0x20, hex4? 0x30 0x30 (hexDigit (c / 16)) (hexDigit (c % 16)) = some c := by
    decide
  exact hAll c h

/-- One escaped character is read back as that character, whatever stands behind
it. -/
theorem scanString_escapeChar (c : Nat) (rest : PyStr) :
    scanString (escapeChar c ++ rest) = (scanString rest).map (consFst c) := by
  have hShort (letter plain : Nat) (hLetter : letter ≠ 0x75)
      (hPlain : unescape? letter = some plain) :
      scanString (0x5C :: letter :: rest) = (scanString rest).map (consFst plain) := by
    rw [scanString, hPlain]
    intro _ _ _ _ _ h
    exact (hLetter h).elim
  unfold escapeChar
  split_ifs with hQuote hBackslash hNewline hReturn hTab hFeed hBack hControl
  · subst hQuote; exact hShort _ _ (by decide) (by decide)
  · subst hBackslash; exact hShort _ _ (by decide) (by decide)
  · subst hNewline; exact hShort _ _ (by decide) (by decide)
  · subst hReturn; exact hShort _ _ (by decide) (by decide)
  · subst hTab; exact hShort _ _ (by decide) (by decide)
  · subst hFeed; exact hShort _ _ (by decide) (by decide)
  · subst hBack; exact hShort _ _ (by decide) (by decide)
  · exact scanString_unicodeEscape (hex4?_control hControl) (by omega) rest
  · rw [List.singleton_append, scanString]
    · simp [hControl, hBackslash]
    · exact hQuote
    · intro _ _ _ _ _ h
      exact (hBackslash h).elim
    · intro _ _ h
      exact (hBackslash h).elim

/-- A written string is read up to its closing quotation mark. -/
theorem scanString_quoted (s rest : PyStr) :
    scanString (s.flatMap escapeChar ++ 0x22 :: rest) = some (s, rest) := by
  induction s with
  | nil => simp [scanString]
  | cons c s ih =>
      rw [List.flatMap_cons, List.append_assoc, scanString_escapeChar, ih]
      rfl

/-- What may stand after a number for it to end there: no digit, no point and no
exponent. -/
def EndsNumber (rest : PyStr) : Prop :=
  ∀ c ∈ rest.head?, isDigit c = false ∧ c ≠ 0x2E ∧ c ≠ 0x65 ∧ c ≠ 0x45

theorem span_isDigit {digits rest : PyStr} (hDigits : ∀ c ∈ digits, isDigit c = true)
    (hRest : EndsNumber rest) : splitDigits (digits ++ rest) = (digits, rest) := by
  rw [splitDigits, List.span_eq_takeWhile_dropWhile, List.takeWhile_append_of_pos hDigits,
    List.dropWhile_append_of_pos hDigits]
  cases rest with
  | nil => simp
  | cons c rest => simp [(hRest c rfl).1]

theorem scanFraction_of_ends {rest : PyStr} (h : EndsNumber rest) : scanFraction rest = ([], rest) := by
  cases rest with
  | nil => rfl
  | cons c rest =>
      rw [scanFraction]
      intro tail hEq
      exact (h c rfl).2.1 (List.cons.inj hEq).1

theorem scanExponent_of_ends {rest : PyStr} (h : EndsNumber rest) :
    scanExponent rest = (none, rest) := by
  cases rest with
  | nil => rfl
  | cons c rest => simp [scanExponent, (h c rfl).2.2]

theorem head_decimal {n c : Nat} {digits : PyStr} (h : decimal n = c :: digits) :
    isDigit c = true :=
  isDigit_of_mem_decimal (n := n) (by simp [h])

theorem splitWhole_decimal (n : Nat) {rest : PyStr} (h : EndsNumber rest) :
    splitWhole (decimal n ++ rest) = (decimal n, rest) := by
  obtain ⟨c, digits, hDecimal⟩ := List.exists_cons_of_ne_nil (decimal_ne_nil n)
  by_cases hZero : c = 0x30
  · subst hZero
    rw [hDecimal, decimal_head_zero hDecimal]
    rfl
  · have hSpan := span_isDigit (fun c hc => isDigit_of_mem_decimal (n := n) hc) h
    rw [hDecimal, List.cons_append] at hSpan ⊢
    rw [splitWhole]
    · exact hSpan
    · intro tail hEq
      exact hZero (List.cons.inj hEq).1

theorem splitSign_decimal (n : Nat) (rest : PyStr) :
    splitSign (decimal n ++ rest) = (false, decimal n ++ rest) := by
  obtain ⟨c, digits, hDecimal⟩ := List.exists_cons_of_ne_nil (decimal_ne_nil n)
  rw [hDecimal, List.cons_append, splitSign]
  intro tail hEq
  have hDigit := head_decimal hDecimal
  rw [(List.cons.inj hEq).1] at hDigit
  exact absurd hDigit (by decide)

/-- A written integer is read back, as long as it has no more digits than the
interpreter converts. -/
theorem scanNumber_intRepr (value : Int) (hDigits : (decimal value.natAbs).length ≤ intMaxStrDigits)
    {rest : PyStr} (h : EndsNumber rest) :
    scanNumber (intRepr value ++ rest) = .ok (.int value, rest) := by
  cases value with
  | ofNat n =>
      have hValue : digitValues (decimal n) = n := digitsValue_decimal n
      simp only [Int.ofNat_eq_natCast, Int.natAbs_natCast] at hDigits
      simp [scanNumber, intRepr, splitSign_decimal, splitWhole_decimal n h, decimal_ne_nil,
        scanFraction_of_ends h, scanExponent_of_ends h, hDigits, hValue]
  | negSucc n =>
      have hValue : digitValues (decimal (n + 1)) = n + 1 := digitsValue_decimal (n + 1)
      simp only [Int.natAbs_negSucc, Nat.succ_eq_add_one] at hDigits
      simp [scanNumber, intRepr, splitSign, splitWhole_decimal (n + 1) h, decimal_ne_nil,
        scanFraction_of_ends h, scanExponent_of_ends h, hDigits, hValue]
      omega

/-- The values a round trip is proved for: no floats, integers the
interpreter converts, and nesting within `depth`. -/
def Plain (depth : Nat) : Json → Prop
  | null => True
  | bool _ => True
  | int value => (decimal value.natAbs).length ≤ intMaxStrDigits
  | float _ => False
  | str _ => True
  | array items => 0 < depth ∧ plainItems (depth - 1) items
  | object members => 0 < depth ∧ plainMembers (depth - 1) members
where
  plainItems (depth : Nat) : List Json → Prop
    | [] => True
    | item :: items => Plain depth item ∧ plainItems depth items
  plainMembers (depth : Nat) : List (PyStr × Json) → Prop
    | [] => True
    | (_, value) :: members => Plain depth value ∧ plainMembers depth members

/-- What follows a value inside a document that `dumps` wrote: a comma, a line break
or the end. -/
def EndsValue (rest : PyStr) : Prop := ∀ c ∈ rest.head?, c = 0x2C ∨ c = 0x0A

theorem EndsValue.endsNumber {rest : PyStr} (h : EndsValue rest) : EndsNumber rest := by
  intro c hc
  rcases h c hc with rfl | rfl <;> decide

theorem endsValue_comma (rest : PyStr) : EndsValue (0x2C :: rest) := by simp [EndsValue]

theorem endsValue_newline (level : Nat) (rest : PyStr) : EndsValue (newline level ++ rest) := by
  simp [EndsValue, newline]

theorem skipBlanks_newline (level : Nat) (rest : PyStr) :
    skipBlanks (newline level ++ rest) = skipBlanks rest := by
  have hBlank : ∀ c ∈ newline level, isBlank c = true := by
    intro c hc
    simp only [newline, List.mem_cons, List.mem_replicate] at hc
    rcases hc with rfl | ⟨-, rfl⟩ <;> rfl
  exact List.dropWhile_append_of_pos hBlank

theorem skipBlanks_of_head {c : Nat} (h : isBlank c = false) (rest : PyStr) :
    skipBlanks (c :: rest) = c :: rest := by
  simp [skipBlanks, h]

/-- The first character of a written value decides how it is read; it is never a
blank or a closing bracket. -/
theorem exists_dumpsAt_cons (floatRepr : PyFloat → PyStr) (level : Nat) {depth : Nat} {value : Json}
    (h : value.Plain depth) :
    ∃ c tail, dumpsAt floatRepr level value = c :: tail ∧ isBlank c = false ∧ c ≠ 0x5D := by
  cases value with
  | null => exact ⟨_, _, rfl, by decide, by decide⟩
  | bool value => cases value <;> exact ⟨_, _, rfl, by decide, by decide⟩
  | int value =>
      cases value with
      | ofNat n =>
          obtain ⟨c, digits, hDecimal⟩ := List.exists_cons_of_ne_nil (decimal_ne_nil n)
          have hDigit := head_decimal hDecimal
          refine ⟨c, digits, by simpa [dumpsAt, intRepr] using hDecimal, ?_, ?_⟩
          · simp [isDigit, isBlank] at hDigit ⊢
            omega
          · rintro rfl
            exact absurd hDigit (by decide)
      | negSucc n => exact ⟨_, _, rfl, by decide, by decide⟩
  | float value => exact h.elim
  | str value => exact ⟨_, _, rfl, by decide, by decide⟩
  | array items => cases items <;> exact ⟨_, _, rfl, by decide, by decide⟩
  | object members =>
      rcases members with _ | ⟨⟨key, value⟩, members⟩ <;> exact ⟨_, _, rfl, by decide, by decide⟩

/-- No blanks stand in front of a written value. -/
theorem skipBlanks_dumpsAt (floatRepr : PyFloat → PyStr) (level : Nat) {depth : Nat} {value : Json}
    (h : value.Plain depth) (rest : PyStr) :
    skipBlanks (dumpsAt floatRepr level value ++ rest) = dumpsAt floatRepr level value ++ rest := by
  obtain ⟨c, tail, hEq, hBlank, -⟩ := exists_dumpsAt_cons floatRepr level h
  rw [hEq, List.cons_append, skipBlanks_of_head hBlank]

/-- An integer is no constant: those start with a letter or with `-I`. -/
theorem scanConstant_intRepr (value : Int) (rest : PyStr) :
    scanConstant (intRepr value ++ rest) = none := by
  have hDigit (c : Nat) (h : isDigit c = true) (tail : PyStr) :
      scanConstant (c :: tail) = none ∧ scanConstant (0x2D :: c :: tail) = none := by
    simp only [isDigit, Bool.and_eq_true, decide_eq_true_eq] at h
    have h₁ : (0x6E == c) = false ∧ (0x74 == c) = false ∧ (0x66 == c) = false ∧
        (0x4E == c) = false ∧ (0x49 == c) = false ∧ (0x2D == c) = false := by
      simp only [beq_eq_false_iff_ne, ne_eq]
      omega
    have hPy : py "null" = [0x6E, 0x75, 0x6C, 0x6C] ∧ py "true" = [0x74, 0x72, 0x75, 0x65] ∧
        py "false" = [0x66, 0x61, 0x6C, 0x73, 0x65] ∧ py "NaN" = [0x4E, 0x61, 0x4E] ∧
        py "Infinity" = 0x49 :: py "nfinity" ∧ py "-Infinity" = 0x2D :: 0x49 :: py "nfinity" := by
      decide
    simp [scanConstant, constants, hPy, List.isPrefixOf, h₁]
  cases value with
  | ofNat n =>
      obtain ⟨c, digits, hDecimal⟩ := List.exists_cons_of_ne_nil (decimal_ne_nil n)
      simp only [intRepr, hDecimal, List.cons_append]
      exact (hDigit c (head_decimal hDecimal) _).1
  | negSucc n =>
      obtain ⟨c, digits, hDecimal⟩ := List.exists_cons_of_ne_nil (decimal_ne_nil (n + 1))
      simp only [intRepr, hDecimal, List.cons_append]
      exact (hDigit c (head_decimal hDecimal) _).2

theorem scanConstant_append {name : PyStr} {value : Json} (h : (name, value) ∈ constants)
    (rest : PyStr) : scanConstant (name ++ rest) = some (value, rest) := by
  have hPy : py "null" = [0x6E, 0x75, 0x6C, 0x6C] ∧ py "true" = [0x74, 0x72, 0x75, 0x65] ∧
      py "false" = [0x66, 0x61, 0x6C, 0x73, 0x65] ∧ py "NaN" = [0x4E, 0x61, 0x4E] ∧
      py "Infinity" = [0x49, 0x6E, 0x66, 0x69, 0x6E, 0x69, 0x74, 0x79] ∧
      py "-Infinity" = [0x2D, 0x49, 0x6E, 0x66, 0x69, 0x6E, 0x69, 0x74, 0x79] := by
    decide
  simp only [constants, List.mem_cons, Prod.mk.injEq, List.not_mem_nil, or_false] at h
  rcases h with ⟨rfl, rfl⟩ | ⟨rfl, rfl⟩ | ⟨rfl, rfl⟩ | ⟨rfl, rfl⟩ | ⟨rfl, rfl⟩ | ⟨rfl, rfl⟩ <;>
    simp [scanConstant, constants, hPy, List.isPrefixOf]

/-- The scanner takes a constant by its spelling. -/
theorem scanValue_of_constant {name : PyStr} {value : Json} (h : (name, value) ∈ constants)
    (fuel depth : Nat) (rest : PyStr) :
    scanValue (fuel + 1) depth (name ++ rest) = .ok (value, rest) := by
  have hScan := scanConstant_append h rest
  have hHead : ∃ c tail, name = c :: tail ∧ c ≠ 0x22 ∧ c ≠ 0x7B ∧ c ≠ 0x5B := by
    simp only [constants, List.mem_cons, Prod.mk.injEq, List.not_mem_nil, or_false] at h
    rcases h with ⟨rfl, -⟩ | ⟨rfl, -⟩ | ⟨rfl, -⟩ | ⟨rfl, -⟩ | ⟨rfl, -⟩ | ⟨rfl, -⟩ <;>
      exact ⟨_, _, rfl, by decide, by decide, by decide⟩
  obtain ⟨c, tail, rfl, hQuote, hBrace, hBracket⟩ := hHead
  rw [List.cons_append] at hScan ⊢
  simp [scanValue, hQuote, hBrace, hBracket, hScan]

theorem scanValue_intRepr {value : Int} (hDigits : (decimal value.natAbs).length ≤ intMaxStrDigits)
    (fuel depth : Nat) {rest : PyStr} (hRest : EndsNumber rest) :
    scanValue (fuel + 1) depth (intRepr value ++ rest) = .ok (.int value, rest) := by
  have hNone := scanConstant_intRepr value rest
  have hNumber := scanNumber_intRepr value hDigits hRest
  have hHead : ∃ c tail, intRepr value = c :: tail ∧ c ≠ 0x22 ∧ c ≠ 0x7B ∧ c ≠ 0x5B := by
    cases value with
    | ofNat n =>
        obtain ⟨c, digits, hDecimal⟩ := List.exists_cons_of_ne_nil (decimal_ne_nil n)
        have hDigit := head_decimal hDecimal
        refine ⟨c, digits, hDecimal, ?_, ?_, ?_⟩ <;>
          · rintro rfl
            exact absurd hDigit (by decide)
    | negSucc n => exact ⟨_, _, rfl, by decide, by decide, by decide⟩
  obtain ⟨c, tail, hEq, hQuote, hBrace, hBracket⟩ := hHead
  rw [hEq, List.cons_append] at hNone hNumber ⊢
  simp [scanValue, hQuote, hBrace, hBracket, hNone, hNumber]

/-- One step of the scanner on an opening bracket with something behind it. -/
theorem scanValue_array {fuel depth : Nat} {body : PyStr} {items : List Json} {rest : PyStr}
    (hOpen : ∀ tail, skipBlanks body ≠ 0x5D :: tail)
    (hItems : scanItems fuel depth (skipBlanks body) = .ok (items, rest)) :
    scanValue (fuel + 1) (depth + 1) (0x5B :: body) = .ok (.array items, rest) := by
  rw [scanValue, if_neg (by decide), if_neg (by decide), if_pos rfl]
  split
  · rename_i tail heq
    exact (hOpen tail heq).elim
  · rw [hItems]

/-- One step of the scanner on an opening brace with something behind it. -/
theorem scanValue_object {fuel depth : Nat} {body : PyStr} {members : List (PyStr × Json)}
    {rest : PyStr} (hOpen : ∀ tail, skipBlanks body ≠ 0x7D :: tail)
    (hMembers : scanMembers fuel depth (skipBlanks body) = .ok (members, rest)) :
    scanValue (fuel + 1) (depth + 1) (0x7B :: body) = .ok (.object members, rest) := by
  rw [scanValue, if_neg (by decide), if_pos rfl]
  split
  · rename_i tail heq
    exact (hOpen tail heq).elim
  · rw [hMembers]

/-- The item before the closing bracket ends the list. -/
theorem scanItems_last {fuel depth : Nat} {s rest tail : PyStr} {item : Json}
    (hItem : scanValue fuel depth s = .ok (item, rest)) (hRest : skipBlanks rest = 0x5D :: tail) :
    scanItems (fuel + 1) depth s = .ok ([item], tail) := by
  simp [scanItems, hItem, hRest]

/-- A comma behind an item leads to the next one. -/
theorem scanItems_next {fuel depth : Nat} {s rest tail last : PyStr} {item : Json}
    {items : List Json} (hItem : scanValue fuel depth s = .ok (item, rest))
    (hRest : skipBlanks rest = 0x2C :: tail)
    (hItems : scanItems fuel depth (skipBlanks tail) = .ok (items, last)) :
    scanItems (fuel + 1) depth s = .ok (item :: items, last) := by
  simp [scanItems, hItem, hRest, hItems]

/-- The member before the closing brace ends the object. -/
theorem scanMembers_last {fuel depth : Nat} {s rest tail : PyStr} {key : PyStr} {value : Json}
    (hValue : scanValue fuel depth s = .ok (value, rest)) (hStart : skipBlanks s = s)
    (hRest : skipBlanks rest = 0x7D :: tail) :
    scanMembers (fuel + 1) depth (quote key ++ 0x3A :: 0x20 :: s) = .ok ([(key, value)], tail) := by
  have hBlank : skipBlanks (0x20 :: s) = s := by
    rwa [skipBlanks, List.dropWhile_cons_of_pos (by decide)]
  simp [scanMembers, quote, scanString_quoted, hBlank, hValue, hRest,
    skipBlanks_of_head (show isBlank 0x3A = false by decide)]

/-- A comma behind a member leads to the next one. -/
theorem scanMembers_next {fuel depth : Nat} {s rest tail last : PyStr} {key : PyStr} {value : Json}
    {members : List (PyStr × Json)} (hValue : scanValue fuel depth s = .ok (value, rest))
    (hStart : skipBlanks s = s) (hRest : skipBlanks rest = 0x2C :: tail)
    (hMembers : scanMembers fuel depth (skipBlanks tail) = .ok (members, last)) :
    scanMembers (fuel + 1) depth (quote key ++ 0x3A :: 0x20 :: s) =
      .ok ((key, value) :: members, last) := by
  have hBlank : skipBlanks (0x20 :: s) = s := by
    rwa [skipBlanks, List.dropWhile_cons_of_pos (by decide)]
  simp [scanMembers, quote, scanString_quoted, hBlank, hValue, hRest, hMembers,
    skipBlanks_of_head (show isBlank 0x3A = false by decide)]

theorem skipBlanks_newline_close (level c : Nat) (h : isBlank c = false) (rest : PyStr) :
    skipBlanks (newline level ++ c :: rest) = c :: rest := by
  rw [skipBlanks_newline, skipBlanks_of_head h]

theorem skipBlanks_quote (key rest : PyStr) : skipBlanks (quote key ++ rest) = quote key ++ rest := by
  rw [quote, List.cons_append, skipBlanks_of_head (by decide)]

variable (floatRepr : PyFloat → PyStr)

mutual

/-- Scanning a written value gives the value back and stops behind it. The recursion
is that of `dumpsAt`. -/
theorem scanValue_dumpsAt : (value : Json) → (level depth fuel : Nat) → (rest : PyStr) →
    EndsValue rest → value.Plain depth →
    2 * (dumpsAt floatRepr level value).length + 1 ≤ fuel →
    scanValue fuel depth (dumpsAt floatRepr level value ++ rest) = .ok (value, rest)
  | null, level, depth, fuel + 1, rest, _, _, _ => by
      rw [dumpsAt]
      exact scanValue_of_constant (by simp [constants]) fuel depth rest
  | bool true, level, depth, fuel + 1, rest, _, _, _ => by
      rw [dumpsAt]
      exact scanValue_of_constant (by simp [constants]) fuel depth rest
  | bool false, level, depth, fuel + 1, rest, _, _, _ => by
      rw [dumpsAt]
      exact scanValue_of_constant (by simp [constants]) fuel depth rest
  | int value, level, depth, fuel + 1, rest, hRest, hPlain, _ =>
      scanValue_intRepr hPlain fuel depth hRest.endsNumber
  | float _, _, _, _, _, _, hPlain, _ => hPlain.elim
  | str value, level, depth, fuel + 1, rest, _, _, _ => by
      simp [dumpsAt, quote, scanValue, scanString_quoted]
  | array [], level, depth + 1, fuel + 1, rest, _, _, _ => by
      simp [dumpsAt, scanValue, show py "[]" = [0x5B, 0x5D] by decide,
        skipBlanks_of_head (show isBlank 0x5D = false by decide)]
  | array (item :: items), level, depth + 1, fuel + 1, rest, _, hPlain, hFuel => by
      obtain ⟨-, hItem, hItems⟩ := hPlain
      have hScan := scanItems_dumpsItems item items (level + 1) level depth fuel rest hItem hItems
        (by simp only [dumpsAt, List.length_cons, List.length_append, newline] at hFuel ⊢; omega)
      obtain ⟨c, tail, hHead, -, hClose⟩ := exists_dumpsAt_cons floatRepr (level + 1) hItem
      simp only [dumpsAt, List.cons_append, List.append_assoc, List.nil_append]
      refine scanValue_array (fun other hOther => ?_) ?_
      · rw [skipBlanks_newline, skipBlanks_dumpsAt floatRepr _ hItem, hHead] at hOther
        exact hClose (List.cons.inj hOther).1
      · rwa [skipBlanks_newline, skipBlanks_dumpsAt floatRepr _ hItem]
  | object [], level, depth + 1, fuel + 1, rest, _, _, _ => by
      simp [dumpsAt, scanValue, show py "{}" = [0x7B, 0x7D] by decide,
        skipBlanks_of_head (show isBlank 0x7D = false by decide)]
  | object ((key, value) :: members), level, depth + 1, fuel + 1, rest, _, hPlain, hFuel => by
      obtain ⟨-, hValue, hMembers⟩ := hPlain
      have hScan := scanMembers_dumpsMembers key value members (level + 1) level depth fuel rest
        hValue hMembers
        (by simp only [dumpsAt, List.length_cons, List.length_append, newline] at hFuel ⊢; omega)
      simp only [dumpsAt, List.cons_append, List.append_assoc, List.nil_append]
      refine scanValue_object (fun other hOther => ?_) ?_
      · rw [skipBlanks_newline, skipBlanks_quote, quote, List.cons_append] at hOther
        exact absurd (List.cons.inj hOther).1 (by decide)
      · rwa [skipBlanks_newline, skipBlanks_quote]
termination_by structural _ _ _ fuel => fuel

/-- The items of a list, from the first one through the closing bracket. -/
theorem scanItems_dumpsItems : (item : Json) → (items : List Json) →
    (level outer depth fuel : Nat) → (rest : PyStr) → item.Plain depth →
    Plain.plainItems depth items →
    2 * ((dumpsAt floatRepr level item).length +
      (dumpsAt.dumpsItems floatRepr level items).length) + 2 ≤ fuel →
    scanItems fuel depth (dumpsAt floatRepr level item ++
      (dumpsAt.dumpsItems floatRepr level items ++ (newline outer ++ 0x5D :: rest))) =
        .ok (item :: items, rest)
  | item, [], level, outer, depth, fuel + 1, rest, hItem, _, hFuel => by
      have hScan := scanValue_dumpsAt item level depth fuel (newline outer ++ 0x5D :: rest)
        (endsValue_newline outer _) hItem (by simp only [dumpsAt.dumpsItems] at hFuel; omega)
      exact scanItems_last hScan (skipBlanks_newline_close outer _ (by decide) rest)
  | item, next :: items, level, outer, depth, fuel + 1, rest, hItem, hItems, hFuel => by
      simp only [dumpsAt.dumpsItems, List.length_cons, List.length_append, newline] at hFuel
      have hNext := scanItems_dumpsItems next items level outer depth fuel rest hItems.1 hItems.2
        (by omega)
      simp only [dumpsAt.dumpsItems, List.cons_append, List.append_assoc]
      refine scanItems_next
        (scanValue_dumpsAt item level depth fuel _ (endsValue_comma _) hItem (by omega))
        (skipBlanks_of_head (by decide) _) ?_
      rwa [skipBlanks_newline, skipBlanks_dumpsAt floatRepr _ hItems.1]
termination_by structural _ _ _ _ _ fuel => fuel

/-- The members of an object, from the first key through the closing brace. -/
theorem scanMembers_dumpsMembers : (key : PyStr) → (value : Json) →
    (members : List (PyStr × Json)) → (level outer depth fuel : Nat) → (rest : PyStr) →
    value.Plain depth → Plain.plainMembers depth members →
    2 * ((dumpsAt floatRepr level value).length +
      (dumpsAt.dumpsMembers floatRepr level members).length) + 2 ≤ fuel →
    scanMembers fuel depth (quote key ++ 0x3A :: 0x20 :: (dumpsAt floatRepr level value ++
      (dumpsAt.dumpsMembers floatRepr level members ++ (newline outer ++ 0x7D :: rest)))) =
        .ok ((key, value) :: members, rest)
  | key, value, [], level, outer, depth, fuel + 1, rest, hValue, _, hFuel => by
      have hScan := scanValue_dumpsAt value level depth fuel (newline outer ++ 0x7D :: rest)
        (endsValue_newline outer _) hValue (by simp only [dumpsAt.dumpsMembers] at hFuel; omega)
      exact scanMembers_last hScan (skipBlanks_dumpsAt floatRepr level hValue _)
        (skipBlanks_newline_close outer _ (by decide) rest)
  | key, value, (next, other) :: members, level, outer, depth, fuel + 1, rest, hValue, hMembers,
      hFuel => by
      simp only [dumpsAt.dumpsMembers, List.length_cons, List.length_append, newline] at hFuel
      have hNext := scanMembers_dumpsMembers next other members level outer depth fuel rest
        hMembers.1 hMembers.2 (by omega)
      simp only [dumpsAt.dumpsMembers, List.cons_append, List.append_assoc, List.nil_append]
      refine scanMembers_next
        (scanValue_dumpsAt value level depth fuel _ (endsValue_comma _) hValue (by omega))
        (skipBlanks_dumpsAt floatRepr level hValue _) (skipBlanks_of_head (by decide) _) ?_
      rwa [skipBlanks_newline, skipBlanks_quote]
termination_by structural _ _ _ _ _ _ fuel => fuel

end

/-- `json.loads(json.dumps(value, indent=2) + "\n")` gives a plain value back. -/
theorem loadsText_dumps {value : Json} {maxDepth : Nat} (h : value.Plain maxDepth) :
    loadsText maxDepth (dumpsAt floatRepr 0 value ++ [0x0A]) = .ok value := by
  have hEnd : EndsValue [0x0A] := by simp [EndsValue]
  have hScan := scanValue_dumpsAt floatRepr value 0 maxDepth
    (2 * (dumpsAt floatRepr 0 value ++ [0x0A]).length + 1) [0x0A] hEnd h
    (by simp only [List.length_append]; omega)
  rw [loadsText, skipBlanks_dumpsAt floatRepr 0 h, hScan]
  simp [skipBlanks, isBlank]

theorem length_skipBlanks_le (s : PyStr) : (skipBlanks s).length ≤ s.length :=
  (List.dropWhile_sublist _).length_le

theorem length_of_skipBlanks_eq {s tail : PyStr} {c : Nat} (h : skipBlanks s = c :: tail) :
    tail.length + 1 ≤ s.length := by
  simpa [h] using length_skipBlanks_le s

/-- A scanned string takes at least its closing quotation mark from the text. -/
theorem length_scanString_le {s value rest : PyStr} (h : scanString s = some (value, rest)) :
    rest.length < s.length := by
  induction s using scanString.induct generalizing value rest with
  | case1 => simp [scanString] at h
  | case2 tail =>
      simp only [scanString, Option.some.injEq, Prod.mk.injEq] at h
      simp [h.2]
  | case3 a b c d tail hHigh => simp [scanString, hHigh] at h
  | case4 a b c d high hHigh e f g k tail hLow => simp [scanString, hHigh, hLow] at h
  | case5 a b c d high hHigh e f g k tail low hLow hPair ih =>
      rw [scanString] at h
      simp only [hHigh, hLow, hPair, and_self, if_true, Option.map_eq_some_iff] at h
      obtain ⟨⟨text, left⟩, hScan, hEq⟩ := h
      simp only [consFst, Prod.mk.injEq] at hEq
      have := ih hScan
      simp only [List.length_cons, ← hEq.2]
      omega
  | case6 a b c d high hHigh e f g k tail low hLow hPair ih =>
      rw [scanString] at h
      simp only [hHigh, hLow, hPair, if_false, Option.map_eq_some_iff] at h
      obtain ⟨⟨text, left⟩, hScan, hEq⟩ := h
      simp only [consFst, Prod.mk.injEq] at hEq
      have := ih hScan
      simp only [List.length_cons, ← hEq.2] at this ⊢
      omega
  | case7 a b c d high hHigh tail hNoEscape ih =>
      rw [scanString] at h
      simp only [hHigh, Option.map_eq_some_iff] at h
      obtain ⟨⟨text, left⟩, hScan, hEq⟩ := h
      simp only [consFst, Prod.mk.injEq] at hEq
      have := ih hScan
      simp only [List.length_cons, ← hEq.2]
      omega
  | case8 c tail hNoUnicode hEscape =>
      rw [scanString] at h
      · simp [hEscape] at h
      · exact hNoUnicode
  | case9 c tail hNoUnicode plain hEscape ih =>
      rw [scanString] at h
      · simp only [hEscape, Option.map_eq_some_iff] at h
        obtain ⟨⟨text, left⟩, hScan, hEq⟩ := h
        simp only [consFst, Prod.mk.injEq] at hEq
        have := ih hScan
        simp only [List.length_cons, ← hEq.2]
        omega
      · exact hNoUnicode
  | case10 c tail hQuote hNoUnicode hNoEscape hControl =>
      rw [scanString] at h
      · simp [hControl] at h
      · exact hQuote
      · exact hNoUnicode
      · exact hNoEscape
  | case11 c tail hQuote hNoUnicode hNoEscape hControl ih =>
      rw [scanString] at h
      · simp only [hControl, if_false, Option.map_eq_some_iff] at h
        obtain ⟨⟨text, left⟩, hScan, hEq⟩ := h
        simp only [consFst, Prod.mk.injEq] at hEq
        have := ih hScan
        simp only [List.length_cons, ← hEq.2]
        omega
      · exact hQuote
      · exact hNoUnicode
      · exact hNoEscape

theorem length_splitDigits (s : PyStr) :
    (splitDigits s).1.length + (splitDigits s).2.length = s.length := by
  rw [splitDigits, List.span_eq_takeWhile_dropWhile, ← List.length_append,
    List.takeWhile_append_dropWhile]

theorem length_splitSign_le (s : PyStr) : (splitSign s).2.length ≤ s.length := by
  unfold splitSign
  split <;> simp

theorem length_splitWhole (s : PyStr) :
    (splitWhole s).1.length + (splitWhole s).2.length = s.length := by
  unfold splitWhole
  split
  · simp [Nat.add_comm]
  · exact length_splitDigits _

theorem length_scanFraction_le (s : PyStr) : (scanFraction s).2.length ≤ s.length := by
  unfold scanFraction
  split
  · rename_i rest
    have := length_splitDigits rest
    split
    · simp
    · rename_i digits tail _ hEq
      simp only [hEq, List.length_cons] at this ⊢
      omega
  · simp

theorem length_scanExponent_le (s : PyStr) : (scanExponent s).2.length ≤ s.length := by
  unfold scanExponent
  split
  · rename_i c rest
    split_ifs
    · have hBody : (splitExponentSign rest).2.length ≤ rest.length := by
        unfold splitExponentSign
        split <;> simp
      rcases hSign : splitExponentSign rest with ⟨negative, body⟩
      have hDigits := length_splitDigits body
      rw [hSign] at hBody
      dsimp only at hBody ⊢
      split
      · simp
      · rename_i digits tail _ hEq
        simp only [hEq, List.length_cons] at hDigits ⊢
        omega
    · simp
  · simp

/-- A scanned number takes at least one digit from the text. -/
theorem length_scanNumber_lt {s rest : PyStr} {value : Json} (h : scanNumber s = .ok (value, rest)) :
    rest.length < s.length := by
  have hSign := length_splitSign_le s
  have hWhole := length_splitWhole (splitSign s).2
  have hFraction := length_scanFraction_le (splitWhole (splitSign s).2).2
  have hExponent := length_scanExponent_le (scanFraction (splitWhole (splitSign s).2).2).2
  simp only [scanNumber] at h
  split_ifs at h with hEmpty hPlain hShort
  all_goals
    have hPositive := List.length_pos_of_ne_nil hEmpty
    simp only [Except.ok.injEq, Prod.mk.injEq] at h
    rw [← h.2]
    omega

/-- A number is scanned without recursion, and so without fuel. -/
theorem scanNumber_ne_fuel (s : PyStr) : scanNumber s ≠ .error .fuel := by
  simp only [scanNumber]
  split_ifs <;> simp

theorem length_scanConstant_lt {s rest : PyStr} {value : Json}
    (h : scanConstant s = some (value, rest)) : rest.length < s.length := by
  rw [scanConstant, Option.map_eq_some_iff] at h
  obtain ⟨constant, hFind, hEq⟩ := h
  have hSpelling := List.find?_some hFind
  have hLength : constant.1.length ≤ s.length :=
    (List.isPrefixOf_iff_prefix.mp hSpelling).length_le
  have hPositive : 0 < constant.1.length := by
    have hMem := List.mem_of_find?_eq_some hFind
    have hAll : ∀ constant ∈ constants.map (·.1), 0 < constant.length := by decide
    exact hAll _ (List.mem_map_of_mem hMem)
  simp only [Prod.mk.injEq] at hEq
  rw [← hEq.2, List.length_drop]
  omega

/-- What a scan of `s` comes to: it stops further on in the text, or fails,
and it only runs out of fuel when it had less than `needed`. -/
def Scanned {α : Type} (fuel needed : Nat) (s : PyStr) : Except JsonError (α × PyStr) → Prop
  | .ok (_, rest) => rest.length < s.length
  | .error .fuel => fuel < needed
  | .error _ => True

theorem Scanned.error {α γ : Type} {fuel fuel' needed needed' : Nat} {s s' : PyStr} {e : JsonError}
    (h : Scanned (α := α) fuel needed s (.error e)) (hFuel : fuel < needed → fuel' < needed') :
    Scanned (α := γ) fuel' needed' s' (.error e) := by
  cases e <;> first | exact hFuel h | trivial

theorem Scanned.ok {α : Type} {fuel needed : Nat} {s rest : PyStr} {value : α}
    {x : Except JsonError (α × PyStr)} (h : Scanned fuel needed s x) (hx : x = .ok (value, rest)) :
    rest.length < s.length := by
  subst hx
  exact h

theorem scanned_scanNumber (fuel needed : Nat) (s : PyStr) : Scanned fuel needed s (scanNumber s) := by
  rcases h : scanNumber s with e | ⟨value, rest⟩
  · cases e with
    | fuel => exact (scanNumber_ne_fuel s h).elim
    | decode | recursion | digits => trivial
  · exact length_scanNumber_lt h

/-- Every scan stops further on in the text, and the fuel it needs grows with the
length of the text only. -/
theorem scanned (fuel : Nat) :
    (∀ depth s, Scanned fuel (2 * s.length + 1) s (scanValue fuel depth s)) ∧
    (∀ depth s, Scanned fuel (2 * s.length + 2) s (scanItems fuel depth s)) ∧
    (∀ depth s, Scanned fuel (2 * s.length + 2) s (scanMembers fuel depth s)) := by
  induction fuel with
  | zero => simp [scanValue, scanItems, scanMembers, Scanned]
  | succ fuel ih =>
      obtain ⟨ihValue, ihItems, ihMembers⟩ := ih
      refine ⟨fun depth s => ?_, fun depth s => ?_, fun depth s => ?_⟩
      · cases s with
        | nil => simp [scanValue, Scanned]
        | cons c tail =>
            have hBlank := length_skipBlanks_le tail
            have hMembers depth := ihMembers depth (skipBlanks tail)
            have hItems depth := ihItems depth (skipBlanks tail)
            unfold scanValue
            split_ifs
            · split
              · trivial
              · rename_i value rest hString
                have := length_scanString_le hString
                simp only [Scanned, List.length_cons]
                omega
            · cases depth with
              | zero => trivial
              | succ depth =>
                  dsimp only
                  split
                  · rename_i rest hEq
                    have := length_of_skipBlanks_eq hEq
                    simp only [Scanned, List.length_cons]
                    omega
                  · split
                    · rename_i e hEq
                      exact (hEq ▸ hMembers depth).error (by simp only [List.length_cons]; omega)
                    · rename_i members rest hEq
                      have hRest := (hMembers depth).ok hEq
                      simp only [Scanned, List.length_cons]
                      omega
            · cases depth with
              | zero => trivial
              | succ depth =>
                  dsimp only
                  split
                  · rename_i rest hEq
                    have := length_of_skipBlanks_eq hEq
                    simp only [Scanned, List.length_cons]
                    omega
                  · split
                    · rename_i e hEq
                      exact (hEq ▸ hItems depth).error (by simp only [List.length_cons]; omega)
                    · rename_i items rest hEq
                      have hRest := (hItems depth).ok hEq
                      simp only [Scanned, List.length_cons]
                      omega
            · split
              · rename_i result hScan
                obtain ⟨value, rest⟩ := result
                exact length_scanConstant_lt hScan
              · exact scanned_scanNumber _ _ _
      · have hValue := ihValue depth s
        rw [scanItems]
        split
        · rename_i e hEq
          exact (hEq ▸ hValue).error (by omega)
        · rename_i item rest hEq
          have hRest := hValue.ok hEq
          split
          · rename_i tail hClose
            have := length_of_skipBlanks_eq hClose
            simp only [Scanned]
            omega
          · rename_i tail hComma
            have hTail := length_of_skipBlanks_eq hComma
            have hBlank := length_skipBlanks_le tail
            have hNext := ihItems depth (skipBlanks tail)
            split
            · rename_i e hMore
              exact (hMore ▸ hNext).error (by omega)
            · rename_i items last hMore
              have hLast := hNext.ok hMore
              simp only [Scanned]
              omega
          · trivial
      · unfold scanMembers
        split
        · rename_i body
          split
          · trivial
          · rename_i key rest hString
            have hKey := length_scanString_le hString
            split
            · rename_i tail hColon
              have hTail := length_of_skipBlanks_eq hColon
              have hBlank := length_skipBlanks_le tail
              have hValue := ihValue depth (skipBlanks tail)
              split
              · rename_i e hEq
                exact (hEq ▸ hValue).error (by simp only [List.length_cons]; omega)
              · rename_i value left hEq
                have hLeft := hValue.ok hEq
                split
                · rename_i last hClose
                  have := length_of_skipBlanks_eq hClose
                  simp only [Scanned, List.length_cons]
                  omega
                · rename_i last hComma
                  have hLast := length_of_skipBlanks_eq hComma
                  have hBlankLast := length_skipBlanks_le last
                  have hNext := ihMembers depth (skipBlanks last)
                  split
                  · rename_i e hMore
                    exact (hMore ▸ hNext).error (by simp only [List.length_cons]; omega)
                  · rename_i members final hMore
                    have hFinal := hNext.ok hMore
                    simp only [Scanned, List.length_cons]
                    omega
                · trivial
            · trivial
        · trivial

/-- `loadsText` is total: running out of fuel is none of its outcomes, on any text. -/
theorem loadsText_ne_fuel (maxDepth : Nat) (s : PyStr) : loadsText maxDepth s ≠ .error .fuel := by
  have hScan := (scanned (2 * s.length + 1)).1 maxDepth (skipBlanks s)
  have hBlank := length_skipBlanks_le s
  unfold loadsText
  split
  · rename_i e hEq
    rw [hEq] at hScan
    rintro h
    simp only [Except.error.injEq] at h
    subst h
    have hShort : 2 * s.length + 1 < 2 * (skipBlanks s).length + 1 := hScan
    omega
  · split_ifs <;> simp

theorem loads_ne_fuel (maxDepth : Nat) (data : Bytes) :
    loads maxDepth data ≠ .error (.json .fuel) := by
  unfold loads
  split
  · simp
  · rename_i s _
    have hText := loadsText_ne_fuel maxDepth s
    split
    · rename_i e hEq
      rintro h
      simp only [Except.error.injEq, LoadsError.json.injEq] at h
      exact hText (h ▸ hEq)
    · simp

end SoftwareHub.Python.Json
