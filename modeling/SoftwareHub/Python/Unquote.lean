import SoftwareHub.Python.Json
import SoftwareHub.Python.Sha256
import SoftwareHub.Python.Unicode

/-! Reading back what was written in hexadecimal digits: percent-encoded text, and
the numbers of identifiers. -/
namespace SoftwareHub.Python

/-- `urllib.parse.unquote_to_bytes`; an incomplete escape stands for itself. -/
def unquoteToBytes : PyStr → Bytes
  | [] => []
  | c :: rest =>
      if c = 0x25 then
        match rest with
        | high :: low :: tail =>
            match Json.hexValue? high, Json.hexValue? low with
            | some h, some l => UInt8.ofNat (16 * h + l) :: unquoteToBytes tail
            | _, _ => utf8Char c ++ unquoteToBytes (high :: low :: tail)
        | tail => utf8Char c ++ unquoteToBytes tail
      else utf8Char c ++ unquoteToBytes rest

/-- `urllib.parse.unquote`, where the bytes are UTF-8. -/
def unquote (s : PyStr) : Option PyStr := (decodeUtf8 (unquoteToBytes s)).filter fun text => text.all isScalar

theorem unquoteToBytes_cons {c : Nat} (h : c ≠ 0x25) (rest : PyStr) :
    unquoteToBytes (c :: rest) = utf8Char c ++ unquoteToBytes rest := by
  rw [unquoteToBytes.eq_def]
  exact if_neg h

theorem hexValue?_upperHexDigit {n : Nat} (h : n < 16) : Json.hexValue? (upperHexDigit n) = some n := by
  have hAll : ∀ n < 16, Json.hexValue? (upperHexDigit n) = some n := by decide
  exact hAll n h

/-- An escape is read back as its byte. -/
theorem unquoteToBytes_escape (b : UInt8) (rest : PyStr) :
    unquoteToBytes ([0x25, upperHexDigit (b.toNat / 16), upperHexDigit (b.toNat % 16)] ++ rest) =
      b :: unquoteToBytes rest := by
  have hByte : b.toNat < 256 := b.toNat_lt
  have hHigh := @hexValue?_upperHexDigit (b.toNat / 16) (by omega)
  have hLow := @hexValue?_upperHexDigit (b.toNat % 16) (by omega)
  have hValue : UInt8.ofNat (16 * (b.toNat / 16) + b.toNat % 16) = b := by
    rw [Nat.div_add_mod]
    exact UInt8.ofNat_toNat
  change unquoteToBytes (0x25 :: upperHexDigit (b.toNat / 16) :: upperHexDigit (b.toNat % 16) :: rest) = _
  rw [unquoteToBytes, if_pos rfl]
  simp only [hHigh, hLow, hValue]

/-- A character that is not escaped is an ASCII one and no percent sign. -/
theorem lt_of_isAsciiAlnum {c : Nat} (h : isAsciiAlnum c = true) : c < 0x80 ∧ c ≠ 0x25 := by
  simp only [isAsciiAlnum, isDigit, isAsciiLetter, Bool.or_eq_true, Bool.and_eq_true, decide_eq_true_eq] at h
  omega

/-- A quoted byte is read back, whether it was escaped or not. -/
theorem unquoteToBytes_quoteByte {safe : PyStr} (hSafe : ∀ c ∈ safe, c < 0x80 ∧ c ≠ 0x25) (b : UInt8) (rest : PyStr) :
    unquoteToBytes (quoteByte safe b ++ rest) = b :: unquoteToBytes rest := by
  rw [quoteByte]
  split_ifs with hPlain
  · have hRange : b.toNat < 0x80 ∧ b.toNat ≠ 0x25 := by
      rcases hPlain with hAlnum | hMark | hChosen
      · exact lt_of_isAsciiAlnum hAlnum
      · have hMarks : ∀ c ∈ py "_.-~", c < 0x80 ∧ c ≠ 0x25 := by decide
        exact hMarks _ hMark
      · exact hSafe _ hChosen
    rw [List.singleton_append, unquoteToBytes_cons hRange.2, utf8Char, if_pos hRange.1, UInt8.ofNat_toNat,
      List.singleton_append]
  · exact unquoteToBytes_escape b rest

theorem unquoteToBytes_flatMap_quoteByte {safe : PyStr} (hSafe : ∀ c ∈ safe, c < 0x80 ∧ c ≠ 0x25) (data : Bytes) :
    unquoteToBytes (data.flatMap (quoteByte safe)) = data := by
  induction data with
  | nil => rfl
  | cons b data ih => rw [List.flatMap_cons, unquoteToBytes_quoteByte hSafe, ih]

/-- Quoted text is read back as it was, when the safe characters are ASCII ones
other than `%`. -/
theorem unquote_quote {safe s quoted : PyStr} (hSafe : ∀ c ∈ safe, c < 0x80 ∧ c ≠ 0x25) (h : quote safe s = .ok quoted) :
    unquote quoted = some s := by
  rw [quote] at h
  cases hData : encodeUtf8 s with
  | none =>
      rw [hData] at h
      cases h
  | some data =>
      rw [hData] at h
      cases h
      rw [unquote, unquoteToBytes_flatMap_quoteByte hSafe, decodeUtf8_encodeUtf8 hData]
      have hScalar : s.all isScalar = true := by
        rw [encodeUtf8] at hData
        split_ifs at hData with hAll
        exact hAll
      exact Option.filter_some_pos hScalar

/-- What `quote` leaves in a text: letters, digits, marks and escapes. -/
theorem not_mem_quote {safe s quoted : PyStr} {c : Nat} (h : quote safe s = .ok quoted) (hChar : c ∉ safe)
    (hOther : isAsciiAlnum c = false ∧ c ∉ py "_.-~" ∧ c ≠ 0x25) : c ∉ quoted := by
  have hDigits : ∀ n < 16, isAsciiAlnum (upperHexDigit n) = true := by decide
  rw [quote] at h
  cases hData : encodeUtf8 s with
  | none =>
      rw [hData] at h
      cases h
  | some data =>
      rw [hData] at h
      cases h
      intro hMem
      obtain ⟨b, -, hMem⟩ := List.mem_flatMap.mp hMem
      have hByte : b.toNat < 256 := b.toNat_lt
      rw [quoteByte] at hMem
      split_ifs at hMem with hPlain
      · obtain rfl := List.mem_singleton.mp hMem
        rcases hPlain with hAlnum | hMark | hChosen
        · exact Bool.false_ne_true (hOther.1.symm.trans hAlnum)
        · exact hOther.2.1 hMark
        · exact hChar hChosen
      · simp only [List.mem_cons, List.not_mem_nil, or_false] at hMem
        rcases hMem with hPercent | hHigh | hLow
        · exact hOther.2.2 hPercent
        · exact Bool.false_ne_true (hOther.1.symm.trans (hHigh ▸ hDigits _ (by omega)))
        · exact Bool.false_ne_true (hOther.1.symm.trans (hLow ▸ hDigits _ (by omega)))

/-- `int(text, 16)` of a text of hexadecimal digits only. -/
def hexNumber? (text : PyStr) : Option Nat := (text.mapM Json.hexValue?).map (List.foldl (fun value digit => 16 * value + digit) 0)

/-- A number written in a fixed width is read back modulo the values of that width. -/
theorem hexNumber?_hexDigits (width n : Nat) : hexNumber? (Sha256.hexDigits width n) = some (n % 16 ^ width) := by
  have hFold : ∃ digits, (Sha256.hexDigits width n).mapM Json.hexValue? = some digits ∧
      ∀ value, digits.foldl (fun value digit => 16 * value + digit) value = value * 16 ^ width + n % 16 ^ width := by
    induction width with
    | zero => exact ⟨[], rfl, fun value => by simp [Nat.mod_one]⟩
    | succ width ih =>
        obtain ⟨digits, hDigits, hValue⟩ := ih
        have hDigit : ∀ d < 16, Json.hexValue? (if d < 10 then 0x30 + d else 0x57 + d) = some d := by decide
        refine ⟨n / 16 ^ width % 16 :: digits, ?_, ?_⟩
        · rw [Sha256.hexDigits, List.mapM_cons, hDigit _ (Nat.mod_lt _ (by decide)), hDigits]
          rfl
        · intro value
          rw [List.foldl_cons, hValue, Nat.pow_succ, Nat.mod_mul]
          ring
  obtain ⟨digits, hDigits, hValue⟩ := hFold
  rw [hexNumber?, hDigits, Option.map_some, hValue, Nat.zero_mul, Nat.zero_add]

end SoftwareHub.Python
