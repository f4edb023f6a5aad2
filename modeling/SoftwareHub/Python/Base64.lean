import SoftwareHub.Python.Text

/-! URL-safe Base64 as the session and CSRF tokens use it: encoding without padding,
strict decoding after the padding has been put back, and the round trip between the
two. -/
namespace SoftwareHub.Python.Base64

/-- Characters of the URL-safe alphabet: letters, digits, `-` and `_`. -/
def isUrlSafe (c : Nat) : Bool :=
  isDigit c || (0x41 ≤ c && c ≤ 0x5A) || (0x61 ≤ c && c ≤ 0x7A) || c == 0x2D || c == 0x5F

/-- The character that `urlsafe_b64encode` writes for a six-bit value. -/
def sextetChar (n : Nat) : Nat :=
  if n < 26 then 0x41 + n
  else if n < 52 then 0x61 + (n - 26)
  else if n < 62 then 0x30 + (n - 52)
  else if n = 62 then 0x2D
  else 0x5F

/-- The value of a character. Translating `-` and `_` leaves `+` and `/` valid. -/
def sextet? (c : Nat) : Option Nat :=
  if 0x41 ≤ c ∧ c ≤ 0x5A then some (c - 0x41)
  else if 0x61 ≤ c ∧ c ≤ 0x7A then some (c - 0x61 + 26)
  else if 0x30 ≤ c ∧ c ≤ 0x39 then some (c - 0x30 + 52)
  else if c = 0x2D ∨ c = 0x2B then some 62
  else if c = 0x5F ∨ c = 0x2F then some 63
  else none

/-- `urlsafe_b64encode(raw).rstrip(b"=")`, three bytes at a time. A shorter last
group has two or three characters. -/
def encode : Bytes → PyStr
  | [] => []
  | [a] => [sextetChar (a.toNat / 4), sextetChar (a.toNat % 4 * 16)]
  | [a, b] => [sextetChar (a.toNat / 4), sextetChar (a.toNat % 4 * 16 + b.toNat / 16),
      sextetChar (b.toNat % 16 * 4)]
  | a :: b :: c :: rest => sextetChar (a.toNat / 4) :: sextetChar (a.toNat % 4 * 16 + b.toNat / 16) ::
      sextetChar (b.toNat % 16 * 4 + c.toNat / 64) :: sextetChar (c.toNat % 64) :: encode rest

/-- `b64decode(…, altchars=b"-_", validate=True)`. Padding may only end the
text; the bits it leaves over are not looked at. -/
def decodePadded : PyStr → Option Bytes
  | [] => some []
  | c₀ :: c₁ :: c₂ :: c₃ :: rest => do
      let x ← sextet? c₀
      let y ← sextet? c₁
      if c₂ = 0x3D ∧ c₃ = 0x3D ∧ rest = [] then
        return [UInt8.ofNat (x * 4 + y / 16)]
      let z ← sextet? c₂
      if c₃ = 0x3D ∧ rest = [] then
        return [UInt8.ofNat (x * 4 + y / 16), UInt8.ofNat (y % 16 * 16 + z / 4)]
      let w ← sextet? c₃
      let data ← decodePadded rest
      return UInt8.ofNat (x * 4 + y / 16) :: UInt8.ofNat (y % 16 * 16 + z / 4) ::
        UInt8.ofNat (z % 4 * 64 + w) :: data
  | _ => none

/-- The text gets the padding its length asks for and is decoded. One character too
many can not be completed and fails. -/
def decode (text : PyStr) : Option Bytes :=
  decodePadded (text ++ List.replicate ((4 - text.length % 4) % 4) 0x3D)

/-- The alphabet is read back: each of the sixty-four characters has the value it
was written for. -/
theorem sextet?_sextetChar {n : Nat} (h : n < 64) : sextet? (sextetChar n) = some n := by
  revert n
  decide

theorem isUrlSafe_sextetChar {n : Nat} (h : n < 64) : isUrlSafe (sextetChar n) = true := by
  revert n
  decide

/-- The padding character stands for no value, so that a full group is never taken
for the last one. -/
theorem sextetChar_ne_pad {n : Nat} (h : n < 64) : sextetChar n ≠ 0x3D := by
  revert n
  decide

/-- Four characters for three bytes, rounded up, which is what lets the decoder
restore the padding. -/
theorem length_encode : (data : Bytes) → (encode data).length = (data.length * 4 + 2) / 3
  | [] => rfl
  | [_] => by simp [encode]
  | [_, _] => by simp [encode]
  | _ :: _ :: _ :: rest => by
      simp only [encode, List.length_cons, length_encode rest]
      omega

/-- An encoded text can stand in a cookie or a URL: it consists of the alphabet and
has no padding. -/
theorem isUrlSafe_of_mem_encode : (data : Bytes) → ∀ c ∈ encode data, isUrlSafe c = true
  | [] => by simp [encode]
  | [a] => by
      have ha := a.toNat_lt
      simp only [encode, List.forall_mem_cons]
      exact ⟨isUrlSafe_sextetChar (by omega), isUrlSafe_sextetChar (by omega), by simp⟩
  | [a, b] => by
      have ha := a.toNat_lt
      have hb := b.toNat_lt
      simp only [encode, List.forall_mem_cons]
      exact ⟨isUrlSafe_sextetChar (by omega), isUrlSafe_sextetChar (by omega),
        isUrlSafe_sextetChar (by omega), by simp⟩
  | a :: b :: c :: rest => by
      have ha := a.toNat_lt
      have hb := b.toNat_lt
      have hc := c.toNat_lt
      simp only [encode, List.forall_mem_cons]
      exact ⟨isUrlSafe_sextetChar (by omega), isUrlSafe_sextetChar (by omega),
        isUrlSafe_sextetChar (by omega), isUrlSafe_sextetChar (by omega), isUrlSafe_of_mem_encode rest⟩

/-- Three bytes come back from the four sextets over which the encoder has spread
their bits. -/
theorem bytes_of_sextets (a b c : UInt8) :
    UInt8.ofNat (a.toNat / 4 * 4 + (a.toNat % 4 * 16 + b.toNat / 16) / 16) = a ∧
      UInt8.ofNat ((a.toNat % 4 * 16 + b.toNat / 16) % 16 * 16 + (b.toNat % 16 * 4 + c.toNat / 64) / 4) = b ∧
      UInt8.ofNat ((b.toNat % 16 * 4 + c.toNat / 64) % 4 * 64 + c.toNat % 64) = c := by
  have ha := a.toNat_lt
  have hb := b.toNat_lt
  have hc := c.toNat_lt
  have hByte {n : Nat} {byte : UInt8} (h : n = byte.toNat) : UInt8.ofNat n = byte := by
    rw [h, UInt8.ofNat_toNat]
  exact ⟨hByte (by omega), hByte (by omega), hByte (by omega)⟩

theorem decodePadded_cons {x y z w : Nat} (hx : x < 64) (hy : y < 64) (hz : z < 64) (hw : w < 64)
    {rest : PyStr} {data : Bytes} (h : decodePadded rest = some data) :
    decodePadded (sextetChar x :: sextetChar y :: sextetChar z :: sextetChar w :: rest) =
      some (UInt8.ofNat (x * 4 + y / 16) :: UInt8.ofNat (y % 16 * 16 + z / 4) ::
        UInt8.ofNat (z % 4 * 64 + w) :: data) := by
  simp [decodePadded, sextet?_sextetChar hx, sextet?_sextetChar hy, sextet?_sextetChar hz,
    sextet?_sextetChar hw, sextetChar_ne_pad hz, sextetChar_ne_pad hw, h]

/-- A last group of two bytes comes back from three characters and one padding
character. -/
theorem decodePadded_triple {x y z : Nat} (hx : x < 64) (hy : y < 64) (hz : z < 64) :
    decodePadded [sextetChar x, sextetChar y, sextetChar z, 0x3D] =
      some [UInt8.ofNat (x * 4 + y / 16), UInt8.ofNat (y % 16 * 16 + z / 4)] := by
  simp [decodePadded, sextet?_sextetChar hx, sextet?_sextetChar hy, sextet?_sextetChar hz, sextetChar_ne_pad hz]

/-- A last group of one byte comes back from two characters and two padding
characters. -/
theorem decodePadded_pair {x y : Nat} (hx : x < 64) (hy : y < 64) :
    decodePadded [sextetChar x, sextetChar y, 0x3D, 0x3D] = some [UInt8.ofNat (x * 4 + y / 16)] := by
  simp [decodePadded, sextet?_sextetChar hx, sextet?_sextetChar hy]

/-- Decoding undoes encoding, for data of any length. -/
theorem decode_encode (data : Bytes) : decode (encode data) = some data := by
  unfold decode
  induction data using encode.induct with
  | case1 => rfl
  | case2 a =>
      have ha := a.toNat_lt
      obtain ⟨hByte, -⟩ := bytes_of_sextets a 0 0
      exact (decodePadded_pair (by omega) (by omega)).trans (by simpa using hByte)
  | case3 a b =>
      have ha := a.toNat_lt
      have hb := b.toNat_lt
      obtain ⟨hFirst, hSecond, -⟩ := bytes_of_sextets a b 0
      have hTriple := decodePadded_triple (by omega : a.toNat / 4 < 64)
        (by omega : a.toNat % 4 * 16 + b.toNat / 16 < 64) (by omega : b.toNat % 16 * 4 < 64)
      have hZero : (0 : UInt8).toNat / 64 = 0 := rfl
      rw [hZero, Nat.add_zero] at hSecond
      rw [hFirst, hSecond] at hTriple
      exact hTriple
  | case4 a b c rest ih =>
      have ha := a.toNat_lt
      have hb := b.toNat_lt
      have hc := c.toNat_lt
      obtain ⟨hFirst, hSecond, hThird⟩ := bytes_of_sextets a b c
      have hLength : (encode (a :: b :: c :: rest)).length % 4 = (encode rest).length % 4 := by
        simp only [encode, List.length_cons]
        omega
      rw [hLength, encode, List.cons_append, List.cons_append, List.cons_append, List.cons_append,
        decodePadded_cons (by omega) (by omega) (by omega) (by omega) ih, hFirst, hSecond, hThird]

/-- Every character of the alphabet has a value, and none is the padding. -/
theorem exists_sextet {c : Nat} (h : isUrlSafe c = true) : (∃ n, sextet? c = some n) ∧ c ≠ 0x3D := by
  have hSmall : c < 0x80 := by
    simp only [isUrlSafe, isDigit, Bool.or_eq_true, Bool.and_eq_true, decide_eq_true_eq, beq_iff_eq] at h
    omega
  have hTable : ∀ c < 0x80, isUrlSafe c = true → (sextet? c).isSome = true ∧ c ≠ 0x3D := by decide
  exact ⟨Option.isSome_iff_exists.mp (hTable c hSmall h).1, (hTable c hSmall h).2⟩

/-- A text that lacks one character of a group decodes, whatever its characters are:
strictness does not reach the bits left over. -/
theorem exists_decodePadded (groups : Nat) (text : PyStr) (hLength : text.length = 4 * groups + 3)
    (h : ∀ c ∈ text, isUrlSafe c = true) :
    ∃ data, decodePadded (text ++ [0x3D]) = some data ∧ data.length = 3 * groups + 2 := by
  induction groups generalizing text with
  | zero =>
      match text, hLength with
      | [a, b, c], _ =>
          obtain ⟨x, hx⟩ := (exists_sextet (h a (by simp))).1
          obtain ⟨y, hy⟩ := (exists_sextet (h b (by simp))).1
          obtain ⟨⟨z, hz⟩, hPad⟩ := exists_sextet (h c (by simp))
          exact ⟨[UInt8.ofNat (x * 4 + y / 16), UInt8.ofNat (y % 16 * 16 + z / 4)],
            by simp [decodePadded, hx, hy, hz, hPad], rfl⟩
  | succ groups ih =>
      match text, hLength with
      | a :: b :: c :: d :: rest, hLength =>
          have hRestLength : rest.length = 4 * groups + 3 := by
            simp only [List.length_cons] at hLength
            omega
          obtain ⟨data, hData, hDataLength⟩ := ih rest hRestLength fun e he => h e (by simp [he])
          obtain ⟨x, hx⟩ := (exists_sextet (h a (by simp))).1
          obtain ⟨y, hy⟩ := (exists_sextet (h b (by simp))).1
          obtain ⟨⟨z, hz⟩, hPad⟩ := exists_sextet (h c (by simp))
          obtain ⟨⟨w, hw⟩, hPad'⟩ := exists_sextet (h d (by simp))
          refine ⟨UInt8.ofNat (x * 4 + y / 16) :: UInt8.ofNat (y % 16 * 16 + z / 4) ::
            UInt8.ofNat (z % 4 * 64 + w) :: data, by simp [decodePadded, hx, hy, hz, hw, hPad, hPad', hData], ?_⟩
          simp only [List.length_cons, hDataLength]
          omega

end SoftwareHub.Python.Base64
