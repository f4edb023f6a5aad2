import SoftwareHub.Python.Text

/-! Text encodings: UTF-8 with the error handlers in use, the encoding
detection of `json.loads`, and the decoding of file names. -/
namespace SoftwareHub.Python

/-- The code points that UTF-16 reserves. A Python string may hold one alone, UTF-8
may not. -/
def isSurrogate (c : Nat) : Bool := 0xD800 ≤ c && c ≤ 0xDFFF

/-- The code points that a text without lone surrogates consists of, and that UTF-8
can encode. -/
def isScalar (c : Nat) : Bool := c < 0x110000 && !isSurrogate c

/-- The UTF-8 form of one code point, in one to four bytes. -/
def utf8Char (c : Nat) : Bytes :=
  if c < 0x80 then [UInt8.ofNat c]
  else if c < 0x800 then [UInt8.ofNat (0xC0 + c / 0x40), UInt8.ofNat (0x80 + c % 0x40)]
  else if c < 0x10000 then
    [UInt8.ofNat (0xE0 + c / 0x1000), UInt8.ofNat (0x80 + c / 0x40 % 0x40),
      UInt8.ofNat (0x80 + c % 0x40)]
  else
    [UInt8.ofNat (0xF0 + c / 0x40000), UInt8.ofNat (0x80 + c / 0x1000 % 0x40),
      UInt8.ofNat (0x80 + c / 0x40 % 0x40), UInt8.ofNat (0x80 + c % 0x40)]

/-- `text.encode("utf-8")`; `none` is the `UnicodeEncodeError` of a surrogate. -/
def encodeUtf8 (s : PyStr) : Option Bytes :=
  if s.all isScalar then some (s.flatMap utf8Char) else none

/-- A continuation byte of a UTF-8 sequence. -/
def isTail (b : UInt8) : Bool := 0x80 ≤ b.toNat && b.toNat < 0xC0

/-- Split off the first code point of a UTF-8 text. Overlong forms are
refused, surrogates only pass with the `surrogatepass` handler. -/
def utf8Next (surrogatepass : Bool) : Bytes → Option (Nat × Bytes)
  | [] => none
  | b₀ :: rest =>
      let n := b₀.toNat
      if n < 0x80 then some (n, rest)
      else if n < 0xC2 then none
      else if n < 0xE0 then
        match rest with
        | b₁ :: rest => if isTail b₁ then some ((n - 0xC0) * 0x40 + (b₁.toNat - 0x80), rest) else none
        | [] => none
      else if n < 0xF0 then
        match rest with
        | b₁ :: b₂ :: rest =>
            let c := (n - 0xE0) * 0x1000 + (b₁.toNat - 0x80) * 0x40 + (b₂.toNat - 0x80)
            if isTail b₁ && isTail b₂ && 0x800 ≤ c && (surrogatepass || !isSurrogate c) then
              some (c, rest)
            else none
        | _ => none
      else if n < 0xF5 then
        match rest with
        | b₁ :: b₂ :: b₃ :: rest =>
            let c := (n - 0xF0) * 0x40000 + (b₁.toNat - 0x80) * 0x1000 +
              (b₂.toNat - 0x80) * 0x40 + (b₃.toNat - 0x80)
            if isTail b₁ && isTail b₂ && isTail b₃ && 0x10000 ≤ c && c < 0x110000 then
              some (c, rest)
            else none
        | _ => none
      else none

/-- `data.decode("utf-8", "surrogatepass")`. The first argument bounds the
number of code points; the length of the data always suffices. -/
def decodeUtf8Within : Nat → Bytes → Option PyStr
  | _, [] => some []
  | 0, _ :: _ => none
  | fuel + 1, b :: rest => match utf8Next true (b :: rest) with
    | none => none
    | some (c, tail) => (decodeUtf8Within fuel tail).map (c :: ·)

/-- `data.decode("utf-8", "surrogatepass")` of the whole data. -/
def decodeUtf8 (data : Bytes) : Option PyStr := decodeUtf8Within data.length data

/-- `data.decode("ascii")`, where `none` is the `UnicodeDecodeError` of a byte from
0x80 on. -/
def decodeAscii (data : Bytes) : Option PyStr :=
  if data.all fun b => b.toNat < 0x80 then some (data.map UInt8.toNat) else none

/-- Join the surrogate pairs of UTF-16 into code points. A lone surrogate stays as
it is. -/
def joinUnits : List Nat → PyStr
  | [] => []
  | [unit] => [unit]
  | high :: low :: rest =>
      if 0xD800 ≤ high && high < 0xDC00 && 0xDC00 ≤ low && low < 0xE000 then
        (0x10000 + (high - 0xD800) * 0x400 + (low - 0xDC00)) :: joinUnits rest
      else high :: joinUnits (low :: rest)

/-- The sixteen-bit units of UTF-16 data. Half a unit at the end is an error. -/
def units16 (bigEndian : Bool) : Bytes → Option (List Nat)
  | [] => some []
  | [_] => none
  | a :: b :: rest => (units16 bigEndian rest).map fun units =>
      (if bigEndian then a.toNat * 0x100 + b.toNat else b.toNat * 0x100 + a.toNat) :: units

/-- The thirty-two-bit units of UTF-32 data. A truncated unit, or one above the code
space, is an error. -/
def units32 (bigEndian : Bool) : Bytes → Option PyStr
  | [] => some []
  | a :: b :: c :: d :: rest =>
      let (h₁, h₀, l₁, l₀) := if bigEndian then (a, b, c, d) else (d, c, b, a)
      let value := h₁.toNat * 0x1000000 + h₀.toNat * 0x10000 + l₁.toNat * 0x100 + l₀.toNat
      if value < 0x110000 then (units32 bigEndian rest).map (value :: ·) else none
  | _ => none

/-- UTF-16 of a known byte order, with lone surrogates let through. -/
def decodeUtf16 (bigEndian : Bool) (data : Bytes) : Option PyStr :=
  (units16 bigEndian data).map joinUnits

/-- `data.decode(json.detect_encoding(data), "surrogatepass")`: byte order
marks first, then the pattern of zero bytes among the first four. -/
def decodeDetected (data : Bytes) : Option PyStr :=
  match data with
  | 0x00 :: 0x00 :: 0xFE :: 0xFF :: rest => units32 true rest
  | 0xFF :: 0xFE :: 0x00 :: 0x00 :: rest => units32 false rest
  | 0xFE :: 0xFF :: rest => decodeUtf16 true rest
  | 0xFF :: 0xFE :: rest => decodeUtf16 false rest
  | 0xEF :: 0xBB :: 0xBF :: rest => decodeUtf8 rest
  | a :: b :: c :: d :: _ =>
      if a = 0 then if b = 0 then units32 true data else decodeUtf16 true data
      else if b = 0 then if c = 0 ∧ d = 0 then units32 false data else decodeUtf16 false data
      else decodeUtf8 data
  | [a, b] =>
      if a = 0 then decodeUtf16 true data
      else if b = 0 then decodeUtf16 false data
      else decodeUtf8 data
  | _ => decodeUtf8 data

/-- `os.fsencode`: escaped bytes come back, and other surrogates are a
`UnicodeEncodeError`. -/
def fsencode (s : PyStr) : Option Bytes :=
  if s.all fun c => isScalar c || (0xDC80 ≤ c && c ≤ 0xDCFF) then
    some (s.flatMap fun c => if isScalar c then utf8Char c else [UInt8.ofNat (c - 0xDC00)])
  else none

/-- `os.fsdecode`: bytes that are no UTF-8 become surrogate escapes, so that every
file name is a text. The first argument bounds the number of code points. -/
def fsdecodeWithin : Nat → Bytes → PyStr
  | _, [] => []
  | 0, _ :: _ => []
  | fuel + 1, b :: rest => match utf8Next false (b :: rest) with
    | none => (0xDC00 + b.toNat) :: fsdecodeWithin fuel rest
    | some (c, tail) => c :: fsdecodeWithin fuel tail

/-- `os.fsdecode` of the whole data. -/
def fsdecode (data : Bytes) : PyStr := fsdecodeWithin data.length data

/-- The name under which a directory listing shows what this text addresses. -/
def fsname (s : PyStr) : Option PyStr := (fsencode s).map fsdecode

/-- ASCII characters are scalar values, which settles the texts the services write
themselves. -/
theorem isScalar_of_lt {c : Nat} (h : c < 0x80) : isScalar c = true := by
  have hAll : ∀ c < 0x80, isScalar c = true := by decide
  exact hAll c h

theorem utf8Char_ne_nil (c : Nat) : utf8Char c ≠ [] := by
  unfold utf8Char
  split_ifs <;> simp

/-- Decoding undoes encoding, one code point at a time, with either error handler. -/
theorem utf8Next_utf8Char (surrogatepass : Bool) {c : Nat} (h : isScalar c = true) (rest : Bytes) :
    utf8Next surrogatepass (utf8Char c ++ rest) = some (c, rest) := by
  simp only [isScalar, isSurrogate, Bool.and_eq_true, decide_eq_true_eq, Bool.not_eq_true',
    Bool.and_eq_false_iff, decide_eq_false_iff_not] at h
  obtain ⟨hMax, hScalar⟩ := h
  unfold utf8Char
  by_cases h₁ : c < 0x80
  · simp [h₁, utf8Next, Nat.mod_eq_of_lt (show c < 256 by omega)]
  by_cases h₂ : c < 0x800
  · have hLead : (0xC0 + c / 0x40) % 256 = 0xC0 + c / 0x40 := Nat.mod_eq_of_lt (by omega)
    have hTail : (0x80 + c % 0x40) % 256 = 0x80 + c % 0x40 := Nat.mod_eq_of_lt (by omega)
    have hValue : (0xC0 + c / 0x40 - 0xC0) * 0x40 + (0x80 + c % 0x40 - 0x80) = c := by omega
    simp only [h₁, h₂, if_false, if_true, List.cons_append, List.nil_append, utf8Next, isTail,
      UInt8.toNat_ofNat', Nat.reducePow, hLead, hTail, hValue]
    rw [if_neg (by omega), if_neg (by omega), if_pos (by omega), if_pos (by simp; omega)]
  by_cases h₃ : c < 0x10000
  · have hLead : (0xE0 + c / 0x1000) % 256 = 0xE0 + c / 0x1000 := Nat.mod_eq_of_lt (by omega)
    have hMid : (0x80 + c / 0x40 % 0x40) % 256 = 0x80 + c / 0x40 % 0x40 :=
      Nat.mod_eq_of_lt (by omega)
    have hTail : (0x80 + c % 0x40) % 256 = 0x80 + c % 0x40 := Nat.mod_eq_of_lt (by omega)
    have hValue : (0xE0 + c / 0x1000 - 0xE0) * 0x1000 + (0x80 + c / 0x40 % 0x40 - 0x80) * 0x40 +
        (0x80 + c % 0x40 - 0x80) = c := by omega
    simp only [h₁, h₂, h₃, if_false, if_true, List.cons_append, List.nil_append, utf8Next, isTail,
      UInt8.toNat_ofNat', Nat.reducePow, hLead, hMid, hTail, hValue]
    rw [if_neg (by omega), if_neg (by omega), if_neg (by omega), if_pos (by omega), if_pos]
    simp [isSurrogate]
    omega
  · have hLead : (0xF0 + c / 0x40000) % 256 = 0xF0 + c / 0x40000 := Nat.mod_eq_of_lt (by omega)
    have hHigh : (0x80 + c / 0x1000 % 0x40) % 256 = 0x80 + c / 0x1000 % 0x40 :=
      Nat.mod_eq_of_lt (by omega)
    have hMid : (0x80 + c / 0x40 % 0x40) % 256 = 0x80 + c / 0x40 % 0x40 :=
      Nat.mod_eq_of_lt (by omega)
    have hTail : (0x80 + c % 0x40) % 256 = 0x80 + c % 0x40 := Nat.mod_eq_of_lt (by omega)
    have hValue : (0xF0 + c / 0x40000 - 0xF0) * 0x40000 + (0x80 + c / 0x1000 % 0x40 - 0x80) * 0x1000 +
        (0x80 + c / 0x40 % 0x40 - 0x80) * 0x40 + (0x80 + c % 0x40 - 0x80) = c := by omega
    simp only [h₁, h₂, h₃, if_false, List.cons_append, List.nil_append, utf8Next, isTail,
      UInt8.toNat_ofNat', Nat.reducePow, hLead, hHigh, hMid, hTail, hValue]
    rw [if_neg (by omega), if_neg (by omega), if_neg (by omega), if_neg (by omega),
      if_pos (by omega), if_pos]
    simp
    omega

/-- The encoded form of a text is decoded to it once the bound reaches the number of
its code points. -/
theorem decodeUtf8Within_flatMap {s : PyStr} (h : s.all isScalar = true) {fuel : Nat}
    (hFuel : s.length ≤ fuel) : decodeUtf8Within fuel (s.flatMap utf8Char) = some s := by
  induction s generalizing fuel with
  | nil => cases fuel <;> rfl
  | cons c s ih =>
      simp only [List.all_cons, Bool.and_eq_true] at h
      obtain ⟨fuel, rfl⟩ : ∃ n, fuel = n + 1 := ⟨fuel - 1, by simp at hFuel; omega⟩
      rw [List.flatMap_cons]
      obtain ⟨b, rest, hBytes⟩ := List.exists_cons_of_ne_nil (utf8Char_ne_nil c)
      have hNext := utf8Next_utf8Char true h.1 (s.flatMap utf8Char)
      rw [hBytes, List.cons_append] at hNext ⊢
      rw [decodeUtf8Within, hNext]
      simp [ih h.2 (by simpa using hFuel)]

theorem length_le_flatMap_utf8Char (s : PyStr) : s.length ≤ (s.flatMap utf8Char).length := by
  induction s with
  | nil => simp
  | cons c s ih =>
      have := List.length_pos_of_ne_nil (utf8Char_ne_nil c)
      simp only [List.flatMap_cons, List.length_append, List.length_cons]
      omega

/-- The UTF-8 round trip: what has been encoded is decoded to the same text. -/
theorem decodeUtf8_encodeUtf8 {s : PyStr} {data : Bytes} (h : encodeUtf8 s = some data) :
    decodeUtf8 data = some s := by
  unfold encodeUtf8 at h
  split at h
  · rename_i hScalar
    simp only [Option.some.injEq] at h
    subst h
    exact decodeUtf8Within_flatMap hScalar (length_le_flatMap_utf8Char s)
  · cases h

/-- A file name in UTF-8 is decoded without escapes. -/
theorem fsdecodeWithin_flatMap {s : PyStr} (h : s.all isScalar = true) {fuel : Nat}
    (hFuel : s.length ≤ fuel) : fsdecodeWithin fuel (s.flatMap utf8Char) = s := by
  induction s generalizing fuel with
  | nil => cases fuel <;> rfl
  | cons c s ih =>
      simp only [List.all_cons, Bool.and_eq_true] at h
      obtain ⟨fuel, rfl⟩ : ∃ n, fuel = n + 1 := ⟨fuel - 1, by simp at hFuel; omega⟩
      rw [List.flatMap_cons]
      obtain ⟨b, rest, hBytes⟩ := List.exists_cons_of_ne_nil (utf8Char_ne_nil c)
      have hNext := utf8Next_utf8Char false h.1 (s.flatMap utf8Char)
      rw [hBytes, List.cons_append] at hNext ⊢
      rw [fsdecodeWithin, hNext]
      simp [ih h.2 (by simpa using hFuel)]

/-- A text without surrogates names the file that a directory listing shows under
this text. -/
theorem fsname_of_scalar {s : PyStr} (h : s.all isScalar = true) : fsname s = some s := by
  have hAll : ∀ c ∈ s, isScalar c = true := List.all_eq_true.mp h
  have hAccepted : (s.all fun c => isScalar c || (0xDC80 ≤ c && c ≤ 0xDCFF)) = true :=
    List.all_eq_true.mpr fun c hc => by simp [hAll c hc]
  have hBytes : (s.flatMap fun c => if isScalar c then utf8Char c else [UInt8.ofNat (c - 0xDC00)]) =
      s.flatMap utf8Char :=
    List.flatMap_congr fun c hc => by simp [hAll c hc]
  rw [fsname, fsencode, if_pos hAccepted, hBytes, Option.map_some, fsdecode,
    fsdecodeWithin_flatMap h (length_le_flatMap_utf8Char s)]

end SoftwareHub.Python
