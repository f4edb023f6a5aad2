import SoftwareHub.Python.Text

/-! `hashlib.sha256`, round by round. Words are natural numbers below `2 ^ 32`. -/
namespace SoftwareHub.Python.Sha256

/-- The eight words of a hash value, which a block of the message changes. -/
structure State where
  a : Nat
  b : Nat
  c : Nat
  d : Nat
  e : Nat
  f : Nat
  g : Nat
  h : Nat

def initial : State :=
  ⟨0x6a09e667, 0xbb67ae85, 0x3c6ef372, 0xa54ff53a, 0x510e527f, 0x9b05688c, 0x1f83d9ab, 0x5be0cd19⟩

def roundConstants : List Nat :=
  [0x428a2f98, 0x71374491, 0xb5c0fbcf, 0xe9b5dba5, 0x3956c25b, 0x59f111f1, 0x923f82a4, 0xab1c5ed5,
    0xd807aa98, 0x12835b01, 0x243185be, 0x550c7dc3, 0x72be5d74, 0x80deb1fe, 0x9bdc06a7, 0xc19bf174,
    0xe49b69c1, 0xefbe4786, 0x0fc19dc6, 0x240ca1cc, 0x2de92c6f, 0x4a7484aa, 0x5cb0a9dc, 0x76f988da,
    0x983e5152, 0xa831c66d, 0xb00327c8, 0xbf597fc7, 0xc6e00bf3, 0xd5a79147, 0x06ca6351, 0x14292967,
    0x27b70a85, 0x2e1b2138, 0x4d2c6dfc, 0x53380d13, 0x650a7354, 0x766a0abb, 0x81c2c92e, 0x92722c85,
    0xa2bfe8a1, 0xa81a664b, 0xc24b8b70, 0xc76c51a3, 0xd192e819, 0xd6990624, 0xf40e3585, 0x106aa070,
    0x19a4c116, 0x1e376c08, 0x2748774c, 0x34b0bcb5, 0x391c0cb3, 0x4ed8aa4a, 0x5b9cca4f, 0x682e6ff3,
    0x748f82ee, 0x78a5636f, 0x84c87814, 0x8cc70208, 0x90befffa, 0xa4506ceb, 0xbef9a3f7, 0xc67178f2]

/-- A number cut to thirty-two bits. -/
def word (n : Nat) : Nat := n % 0x100000000

/-- A word rotated to the right. -/
def rotr (x n : Nat) : Nat := word ((x <<< (32 - n)) ||| (x >>> n))

def ch (x y z : Nat) : Nat := (x &&& y) ^^^ ((0xffffffff - x) &&& z)

def maj (x y z : Nat) : Nat := (x &&& y) ^^^ (x &&& z) ^^^ (y &&& z)

def bigSigma0 (x : Nat) : Nat := rotr x 2 ^^^ rotr x 13 ^^^ rotr x 22

def bigSigma1 (x : Nat) : Nat := rotr x 6 ^^^ rotr x 11 ^^^ rotr x 25

def smallSigma0 (x : Nat) : Nat := rotr x 7 ^^^ rotr x 18 ^^^ (x >>> 3)

def smallSigma1 (x : Nat) : Nat := rotr x 17 ^^^ rotr x 19 ^^^ (x >>> 10)

/-- One round of the compression, with its constant and its word of the message
schedule. -/
def round (s : State) (k w : Nat) : State :=
  let t := word (s.h + bigSigma1 s.e + ch s.e s.f s.g + k + w)
  ⟨word (t + bigSigma0 s.a + maj s.a s.b s.c), s.a, s.b, s.c, word (s.d + t), s.e, s.f, s.g⟩

/-- The next word of the schedule, from the last sixteen. -/
def nextWord (window : List Nat) : Nat :=
  word (smallSigma1 (window.getD 14 0) + window.getD 9 0 + smallSigma0 (window.getD 1 0) + window.getD 0 0)

def rounds : List Nat → List Nat → State → State
  | [], _, s => s
  | k :: constants, window, s =>
      rounds constants (window.tail ++ [nextWord window]) (round s k (window.getD 0 0))

def State.add (s t : State) : State :=
  ⟨word (s.a + t.a), word (s.b + t.b), word (s.c + t.c), word (s.d + t.d), word (s.e + t.e),
    word (s.f + t.f), word (s.g + t.g), word (s.h + t.h)⟩

def toWords : Bytes → List Nat
  | a :: b :: c :: d :: rest =>
      (a.toNat * 0x1000000 + b.toNat * 0x10000 + c.toNat * 0x100 + d.toNat) :: toWords rest
  | _ => []

/-- The words of the message in blocks of sixteen, each added to the hash value. The
first argument counts the blocks. -/
def compress : Nat → List Nat → State → State
  | 0, _, s => s
  | blocks + 1, words, s =>
      compress blocks (words.drop 16) (s.add (rounds roundConstants (words.take 16) s))

def bigEndian : Nat → Nat → Bytes
  | 0, _ => []
  | width + 1, n => UInt8.ofNat (n / 256 ^ width) :: bigEndian width (n % 256 ^ width)

/-- A one bit, zeros, and the length in bits as a 64-bit number, which fill up the
last block. -/
def padding (length : Nat) : Bytes :=
  0x80 :: (List.replicate ((119 - length % 64) % 64) 0 ++ bigEndian 8 (8 * length % 2 ^ 64))

def digestWords (data : Bytes) : List Nat :=
  let s := compress ((data.length + 72) / 64) (toWords (data ++ padding data.length)) initial
  [s.a, s.b, s.c, s.d, s.e, s.f, s.g, s.h]

def hexDigits : Nat → Nat → PyStr
  | 0, _ => []
  | width + 1, n => (if n / 16 ^ width % 16 < 10 then 0x30 + n / 16 ^ width % 16 else 0x57 + n / 16 ^ width % 16) ::
      hexDigits width n

/-- `sha256(data).hexdigest()`, in lower-case digits. -/
def hexdigest (data : Bytes) : PyStr := (digestWords data).flatMap (hexDigits 8)

theorem length_hexDigits (width n : Nat) : (hexDigits width n).length = width := by
  induction width with
  | zero => rfl
  | succ width ih => simp [hexDigits, ih]

theorem isLowerHex_of_mem_hexDigits {width n c : Nat} (h : c ∈ hexDigits width n) :
    isLowerHex c = true := by
  induction width with
  | zero => cases h
  | succ width ih =>
      rcases List.mem_cons.mp h with rfl | h
      · have := Nat.mod_lt (n / 16 ^ width) (by decide : 0 < 16)
        split_ifs <;> simp [isLowerHex, isDigit] <;> omega
      · exact ih h

/-- A digest is written in 64 characters, whatever was hashed. -/
theorem length_hexdigest (data : Bytes) : (hexdigest data).length = 64 := by
  simp [hexdigest, digestWords, length_hexDigits]

/-- A digest is written in lower-case hexadecimal digits, which is what the check of
a manifest asks for. -/
theorem isLowerHex_of_mem_hexdigest {data : Bytes} {c : Nat} (h : c ∈ hexdigest data) :
    isLowerHex c = true := by
  obtain ⟨n, -, hMem⟩ := List.mem_flatMap.mp h
  exact isLowerHex_of_mem_hexDigits hMem

end SoftwareHub.Python.Sha256
