import SoftwareHub.Python.Codec
import SoftwareHub.Python.Sha256

/-! `hmac.new(key, message, hashlib.sha256)`, by which the tokens of sessions and
forms are authenticated. -/
namespace SoftwareHub.Python

/-- `sha256(data).digest()`. -/
def Sha256.digest (data : Bytes) : Bytes := (Sha256.digestWords data).flatMap (Sha256.bigEndian 4)

/-- `data.hex()`. -/
def hex (data : Bytes) : PyStr := data.flatMap fun b => Sha256.hexDigits 2 b.toNat

namespace Hmac

/-- The key, hashed when it is longer than a block of 64 bytes, and filled up to one
with zeros. -/
def blockKey (key : Bytes) : Bytes :=
  let short := if 64 < key.length then Sha256.digest key else key
  short ++ List.replicate (64 - short.length) 0

/-- `hmac.new(key, message, hashlib.sha256).digest()`: two nested hashes with the
two paddings of the key. -/
def digest (key message : Bytes) : Bytes :=
  Sha256.digest ((blockKey key).map (· ^^^ 0x5C) ++
    Sha256.digest ((blockKey key).map (· ^^^ 0x36) ++ message))

/-- `hmac.new(key, message, hashlib.sha256).hexdigest()`. -/
def hexdigest (key message : Bytes) : PyStr := hex (digest key message)

end Hmac

theorem Sha256.length_bigEndian (width n : Nat) : (Sha256.bigEndian width n).length = width := by
  induction width generalizing n with
  | zero => rfl
  | succ width ih => simp [Sha256.bigEndian, ih]

/-- A digest has 32 bytes, whatever was hashed. -/
theorem Sha256.length_digest (data : Bytes) : (Sha256.digest data).length = 32 := by
  simp [Sha256.digest, Sha256.digestWords, Sha256.length_bigEndian]

theorem Hmac.length_digest (key message : Bytes) : (Hmac.digest key message).length = 32 :=
  Sha256.length_digest _

example : Hmac.hexdigest ((py "Jefe").map UInt8.ofNat) ((py "what do ya want for nothing?").map UInt8.ofNat) =
    py "5bdcc146bf60754e6a042426089575c75a003f089d2739839dec58b964ec3843" := by decide +kernel

end SoftwareHub.Python
