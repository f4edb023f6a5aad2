import SoftwareHub.Python.Unicode

/-! Magic-byte detection for the upload allowlist: what the first bytes of an upload
say about its type, and whether that fits its extension. -/
namespace SoftwareHub.Storage

open SoftwareHub.Python

/-- The outcome of comparing the bytes with the extension. -/
inductive SignatureAssessment
  | isMatch
  | mismatch
  | unknown
  deriving DecidableEq, Repr

/-- A type that was found, with its extension and media type. -/
structure DetectedFileType where
  extension : PyStr
  mimeType : PyStr
  deriving DecidableEq, Repr

structure SignatureValidation where
  assessment : SignatureAssessment
  expectedExtension : PyStr
  detected : Option DetectedFileType
  deriving DecidableEq, Repr

def peType : DetectedFileType := ⟨py ".exe", py "application/vnd.microsoft.portable-executable"⟩

def msiType : DetectedFileType := ⟨py ".msi", py "application/x-msi"⟩

def zipType : DetectedFileType := ⟨py ".zip", py "application/zip"⟩

def sevenZipType : DetectedFileType := ⟨py ".7z", py "application/x-7z-compressed"⟩

def compoundFileSignature : Bytes := [0xD0, 0xCF, 0x11, 0xE0, 0xA1, 0xB1, 0x1A, 0xE1]

def sevenZipSignature : Bytes := [0x37, 0x7A, 0xBC, 0xAF, 0x27, 0x1C]

def zipSignatures : List Bytes :=
  [[0x50, 0x4B, 0x03, 0x04], [0x50, 0x4B, 0x05, 0x06], [0x50, 0x4B, 0x07, 0x08]]

/-- `int.from_bytes(data, "little")`, the offset in the header of an executable. -/
def littleEndian (data : Bytes) : Nat := data.foldr (fun b value => b.toNat + 256 * value) 0

/-- `_looks_like_pe`: the header, and the second signature where the header says it
is. -/
def looksLikePe (sample : Bytes) : Bool :=
  if sample.length < 64 ∨ sample.take 2 ≠ [0x4D, 0x5A] then false
  else
    let peOffset := littleEndian ((sample.drop 0x3C).take 4)
    if peOffset < 64 ∨ sample.length < peOffset + 4 then false
    else (sample.drop peOffset).take 4 = [0x50, 0x45, 0x00, 0x00]

/-- `detect_file_type`: the four kinds of files that have a signature. -/
def detectFileType (sample : Bytes) : Option DetectedFileType :=
  if looksLikePe sample = true then some peType
  else if compoundFileSignature.isPrefixOf sample then some msiType
  else if sevenZipSignature.isPrefixOf sample then some sevenZipType
  else if zipSignatures.any (·.isPrefixOf sample) then some zipType
  else none

section Assessment

variable (unicode : Unicode)

/-- `validate_file_signature` of a sample and an extension. -/
def validateFileSignature (extension : PyStr) (sample : Bytes) : SignatureValidation :=
  let expected := unicode.casefold (strip extension)
  match detectFileType sample with
  | none => ⟨.unknown, expected, none⟩
  | some detected => if detected.extension ≠ expected then ⟨.mismatch, expected, some detected⟩
      else ⟨.isMatch, expected, some detected⟩

/-- The media type that belongs to an extension, if the extension has a signature at
all. -/
def expectedMime (extension : PyStr) : Option PyStr :=
  ([peType, msiType, zipType, sevenZipType].find? fun fileType => fileType.extension = extension).map (·.mimeType)

/-- The assessment made before a publication, from the stored media type alone. -/
def assessStoredSignature (extension mimeType : PyStr) : SignatureAssessment :=
  let expected := unicode.casefold (strip extension)
  let normalizedMime := unicode.casefold (strip mimeType)
  if normalizedMime = py "application/octet-stream" then .unknown
  else match expectedMime expected with
    | none => .mismatch
    | some mime => if normalizedMime ≠ mime then .mismatch else .isMatch

end Assessment
end SoftwareHub.Storage
