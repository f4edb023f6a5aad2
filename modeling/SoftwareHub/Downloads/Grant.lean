import SoftwareHub.Catalog.Models
import SoftwareHub.Storage.Areas
import SoftwareHub.Storage.OriginalFilename

/-! The response headers of an authorized download. -/
namespace SoftwareHub.Downloads

open SoftwareHub.Python SoftwareHub.Semantics SoftwareHub.Catalog SoftwareHub.Storage

/-- What `authorize` returns: the headers of the response. -/
structure DownloadGrant where
  internalRedirectUri : PyStr
  contentDisposition : PyStr
  contentType : PyStr
  etag : PyStr
  cacheControl : PyStr
  isPrivate : Bool
  deriving DecidableEq, Repr

/-- `[!#$&^_.+\-0-9A-Za-z]`. -/
def isMediaChar (c : Nat) : Bool := isAsciiAlnum c || c ∈ py "!#$&^_.+-"

section Headers

variable (unicode : Unicode)

/-- The media type of the file, or the neutral one when it is not of that form. -/
def safeMediaType (value : PyStr) : PyStr :=
  let candidate := unicode.casefold (strip value)
  match candidate.splitOn slash with
  | [kind, subtype] =>
      if kind ≠ [] ∧ subtype ≠ [] ∧ kind.all isMediaChar = true ∧ subtype.all isMediaChar = true then candidate
      else py "application/octet-stream"
  | _ => py "application/octet-stream"

/-- The fallback name of `build_content_disposition`, before quotes and
backslashes are replaced. -/
def asciiFallback (filename : PyStr) : PyStr :=
  let extension := suffix filename
  let sourceStem := if extension = [] then filename else filename.take (filename.length - extension.length)
  let asciiStem := asciiIgnore (unicode.nfkd sourceStem)
  let safeStem := stripChars (py " ._")
    (asciiStem.map fun c => if isAsciiAlnum c ∨ c ∈ py " ._-" then c else 0x5F)
  let fallback := (if safeStem = [] then py "download" else safeStem) ++ unicode.casefold extension
  if 150 < fallback.length then py "download" ++ unicode.casefold extension else fallback

/-- `build_content_disposition`: the fallback and the percent-encoded name. -/
def buildContentDisposition (filename : PyStr) : Except PyException PyStr := do
  let fallback := (asciiFallback unicode filename).map fun c => if c = 0x22 ∨ c = 0x5C then 0x5F else c
  let encoded ← quote [] filename
  return py "attachment; filename=" ++ [0x22] ++ fallback ++ [0x22] ++ py "; filename*=UTF-8''" ++ encoded

/-- The path of the internal redirect, percent-encoded part by part. -/
def internalRedirectUri (internalDownloadPrefix relativePath : PyStr) : Except PyException PyStr := do
  return internalDownloadPrefix ++ (← quote [slash] relativePath)

/-- The headers of a located file. -/
def grant (internalDownloadPrefix : PyStr) (file : ReleaseFile) (stored : StoredFile) :
    Except PyException DownloadGrant := do
  let isPrivate : Bool := file.visibility = .isPrivate
  let uri ← internalRedirectUri internalDownloadPrefix stored.relativePath
  let disposition ← buildContentDisposition unicode file.displayFilename
  return {
    internalRedirectUri := uri
    contentDisposition := disposition
    contentType := safeMediaType unicode file.detectedMimeType
    etag := [0x22] ++ py "sha256-" ++ file.sha256 ++ [0x22]
    cacheControl := if isPrivate then py "private, no-store" else py "no-store"
    isPrivate := isPrivate }

end Headers

/-- Nothing fails after the checks when both names can be encoded. -/
theorem exists_grant (unicode : Unicode) (internalDownloadPrefix : PyStr) {file : ReleaseFile} {stored : StoredFile}
    (hName : ∀ c ∈ file.displayFilename, isScalar c = true) (hPath : ∀ c ∈ stored.relativePath, isScalar c = true) :
    ∃ headers, grant unicode internalDownloadPrefix file stored = .ok headers := by
  obtain ⟨uri, hUri⟩ := @exists_quote [slash] stored.relativePath hPath
  obtain ⟨name, hQuoted⟩ := @exists_quote [] file.displayFilename hName
  have hRedirect : internalRedirectUri internalDownloadPrefix stored.relativePath = .ok (internalDownloadPrefix ++ uri) :=
    except_bind_ok hUri _
  have hDisposition : buildContentDisposition unicode file.displayFilename =
      .ok (py "attachment; filename=" ++ [0x22] ++
        (asciiFallback unicode file.displayFilename).map (fun c => if c = 0x22 ∨ c = 0x5C then 0x5F else c) ++
        [0x22] ++ py "; filename*=UTF-8''" ++ name) := except_bind_ok hQuoted _
  exact ⟨_, (except_bind_ok hRedirect _).trans (except_bind_ok hDisposition _)⟩

end SoftwareHub.Downloads
