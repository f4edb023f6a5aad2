import SoftwareHub.Catalog.Releases
import SoftwareHub.Lifecycle.FileService
import SoftwareHub.Storage.Filename

/-! Upload, validation, quarantine and metadata of one release file. -/
namespace SoftwareHub.Lifecycle

open SoftwareHub.Python SoftwareHub.Tree SoftwareHub.Semantics SoftwareHub.Catalog Program
open SoftwareHub.Backup (Directory Leaf isDir isSymlink pathExists)
open SoftwareHub.Downloads (isSQLAlchemyError)
open SoftwareHub.Storage (Links MoveCall MoveEnvironment MoveRequest MoveResult NormalizedFilename SignatureValidation
  TreeProgram atomicMove fileValidationError normalizeDisplayFilename normalizeOriginalFilename safeResolve
  shardedRelativePath validateFileSignature)

/-- The settings that an upload reads. -/
structure UploadSettings where
  allowedExtensions : List PyStr
  maxUploadSize : Nat
  uploadMagicSampleSize : Nat
  storageMinFreeBytes : Nat

/-- `urlsplit` of a text: what the checks read, and `urlunsplit` of it. -/
structure SplitUrl where
  scheme : PyStr
  hostname : Option PyStr
  username : Option PyStr
  password : Option PyStr
  unsplit : PyStr

/-- `normalize_http_url`: an absolute address of the Web, without credentials. -/
def normalizeHttpUrl (urlsplit : PyStr → Except PyException SplitUrl) (value : Option PyStr) :
    Except PyException (Option PyStr) := do
  match ← normalizeOptionalText value 2048 with
  | none => return none
  | some normalized => do
      let parsed ← urlsplit normalized
      require ((parsed.scheme = py "http" ∨ parsed.scheme = py "https") ∧ parsed.hostname.getD [] ≠ [])
        (.validationError "URL must be an absolute HTTP or HTTPS address.")
      require (parsed.username = none ∧ parsed.password = none) (.validationError "URL credentials are not allowed.")
      require (0xD ∉ normalized ∧ 0xA ∉ normalized ∧ 0 ∉ normalized)
        (.validationError "URL contains forbidden characters.")
      return some parsed.unsplit

/-- The answer of the scanner. -/
structure ScanResult where
  status : ScannerStatus
  details : Option PyStr

/-- What the form says about the file. -/
structure UploadMetadata where
  displayFilename : Option PyStr
  architecture : Architecture
  packageType : PackageType
  platform : PyStr
  edition : Option PyStr
  visibility : Visibility
  sourceUrl : Option PyStr
  adminNote : Option PyStr

/-- The submitted file is what its reads answer, chunk by chunk. -/
structure UploadRequest where
  releaseId : Nat
  filename : Option PyStr
  size : Option Nat
  reads : List (Except PyException Bytes)
  metadata : UploadMetadata

/-- The paths that are planned for an upload. -/
inductive PlannedPath
  | temporary
  | quarantine
  | permanent

/-- What one upload meets. -/
structure UploadEnvironment where
  paths : StoragePaths
  links : Links
  device : List PyStr → Nat
  unicode : Unicode
  settings : UploadSettings
  /-- `urlsplit`, with its `ValueError` already a `ValidationError`. -/
  urlsplit : PyStr → Except PyException SplitUrl
  fileUuid : Nat
  temporaryUuid : Nat
  publicUuid : Nat
  /-- What other requests write between the first read and the transaction. -/
  meanwhile : Database → Database
  requireFault : Option PyException
  planRoot : PlannedPath → Option OSError
  planResolve : PlannedPath → Option OSError
  /-- The free bytes; `none` when the capacity cannot be determined. -/
  free : Option Nat
  seekFault : Option PyException
  openFault : Option OSError
  /-- How many bytes of a chunk are written before its write fails. -/
  writeFault : Nat → Option (OSError × Nat)
  syncFault : Option OSError
  chmodFault : Option OSError
  closeFault : Option OSError
  unlinkTemporary : Option OSError
  unlinkCandidate : List PyStr → Option OSError
  move : MoveCall → Option OSError
  scan : Except PyException ScanResult
  loadFault : Option PyException
  addFault : Option PyException
  auditFault : Option PyException
  commitFault : Option PyException
  uploadCloseFault : Option OSError

/-- The environment of the move into the quarantine. -/
def UploadEnvironment.moving (env : UploadEnvironment) : MoveEnvironment := ⟨env.links, env.device, env.move⟩

/-- The names and paths of an upload. -/
structure UploadPathPlan where
  original : NormalizedFilename
  storageFilename : PyStr
  temporaryRelativePath : PyStr
  quarantineRelativePath : PyStr
  temporaryPath : List PyStr

/-- What the copy has measured. -/
structure StreamedUpload where
  pathPlan : UploadPathPlan
  sizeBytes : Nat
  sha256 : PyStr
  signatureSample : Bytes

def call {ε : Type} (fault : Option ε) (f : ε → PyException) : Except PyException Unit :=
  match fault with
  | some e => .error (f e)
  | none => .ok ()

/-- `path.unlink(missing_ok=True)`, where an `OSError` is only logged. -/
def unlinkQuietly (fault : Option OSError) (path : List PyStr) : TreeProgram Unit := write fun tree =>
  if fault = none then
    match tree.node? path with
    | some (.leaf _) => tree.erase path
    | _ => tree
  else tree

namespace UploadService

variable (env : UploadEnvironment)

/-- `generate_storage_filename`: a fresh name under an allowed extension. -/
def generateStorageFilename (extension : PyStr) : Except PyException PyStr :=
  let normalized := env.unicode.casefold (strip extension)
  if normalized ∉ env.settings.allowedExtensions.map env.unicode.casefold then
    .error (fileValidationError "The storage filename extension is not allowed.")
  else .ok (uuidHex env.fileUuid ++ normalized)

/-- `plan_upload_paths`: the accepted name, the fresh one, and the paths in the
three directories. -/
def planUploadPaths (filename : PyStr) (tree : Directory) : Except PyException UploadPathPlan := do
  let original ← normalizeOriginalFilename env.unicode env.settings.allowedExtensions filename
  let storageFilename ← generateStorageFilename env original.extension
  let temporaryRelative := uuidHex env.temporaryUuid ++ py ".upload"
  match shardedRelativePath storageFilename with
  | none => .error (fileValidationError "The internal storage filename is invalid.")
  | some parts => do
      let storedRelative := joinSlash parts
      let resolve := fun place root relative =>
        safeResolve env.links (env.planRoot place) (env.planResolve place) root relative false false tree
      let temporaryPath ← resolve .temporary env.paths.temporary temporaryRelative
      let _ ← resolve .quarantine env.paths.quarantine storedRelative
      let _ ← resolve .permanent env.paths.software storedRelative
      return ⟨original, storageFilename, temporaryRelative, storedRelative, temporaryPath⟩

/-- The refusal of an upload above the limit. -/
def payloadTooLarge : PyException := .application .payloadTooLarge "The uploaded file is too large."

/-- `ensure_free_space`: what is required must leave the reserve. -/
def ensureFreeSpace (free : Option Nat) (requiredBytes reserveBytes : Nat) : Except PyException Unit :=
  match free with
  | none => .error (.storageError "Storage capacity could not be determined.")
  | some free => require (¬(free < requiredBytes ∨ free - requiredBytes < reserveBytes))
      (.storageError "Insufficient free space is available for this file operation.")

/-- The loop over the chunks, and what it has written. -/
def copyChunks (maxSize : Nat) (writeFault : Nat → Option (OSError × Nat)) :
    List (Except PyException Bytes) → Nat → Bytes → Except PyException Unit × Bytes
  | [], _, written => (.ok (), written)
  | .error e :: _, _, written => (.error e, written)
  | .ok chunk :: reads, index, written =>
      if chunk = [] then (.ok (), written)
      else if maxSize < written.length + chunk.length then (.error payloadTooLarge, written)
      else match writeFault index with
        | some (e, count) => (.error (.os e), written ++ chunk.take count)
        | none => copyChunks maxSize writeFault reads (index + 1) (written ++ chunk)

/-- An `OSError` while the file is open. -/
def storeError : PyException → PyException
  | .os _ => .storageError "The temporary upload could not be stored."
  | e => e

/-- `os.open` with `O_CREAT | O_EXCL`, and what is written until the file is closed. -/
def createFile (destination : List PyStr) (content : Bytes) (tree : Directory) : Option Directory :=
  match tree.node? destination.dropLast with
  | some (.dir _) => tree.create destination (.leaf (.file content))
  | _ => none

/-- What follows the loop while the file is open. -/
def finishCopy (copied : Except PyException Unit × Bytes) : Except PyException Bytes := do
  copied.1.mapError storeError
  require (copied.2 ≠ []) (fileValidationError "Empty files cannot be uploaded.")
  call env.syncFault fun e => storeError (.os e)
  call env.chmodFault fun e => storeError (.os e)
  return copied.2

/-- `_copy_stream`, with each chunk written as a whole. -/
def copyStream (reads : List (Except PyException Bytes)) (destination : List PyStr) : TreeProgram Bytes := do
  lift (call env.openFault fun e => storeError (.os e))
  let copied := copyChunks env.settings.maxUploadSize env.writeFault reads 0 []
  match createFile destination copied.2 (← read id) with
  | none => raise (storeError (.os .fileExistsError))
  | some created => do
      write fun _ => created
      Program.tryFinally (lift (finishCopy env copied)) (lift (call env.closeFault .os))

/-- `except FileValidationError, PayloadTooLarge, StorageError`. -/
def isStreamError : PyException → Bool
  | .application .fileValidationError _ => true
  | .application .payloadTooLarge _ => true
  | .application .storageError _ => true
  | _ => false

/-- The copy; what it leaves when it fails is removed. -/
def storeUpload (reads : List (Except PyException Bytes)) (path : List PyStr) : TreeProgram Bytes := tryExcept
  (do
    lift (call env.seekFault id)
    copyStream env reads path)
  (fun e => do
    unlinkQuietly env.unlinkTemporary path
    if isStreamError e = true then raise e
    else raise (.storageError "The uploaded file could not be written safely."))

/-- `stream_upload_to_temporary`: the plan, the check for space and the copy. -/
def streamUploadToTemporary (request : UploadRequest) : TreeProgram StreamedUpload := do
  let tree ← read id
  let plan ← lift (planUploadPaths env (request.filename.getD []) tree)
  lift (require (∀ size ∈ request.size, size ≤ env.settings.maxUploadSize) payloadTooLarge)
  let required := match request.size with
    | none => env.settings.maxUploadSize
    | some size => if size = 0 then env.settings.maxUploadSize else size
  lift (ensureFreeSpace env.free required env.settings.storageMinFreeBytes)
  let body ← storeUpload env request.reads plan.temporaryPath
  return ⟨plan, body.length, Sha256.hexdigest body, body.take env.settings.uploadMagicSampleSize⟩

/-- `_required_text`: a text of the form that may not be empty. -/
def requiredText (value : PyStr) (maxLength : Nat) (fieldName : String) : Except PyException PyStr := do
  match ← normalizeOptionalText (some value) maxLength with
  | none => .error (.validationError s!"{fieldName} is required.")
  | some normalized => return normalized

/-- `_initial_status`: ready only with a matching signature, and without a complaint
or a failure of the scanner. -/
def initialStatus (signature : SignatureValidation) (scannerStatus : ScannerStatus) : FileStatus :=
  if scannerStatus = .infected then .rejected
  else if signature.assessment ≠ .isMatch then .quarantine
  else if scannerStatus = .error then .quarantine
  else .ready

/-- The texts of a new row. -/
structure RowTexts where
  displayFilename : PyStr
  platform : PyStr
  edition : Option PyStr
  sourceUrl : Option PyStr
  adminNote : Option PyStr
  scannerDetails : Option PyStr

/-- The checks before the transaction. Only the scanner's text is checked
outside the handler that turns a `ValueError` into a `ValidationError`. -/
def rowTexts (streamed : StreamedUpload) (metadata : UploadMetadata) (scanResult : ScanResult) :
    Except PyException RowTexts := do
  let displayFilename ← normalizeDisplayFilename env.unicode env.settings.allowedExtensions metadata.displayFilename
    streamed.pathPlan.original
  let platform ← requiredText metadata.platform 100 "Platform"
  let edition ← normalizeOptionalText metadata.edition 180
  let sourceUrl ← normalizeHttpUrl env.urlsplit metadata.sourceUrl
  let adminNote ← normalizeOptionalText metadata.adminNote 4000
  let scannerDetails ← (normalizeOptionalText scanResult.details 500).mapError fun _ => .valueError
  return ⟨displayFilename, platform, edition, sourceUrl, adminNote, scannerDetails⟩

/-- The unique columns of a file, apart from its key. -/
def Conflicts (row other : ReleaseFile) : Prop :=
  row.publicUuid = other.publicUuid ∨ row.storageFilename = other.storageFilename ∨
    row.relativeStoragePath = other.relativeStoragePath

instance (row other : ReleaseFile) : Decidable (Conflicts row other) := inferInstanceAs (Decidable (_ ∨ _))

/-- A row added to the table. -/
def addRow (row : ReleaseFile) (database : Database) : Database := { database with files := database.files ++ [row] }

/-- `repository.add`. -/
def add (row : ReleaseFile) : CatalogProgram Unit := do
  if ∃ other ∈ (← read Database.files), Conflicts row other then raise .integrityError
  else guarded env.addFault (write (addRow row))

def newRow (id releaseId : Nat) (streamed : StreamedUpload) (signature : SignatureValidation) (scanResult : ScanResult)
    (metadata : UploadMetadata) (texts : RowTexts) : ReleaseFile where
  id := id
  publicUuid := env.publicUuid
  releaseId := releaseId
  originalFilename := streamed.pathPlan.original.value
  displayFilename := texts.displayFilename
  storageFilename := streamed.pathPlan.storageFilename
  relativeStoragePath := streamed.pathPlan.quarantineRelativePath
  fileExtension := streamed.pathPlan.original.extension
  detectedMimeType := match signature.detected with
    | some detected => detected.mimeType
    | none => py "application/octet-stream"
  fileSizeBytes := streamed.sizeBytes
  sha256 := streamed.sha256
  architecture := metadata.architecture
  packageType := metadata.packageType
  platform := texts.platform
  edition := texts.edition
  downloadCount := 0
  status := initialStatus signature scanResult.status
  visibility := metadata.visibility
  publishedAt := none
  disabledAt := none
  sourceUrl := texts.sourceUrl
  signatureStatus := .notChecked
  scannerStatus := scanResult.status
  scannerDetails := texts.scannerDetails
  adminNote := texts.adminNote

def persistRow (request : UploadRequest) (streamed : StreamedUpload) (signature : SignatureValidation)
    (scanResult : ScanResult) (texts : RowTexts) : CatalogProgram ReleaseFile := do
  lift (call env.loadFault id)
  let _ ← Catalog.getWithGraph request.releaseId
  let files ← read Database.files
  let row := newRow env (nextId ReleaseFile.id files) request.releaseId streamed signature scanResult request.metadata texts
  add env row
  lift (call env.auditFault id)
  return row

/-- `_persist_metadata`: the checks of the texts, and the transaction. -/
def persistMetadata (request : UploadRequest) (streamed : StreamedUpload) (signature : SignatureValidation)
    (scanResult : ScanResult) : HostProgram ReleaseFile := do
  let texts ← lift (rowTexts env streamed request.metadata scanResult)
  write fun host => { host with database := env.meanwhile host.database }
  tryExcept (transaction env.commitFault (persistRow env request streamed signature scanResult texts))
    (fun e => if isSQLAlchemyError e = true then raise (.storageError "File metadata could not be saved.") else raise e)

/-- The handler: the files are removed and the failure is recorded, which
raises nothing and writes an audit row only. -/
def failed {α : Type} (candidates : List (List PyStr)) (e : PyException) : HostProgram α := do
  forEach candidates fun path => onTree (unlinkQuietly (env.unlinkCandidate path) path)
  FileService.reraise e "The upload could not be completed safely."

def quarantineMove (streamed : StreamedUpload) : MoveRequest :=
  ⟨env.paths.temporary, streamed.pathPlan.temporaryRelativePath, env.paths.quarantine,
    streamed.pathPlan.quarantineRelativePath⟩

/-- The body of the `try`; each part fails with the paths assigned by then. -/
def uploadChecked (request : UploadRequest) : HostProgram ReleaseFile := do
  let streamed ← tryExcept (onTree (streamUploadToTemporary env request)) (failed env [])
  let signature := validateFileSignature env.unicode streamed.pathPlan.original.extension streamed.signatureSample
  let result ← tryExcept (onTree (atomicMove env.moving (quarantineMove env streamed)))
    (failed env [streamed.pathPlan.temporaryPath])
  tryExcept
    (do
      let scanResult ← lift env.scan
      persistMetadata env request streamed signature scanResult)
    (failed env [streamed.pathPlan.temporaryPath, result.destination])

/-- `upload.close()`, where an `OSError` is only logged. -/
def closeUpload : HostProgram Unit := tryExcept (lift (call env.uploadCloseFault .os)) fun _ => pure ()

/-- `upload_release_file`: the call, with the handler around it and the closing of
the submitted file after it. -/
def uploadReleaseFile (request : UploadRequest) : HostProgram ReleaseFile := do
  lift (call env.requireFault id)
  if (← read fun host => host.database.release? request.releaseId) = none then
    raise (entityNotFound "Release not found.")
  else Program.tryFinally (uploadChecked env request) (closeUpload env)

end UploadService
end SoftwareHub.Lifecycle
