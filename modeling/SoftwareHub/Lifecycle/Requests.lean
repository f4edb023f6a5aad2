import SoftwareHub.Reconciliation.Service
import SoftwareHub.Semantics.Interleaving

/-! Requests of several clients on one release file. Each takes its steps one after
another: the first read, the check of the physical file, the move, the transaction
and what follows it. Between two of them the others take theirs. -/
namespace SoftwareHub.Lifecycle.Requests

open SoftwareHub.Python SoftwareHub.Semantics SoftwareHub.Catalog SoftwareHub.Reconciliation
open SoftwareHub.Downloads (FileGraph)
open SoftwareHub.Lifecycle.FileService (ensureDeletable ensurePublishReady)
open SoftwareHub.Storage (StorageArea fileValidationError posixText)

/-- Where the bytes of a release file can be: in an area under the path of its
row, or staged for deletion under a name of their own. -/
inductive Place
  | area (area : StorageArea)
  | staged (uuid : Nat)
  deriving DecidableEq

/-- The bytes at each place, if there are any. -/
abbrev PlacedFiles : Type := Place → Option Bytes

/-- The row with its parents, and the bytes. -/
structure FileState where
  row : Option FileGraph
  files : PlacedFiles

/-- The requests that move the file or set its status by a decision about it. -/
inductive Request
  | publish
  | restoreReady
  | reviewStatus (target : FileStatus)
  | disable
  | archive
  | permanentlyDelete
  deriving DecidableEq

/-- A request, with the time of its transaction and its name for a staged file. -/
structure Call where
  request : Request
  now : Instant
  uuid : Nat

/-- The step a call takes next. A move that is done is remembered with the
area that it started from. -/
inductive Stage
  | reading
  | inspecting (file : ReleaseFile)
  | moving (relativePath : PyStr) (source : StorageArea) (target : Place)
  | committing (relativePath : PyStr) (moved : Option (StorageArea × Place))
  | compensating (source : StorageArea) (target : Place)
  | unlinking
  | finished

/-- A call under way, with the step that it takes next. -/
structure Process where
  call : Call
  stage : Stage

def Process.at (process : Process) (stage : Stage) : Process := { process with stage := stage }

/-- A call before its first read. -/
def Call.start (call : Call) : Process := ⟨call, .reading⟩

section Steps

variable (unicode : Unicode)

/-- What is checked before the first read. -/
def ensureRequest : Request → Except PyException Unit
  | .reviewStatus target => require (target = .ready ∨ target = .rejected ∨ target = .quarantine)
      (invalidStateTransition "This status is not a manual review decision.")
  | _ => .ok ()

/-- What is checked of the row that was read. -/
def ensureRow : Request → FileGraph → Except PyException Unit
  | .publish, graph => ensurePublishReady unicode graph
  | .permanentlyDelete, graph => ensureDeletable graph
  | _, _ => .ok ()

def get (request : Request) (row : Option FileGraph) : Except PyException ReleaseFile := do
  ensureRequest request
  match row with
  | none => .error (entityNotFound "Release file not found.")
  | some graph => do
      ensureRow unicode request graph
      return graph.file

/-- `locate_stored_file`. -/
def locate (files : PlacedFiles) : Except PyException (StorageArea × Bytes) :=
  match files (.area .quarantine), files (.area .software) with
  | some content, none => .ok (.quarantine, content)
  | none, some content => .ok (.software, content)
  | none, none => .error (.storageError "The physical file is missing from private storage.")
  | some _, some _ => .error (.storageError "The physical file exists in multiple storage locations.")

/-- `_verified_physical_file`. -/
def verifiedPhysicalFile (file : ReleaseFile) (verifyHash : Bool) (files : PlacedFiles) : Except PyException StorageArea := do
  let stored ← locate files
  require (stored.2.length = file.fileSizeBytes)
    (fileValidationError "The stored file size no longer matches its metadata.")
  if verifyHash = true then
    require (stored.2.length = file.fileSizeBytes ∧ Sha256.hexdigest stored.2 = file.sha256)
      (fileValidationError "The stored file checksum no longer matches its metadata.")
  return stored.1

/-- What is checked of the area in which the file was found. -/
def ensureArea : Request → StorageArea → Except PyException Unit
  | .publish, area => require (area = .quarantine)
      (.storageError "A ready file must be located in quarantine before publication.")
  | .reviewStatus _, area => require (area = .quarantine)
      (.storageError "Files under review must remain in quarantine storage.")
  | _, _ => .ok ()

/-- The check of the physical file. -/
def inspect (request : Request) (file : ReleaseFile) (files : PlacedFiles) : Except PyException StorageArea := do
  let area ← verifiedPhysicalFile file (request = .publish) files
  ensureArea request area
  return area

/-- Where a call moves a file that it has found in an area, if it moves it. -/
def Call.target? (call : Call) (area : StorageArea) : Option Place :=
  match call.request with
  | .publish => some (.area .software)
  | .restoreReady => if area = .software then some (.area .quarantine) else none
  | .permanentlyDelete => some (.staged call.uuid)
  | _ => none

/-- `atomic_move`, where nothing but the two names decides. -/
def move (source target : Place) (files : PlacedFiles) : Except PyException PlacedFiles :=
  match files source, files target with
  | none, _ => .error (.storageError "The storage path is unavailable.")
  | some _, some _ => .error (.storageError "The destination storage filename already exists.")
  | some content, none => .ok (Function.update (Function.update files source none) target (some content))

/-- The transition of a row, in the transaction. -/
def transition (now : Instant) (target : FileStatus) (current : FileGraph) : Except PyException (Option FileGraph) := do
  let file ← applyFileTransition current.software current.release current.file target now
  return some { current with file := file }

def commit (call : Call) (relativePath : PyStr) (row : Option FileGraph) : Except PyException (Option FileGraph) :=
  match row with
  | none => .error (entityNotFound "Release file not found.")
  | some current => match call.request with
      | .publish => do
          ensurePublishReady unicode current
          require (current.file.relativeStoragePath = relativePath)
            (.storageError "File metadata changed during publication.")
          let file ← applyFileTransition current.software current.release current.file .published call.now
          return some { current with file := { file with relativeStoragePath := relativePath } }
      | .permanentlyDelete => do
          ensureDeletable current
          require (current.file.relativeStoragePath = relativePath)
            (.storageError "File metadata changed during permanent deletion.")
          return none
      | .restoreReady => transition call.now .ready current
      | .reviewStatus target => transition call.now target current
      | .disable => transition call.now .disabled current
      | .archive => transition call.now .archived current

/-- One step of one call. The last read of a call changes nothing. -/
def Process.step (process : Process) (state : FileState) : Process × FileState :=
  match process.stage with
  | .reading => match get unicode process.call.request state.row with
      | .error _ => (process.at .finished, state)
      | .ok file => (process.at (.inspecting file), state)
  | .inspecting file => match inspect process.call.request file state.files with
      | .error _ => (process.at .finished, state)
      | .ok area => match process.call.target? area with
          | none => (process.at (.committing (posixText file.relativeStoragePath) none), state)
          | some target => (process.at (.moving (posixText file.relativeStoragePath) area target), state)
  | .moving relativePath source target => match move (.area source) target state.files with
      | .error _ => (process.at .finished, state)
      | .ok files => (process.at (.committing relativePath (some (source, target))), { state with files := files })
  | .committing relativePath moved => match commit unicode process.call relativePath state.row with
      | .ok row => (process.at (if process.call.request = .permanentlyDelete then .unlinking else .finished),
          { state with row := row })
      | .error _ => match moved with
          | none => (process.at .finished, state)
          | some (source, target) => (process.at (.compensating source target), state)
  | .compensating source target => match move target (.area source) state.files with
      | .error _ => (process.at .finished, state)
      | .ok files => (process.at .finished, { state with files := files })
  | .unlinking => (process.at .finished, { state with
      files := Function.update state.files (.staged process.call.uuid) none })
  | .finished => (process, state)

end Steps

/-- The bytes are in one place at most. -/
def only (content : Bytes) (place : Option Place) : PlacedFiles := fun other =>
  if place = some other then some content else none

/-- The row and its single physical file agree. -/
structure Agree (graph : FileGraph) (content : Bytes) (area : StorageArea) (state : FileState) : Prop where
  row : state.row = some graph
  files : state.files = only content (some (.area area))
  size : content.length = graph.file.fileSizeBytes
  sha256 : Sha256.hexdigest content = graph.file.sha256
  relativePath : posixText graph.file.relativeStoragePath = graph.file.relativeStoragePath
  allowed : areaAllowed graph.file.status area = true

/-- The file is deleted together with its row, or it is in an area that the status allows. -/
def Placed (content : Bytes) (state : FileState) : Prop :=
  match state.row with
  | none => state.files = only content none
  | some graph => ∃ area, state.files = only content (some (.area area)) ∧ areaAllowed graph.file.status area = true

end SoftwareHub.Lifecycle.Requests
