import SoftwareHub.Downloads.Authorize
import SoftwareHub.Lifecycle.Stored
import SoftwareHub.Storage.Signatures

/-! Release-file metadata, integrity and physical lifecycle. A call works on the
database and on the file system; its environment says which of its steps fail and
what other requests do to the database meanwhile. -/
namespace SoftwareHub.Lifecycle

open SoftwareHub.Python SoftwareHub.Tree SoftwareHub.Semantics SoftwareHub.Catalog Program
open SoftwareHub.Backup (Directory Leaf isDir isSymlink pathExists)
open SoftwareHub.Downloads (FileGraph)
open SoftwareHub.Storage (Links MoveCall MoveEnvironment MoveRequest MoveResult SignatureAssessment StorageArea TreeProgram
  assessStoredSignature atomicMove fileValidationError posixText safeResolve)

/-- The database and the file system, and how many transactions have committed. -/
structure Host where
  database : Database
  tree : Directory
  commits : Nat

/-- A program on the database and the file system. -/
abbrev HostProgram (α : Type) : Type := Program Host PyException α

/-- What one call of the service meets. -/
structure ServiceEnvironment where
  paths : StoragePaths
  links : Links
  device : List PyStr → Nat
  unicode : Unicode
  now : Instant
  uuid : Nat
  /-- What other requests write between the first read and the transaction. -/
  meanwhile : Database → Database
  getFault : Option PyException
  inspect : InspectFaults
  hashFault : Option OSError
  move : MoveCall → Option OSError
  loadFault : Option PyException
  auditFault : Option PyException
  flushFault : Option PyException
  commitFault : Option PyException
  restore : MoveCall → Option OSError
  relocate : InspectFaults
  unlink : UnlinkCall → Option OSError
  reloadFault : Option PyException

namespace ServiceEnvironment

variable (env : ServiceEnvironment)

/-- The environment of the move out of an area. -/
def moving : MoveEnvironment := ⟨env.links, env.device, env.move⟩

/-- The environment of the compensating move. -/
def restoring : MoveEnvironment := ⟨env.links, env.device, env.restore⟩

end ServiceEnvironment

/-- A step on the file system alone. -/
def onTree {α : Type} (x : TreeProgram α) : HostProgram α := fun host => match x host.tree with
  | (outcome, tree) => (outcome, { host with tree := tree })

/-- A step on the database alone. -/
def onDatabase {α : Type} (x : CatalogProgram α) : HostProgram α := fun host => match x host.database with
  | (outcome, database) => (outcome, { host with database := database })

/-- `with self.database.transaction() as session`. -/
def transaction {α : Type} (commitFault : Option PyException) (body : CatalogProgram α) : HostProgram α := fun host =>
  match (body >>= fun a => guarded commitFault (pure a)) host.database with
  | (.ok a, database) => (.ok a, { host with database := database, commits := host.commits + 1 })
  | (.error e, _) => (.error e, host)

/-- The foreign keys have a parent row for each file and each release. -/
def getWithGraph (fault : Option PyException) (fileId : Nat) : CatalogProgram (Option FileGraph) := guarded fault do
  match ← read (Database.file? fileId) with
  | none => return none
  | some file =>
      match ← read (Database.release? file.releaseId) with
      | none => raise .attributeError
      | some release =>
          match ← read (Database.software? release.softwareId) with
          | none => raise .attributeError
          | some software => return some ⟨file, release, software⟩

def requireGraph (fault : Option PyException) (fileId : Nat) : CatalogProgram FileGraph := do
  match ← getWithGraph fault fileId with
  | none => raise (entityNotFound "Release file not found.")
  | some graph => return graph

/-- The row and, by its foreign key, the counters of the file. -/
def deleteFile (fileId : Nat) (database : Database) : Database :=
  { database with
    files := database.files.filter fun row => row.id ≠ fileId
    downloadStats := database.downloadStats.filter fun row => row.releaseFileId ≠ fileId }

/-- What a deletion reports. -/
structure FileDeletionResult where
  fileId : Nat
  releaseId : Nat
  physicalFilePreserved : Bool
  storageArea : Option StorageArea

namespace FileService

variable (env : ServiceEnvironment)

/-- `get`: the file with its release and its software. -/
def get (fault : Option PyException) (fileId : Nat) : HostProgram FileGraph := onDatabase (requireGraph fault fileId)

/-- `_ensure_publish_ready`: the file, its signature, its parents and the scanner
must allow the publication. -/
def ensurePublishReady (unicode : Unicode) (graph : FileGraph) : Except PyException Unit := do
  require (graph.file.status = .ready) (invalidStateTransition "Only a ready file can be published.")
  require (assessStoredSignature unicode graph.file.fileExtension graph.file.detectedMimeType = .isMatch)
    (fileValidationError "The stored file signature is not approved for publication.")
  require (graph.release.status = .published) (invalidStateTransition "The parent release must be published first.")
  require graph.software.Released (invalidStateTransition "The parent software must be published or hidden first.")
  require (graph.file.scannerStatus = .clean ∨ graph.file.scannerStatus = .unavailable)
    (invalidStateTransition "The scanner result must be clean or unavailable before publication.")

/-- `_ensure_deletable`: a published file must be disabled or archived first. -/
def ensureDeletable (graph : FileGraph) : Except PyException Unit :=
  require (graph.file.status ≠ .published)
    (invalidStateTransition "Disable or archive a published file before deletion.")

/-- `sha256_file`. -/
def sha256File (fault : Option OSError) (path : List PyStr) (tree : Directory) : Except PyException (PyStr × Nat) :=
  match fault with
  | some e => .error (.os e)
  | none => match tree.file? path with
      | some (.file content) => .ok (Sha256.hexdigest content, content.length)
      | _ => .error (.os .fileNotFoundError)

/-- `_verified_physical_file`: the located file has the size of its row and, where
that is asked for, its digest. -/
def verifiedPhysicalFile (file : ReleaseFile) (verifyHash : Bool) (tree : Directory) : Except PyException StoredFile := do
  let stored ← locateStoredFile env.links env.paths env.inspect file.relativeStoragePath tree
  require (stored.sizeBytes = file.fileSizeBytes)
    (fileValidationError "The stored file size no longer matches its metadata.")
  if verifyHash = true then do
    let measured ← sha256File env.hashFault stored.path tree
    require (measured.2 = file.fileSizeBytes ∧ measured.1 = file.sha256)
      (fileValidationError "The stored file checksum no longer matches its metadata.")
    return stored
  else return stored

/-- The physical file of a row, where the row was read before. -/
def physicalFile (graph : FileGraph) (verifyHash : Bool) : HostProgram StoredFile := do
  let tree ← read Host.tree
  lift (verifiedPhysicalFile env graph.file verifyHash tree)

/-- The move of a stored file between two areas, under the same relative path. -/
def areaMove (stored : StoredFile) (source destination : StorageArea) : MoveRequest :=
  ⟨env.paths.root source, stored.relativePath, env.paths.root destination, stored.relativePath⟩

/-- `_restore_move_after_failure`: the way back. A storage error on it says that the
compensation was incomplete. -/
def restoreMoveAfterFailure (stored : StoredFile) (source destination : StorageArea) : HostProgram Unit :=
  tryExcept
    (do
      let _ ← onTree (atomicMove env.restoring (areaMove env stored source destination))
      return ())
    (fun e => match e with
      | .application .storageError _ => raise (.storageError
          "The file lifecycle action failed and storage compensation was incomplete.")
      | _ => raise e)

/-- Application errors are raised again, others become a storage error. -/
def reraise {α : Type} (e : PyException) (message : String) : HostProgram α :=
  if e.isApplication = true then raise e else raise (.storageError message)

/-- The requests that change the database between the read and the transaction. -/
def others : HostProgram Unit := write fun host => { host with database := env.meanwhile host.database }

/-- Saving a changed row, with its audit event. -/
def save (file : ReleaseFile) : CatalogProgram Unit := do
  lift (match env.auditFault with | some e => .error e | none => .ok ())
  guarded env.flushFault (write (Database.saveFile file))

/-- The transaction of `publish`, which checks the row again. -/
def publishMetadata (fileId : Nat) (stored : StoredFile) : CatalogProgram Unit := do
  let current ← requireGraph env.loadFault fileId
  lift (ensurePublishReady env.unicode current)
  lift (require (current.file.relativeStoragePath = stored.relativePath)
    (.storageError "File metadata changed during publication."))
  let file ← lift (applyFileTransition current.software current.release current.file .published env.now)
  save env { file with relativeStoragePath := stored.relativePath }

/-- `publish`: the file goes from the quarantine to the software area, then the row
becomes published. -/
def publish (fileId : Nat) : HostProgram FileGraph := do
  let graph ← get env.getFault fileId
  lift (ensurePublishReady env.unicode graph)
  let stored ← physicalFile env graph true
  lift (require (stored.area = .quarantine)
    (.storageError "A ready file must be located in quarantine before publication."))
  let _ ← onTree (atomicMove env.moving (areaMove env stored .quarantine .software))
  others env
  tryExcept (transaction env.commitFault (publishMetadata env fileId stored)) fun e => do
    restoreMoveAfterFailure env stored .software .quarantine
    reraise e "File publication metadata could not be saved."
  get env.reloadFault fileId

/-- The transaction of a change of the status. -/
def transitionMetadata (fileId : Nat) (target : FileStatus) : CatalogProgram ReleaseFile := do
  let current ← requireGraph env.loadFault fileId
  let file ← lift (applyFileTransition current.software current.release current.file target env.now)
  save env file
  return file

/-- A change of the status without a move; the physical file must be there. -/
def transitionWithStorageCheck (fileId : Nat) (target : FileStatus) : HostProgram FileGraph := do
  let graph ← get env.getFault fileId
  let _ ← physicalFile env graph false
  others env
  let _ ← transaction env.commitFault (transitionMetadata env fileId target)
  get env.reloadFault fileId

/-- `disable`, with that check. -/
def disable (fileId : Nat) : HostProgram FileGraph := transitionWithStorageCheck env fileId .disabled

/-- `archive`, likewise. -/
def archive (fileId : Nat) : HostProgram FileGraph := transitionWithStorageCheck env fileId .archived

/-- `review_status`: a manual decision on a file in the quarantine. -/
def reviewStatus (fileId : Nat) (target : FileStatus) : HostProgram FileGraph := do
  lift (require (target = .ready ∨ target = .rejected ∨ target = .quarantine)
    (invalidStateTransition "This status is not a manual review decision."))
  let graph ← get env.getFault fileId
  let stored ← physicalFile env graph false
  lift (require (stored.area = .quarantine) (.storageError "Files under review must remain in quarantine storage."))
  others env
  let _ ← transaction env.commitFault (transitionMetadata env fileId target)
  get env.reloadFault fileId

/-- `verify_integrity`: the digest is measured, and the transaction writes an audit
event only. -/
def verifyIntegrity (fileId : Nat) : HostProgram FileGraph := do
  let graph ← get env.getFault fileId
  let _ ← physicalFile env graph true
  others env
  transaction env.commitFault (do
    let _ ← requireGraph env.loadFault fileId
    lift (match env.auditFault with | some e => .error e | none => .ok ()))
  return graph

/-- `transition_status`, which looks at no physical file. -/
def transitionStatus (fileId : Nat) (target : FileStatus) : HostProgram ReleaseFile :=
  transaction env.commitFault (transitionMetadata env fileId target)

/-- `set_visibility`, in any status of the file. -/
def setVisibility (fileId : Nat) (visibility : Visibility) : HostProgram ReleaseFile :=
  transaction env.commitFault (do
    match ← guarded env.loadFault (read (Database.file? fileId)) with
    | none => raise (entityNotFound "Release file not found.")
    | some file => do
        save env { file with visibility := visibility }
        return { file with visibility := visibility })

/-- `restore_ready`: back to the ready status, and back to the quarantine if the
file is in the software area. -/
def restoreReady (fileId : Nat) : HostProgram FileGraph := do
  let graph ← get env.getFault fileId
  let stored ← physicalFile env graph false
  if stored.area = .software then do
    let _ ← onTree (atomicMove env.moving (areaMove env stored .software .quarantine))
    others env
    let _ ← tryExcept (transaction env.commitFault (transitionMetadata env fileId .ready)) fun e => do
      restoreMoveAfterFailure env stored .quarantine .software
      reraise e "File restore metadata could not be saved."
    get env.reloadFault fileId
  else do
    others env
    let _ ← tryExcept (transaction env.commitFault (transitionMetadata env fileId .ready)) fun e =>
      reraise e "File restore metadata could not be saved."
    get env.reloadFault fileId

def deleteMetadataRow (fileId : Nat) : CatalogProgram Nat := do
  let current ← requireGraph env.loadFault fileId
  lift (ensureDeletable current)
  guarded env.flushFault (write (deleteFile fileId))
  lift (match env.auditFault with | some e => .error e | none => .ok ())
  return current.file.releaseId

/-- `delete_metadata`: the row goes and the physical file stays. -/
def deleteMetadata (fileId : Nat) : HostProgram FileDeletionResult := do
  let graph ← get env.getFault fileId
  lift (ensureDeletable graph)
  let tree ← read Host.tree
  let stored ← lift (inspectStoredFiles env.links env.paths env.inspect graph.file.relativeStoragePath tree)
  lift (require (stored.length ≤ 1) (.storageError "The physical file exists in multiple storage locations."))
  others env
  let releaseId ← transaction env.commitFault (deleteMetadataRow env fileId)
  return ⟨fileId, releaseId, !stored.isEmpty, stored.head?.map (·.area)⟩

/-- The transaction of `permanently_delete`, which checks the row again. -/
def permanentlyDeleteRow (fileId : Nat) (stored : StoredFile) : CatalogProgram Nat := do
  let current ← requireGraph env.loadFault fileId
  lift (ensureDeletable current)
  lift (require (current.file.relativeStoragePath = stored.relativePath)
    (.storageError "File metadata changed during permanent deletion."))
  guarded env.flushFault (write (deleteFile fileId))
  lift (match env.auditFault with | some e => .error e | none => .ok ())
  return current.file.releaseId

/-- `permanently_delete`: the file is staged, the row is deleted, and then the
staged file is removed. -/
def permanentlyDelete (fileId : Nat) : HostProgram FileDeletionResult := do
  let graph ← get env.getFault fileId
  lift (ensureDeletable graph)
  let stored ← physicalFile env graph false
  let staged ← onTree (stageForPermanentDeletion env.moving env.paths env.uuid stored)
  others env
  let releaseId ← tryExcept (transaction env.commitFault (permanentlyDeleteRow env fileId stored)) fun e => do
    tryExcept
      (do
        let _ ← onTree (restoreStagedDeletion env.restoring env.paths env.relocate staged)
        return ())
      (fun restoreError => match restoreError with
        | .application .storageError _ => raise (.storageError
            "Permanent deletion failed and the physical file could not be restored.")
        | _ => raise restoreError)
    reraise e "File metadata could not be permanently deleted."
  tryExcept (onTree (unlinkStagedDeletion env.links env.unlink env.paths staged)) fun e => match e with
    | .application .storageError _ => raise (.storageError
        "Metadata was removed, but staged file cleanup requires operator attention.")
    | _ => raise e
  return ⟨fileId, releaseId, false, some stored.area⟩

end FileService
end SoftwareHub.Lifecycle
