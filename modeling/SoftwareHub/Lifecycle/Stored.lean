import SoftwareHub.Python.Sha256
import SoftwareHub.Storage.AllOrNothing
import SoftwareHub.Storage.Areas

/-! Private storage inspection and deletion staging: which file of the areas belongs
to a row, and how one is put aside before it is deleted. -/
namespace SoftwareHub.Lifecycle

open SoftwareHub.Python SoftwareHub.Tree SoftwareHub.Semantics Program
open SoftwareHub.Backup (Directory Leaf isDir isSymlink pathExists)
open SoftwareHub.Storage (Links MoveCall MoveEnvironment MoveRequest MoveResult StorageArea TreeProgram atomicMove
  posixText safeResolve)

/-- The three private directories. -/
structure StoragePaths where
  quarantine : List PyStr
  software : List PyStr
  temporary : List PyStr

def StoragePaths.root (paths : StoragePaths) : StorageArea → List PyStr
  | .quarantine => paths.quarantine
  | .software => paths.software

/-- A physical file of an area, with its size. -/
structure StoredFile where
  area : StorageArea
  relativePath : PyStr
  path : List PyStr
  sizeBytes : Nat
  deriving DecidableEq

/-- A file that has been moved below the temporary root. -/
structure StagedDeletion where
  original : StoredFile
  stagedRelativePath : PyStr
  stagedPath : List PyStr

/-- Which calls of one inspection fail. -/
structure InspectFaults where
  root : StorageArea → Option OSError
  resolve : StorageArea → Option OSError
  lstat : StorageArea → Option OSError

/-- No call of an inspection fails. -/
def InspectFaults.never : InspectFaults := ⟨fun _ => none, fun _ => none, fun _ => none⟩

section Inspection

variable (links : Links) (paths : StoragePaths) (faults : InspectFaults)

/-- The regular file of one area. -/
def inspectArea (relative : PyStr) (area : StorageArea) (tree : Directory) : Except PyException (Option StoredFile) := do
  let candidate ← safeResolve links (faults.root area) (faults.resolve area) (paths.root area) relative false true tree
  if ¬pathExists (tree.node? candidate) = true then return none
  else do
    require (faults.lstat area = none) (.storageError "The stored file is unavailable.")
    match tree.node? candidate with
    | some (.leaf (.file content)) => return some ⟨area, relative, candidate, content.length⟩
    | _ => .error (.storageError "Stored release content must be a regular file.")

/-- `inspect_stored_files`: the files of a relative path in both areas. -/
def inspectStoredFiles (relativePath : PyStr) (tree : Directory) : Except PyException (List StoredFile) := do
  let relative := posixText relativePath
  let quarantine ← inspectArea links paths faults relative .quarantine tree
  let software ← inspectArea links paths faults relative .software tree
  return quarantine.toList ++ software.toList

/-- `locate_stored_file`: exactly one of them must be there. -/
def locateStoredFile (relativePath : PyStr) (tree : Directory) : Except PyException StoredFile := do
  match ← inspectStoredFiles links paths faults relativePath tree with
  | [] => .error (.storageError "The physical file is missing from private storage.")
  | [stored] => return stored
  | _ => .error (.storageError "The physical file exists in multiple storage locations.")

end Inspection

/-- `uuid4().hex`. -/
def uuidHex (uuid : Nat) : PyStr := Sha256.hexDigits 32 uuid

/-- The path of a staged file below the temporary root. -/
def stagedRelativePath (uuid : Nat) : PyStr := py "deletions/" ++ uuidHex uuid ++ py ".delete"

section Staging

variable (env : MoveEnvironment) (paths : StoragePaths)

/-- `stage_for_permanent_deletion`: one atomic move. -/
def stageForPermanentDeletion (uuid : Nat) (stored : StoredFile) : TreeProgram StagedDeletion := do
  let result ← atomicMove env
    ⟨paths.root stored.area, stored.relativePath, paths.temporary, stagedRelativePath uuid⟩
  return ⟨stored, stagedRelativePath uuid, result.destination⟩

/-- `restore_staged_deletion`: the move back, and the file looked for where it was. -/
def restoreStagedDeletion (faults : InspectFaults) (staged : StagedDeletion) : TreeProgram StoredFile := do
  let _ ← atomicMove env
    ⟨paths.temporary, staged.stagedRelativePath, paths.root staged.original.area, staged.original.relativePath⟩
  let tree ← read id
  lift (locateStoredFile env.links paths faults staged.original.relativePath tree)

end Staging

/-- The calls of removing a staged file. -/
inductive UnlinkCall
  | resolveRoot
  | resolve
  | lstat
  | unlink
  | openParent
  | syncParent
  | closeParent
  deriving DecidableEq

/-- `unlink_staged_deletion`: a regular file is removed, and its directory
synchronised. -/
def unlinkStagedDeletion (links : Links) (signal : UnlinkCall → Option OSError) (paths : StoragePaths)
    (staged : StagedDeletion) : TreeProgram Unit := do
  let tree ← read id
  let path ← lift (safeResolve links (signal .resolveRoot) (signal .resolve) paths.temporary staged.stagedRelativePath
    true true tree)
  lift (require (signal .lstat = none) (.storageError "The staged file is unavailable."))
  match tree.node? path with
  | some (.leaf (.file _)) => do
      lift (require (signal .unlink = none) (.storageError "The staged file could not be permanently deleted."))
      write fun tree => tree.erase path
      lift (require (signal .openParent = none ∧ signal .syncParent = none ∧ signal .closeParent = none)
        (.storageError "The staged file could not be permanently deleted."))
  | _ => raise (.storageError "Only a staged regular file can be permanently deleted.")

end SoftwareHub.Lifecycle
