import SoftwareHub.Storage.Paths

/-! Atomic same-filesystem moves, call by call: the checks of the two paths, the
directories above the destination, the rename, and the synchronization after it. -/
namespace SoftwareHub.Storage

open SoftwareHub.Python SoftwareHub.Tree SoftwareHub.Semantics Program
open SoftwareHub.Backup (Leaf Directory Entry isDir isSymlink pathExists)

/-- The calls to the file system; the directories of a destination are made
one by one, from depth 0 on. -/
inductive MoveCall
  | resolveSourceRoot
  | resolveSource
  | resolveDestinationRoot
  | resolveDestination
  | resolveParentRoot
  | resolveDirectoryRoot (depth : Nat)
  | resolveDirectory (depth : Nat)
  | makeDirectory (depth : Nat)
  | chmodDirectory (depth : Nat)
  | statSource
  | statParent
  | statHardened
  | chmodSource
  | openSource
  | syncSource
  | closeSource
  | rename
  | openParent
  | syncParent
  | closeParent
  deriving DecidableEq

/-- The file system around a move: where links lead, on which device a path
lies, and which calls fail. -/
structure MoveEnvironment where
  links : Links
  device : List PyStr → Nat
  signal : MoveCall → Option OSError

/-- The arguments of `atomic_move`. -/
structure MoveRequest where
  sourceRoot : List PyStr
  sourceRelativePath : PyStr
  destinationRoot : List PyStr
  destinationRelativePath : PyStr

/-- What `atomic_move` returns: the real paths and the size of the file. -/
structure MoveResult where
  destination : List PyStr
  sizeBytes : Nat
  deriving DecidableEq

/-- A program that changes a directory tree. -/
abbrev TreeProgram (α : Type) : Type := Program Directory PyException α

section Calls

variable (env : MoveEnvironment)

/-- A call whose failure is raised as it is, as an `OSError`. -/
def plainCall (call : MoveCall) : TreeProgram Unit := guarded ((env.signal call).map .os) (pure ())

/-- A call whose failure becomes a `StorageError` with the message of its `except`
clause. -/
def storageCall (call : MoveCall) (message : String) : TreeProgram Unit :=
  guarded ((env.signal call).map fun _ => .storageError message) (pure ())

/-- `path.mkdir(exist_ok=True)`, which fails on a file of that name. -/
def makeDirectory (path : List PyStr) (tree : Directory) : Except OSError Directory :=
  match tree.node? path with
  | some (.dir _) => .ok tree
  | some _ => .error .fileExistsError
  | none => match tree.node? path.dropLast with
    | some (.dir _) => match tree.mkdirs path with
      | some made => .ok made
      | none => .error .notADirectoryError
    | _ => .error .fileNotFoundError

/-- One iteration of `ensure_private_parent`: the directory is made, checked and
resolved. -/
def ensureDirectory (depth : Nat) (root above : List PyStr) : TreeProgram (List PyStr) := do
  let tree ← read id
  let resolvedRoot ← lift (resolveRoot env.links (env.signal (.resolveDirectoryRoot depth)) root tree)
  let current ← lift
    (resolveBelow env.links (env.signal (.resolveDirectory depth)) resolvedRoot above false true tree)
  storageCall env (.makeDirectory depth) "A storage directory could not be created securely."
  match makeDirectory current tree with
  | .error _ => raise (.storageError "A storage directory could not be created securely.")
  | .ok made => do
      write fun _ => made
      storageCall env (.chmodDirectory depth) "A storage directory could not be created securely."
      return current

/-- The directories of `rest` below `above`, one after the other. -/
def ensureDirectories (root : List PyStr) : List PyStr → List PyStr → List PyStr → TreeProgram (List PyStr)
  | current, _, [] => pure current
  | _, above, name :: rest => do
      let current ← ensureDirectory env above.length root (above ++ [name])
      ensureDirectories root current (above ++ [name]) rest

/-- `ensure_private_parent`: every directory between the root and the file of a
relative path. -/
def ensurePrivateParent (root : List PyStr) (relativePath : PyStr) : TreeProgram (List PyStr) := do
  let names ← lift (rejectUnsafeRelativePath relativePath)
  plainCall env .resolveParentRoot
  let resolvedRoot ← read fun tree => realPathFrom env.links tree [] root
  if (← read fun tree => tree.node? resolvedRoot) = none then raise (.os .fileNotFoundError)
  else ensureDirectories env root resolvedRoot [] names.dropLast

/-- `harden_file_permissions` of the source; its `chmod` may fail. -/
def hardenFilePermissions (path : List PyStr) : TreeProgram Unit := do
  storageCall env .statHardened "Stored file permissions could not be secured."
  match ← read fun tree => tree.node? path with
  | none => raise (.storageError "Stored file permissions could not be secured.")
  | some (.leaf (.file _)) => storageCall env .chmodSource "Stored file permissions could not be secured."
  | some _ => raise (.storageError "Only regular files can be stored.")

/-- `fsync_file` of the source. -/
def fsyncFile : TreeProgram Unit := do
  storageCall env .openSource "The file could not be synchronized before moving."
  tryFinally (storageCall env .syncSource "The file could not be synchronized before moving.")
    (plainCall env .closeSource)

/-- `fsync_directory`, the last call of a move. -/
def fsyncDirectory : TreeProgram Unit := do
  storageCall env .openParent "The storage directory could not be synchronized."
  tryFinally (storageCall env .syncParent "The storage directory could not be synchronized.")
    (plainCall env .closeParent)

/-- What the checks before the rename establish: both real paths, and the size of
the file. -/
structure PreparedMove where
  source : List PyStr
  destination : List PyStr
  parent : List PyStr
  sizeBytes : Nat

/-- Everything before `source.replace(destination)`, in the order of the source. -/
def prepareMove (move : MoveRequest) : TreeProgram PreparedMove := do
  let tree ← read id
  let source ← lift (safeResolve env.links (env.signal .resolveSourceRoot) (env.signal .resolveSource)
    move.sourceRoot move.sourceRelativePath true true tree)
  let destination ← lift (safeResolve env.links (env.signal .resolveDestinationRoot)
    (env.signal .resolveDestination) move.destinationRoot move.destinationRelativePath false false tree)
  let parent ← ensurePrivateParent env move.destinationRoot move.destinationRelativePath
  storageCall env .statSource "The source file is unavailable."
  match ← read fun tree => tree.node? source with
  | none => raise (.storageError "The source file is unavailable.")
  | some (.leaf (.file content)) => do
      let target ← read fun tree => tree.node? destination
      if pathExists target = true ∨ isSymlink target = true then
        raise (.storageError "The destination storage filename already exists.")
      else do
        storageCall env .statParent "The destination storage directory is unavailable."
        if env.device source ≠ env.device parent then
          raise (.storageError "Atomic storage moves require the same filesystem.")
        else do
          hardenFilePermissions env source
          fsyncFile env
          return ⟨source, destination, parent, content.length⟩
  | some _ => raise (.storageError "Only regular files can be moved into storage.")

/-- `os.rename`, where nothing is at the destination: the checks before have refused
anything else. -/
def renameFile (source destination : List PyStr) (tree : Directory) : Except OSError Directory :=
  match tree.file? source with
  | none => .error .fileNotFoundError
  | some leaf => match tree.node? destination.dropLast with
    | some (.dir _) => match (tree.erase source).create destination (.leaf leaf) with
      | some renamed => .ok renamed
      | none => .error .other
    | _ => .error .fileNotFoundError

/-- `source.replace(destination)`. -/
def replace (source destination : List PyStr) : TreeProgram Unit := do
  plainCall env .rename
  match ← read (renameFile source destination) with
  | .ok renamed => write fun _ => renamed
  | .error kind => raise (.os kind)

/-- The rename and the synchronization of the destination directory, whose failure
comes too late. -/
def finishMove (prepared : PreparedMove) : TreeProgram MoveResult := do
  tryExcept
    (do
      replace env prepared.source prepared.destination
      fsyncDirectory env)
    (fun e => if e.isOSError = true then raise (.storageError "The file could not be moved atomically.") else raise e)
  return ⟨prepared.destination, prepared.sizeBytes⟩

/-- `atomic_move`: the checks, the rename, and what follows it. -/
def atomicMove (move : MoveRequest) : TreeProgram MoveResult := do
  let prepared ← prepareMove env move
  finishMove env prepared

end Calls
end SoftwareHub.Storage
