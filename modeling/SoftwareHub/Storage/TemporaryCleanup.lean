import SoftwareHub.Python.Exceptions
import SoftwareHub.Semantics.View
import SoftwareHub.Storage.Filename
import SoftwareHub.Tree.Kind
import SoftwareHub.Tree.Walk
import Mathlib.Data.Int.Cast.Basic
import Mathlib.Order.Defs.LinearOrder

/-! The cleanup of temporary uploads, in a tree from which other processes remove
entries while it runs. Every call may find its entry gone, or fail. -/
namespace SoftwareHub.Storage

open SoftwareHub.Python SoftwareHub.Tree SoftwareHub.Semantics Program

/-- The counters that the cleanup returns. -/
structure CleanupReport where
  examined : Nat
  eligible : Nat
  deleted : Nat
  reclaimedBytes : Nat
  skipped : Nat
  errors : Nat
  deriving DecidableEq, Repr

/-- What `lstat` says of an entry that is no directory. -/
inductive TemporaryEntry (τ : Type) where
  | file (size : Nat) (mtime : τ)
  | symlink
  | special
  deriving DecidableEq, Repr

abbrev TemporaryNode (τ : Type) := Node PyStr (TemporaryEntry τ)

/-- The entries below the resolved root, well formed as a file system is. -/
structure TemporaryTree (τ : Type) where
  forest : Forest PyStr (TemporaryEntry τ)
  wellFormed : forest.WellFormed fun _ => True

/-- The outcomes of the calls on the root, before the walk. -/
structure RootCalls where
  isSymlink : Bool
  resolved : Bool
  isDir : Bool

/-- For the call of each number: the entries that vanish before it, and its
failure. -/
structure Surroundings where
  vanished : Nat → List (List PyStr)
  fails : Nat → Option OSError

/-- The cleanup under way, with the number of calls made so far. `unlinked` lists
the files it has unlinked, with their sizes. -/
structure Pass (τ : Type) where
  forest : Forest PyStr (TemporaryEntry τ)
  calls : Nat
  unlinked : List (List PyStr × Nat)
  report : CleanupReport

abbrev PassProgram (τ : Type) := Program (Pass τ) OSError

section Model

variable {τ : Type}

def Pass.start (tree : TemporaryTree τ) : Pass τ := ⟨tree.forest, 0, [], ⟨0, 0, 0, 0, 0, 0⟩⟩

def Pass.vanish (pass : Pass τ) (paths : List (List PyStr)) : Pass τ :=
  { pass with forest := paths.foldl Forest.erase pass.forest, calls := pass.calls + 1 }

def Pass.unlink (pass : Pass τ) (path : List PyStr) (size : Nat) : Pass τ :=
  { pass with forest := pass.forest.erase path, unlinked := pass.unlinked ++ [(path, size)] }

def Pass.count (pass : Pass τ) (f : CleanupReport → CleanupReport) : Pass τ := { pass with report := f pass.report }

/-- `examined += 1`, and the other counters likewise below. -/
def CleanupReport.examine (report : CleanupReport) : CleanupReport := { report with examined := report.examined + 1 }

def CleanupReport.select (report : CleanupReport) : CleanupReport := { report with eligible := report.eligible + 1 }

def CleanupReport.delete (size : Nat) (report : CleanupReport) : CleanupReport :=
  { report with deleted := report.deleted + 1, reclaimedBytes := report.reclaimedBytes + size }

def CleanupReport.skip (report : CleanupReport) : CleanupReport := { report with skipped := report.skipped + 1 }

def CleanupReport.fail (report : CleanupReport) : CleanupReport := { report with errors := report.errors + 1 }

def count (f : CleanupReport → CleanupReport) : PassProgram τ Unit := write fun pass => pass.count f

/-- A system call: others go first, and then it fails or is carried out. -/
def call {α : Type} (env : Surroundings) (operation : PassProgram τ α) : PassProgram τ α := fun pass =>
  guarded (env.fails pass.calls) operation (pass.vanish (env.vanished pass.calls))

/-- A call that reads what is at a path at that moment. -/
def observe {α : Type} (env : Surroundings) (path : List PyStr) (answer : Option (TemporaryNode τ) → Except OSError α) :
    PassProgram τ α :=
  call env fun pass => (answer (pass.forest.node? path), pass)

def lstatAnswer : Option (TemporaryNode τ) → Except OSError (TemporaryNode τ)
  | none => .error .fileNotFoundError
  | some entry => .ok entry

def lstat (env : Surroundings) (path : List PyStr) : PassProgram τ (TemporaryNode τ) := observe env path lstatAnswer

def scandirAnswer : Option (TemporaryNode τ) → Except OSError (Forest PyStr (TemporaryEntry τ))
  | none => .error .fileNotFoundError
  | some (.leaf _) => .error .notADirectoryError
  | some (.dir sub) => .ok sub

def scandir (env : Surroundings) (path : List PyStr) : PassProgram τ (Forest PyStr (TemporaryEntry τ)) :=
  observe env path scandirAnswer

def isLink : TemporaryNode τ → Bool
  | .leaf .symlink => true
  | _ => false

/-- `Path.is_symlink`, which is false if the call fails. -/
def isSymlink (env : Surroundings) (path : List PyStr) : PassProgram τ Bool :=
  tryExcept (do
    let metadata ← lstat env path
    pure (isLink metadata)) fun _ => pure false

def TemporaryEntry.size : TemporaryEntry τ → Nat
  | .file size _ => size
  | _ => 0

def unlinkAt (path : List PyStr) : PassProgram τ Unit := fun pass => match pass.forest.node? path with
  | none => (.error .fileNotFoundError, pass)
  | some (.dir _) => (.error .isADirectoryError, pass)
  | some (.leaf value) => (.ok (), pass.unlink path value.size)

def unlink (env : Surroundings) (path : List PyStr) : PassProgram τ Unit := call env (unlinkAt path)

def isDirectory : TemporaryNode τ → Bool
  | .dir _ => true
  | .leaf _ => false

/-- The names of the subdirectories and the other names. An entry whose `is_dir`
fails is one of the latter. -/
def classify (env : Surroundings) : List (PyStr × TemporaryNode τ) → PassProgram τ (List PyStr × List PyStr)
  | [] => pure ([], [])
  | (name, entry) :: entries => do
      let directory ← tryExcept (call env (pure (isDirectory entry))) fun _ => pure false
      let rest ← classify env entries
      pure (if directory then (name :: rest.1, rest.2) else (rest.1, name :: rest.2))

/-- One step of `Path.walk` with `follow_symlinks=False`. A directory that cannot be
read is passed over. -/
def listDirectory (env : Surroundings) (current : List PyStr) : PassProgram τ (Option (List PyStr × List PyStr)) :=
  tryExcept (do
    let sub ← scandir env current
    let listing ← classify env sub.entries
    pure (some listing)) fun _ => pure none

/-- `directory_names[:] = …`, which drops the links among the directories. -/
def keepDirectories (env : Surroundings) (current : List PyStr) : List PyStr → PassProgram τ (List PyStr)
  | [] => pure []
  | name :: names => do
      let link ← isSymlink env (current ++ [name])
      let rest ← keepDirectories env current names
      pure (if link then rest else name :: rest)

/-- More levels than the tree has, the fuel of the walk. -/
def depth : Forest PyStr (TemporaryEntry τ) → Nat
  | .nil => 1
  | .leaf _ _ rest => depth rest
  | .dir _ sub rest => max (depth sub + 1) (depth rest)

variable [LinearOrder τ]

/-- The rest of the `try` block, from the status of the candidate on: its age, the
dry run, and the removal. -/
def removeCandidate (env : Surroundings) (cutoff : τ) (dryRun : Bool) (path : List PyStr) (name : PyStr) :
    TemporaryNode τ → PassProgram τ Unit
  | .leaf (.file size mtime) =>
      if isTemporaryFilename name = false ∨ cutoff < mtime then count .skip
      else do
        count .select
        if dryRun then pure ()
        else do
          unlink env path
          count (.delete size)
  | _ => count .skip

/-- The body of the loop over the files of one directory. -/
def examineFile (env : Surroundings) (cutoff : τ) (dryRun : Bool) (current : List PyStr) (name : PyStr) :
    PassProgram τ Unit := do
  count .examine
  tryExcept (do
    let metadata ← lstat env (current ++ [name])
    removeCandidate env cutoff dryRun (current ++ [name]) name metadata) fun e =>
      count (if e = .fileNotFoundError then .skip else .fail)

/-- The directory and what is below it, at most `fuel` levels deep. -/
def cleanBelow (env : Surroundings) (cutoff : τ) (dryRun : Bool) : Nat → List PyStr → PassProgram τ Unit
  | 0, _ => pure ()
  | fuel + 1, current => do
      let listing ← listDirectory env current
      match listing with
      | none => pure ()
      | some (directoryNames, fileNames) => do
          let kept ← keepDirectories env current directoryNames
          forEach fileNames (examineFile env cutoff dryRun current)
          forEach kept fun name => cleanBelow env cutoff dryRun fuel (current ++ [name])

/-- `cleanup_temporary_files`: the checks of its arguments and of the root, and then
the walk. -/
def cleanupTemporaryFiles [Sub τ] [IntCast τ] (env : Surroundings) (root : RootCalls) (tree : TemporaryTree τ)
    (maxAgeSeconds : Int) (dryRun : Bool) (nowTimestamp : Option τ) (time : τ) :
    Except PyException CleanupReport × Pass τ :=
  if maxAgeSeconds ≤ 0 then (.error .valueError, .start tree)
  else if root.isSymlink then (.error (.storageError "Temporary storage is not a safe directory."), .start tree)
  else if !root.resolved then (.error (.storageError "Temporary storage is unavailable."), .start tree)
  else if !root.isDir then (.error (.storageError "Temporary storage is not a safe directory."), .start tree)
  else match cleanBelow env (nowTimestamp.getD time - (maxAgeSeconds : τ)) dryRun (depth tree.forest) [] (.start tree) with
    | (.ok (), pass) => (.ok pass.report, pass)
    | (.error kind, pass) => (.error (.os kind), pass)

end Model

end SoftwareHub.Storage
