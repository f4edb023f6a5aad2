import SoftwareHub.Backup.Creation

/-! Restoring a verified backup: staged copies replace the live storage and the live
database, and a failure takes the replacements back. -/
namespace SoftwareHub.Backup

open SoftwareHub.Python SoftwareHub.Tree SoftwareHub.Semantics SoftwareHub.Semantics.Program

/-- The files of a database, by the suffix of their names. -/
inductive DatabasePart
  | main
  | wal
  | shm
  deriving DecidableEq, Repr

namespace DatabaseFiles

def part (files : DatabaseFiles) : DatabasePart → Option Leaf
  | .main => files.main
  | .wal => files.wal
  | .shm => files.shm

/-- A database with another file in one place. -/
def setPart (files : DatabaseFiles) (leaf : Option Leaf) : DatabasePart → DatabaseFiles
  | .main => { files with main := leaf }
  | .wal => { files with wal := leaf }
  | .shm => { files with shm := leaf }

def empty : DatabaseFiles := ⟨none, none, none⟩

/-- A database is its three files. -/
theorem ext_part {first second : DatabaseFiles} (h : ∀ part, first.part part = second.part part) : first = second := by
  rcases first with ⟨main, wal, shm⟩
  rcases second with ⟨main', wal', shm'⟩
  have hMain : main = main' := h .main
  have hWal : wal = wal' := h .wal
  have hShm : shm = shm' := h .shm
  rw [hMain, hWal, hShm]

@[simp] theorem part_empty (part : DatabasePart) : empty.part part = none := by cases part <;> rfl

/-- What is in each place after one has been set. -/
theorem part_setPart (files : DatabaseFiles) (leaf : Option Leaf) (target part : DatabasePart) :
    (files.setPart leaf target).part part = if part = target then leaf else files.part part := by
  cases target <;> cases part <;> rfl

end DatabaseFiles

/-- The calls of a restore: of its body, of its compensation, of its cleanup. -/
inductive RestoreCall
  | copyTree
  | makeTemporary
  | copyDatabase
  | checkStage
  | statStorage
  | moveStorage
  | installStorage
  | makeRollback
  | moveAside (part : DatabasePart)
  | installDatabase
  | checkDatabase
  | removeStorageRollback
  | removeDatabaseRollback
  | unlinkDatabase
  | statDatabaseRollback
  | listDatabaseRollback
  | moveBack (part : DatabasePart)
  | removeStorage
  | statStorageRollback
  | restoreStorage
  | removeStage
  | unlinkStage
  | removeRollback
  deriving DecidableEq

/-- The places a restore works on, under names of their own, and its two flags. -/
structure Restoring where
  storage : Option Entry
  storageStage : Option Entry
  storageRollback : Option Entry
  database : DatabaseFiles
  databaseStage : Option Leaf
  databaseRollback : Option DatabaseFiles
  storageReplaced : Bool
  databaseReplaced : Bool

/-- A program on the places of a restore; interrupts are raised as well. -/
abbrev RestoreProgram (α : Type) : Type := Program Restoring BaseException α

/-- What happens to a restore: which calls raise, what copies that fail
half-way leave, what `rmtree` leaves, and what the migration does. -/
structure RestoreEnvironment where
  signal : RestoreCall → Option BaseException
  partialStage : Option Entry
  partialDatabase : Option Leaf
  remains : RestoreCall → Directory → Option Entry
  remainingFiles : RestoreCall → DatabaseFiles → Option DatabaseFiles
  upgrade : DatabaseFiles → Option BaseException × DatabaseFiles
  listing : List DatabasePart
  listing_perm : listing.Perm [.main, .wal, .shm]

/-- `os.rename` of an entry to a path where another one may be. -/
def renameEntry : Option Entry → Option Entry → Except OSError Unit
  | none, _ => .error .fileNotFoundError
  | some _, none => .ok ()
  | some (.dir _), some (.dir .nil) => .ok ()
  | some (.dir _), some (.dir _) => .error .directoryNotEmpty
  | some (.dir _), some (.leaf _) => .error .notADirectoryError
  | some (.leaf _), some (.leaf _) => .ok ()
  | some (.leaf _), some (.dir _) => .error .isADirectoryError

section Restore

variable (sqlite : Sqlite) (settings : Settings) (env : RestoreEnvironment)

/-- A call that may raise before its effect. -/
def restoreCall {α : Type} (call : RestoreCall) (x : RestoreProgram α) : RestoreProgram α := guarded (env.signal call) x

/-- An exception of the service is raised. -/
def raiseException {α : Type} (e : PyException) : RestoreProgram α := raise (.exception e)

def liftException {α : Type} : Except PyException α → RestoreProgram α
  | .ok a => pure a
  | .error e => raiseException e

/-- `path.replace(target)`. -/
def renamePath (source target : Restoring → Option Entry) (renamed : Restoring → Restoring) : RestoreProgram Unit := do
  match renameEntry (← read source) (← read target) with
  | .ok _ => write renamed
  | .error kind => raiseException (.os kind)

/-- What `shutil.rmtree(path, ignore_errors=True)` leaves; it does nothing to what is no directory. -/
def removeTree (call : RestoreCall) : Option Entry → Option Entry
  | some (.dir tree) => env.remains call tree
  | other => other

/-- Errors are ignored, interrupts are not. -/
def ignoringErrors (call : RestoreCall) : RestoreProgram Unit :=
  match env.signal call with
  | none => pure ()
  | some (.exception _) => pure ()
  | some e => raise e

/-- `shutil.copytree(backup / "storage", storage_stage)`; a verified backup has regular files only. -/
def stageStorage (backup : Directory) : RestoreProgram Unit := do
  match env.signal .copyTree, backup.find storageFolder with
  | some e, _ => do
      write fun s => { s with storageStage := env.partialStage }
      raise e
  | none, none => raiseException (.os .fileNotFoundError)
  | none, some (.leaf _) => raiseException (.os .notADirectoryError)
  | none, some (.dir tree) =>
      if tree.AllLeaves Leaf.IsRegular then write fun s => { s with storageStage := some (.dir tree) }
      else do
        write fun s => { s with storageStage := env.partialStage }
        raiseException (.os .shutilError)

/-- `(storage_stage / temporary_relative).mkdir(parents=True, exist_ok=True)`. -/
def makeTemporaryRoot : RestoreProgram Unit := do
  match settings.temporaryRelative with
  | none => raiseException .valueError
  | some path => restoreCall env .makeTemporary (do
      match ← read Restoring.storageStage with
      | some (.dir tree) => match tree.mkdirs path with
          | some made => write fun s => { s with storageStage := some (.dir made) }
          | none => raiseException (.os (if (tree.file? path).isSome then .fileExistsError else .notADirectoryError))
      | _ => raiseException (.os .fileNotFoundError))

/-- `_copy_regular_file` from the backup to the stage of the database. -/
def stageDatabase (backup : Directory) : RestoreProgram Unit := do
  match env.signal .copyDatabase, backup.file? databaseEntryPath with
  | some e, _ => do
      write fun s => { s with databaseStage := env.partialDatabase }
      raise e
  | none, some (.file content) => do
      if (← read Restoring.databaseStage) = none then
        write fun s => { s with databaseStage := some (.file content) }
      else raiseException (.storageError "A backup destination unexpectedly already exists.")
  | none, _ => raiseException (.storageError "A backup source file is unavailable.")

/-- `self.storage_root.replace(storage_rollback)`, if there is a storage root. -/
def moveStorageAside : RestoreProgram Unit := do
  restoreCall env .statStorage (pure ())
  if pathExists (← read Restoring.storage) = true then
    restoreCall env .moveStorage (renamePath Restoring.storage Restoring.storageRollback fun s =>
      { s with storage := none, storageRollback := s.storage })

/-- The old storage tree is moved aside, and the stage takes its place. -/
def replaceStorage : RestoreProgram Unit := do
  moveStorageAside env
  restoreCall env .installStorage (renamePath Restoring.storageStage Restoring.storage fun s =>
    { s with storage := s.storageStage, storageStage := none, storageReplaced := true })

/-- `path.replace(rollback / path.name)`, for one file of the database. -/
def moveAside (part : DatabasePart) : RestoreProgram Unit :=
  restoreCall env (.moveAside part) (do
    match ← read fun s => s.database.part part with
    | none => pure ()
    | some leaf => write fun s => { s with
        database := s.database.setPart none part
        databaseRollback := s.databaseRollback.map fun files => files.setPart (some leaf) part })

/-- `_move_database_aside`. -/
def moveDatabaseAside : RestoreProgram Unit := do
  restoreCall env .makeRollback (do
    if (← read Restoring.databaseRollback) = none then
      write fun s => { s with databaseRollback := some .empty }
    else raiseException (.os .fileExistsError))
  forEach [.main, .wal, .shm] (moveAside env)

/-- `database_stage.replace(self.database_path)`. -/
def installDatabase : RestoreProgram Unit :=
  restoreCall env .installDatabase (do
    match ← read Restoring.databaseStage with
    | none => raiseException (.os .fileNotFoundError)
    | some leaf => write fun s => { s with
        database := s.database.setPart (some leaf) .main
        databaseStage := none
        databaseReplaced := true })

/-- `upgrade_database`. -/
def upgradeDatabase : RestoreProgram Unit := do
  let (signal, files) ← read fun s => env.upgrade s.database
  write fun s => { s with database := files }
  match signal with
  | none => pure ()
  | some e => raise e

/-- Up to the first call that changes the live state. The side files that the
check may leave beside the staged database are no live files and not kept here. -/
def stageBackup (backup : Directory) : RestoreProgram Unit := do
  stageStorage env backup
  makeTemporaryRoot settings env
  stageDatabase env backup
  restoreCall env .checkStage (do
    let staged ← read Restoring.databaseStage
    liftException (sqliteIntegrityCheck sqlite ⟨staged, none, none⟩))

def installBackup (backup : Directory) : RestoreProgram Unit := do
  stageBackup sqlite settings env backup
  replaceStorage env
  moveDatabaseAside env
  installDatabase env

/-- The migration and the last check, whose connection may leave side files. -/
def finishDatabase : RestoreProgram Unit := do
  upgradeDatabase env
  let files ← read Restoring.database
  write fun s => { s with database := sqlite.opened s.database }
  restoreCall env .checkDatabase (liftException (sqliteIntegrityCheck sqlite files))

/-- After the last check both rollbacks are removed. -/
def removeRollbacks : RestoreProgram Unit := do
  write fun s => { s with storageRollback := removeTree env .removeStorageRollback s.storageRollback }
  ignoringErrors env .removeStorageRollback
  write fun s => { s with databaseRollback := s.databaseRollback.bind (env.remainingFiles .removeDatabaseRollback) }
  ignoringErrors env .removeDatabaseRollback

/-- One file of the rollback directory comes back. -/
def moveBack (part : DatabasePart) : RestoreProgram Unit := do
  match ← read fun s => s.databaseRollback.bind fun files => files.part part with
  | none => pure ()
  | some leaf => restoreCall env (.moveBack part) (write fun s => { s with
      database := s.database.setPart (some leaf) part
      databaseRollback := s.databaseRollback.map fun files => files.setPart none part })

/-- `_restore_database_rollback`. -/
def restoreDatabaseRollback : RestoreProgram Unit := do
  restoreCall env .listDatabaseRollback (pure ())
  forEach env.listing (moveBack env)

/-- The installed database is unlinked before the way back. -/
def unlinkInstalled : RestoreProgram Unit := do
  if (← read Restoring.databaseReplaced) = true then
    restoreCall env .unlinkDatabase (write fun s => { s with database := s.database.setPart none .main })

def compensateDatabase : RestoreProgram Unit := do
  unlinkInstalled env
  restoreCall env .statDatabaseRollback (pure ())
  if (← read fun s => s.databaseRollback.isSome) = true then restoreDatabaseRollback env

/-- The installed storage tree is removed before the way back. -/
def removeInstalled : RestoreProgram Unit := do
  if (← read Restoring.storageReplaced) = true then
    write fun s => { s with storage := removeTree env .removeStorage s.storage }
    ignoringErrors env .removeStorage

def compensateStorage : RestoreProgram Unit := do
  removeInstalled env
  restoreCall env .statStorageRollback (pure ())
  if pathExists (← read Restoring.storageRollback) = true then
    restoreCall env .restoreStorage (renamePath Restoring.storageRollback Restoring.storage fun s =>
      { s with storage := s.storageRollback, storageRollback := none })

/-- `except Exception`. -/
def takeBack : BaseException → RestoreProgram Unit
  | .exception e => do
      compensateDatabase env
      compensateStorage env
      raise (.exception e)
  | e => raise e

/-- `finally`. -/
def cleanUp : RestoreProgram Unit := do
  write fun s => { s with storageStage := removeTree env .removeStage s.storageStage }
  ignoringErrors env .removeStage
  restoreCall env .unlinkStage (write fun s => { s with databaseStage := none })
  write fun s => { s with databaseRollback := s.databaseRollback.bind (env.remainingFiles .removeRollback) }
  ignoringErrors env .removeRollback

/-- `_restore_verified_backup`. -/
def restoreVerifiedBackup (backup : Directory) : RestoreProgram Unit :=
  tryFinally
    (tryExcept
      (do
        installBackup sqlite settings env backup
        finishDatabase sqlite env
        removeRollbacks env)
      (takeBack env))
    (cleanUp env)

end Restore
end SoftwareHub.Backup
