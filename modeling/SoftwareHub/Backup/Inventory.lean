import SoftwareHub.Backup.Verification
import SoftwareHub.Semantics.Program

/-! The backup root: its recognised directories, the inventory of valid backups, the
operation lock and the retention pass. -/
namespace SoftwareHub.Backup

open SoftwareHub.Python SoftwareHub.Tree SoftwareHub.Semantics SoftwareHub.Semantics.Program

/-- The actions that the service records. -/
inductive AuditAction where
  | backupCreated
  | backupFailed
  | backupRestored
  deriving DecidableEq, Repr

/-- How they ended. -/
inductive AuditResult where
  | success
  | failure
  deriving DecidableEq, Repr

/-- A recorded action. -/
structure AuditEvent where
  action : AuditAction
  result : AuditResult
  entityId : PyStr
  deriving DecidableEq, Repr

/-- The part of the settings the backup service reads. Paths below the storage
root are relative; `temporaryRelative` is missing when `relative_to` fails. -/
structure Settings where
  temporaryRelative : Option (List PyStr)
  requiredDirectories : List (List PyStr)
  requiredDirectories_fileNames : ∀ path ∈ requiredDirectories, ∀ name ∈ path, IsFileName name
  backupRetentionCount : Nat
  backupMinFreeBytes : Nat
  projectRoot : Directory
  projectRoot_wellFormed : projectRoot.WellFormed IsFileName

/-- Without required directories there are no names to check. -/
theorem fileNames_of_noDirectories : ∀ path ∈ ([] : List (List PyStr)), ∀ name ∈ path, IsFileName name := by simp

/-- What the service works on. The storage, the database and the backup root are
taken to be apart; the settings also allow a database below the storage root,
whose files are then stored ones, and this is left out here. -/
structure Host where
  backups : Directory
  storage : Option Entry
  database : DatabaseFiles
  audits : List AuditEvent

/-- The calls of the service that touch the file system or the database. -/
inductive BackupCall where
  | ensureRoot
  | initializeStorage
  | lockEnsureRoot
  | lockOpen
  | lockWrite
  | lockSync
  | freeSpace
  | makeTemporary
  | populate
  | schemaRevision
  | writeManifest
  | verify
  | publish
  | syncRoot
  | listEnsureRoot
  | syncRetention
  | lockClose
  | lockUnlink
  | audit
  deriving DecidableEq

/-- Which directories below the storage root and below `nginx` can be listed. -/
structure Listable where
  storage : List PyStr → Bool
  nginx : List PyStr → Bool

def Listable.all : Listable := ⟨allListable, allListable⟩

/-- A failing environment: which calls raise what, what a call that fails
half-way leaves behind, what is left of a temporary directory that cannot be
removed, and which directories can be listed. Removing a backup fails with an
`OSError` if it fails. -/
structure Faults where
  signal : BackupCall → Option PyException
  partialTemporary : Directory
  partialTemporary_wellFormed : partialTemporary.WellFormed IsFileName
  temporaryRemains : Option Directory
  temporaryRemains_wellFormed : ∀ left, temporaryRemains = some left → left.WellFormed IsFileName
  removal : PyStr → Option (OSError × Option Entry)
  removal_wellFormed : ∀ id kind entry, removal id = some (kind, some entry) →
    Forest.Node.WellFormed IsFileName entry
  listable : Listable

def noFaults : Faults where
  signal _ := none
  partialTemporary := .nil
  partialTemporary_wellFormed := trivial
  temporaryRemains := none
  temporaryRemains_wellFormed := by simp
  removal _ := none
  removal_wellFormed := by simp
  listable := .all

/-- The name of the lock file. -/
def lockName : PyStr := py ".software-hub-backup.lock"

variable (python : Interpreter) (sqlite : Sqlite) (beyond : PyStr → List PyStr → Option Bytes)

/-- `_recognized_backup_directories`: real directories with the name of a backup. -/
def recognizedBackupDirectories (root : Directory) : List (PyStr × Directory) :=
  root.subdirectories.filter fun entry => fullMatch backupIdPattern entry.1

/-- The loop of `list_backups`; invalid entries are skipped. -/
def verifiedReports : List (PyStr × Directory) → Except PyException (List BackupVerificationReport)
  | [] => .ok []
  | (name, tree) :: entries =>
      match verifyDirectory python sqlite allListable (beyond name) (some (.dir tree)) name with
      | .ok report => (verifiedReports entries).map fun reports => report :: reports
      | .error e => if e.isInvalidEntry then verifiedReports entries else .error e

/-- `list_backups`, newest first. -/
def listBackups (root : Directory) : Except PyException (List BackupVerificationReport) :=
  (verifiedReports python sqlite beyond (recognizedBackupDirectories root)).map fun reports =>
    reports.insertionSort fun first second => second.createdAt.instant ≤ first.createdAt.instant

/-- `_backup_directory`: the directory of a backup that exists. -/
def backupDirectory (root : Directory) (backupId : PyStr) : Except PyException (PyStr × Directory) := do
  let selected ← safeBackupId backupId
  match fsname selected with
  | none => throw .unicodeEncodeError
  | some name => match root.find name with
    | some (.dir tree) => return (name, tree)
    | _ => throw (.storageError "The requested backup does not exist.")

/-- `verify_backup`. -/
def verifyBackup (root : Directory) (backupId : PyStr) : Except PyException BackupVerificationReport := do
  let (name, tree) ← backupDirectory root backupId
  verifyDirectory python sqlite allListable (beyond name) (some (.dir tree)) backupId

/-- Whether the loop of `list_backups` goes on after a directory. -/
def passes (entry : PyStr × Directory) : Bool :=
  match verifyDirectory python sqlite allListable (beyond entry.1) (some (.dir entry.2)) entry.1 with
  | .ok _ => true
  | .error e => e.isInvalidEntry

/-- The directories `list_backups` has verified, all of them if it returns. -/
def visitedBackups (root : Directory) : List PyStr :=
  ((recognizedBackupDirectories root).takeWhile (passes python sqlite beyond)).map (·.1)

/-- A backup directory after its verification: with undamaged content its
database has been opened, which may leave side files. -/
def verifiedDirectory (name : PyStr) (tree : Directory) : Directory :=
  match verifyContent python allListable (beyond name) tree name with
  | .ok _ => sqlite.openedIn tree
  | .error _ => tree

def listedRoot (root : Directory) : Directory :=
  root.mapDirectories fun name tree =>
    if name ∈ visitedBackups python sqlite beyond root then verifiedDirectory python sqlite beyond name tree else tree

variable (faults : Faults)

/-- A call that fails as the environment says. -/
def call {α : Type} (name : BackupCall) (x : Program Host PyException α) : Program Host PyException α :=
  guarded (faults.signal name) x

/-- A step that changes the backup root. -/
def setBackups (f : Directory → Directory) : Program Host PyException Unit :=
  write fun host => { host with backups := f host.backups }

/-- `except FileExistsError` of the lock, which also covers its body. -/
def convertFileExists (e : PyException) : PyException :=
  if e = .os .fileExistsError then
    .storageError "Another backup or restore operation is already running."
  else e

/-- `os.open(lock_path, O_CREAT | O_EXCL)`. -/
def openLock : Program Host PyException Unit := do
  if (← read fun host => host.backups.find lockName) = none then
    setBackups fun root => root.put lockName (some (.leaf (.file [])))
  else raise (.os .fileExistsError)

/-- The body of the lock, after the process number has been written to the file. -/
def holdLock {α : Type} (body : Program Host PyException α) : Program Host PyException α := do
  call faults .lockWrite (pure ())
  call faults .lockSync (pure ())
  body

/-- The `finally` clause of the lock. -/
def releaseLock : Program Host PyException Unit := do
  call faults .lockClose (pure ())
  call faults .lockUnlink (setBackups fun root => root.put lockName none)

/-- `_operation_lock`: the lock file exists while the body runs. -/
def operationLock {α : Type} (body : Program Host PyException α) : Program Host PyException α := do
  call faults .lockEnsureRoot (pure ())
  tryExcept (call faults .lockOpen openLock) (fun e => raise (convertFileExists e))
  tryFinally (tryExcept (holdLock faults body) (fun e => raise (convertFileExists e))) (releaseLock faults)

/-- `shutil.rmtree(self._backup_directory(backup_id))`. -/
def removeBackup (backupId : PyStr) : Program Host PyException Unit := do
  let root ← read fun host => host.backups
  let (name, _) ← lift (backupDirectory root backupId)
  match faults.removal backupId with
  | none => setBackups fun root => root.put name none
  | some (kind, remains) => do
      setBackups fun root => root.put name remains
      raise (.os kind)

/-- The deletions of a retention pass: those that succeeded and the number of
those that failed with an `OSError`. -/
def deleteEligible : List PyStr → Program Host PyException (List PyStr × Nat)
  | [] => pure ([], 0)
  | id :: ids => do
      let removed ← tryExcept
        (do
          removeBackup faults id
          pure true)
        (fun e => if e.isOSError then pure false else raise e)
      let (deleted, errors) ← deleteEligible ids
      if removed then pure (id :: deleted, errors) else pure (deleted, errors + 1)

/-- Dry-run or destructive retention result. -/
structure RetentionReport where
  discovered : Nat
  eligible : List PyStr
  deleted : List PyStr
  errors : Nat
  dryRun : Bool
  deriving DecidableEq

/-- The backups beyond the configured number that nothing protects. -/
def eligibleBackups (keepCount : Nat) (protectedIds : List PyStr)
    (reports : List BackupVerificationReport) : List PyStr :=
  ((reports.drop keepCount).filter fun report => report.backupId ∉ protectedIds).map (·.backupId)

/-- The listing of a retention pass, with the side files it leaves. -/
def inspectBackups : Program Host PyException (List BackupVerificationReport) := do
  let root ← read fun host => host.backups
  setBackups fun root => listedRoot python sqlite beyond root
  lift (listBackups python sqlite beyond root)

/-- The body of `apply_retention`, inside whichever lock is held. -/
def retentionPass (settings : Settings) (dryRun : Bool) (protectedIds : List PyStr) :
    Program Host PyException RetentionReport := do
  call faults .listEnsureRoot (pure ())
  let reports ← inspectBackups python sqlite beyond
  let eligible := eligibleBackups settings.backupRetentionCount protectedIds reports
  if dryRun then
    return ⟨reports.length, eligible, [], 0, true⟩
  let (deleted, errors) ← deleteEligible faults eligible
  call faults .syncRetention (pure ())
  return ⟨reports.length, eligible, deleted, errors, false⟩

/-- `apply_retention`. -/
def applyRetention (settings : Settings) (dryRun : Bool) (protectedIds : List PyStr) (acquireLock : Bool) :
    Program Host PyException RetentionReport :=
  if acquireLock then
    operationLock faults (retentionPass python sqlite beyond faults settings dryRun protectedIds)
  else retentionPass python sqlite beyond faults settings dryRun protectedIds

end SoftwareHub.Backup
