import SoftwareHub.Backup.Identifiers
import SoftwareHub.Backup.Inventory

/-! Creation of a backup: a temporary directory is filled, verified and renamed, and
old backups are removed. -/
namespace SoftwareHub.Backup

open SoftwareHub.Python SoftwareHub.Tree SoftwareHub.Semantics SoftwareHub.Semantics.Program

/-- The folder of the storage files. -/
def storageFolder : PyStr := py "storage"

/-- The folder of the configuration templates. -/
def configFolder : PyStr := py "config"

/-- `_copy_regular_file`: size and digest of the copy. Directories above the
destination are made. -/
def copyRegularFile (source : Leaf) (destination : List PyStr) (tree : Directory) :
    Except PyException (Directory × Nat × PyStr) :=
  match source with
  | .file content => match tree.create destination (.leaf (.file content)) with
    | none => .error (.storageError "A backup destination unexpectedly already exists.")
    | some tree => .ok (tree, content.length, Sha256.hexdigest content)
  | _ => .error (.storageError "A backup source file is unavailable.")

/-- Copy files into a folder of the backup, with one entry for each. -/
def copyFiles (folder : PyStr) : List (List PyStr × Leaf) → Directory →
    Except PyException (Directory × List BackupEntry)
  | [], tree => .ok (tree, [])
  | (path, leaf) :: files, tree => do
      let (tree, size, digest) ← copyRegularFile leaf (folder :: path) tree
      let (tree, entries) ← copyFiles folder files tree
      return (tree, ⟨folder ++ slash :: joinSlash path, size, digest⟩ :: entries)

/-- `_excluded_storage_path`. -/
def excludedStoragePath (temporaryRelative path : List PyStr) : Bool := temporaryRelative.isPrefixOf path

/-- The files of the storage tree outside the temporary root, in walk order. A
directory that cannot be listed is passed over in silence. -/
def storageFiles (listable : List PyStr → Bool) (temporaryRelative : List PyStr) (root : Directory) :
    List (List PyStr × Leaf) :=
  (root.listedFiles listable fun path => !excludedStoragePath temporaryRelative path).filter fun file =>
    !excludedStoragePath temporaryRelative file.1

/-- `_copy_storage`. -/
def copyStorage (settings : Settings) (listable : List PyStr → Bool) (storage : Option Entry) (tree : Directory) :
    Except PyException (Directory × List BackupEntry) :=
  match storage with
  | some (.dir root) => match tree.create [storageFolder] (.dir .nil) with
    | none => .error (.os .fileExistsError)
    | some tree => match settings.temporaryRelative with
      | none => .error .valueError
      | some temporaryRelative => copyFiles storageFolder (storageFiles listable temporaryRelative root) tree
  | _ => .error (.storageError "Private storage is unavailable for backup.")

/-- The templates beside those of `nginx`. -/
def templateNames : List PyStr := [py ".env.example", py "alembic.ini", py "pyproject.toml"]

def configTemplates (listable : List PyStr → Bool) (project : Directory) : List (List PyStr × Leaf) :=
  (templateNames.filterMap fun name => match project.find name with
    | some (.leaf (.file content)) => some ([name], .file content)
    | _ => none) ++
  match project.find (py "nginx") with
  | some (.dir nginx) => (nginx.listedFiles listable fun _ => true).map fun file => (py "nginx" :: file.1, file.2)
  | _ => []

/-- `_backup_sqlite`: the checked copy of the database. -/
def backupSqlite (sqlite : Sqlite) (database : DatabaseFiles) : Except PyException Bytes :=
  match database.main with
  | some (.file _) => match sqlite.backup database with
    | none => .error (.storageError "The SQLite backup operation failed.")
    | some copy => do
        sqliteIntegrityCheck sqlite (.ofMain copy)
        return copy
  | _ => .error (.storageError "The live SQLite database is unavailable.")

/-- `_populate_backup`, into an empty directory. -/
def populateBackup (sqlite : Sqlite) (settings : Settings) (listable : Listable) (storage : Option Entry)
    (database : DatabaseFiles) : Except PyException (Directory × List BackupEntry) := do
  let copy ← backupSqlite sqlite database
  let tree : Directory := .dir (py "database") (.leaf databaseName (.file copy) .nil) .nil
  let (tree, storageEntries) ← copyStorage settings listable.storage storage tree
  let (tree, configEntries) ← copyFiles configFolder (configTemplates listable.nginx settings.projectRoot) tree
  return (tree, ⟨joinSlash databaseEntryPath, copy.length, Sha256.hexdigest copy⟩ ::
    (storageEntries ++ configEntries))

def manifestChecksum (payload : Bytes) : Bytes :=
  (Sha256.hexdigest payload ++ py "  " ++ manifestName ++ [0x0A]).map UInt8.ofNat

/-- `_write_manifest`. -/
def writeManifest (python : Interpreter) (tree : Directory) (manifest : BackupManifest) :
    Except PyException Directory := do
  let payload ← manifestPayload python manifest
  return (tree.put manifestName (some (.leaf (.file payload)))).put manifestChecksumName
    (some (.leaf (.file (manifestChecksum payload))))

/-- The manifest of a filled directory; its entries are sorted by path. -/
def newManifest (backupId : PyStr) (createdAt : DateTime) (appVersion databaseRevision : PyStr)
    (entries : List BackupEntry) : BackupManifest where
  backupId := backupId
  createdAt := createdAt
  appVersion := appVersion
  databaseRevision := databaseRevision
  entries := entries.insertionSort fun first second => first.relativePath ≤ second.relativePath

/-- What a creation takes from its surroundings: two readings of the clock,
random names, the application version and the free space. -/
structure Ambient where
  idTime : DateTime
  createdAt : DateTime
  createdAt_utc : createdAt.utcoffset = some 0
  token : Token
  hex : PyStr
  hex_lowerHex : ∀ c ∈ hex, isLowerHex c = true
  appVersion : PyStr
  appVersion_scalar : ∀ c ∈ appVersion, isScalar c = true
  freeBytes : Nat

/-- The identifier of the new backup. -/
def Ambient.backupId (ambient : Ambient) : PyStr := newBackupId ambient.idTime ambient.token

/-- The name of its temporary directory. -/
def Ambient.temporary (ambient : Ambient) : PyStr := temporaryName ambient.backupId ambient.hex

/-- Completed backup and retention summary. -/
structure BackupCreationReport where
  backupId : PyStr
  fileCount : Nat
  totalBytes : Nat
  retentionDeletedCount : Nat
  deriving DecidableEq

section Service

variable (python : Interpreter) (sqlite : Sqlite) (beyond : PyStr → List PyStr → Option Bytes)
  (settings : Settings) (faults : Faults) (ambient : Ambient)

/-- The storage tree after `StorageManager.initialize`, which makes the required directories. -/
def initializedStorage (storage : Option Entry) : Except PyException Directory :=
  match storage with
  | none => makeDirectories .nil
  | some (.dir root) => makeDirectories root
  | some (.leaf _) => .error (.storageError "A configured storage location is not a real directory.")
where
  makeDirectories (root : Directory) : Except PyException Directory :=
    match settings.requiredDirectories.foldlM (fun root path => root.mkdirs path) root with
    | none => .error (.storageError "A required storage directory could not be created.")
    | some root => .ok root

/-- The initialisation of the storage, as a step of the service. -/
def initializeStorage : Program Host PyException Unit := do
  let root ← lift (initializedStorage settings (← read fun host => host.storage))
  write fun host => { host with storage := some (.dir root) }

/-- `_estimate_source_bytes`. -/
def estimateSourceBytes (listable : List PyStr → Bool) (host : Host) : Except PyException Nat :=
  let database := match host.database.main with
    | some (.file content) => content.length
    | _ => 0
  match host.storage with
  | some (.dir root) => match settings.temporaryRelative with
    | none => .error .valueError
    | some temporaryRelative =>
        let files := root.listedFiles listable fun path => !excludedStoragePath temporaryRelative path
        if files.all fun file => file.2.IsRegular then
          .ok (database + (files.map fun file => match file.2 with
            | .file content => content.length
            | _ => 0).sum)
        else .error (.storageError "A storage file is unavailable for backup.")
  | _ => .ok database

/-- `ensure_free_space` for the estimate. -/
def checkFreeSpace : Program Host PyException Unit := do
  let host ← read id
  let required ← lift (estimateSourceBytes settings faults.listable.storage host)
  lift (require (required ≤ ambient.freeBytes ∧ settings.backupMinFreeBytes ≤ ambient.freeBytes - required)
    (.storageError "Insufficient free space is available for this file operation."))

/-- The entry under the temporary name is set. -/
def setTemporary (entry : Option Entry) : Program Host PyException Unit :=
  setBackups fun root => root.put ambient.temporary entry

/-- `temporary.mkdir()`. -/
def makeTemporary : Program Host PyException Unit := do
  if (← read fun host => host.backups.find ambient.temporary) = none then
    setTemporary ambient (some (.dir .nil))
  else raise (.os .fileExistsError)

/-- A step that changes the temporary directory; when it fails, the directory
holds whatever was written so far. -/
def fillTemporary {α : Type} (name : BackupCall) (tree : α → Directory) (x : Except PyException α) :
    Program Host PyException α := do
  match faults.signal name, x with
  | none, .ok result => do
      setTemporary ambient (some (.dir (tree result)))
      pure result
  | none, .error e => do
      setTemporary ambient (some (.dir faults.partialTemporary))
      raise e
  | some e, _ => do
      setTemporary ambient (some (.dir faults.partialTemporary))
      raise e

/-- `temporary.replace(destination)`. -/
def publishTemporary (tree : Directory) : Program Host PyException Unit := do
  match ← read fun host => host.backups.find ambient.backupId with
  | none => move
  | some (.dir .nil) => move
  | some (.dir _) => raise (.os .directoryNotEmpty)
  | some (.leaf _) => raise (.os .notADirectoryError)
where
  move : Program Host PyException Unit :=
    setBackups fun root => (root.put ambient.temporary none).put ambient.backupId (some (.dir tree))

/-- From the filled directory to the rename, which makes the backup visible. -/
def sealBackup (tree : Directory) (entries : List BackupEntry) : Program Host PyException BackupManifest := do
  let revision ← call faults .schemaRevision (lift (sqliteSchemaRevision sqlite (databaseFiles tree)))
  let manifest := newManifest ambient.backupId ambient.createdAt ambient.appVersion revision entries
  let tree ← fillTemporary faults ambient .writeManifest id (writeManifest python tree manifest)
  let _ ← call faults .verify
    (lift (verifyDirectory python sqlite allListable (beyond ambient.temporary) (some (.dir tree)) ambient.backupId))
  call faults .publish (publishTemporary ambient tree)
  return manifest

/-- The steps up to the rename. -/
def prepareBackup : Program Host PyException BackupManifest := do
  call faults .freeSpace (checkFreeSpace settings faults ambient)
  call faults .makeTemporary (makeTemporary ambient)
  let (storage, database) ← read fun host => (host.storage, host.database)
  let (tree, entries) ← fillTemporary faults ambient .populate Prod.fst
    (populateBackup sqlite settings faults.listable storage database)
  sealBackup python sqlite beyond faults ambient tree entries

def finishBackup (retention : Bool) : Program Host PyException Nat := do
  call faults .syncRoot (pure ())
  if retention then
    let report ← applyRetention python sqlite beyond faults settings false [ambient.backupId] false
    return report.deleted.length
  else return 0

/-- `_audit`: a failure is logged and hides nothing. -/
def auditEvent (action : AuditAction) (result : AuditResult) : Program Host PyException Unit :=
  match faults.signal .audit with
  | none => write fun host => { host with audits := host.audits ++ [⟨action, result, ambient.backupId⟩] }
  | some _ => pure ()

/-- The part of a creation under the operation lock. -/
def createLocked (retention : Bool) : Program Host PyException (BackupManifest × Nat) :=
  operationLock faults (do
    let manifest ← prepareBackup python sqlite beyond settings faults ambient
    let deleted ← finishBackup python sqlite beyond settings faults ambient retention
    return (manifest, deleted))

/-- `shutil.rmtree(temporary, ignore_errors=True)`, which leaves what it cannot remove. -/
def removeTemporary : Program Host PyException Unit := do
  match ← read fun host => host.backups.find ambient.temporary with
  | some (.dir _) => setTemporary ambient (faults.temporaryRemains.map .dir)
  | _ => pure ()

/-- The handler of a failed creation. -/
def abandonBackup {α : Type} (audit : Bool) (e : PyException) : Program Host PyException α := do
  removeTemporary faults ambient
  if audit then auditEvent faults ambient .backupFailed .failure
  raise e

/-- `create_backup`. -/
def createBackup (retention audit : Bool) : Program Host PyException BackupCreationReport := do
  call faults .ensureRoot (pure ())
  call faults .initializeStorage (initializeStorage settings)
  tryExcept
    (do
      let (manifest, deleted) ← createLocked python sqlite beyond settings faults ambient retention
      if audit then auditEvent faults ambient .backupCreated .success
      return ⟨ambient.backupId, manifest.entries.length, manifest.totalBytes, deleted⟩)
    (abandonBackup faults ambient audit)

end Service

end SoftwareHub.Backup
