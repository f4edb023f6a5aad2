import SoftwareHub.Backup.Files
import SoftwareHub.Backup.Manifest
import SoftwareHub.Python.Sha256
import SoftwareHub.Tree.Walk

/-! Verification of one backup directory: the manifest and its checksum, every
declared file, the absence of undeclared ones, and the database. -/
namespace SoftwareHub.Backup

open SoftwareHub.Python SoftwareHub.Tree

/-- Result of complete manifest, content and SQLite verification. -/
structure BackupVerificationReport where
  backupId : PyStr
  createdAt : DateTime
  fileCount : Nat
  totalBytes : Nat
  databaseRevision : PyStr
  checksumVerified : Bool
  databaseIntegrityVerified : Bool
  deriving DecidableEq

/-- The report on a manifest that passed every check. -/
def BackupManifest.report (manifest : BackupManifest) : BackupVerificationReport where
  backupId := manifest.backupId
  createdAt := manifest.createdAt
  fileCount := manifest.entries.length
  totalBytes := manifest.totalBytes
  databaseRevision := manifest.databaseRevision
  checksumVerified := true
  databaseIntegrityVerified := true

section Sqlite

variable (sqlite : Sqlite)

/-- `_sqlite_integrity_check`. -/
def sqliteIntegrityCheck (files : DatabaseFiles) : Except PyException Unit :=
  match files.main with
  | some (.file _) => match sqlite.integrityCheck files with
    | none => .error (.storageError "The backup database could not be verified.")
    | some result =>
        if result = some (py "ok") then .ok ()
        else .error (.validationError "SQLite integrity verification failed.")
  | _ => .error (.storageError "The backup database is unavailable.")

/-- `_sqlite_schema_revision`. -/
def sqliteSchemaRevision (files : DatabaseFiles) : Except PyException PyStr :=
  match files.main with
  | some (.file _) => match sqlite.schemaVersion files with
    | none => .error (.storageError "The backup database revision could not be read.")
    | some none => .error (.validationError "The backup database revision is invalid.")
    | some (some revision) =>
        if matchesRevision revision then .ok revision
        else .error (.validationError "The backup database revision is invalid.")
  | _ => .error (.storageError "The backup database is unavailable.")

end Sqlite

/-- The digest a checksum file declares for the manifest. -/
def parseChecksum (content : Bytes) : Except PyException PyStr :=
  match decodeAscii content with
  | none => .error .unicodeDecodeError
  | some text => match words text with
    | [digest, name] =>
        if name = manifestName then .ok digest
        else .error (.validationError "The manifest checksum file is invalid.")
    | _ => .error (.validationError "The manifest checksum file is invalid.")

section Directory

variable (beyond : List PyStr → Option Bytes) (tree : Directory)

/-- Check one declared file; its path goes into the set of expected files. -/
def verifyEntry (entry : BackupEntry) : Except PyException PyStr := do
  let parts ← safeRelativePath entry.relativePath
  match parts.mapM fsname with
  | none => throw .unicodeEncodeError
  | some path => match regularFile? beyond tree path with
    | none => throw (.storageError "A backup file is unavailable.")
    | some content =>
        require (content.length = entry.sizeBytes)
          (.validationError "A backup file size does not match the manifest.")
        require (Sha256.hexdigest content = entry.sha256)
          (.validationError "A backup file checksum does not match the manifest.")
        return asPosix parts

/-- The loop over the declared files. -/
def verifyEntries : List BackupEntry → Except PyException (List PyStr)
  | [] => .ok []
  | entry :: entries => do
      let path ← verifyEntry beyond tree entry
      let paths ← verifyEntries entries
      return path :: paths

/-- The paths of the files of the directory. A listing shows symbolic links,
also those to directories, among the file names. `Path.walk` without `on_error`
passes over a directory that cannot be listed, and over all that is below it. -/
def actualFiles (listable : List PyStr → Bool) : Except PyException (List PyStr) :=
  let files := tree.listedFiles listable fun _ => true
  if files.all fun file => file.2.IsRegular then .ok (files.map fun file => joinSlash file.1)
  else .error (.storageError "Backup content must be regular files.")

def allListable (_ : List PyStr) : Bool := true

/-- `expected != actual`, of two sets of paths. -/
def sameElements (first second : List PyStr) : Bool :=
  first.all (· ∈ second) && second.all (· ∈ first)

/-- The digest of `manifest.json` agrees with `manifest.sha256`; the manifest bytes are returned. -/
def verifyChecksum : Except PyException Bytes :=
  match regularFile? beyond tree [manifestName] with
  | none => .error (.storageError "The backup manifest is unavailable.")
  | some payload =>
      if maxManifestBytes < payload.length then
        .error (.validationError "The backup manifest is too large.")
      else match regularFile? beyond tree [manifestChecksumName] with
      | none => .error (.storageError "The manifest checksum is unavailable.")
      | some checksum => do
          let expectedDigest ← parseChecksum checksum
          require (expectedDigest = Sha256.hexdigest payload)
            (.validationError "The backup manifest checksum is invalid.")
          return payload

end Directory

variable (python : Interpreter) (sqlite : Sqlite) (listable : List PyStr → Bool) (beyond : List PyStr → Option Bytes)

/-- The checks of `_verify_directory` before the database is opened. -/
def verifyContent (tree : Directory) (expectedBackupId : PyStr) : Except PyException BackupManifest := do
  let payload ← verifyChecksum beyond tree
  let manifest ← parseManifest python payload
  require (manifest.backupId = expectedBackupId)
    (.validationError "The backup identifier does not match its directory.")
  let declared ← verifyEntries beyond tree manifest.entries
  let actual ← actualFiles tree listable
  require (sameElements actual (manifestName :: manifestChecksumName :: declared))
    (.validationError "The backup contains files not declared by its manifest.")
  return manifest

/-- `_verify_directory` of a directory that exists. -/
def verifyTree (tree : Directory) (expectedBackupId : PyStr) : Except PyException BackupVerificationReport := do
  let manifest ← verifyContent python listable beyond tree expectedBackupId
  sqliteIntegrityCheck sqlite (databaseFiles tree)
  let databaseRevision ← sqliteSchemaRevision sqlite (databaseFiles tree)
  require (databaseRevision = manifest.databaseRevision)
    (.validationError "The backup database revision does not match the manifest.")
  return manifest.report

/-- `_verify_directory`. -/
def verifyDirectory (directory : Option Entry) (expectedBackupId : PyStr) :
    Except PyException BackupVerificationReport := do
  let _ ← safeBackupId expectedBackupId
  match directory with
  | some (.dir tree) => verifyTree python sqlite listable beyond tree expectedBackupId
  | _ => throw (.storageError "The backup directory is unavailable.")

end SoftwareHub.Backup
