import SoftwareHub.Python.DateTime
import SoftwareHub.Python.Exceptions
import SoftwareHub.Python.Json
import SoftwareHub.Python.PurePath

/-! Backup manifests: the entries, the JSON they are written as, and the parser that
accepts them back. -/
namespace SoftwareHub.Backup

open SoftwareHub.Python

/-- `_BACKUP_PREFIX`. -/
def backupPrefix : PyStr := py "software-hub-backup-"

/-- `_MANIFEST_NAME`. -/
def manifestName : PyStr := py "manifest.json"

/-- `_MANIFEST_CHECKSUM_NAME`. -/
def manifestChecksumName : PyStr := py "manifest.sha256"

/-- `_MAX_MANIFEST_BYTES`. -/
def maxManifestBytes : Nat := 4 * 1024 * 1024

/-- `_MANIFEST_VERSION`. -/
def manifestVersion : Nat := 1

/-- The path of the database in a backup. -/
def databaseEntryPath : List PyStr := [py "database", py "software-hub.sqlite3"]

/-- `software-hub-backup-\d{8}T\d{6}\d{6}Z-[0-9a-f]{8}`. -/
def backupIdPattern : List (Nat → Bool) :=
  literal backupPrefix ++ List.replicate 8 isDecimal ++ literal (py "T") ++
    List.replicate 6 isDecimal ++ List.replicate 6 isDecimal ++ literal (py "Z-") ++
    List.replicate 8 isLowerHex

/-- `[A-Za-z0-9_.-]`. -/
def isRevisionChar (c : Nat) : Bool :=
  (0x41 ≤ c && c ≤ 0x5A) || (0x61 ≤ c && c ≤ 0x7A) || isDigit c || c == 0x5F || c == 0x2E || c == 0x2D

/-- `[A-Za-z0-9_.-]{1,128}`. -/
def matchesRevision (s : PyStr) : Bool := 1 ≤ s.length && s.length ≤ 128 && s.all isRevisionChar

/-- One regular file protected by the backup manifest. -/
structure BackupEntry where
  relativePath : PyStr
  sizeBytes : Nat
  sha256 : PyStr
  deriving DecidableEq

/-- Versioned and deterministic backup metadata. -/
structure BackupManifest where
  backupId : PyStr
  createdAt : DateTime
  appVersion : PyStr
  databaseRevision : PyStr
  entries : List BackupEntry
  deriving DecidableEq

def BackupManifest.totalBytes (manifest : BackupManifest) : Nat :=
  (manifest.entries.map BackupEntry.sizeBytes).sum

/-- What the running interpreter adds: the text of a float and of a nested
container (`none` when `repr` exceeds the recursion limit), and the nesting
`json` allows, which is more than a manifest needs. -/
structure Interpreter where
  floatRepr : PyFloat → PyStr
  containerRepr : Json → Option PyStr
  maxDepth : Nat
  three_le_maxDepth : 3 ≤ maxDepth

variable (python : Interpreter)

/-- `str(value)`. -/
def pyStr : Json → Except PyException PyStr
  | .null => .ok (py "None")
  | .bool true => .ok (py "True")
  | .bool false => .ok (py "False")
  | .int value => .ok (intRepr value)
  | .float value => .ok (python.floatRepr value)
  | .str value => .ok value
  | value => match python.containerRepr value with
    | none => .error .recursionError
    | some text => .ok text

/-- How `int(value)` fails. -/
inductive IntError where
  | typeError
  | valueError
  | overflowError

/-- `int(value)`. -/
def pyInt : Json → Except IntError Int
  | .bool true => .ok 1
  | .bool false => .ok 0
  | .int value => .ok value
  | .float .nan => .error .valueError
  | .float (.infinite _) => .error .overflowError
  | .float value => .ok (value.trunc?.getD 0)
  | .str value => match parseInt value with
    | none => .error .valueError
    | some value => .ok value
  | _ => .error .typeError

/-- `value == n`: an integer, a boolean or a float of that value. -/
def equalsInt (n : Nat) : Json → Bool
  | .int value => value == n
  | .bool true => n == 1
  | .bool false => n == 0
  | .float value => value.eqNat n
  | _ => false

/-- `as_dict` of an entry. -/
def BackupEntry.toDict (entry : BackupEntry) : Json :=
  .object [(py "relative_path", .str entry.relativePath), (py "size_bytes", .int entry.sizeBytes),
    (py "sha256", .str entry.sha256)]

/-- The timestamp of a manifest written here is in UTC already; `none` is the
`OverflowError` of `astimezone`. -/
def BackupManifest.toDict (manifest : BackupManifest) : Option Json :=
  manifest.createdAt.astimezoneUtc.map fun createdAt =>
    .object [(py "manifest_version", .int manifestVersion), (py "backup_id", .str manifest.backupId),
      (py "created_at", .str createdAt.isoformat), (py "app_version", .str manifest.appVersion),
      (py "database_revision", .str manifest.databaseRevision),
      (py "total_bytes", .int manifest.totalBytes), (py "file_count", .int manifest.entries.length),
      (py "entries", .array (manifest.entries.map BackupEntry.toDict))]

/-- The numbers of the written manifest. -/
def BackupManifest.numbers (manifest : BackupManifest) : List Nat :=
  manifestVersion :: manifest.totalBytes :: manifest.entries.length ::
    manifest.entries.map BackupEntry.sizeBytes

/-- `str(n)` raises a `ValueError` when a number has too many digits. -/
def BackupManifest.Printable (manifest : BackupManifest) : Prop :=
  ∀ n ∈ manifest.numbers, (decimal n).length ≤ intMaxStrDigits

instance (manifest : BackupManifest) : Decidable manifest.Printable :=
  inferInstanceAs (Decidable (∀ n ∈ manifest.numbers, _))

def manifestPayload (manifest : BackupManifest) : Except PyException Bytes :=
  match manifest.toDict with
  | none => .error .overflowError
  | some dict =>
      if ¬manifest.Printable then .error .valueError
      else match encodeUtf8 (Json.dumpsAt python.floatRepr 0 dict.sorted) with
      | none => .error .unicodeEncodeError
      | some text => .ok (text ++ [0x0A])

/-- The parts of a path a manifest may name. -/
def safeRelativePath (value : PyStr) : Except PyException (List PyStr) :=
  if value = [] ∨ 0 ∈ value ∨ 0x5C ∈ value then
    .error (.validationError "Backup manifest contains an invalid path.")
  else if isAbsolute value ∨ (pathParts value).any (fun part => part = [] ∨ part = py "." ∨ part = py "..") then
    .error (.validationError "Backup manifest contains an invalid path.")
  else .ok (pathParts value)

/-- `_safe_backup_id`: the stripped text must match the pattern. -/
def safeBackupId (value : PyStr) : Except PyException PyStr :=
  if fullMatch backupIdPattern (strip value) then .ok (strip value)
  else .error (.validationError "The backup identifier is invalid.")

/-- `[0-9a-f]{64}`. -/
def isValidDigest (digest : PyStr) : Bool := digest.length == 64 && digest.all isLowerHex

/-- The normalised path of an entry; `seen` are the paths before it. -/
def entryPath (seen : List PyStr) (item : List (PyStr × Json)) : Except PyException PyStr := do
  let text ← pyStr python ((Json.get? item (py "relative_path")).getD (.str []))
  let parts ← safeRelativePath text
  if asPosix parts ∈ seen then
    throw (.validationError "The backup manifest contains duplicate paths.")
  else return asPosix parts

/-- The size of an entry, converted by `int`. -/
def entrySize (item : List (PyStr × Json)) : Except PyException Int :=
  match Json.get? item (py "size_bytes") with
  | none => .error (.validationError "The backup manifest entries are invalid.")
  | some value => match pyInt value with
    | .error .overflowError => .error .overflowError
    | .error _ => .error (.validationError "The backup manifest entries are invalid.")
    | .ok size => .ok size

/-- The digest of an entry, converted by `str`. -/
def entryDigest (item : List (PyStr × Json)) : Except PyException PyStr :=
  match Json.get? item (py "sha256") with
  | none => .error (.validationError "The backup manifest entries are invalid.")
  | some value => pyStr python value

/-- One element of the `entries` list. -/
def parseEntry (seen : List PyStr) : Json → Except PyException BackupEntry
  | .object item => do
      let relative ← entryPath python seen item
      let size ← entrySize item
      let digest ← entryDigest python item
      if size < 0 ∨ isValidDigest digest = false then
        throw (.validationError "The backup manifest entries are invalid.")
      else return ⟨relative, size.toNat, digest⟩
  | _ => throw (.validationError "The backup manifest entries are invalid.")

/-- The loop over the `entries` list. -/
def parseEntries : List PyStr → List Json → Except PyException (List BackupEntry)
  | _, [] => .ok []
  | seen, item :: items => do
      let entry ← parseEntry python seen item
      let entries ← parseEntries (entry.relativePath :: seen) items
      return entry :: entries

/-- `json.loads` of the decoded payload. -/
def loadManifest (payload : Bytes) : Except PyException Json :=
  match Json.loads python.maxDepth payload with
  | .ok raw => .ok raw
  | .error .unicodeDecode => .error (.validationError "The backup manifest is invalid JSON.")
  | .error (.json .decode) => .error (.validationError "The backup manifest is invalid JSON.")
  | .error (.json .digits) => .error .valueError
  | .error (.json _) => .error .recursionError

/-- The fields of a manifest of the supported version. -/
def manifestFields (payload : Bytes) : Except PyException (List (PyStr × Json)) := do
  match ← loadManifest python payload with
  | .object raw =>
      if equalsInt manifestVersion ((Json.get? raw (py "manifest_version")).getD .null) then return raw
      else throw (.validationError "The backup manifest version is unsupported.")
  | _ => throw (.validationError "The backup manifest version is unsupported.")

def parseBackupId (raw : List (PyStr × Json)) : Except PyException PyStr := do
  safeBackupId (← pyStr python ((Json.get? raw (py "backup_id")).getD (.str [])))

/-- The time of the backup; it must have an offset. -/
def parseCreatedAt (raw : List (PyStr × Json)) : Except PyException DateTime :=
  match Json.get? raw (py "created_at") with
  | none => .error (.validationError "The backup timestamp is invalid.")
  | some value => do
      match DateTime.fromisoformat (← pyStr python value) with
      | none => throw (.validationError "The backup timestamp is invalid.")
      | some createdAt =>
          if createdAt.utcoffset = none then
            throw (.validationError "The backup timestamp must contain a timezone.")
          else return createdAt

/-- The revision of the database, which must match the pattern. -/
def parseRevision (raw : List (PyStr × Json)) : Except PyException PyStr := do
  let databaseRevision ← pyStr python ((Json.get? raw (py "database_revision")).getD (.str []))
  if matchesRevision databaseRevision then return databaseRevision
  else throw (.validationError "The backup database revision is invalid.")

/-- The checked entries; the database is one of them. -/
def manifestEntries (raw : List (PyStr × Json)) : Except PyException (List BackupEntry) :=
  match Json.get? raw (py "entries") with
  | some (.array items) => do
      let entries ← parseEntries python [] items
      if joinSlash databaseEntryPath ∈ entries.map BackupEntry.relativePath then return entries
      else throw (.validationError "The backup database entry is missing.")
  | _ => .error (.validationError "The backup manifest entries are invalid.")

/-- `created_at.astimezone(UTC)`. -/
def toUtc (createdAt : DateTime) : Except PyException DateTime :=
  match createdAt.astimezoneUtc with
  | none => .error .overflowError
  | some createdAt => .ok createdAt

/-- `_parse_manifest`. -/
def parseManifest (payload : Bytes) : Except PyException BackupManifest := do
  let raw ← manifestFields python payload
  let backupId ← parseBackupId python raw
  let createdAt ← parseCreatedAt python raw
  let databaseRevision ← parseRevision python raw
  let entries ← manifestEntries python raw
  let createdAt ← toUtc createdAt
  let appVersion ← pyStr python ((Json.get? raw (py "app_version")).getD (.str (py "unknown")))
  return ⟨backupId, createdAt, appVersion.take 64, databaseRevision, entries⟩

end SoftwareHub.Backup
