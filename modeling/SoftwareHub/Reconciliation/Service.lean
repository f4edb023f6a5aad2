import Mathlib.Data.Prod.Lex
import SoftwareHub.Lifecycle.FileService
import SoftwareHub.Tree.Walk

/-! Storage reconciliation: reports, recalculated checksums and the removal of
orphans. -/
namespace SoftwareHub.Reconciliation

open SoftwareHub.Python SoftwareHub.Tree SoftwareHub.Semantics SoftwareHub.Catalog SoftwareHub.Lifecycle Program
open SoftwareHub.Backup (Directory Leaf isDir isSymlink pathExists)
open SoftwareHub.Lifecycle.FileService (sha256File)
open SoftwareHub.Storage (Links MoveCall MoveEnvironment StorageArea TreeProgram posixText safeResolve)

/-- What can be wrong with a row or with an entry of the storage. -/
inductive IssueKind
  | metadataWithoutFile
  | duplicateStorageLocation
  | unexpectedStorageArea
  | sizeMismatch
  | checksumMismatch
  | orphanFile
  | unsafeStorageEntry
  deriving DecidableEq, Repr

/-- The value of a kind, by which issues are sorted. -/
def IssueKind.value : IssueKind → PyStr
  | metadataWithoutFile => py "metadata_without_file"
  | duplicateStorageLocation => py "duplicate_storage_location"
  | unexpectedStorageArea => py "unexpected_storage_area"
  | sizeMismatch => py "size_mismatch"
  | checksumMismatch => py "checksum_mismatch"
  | orphanFile => py "orphan_file"
  | unsafeStorageEntry => py "unsafe_storage_entry"

def areaValue : StorageArea → PyStr
  | .quarantine => py "quarantine"
  | .software => py "software"

/-- What an issue expected or found. -/
inductive Detail
  | text (value : PyStr)
  | number (value : Nat)
  deriving DecidableEq, Repr

/-- One discrepancy of the report. -/
structure Issue where
  kind : IssueKind
  relativePath : PyStr
  fileId : Option Nat
  storageArea : Option StorageArea
  expected : Option Detail
  actual : Option Detail
  deriving DecidableEq, Repr

/-- `_issue_sort_key`. -/
def Issue.sortKey (issue : Issue) : Lex (PyStr × Lex (PyStr × Nat)) :=
  toLex (issue.kind.value, toLex (issue.relativePath, issue.fileId.getD 0))

/-- `sorted(issues, key=_issue_sort_key)`. -/
def sortIssues (issues : List Issue) : List Issue :=
  issues.insertionSort fun first second => first.sortKey ≤ second.sortKey

/-- The report on the storage. -/
structure Report where
  metadataCount : Nat
  physicalFileCount : Nat
  verifiedCount : Nat
  issues : List Issue

def Report.healthy (report : Report) : Bool := report.issues.isEmpty

/-- The columns of a row that a scan reads. -/
structure FileMetadata where
  fileId : Nat
  relativePath : PyStr
  sha256 : PyStr
  sizeBytes : Nat
  status : FileStatus
  deriving DecidableEq

/-- The two storage roots, and which calls fail on the way through them. -/
structure ScanEnvironment where
  paths : StoragePaths
  links : Links
  inspect : Nat → InspectFaults
  hash : Nat → Option OSError
  lstat : StorageArea → List PyStr → Option OSError

/-- `_metadata_snapshot`. -/
def metadataSnapshot (database : Database) : List FileMetadata :=
  (database.files.insertionSort fun first second => first.id ≤ second.id).map fun row =>
    ⟨row.id, row.relativeStoragePath, row.sha256, row.fileSizeBytes, row.status⟩

/-- `_area_allowed`: the areas in which a file of this status may be. -/
def areaAllowed (status : FileStatus) (area : StorageArea) : Bool :=
  if status = .published then area = .software
  else if status = .quarantine ∨ status = .ready ∨ status = .rejected then area = .quarantine
  else true

/-- `_expected_area_label`: what an issue says about them. -/
def expectedAreaLabel (status : FileStatus) : PyStr :=
  if status = .published then areaValue .software
  else if status = .quarantine ∨ status = .ready ∨ status = .rejected then areaValue .quarantine
  else py "quarantine_or_software"

section Verification

variable (env : ScanEnvironment)

/-- The contribution of one row to the report. -/
structure RowReport where
  issues : List Issue
  physicalCount : Nat
  verified : Bool

def rowIssue (item : FileMetadata) (kind : IssueKind) (area : Option StorageArea) (expected actual : Option Detail) :
    Issue :=
  ⟨kind, item.relativePath, some item.fileId, area, expected, actual⟩

/-- A row with exactly one physical file. -/
def verifyStored (verifyChecksums : Bool) (item : FileMetadata) (stored : StoredFile) (tree : Directory) :
    Except PyException RowReport := do
  let areaIssues := if areaAllowed item.status stored.area = true then []
    else [rowIssue item .unexpectedStorageArea (some stored.area) (some (.text (expectedAreaLabel item.status)))
      (some (.text (areaValue stored.area)))]
  let sizeIssues := if stored.sizeBytes = item.sizeBytes then []
    else [rowIssue item .sizeMismatch (some stored.area) (some (.number item.sizeBytes)) (some (.number stored.sizeBytes))]
  if verifyChecksums = true then do
    let measured ← sha256File (env.hash item.fileId) stored.path tree
    if measured.2 ≠ item.sizeBytes ∨ measured.1 ≠ item.sha256 then
      return ⟨areaIssues ++ sizeIssues ++ [rowIssue item .checksumMismatch (some stored.area) (some (.text item.sha256))
        (some (.text measured.1))], 1, false⟩
    else return ⟨areaIssues ++ sizeIssues, 1, stored.sizeBytes = item.sizeBytes⟩
  else return ⟨areaIssues ++ sizeIssues, 1, stored.sizeBytes = item.sizeBytes⟩

/-- One row: the files of its path, and the comparison with the one that is there. -/
def verifyItem (verifyChecksums : Bool) (tree : Directory) (item : FileMetadata) : Except PyException RowReport :=
  match inspectStoredFiles env.links env.paths (env.inspect item.fileId) item.relativePath tree with
  | .error (.application .storageError _) => .ok ⟨[rowIssue item .unsafeStorageEntry none none none], 0, false⟩
  | .error e => .error e
  | .ok [] => .ok ⟨[rowIssue item .metadataWithoutFile none none none], 0, false⟩
  | .ok [stored] => verifyStored env verifyChecksums item stored tree
  | .ok stored => .ok ⟨[rowIssue item .duplicateStorageLocation none (some (.number 1)) (some (.number stored.length))],
      stored.length, false⟩

/-- What the walk reports about one entry that is no directory. -/
def entryIssue (known : List PyStr) (area : StorageArea) (entry : List PyStr × Leaf) : Option Issue :=
  let relative := joinSlash entry.1
  if env.lstat area entry.1 ≠ none then some ⟨.unsafeStorageEntry, relative, none, some area, none, none⟩
  else match entry.2 with
    | .file content => if relative ∈ known then none
        else some ⟨.orphanFile, relative, none, some area, none, some (.number content.length)⟩
    | _ => some ⟨.unsafeStorageEntry, relative, none, some area, none, none⟩

/-- The walk through one area. It lists links to directories among the files,
so that no link is left among the directory names. -/
def areaIssues (known : List PyStr) (tree : Directory) (area : StorageArea) : List Issue :=
  match tree.node? (env.paths.root area) with
  | some (.dir content) => (content.walkFiles fun _ => true).filterMap (entryIssue env known area)
  | _ => [⟨.unsafeStorageEntry, py ".", none, some area, none, none⟩]

def orphanIssues (known : List PyStr) (tree : Directory) : List Issue :=
  sortIssues (areaIssues env known tree .quarantine ++ areaIssues env known tree .software)

/-- The relative paths of the snapshot. -/
def knownPaths (database : Database) : List PyStr := (metadataSnapshot database).map (·.relativePath)

/-- `verify_storage`: the rows and the walk, in one sorted report. -/
def verifyStorage (verifyChecksums : Bool) (database : Database) (tree : Directory) : Except PyException Report := do
  let metadata := metadataSnapshot database
  let rows ← metadata.mapM (verifyItem env verifyChecksums tree)
  let orphans := orphanIssues env (knownPaths database) tree
  return {
    metadataCount := metadata.length
    physicalFileCount := (rows.map (·.physicalCount)).sum + orphans.length
    verifiedCount := rows.countP (·.verified)
    issues := sortIssues (rows.flatMap (·.issues) ++ orphans) }

end Verification

/-- What is recorded anew for a row. -/
structure ChecksumChange where
  fileId : Nat
  relativePath : PyStr
  oldSha256 : PyStr
  newSha256 : PyStr
  oldSizeBytes : Nat
  newSizeBytes : Nat
  published : Bool
  deriving DecidableEq

/-- The report of a recalculation. -/
structure ChecksumReport where
  examined : Nat
  changes : List ChecksumChange
  updatedCount : Nat
  skippedPublishedCount : Nat
  errors : Nat
  dryRun : Bool

/-- The digest, the size and the modification time of a file. -/
abbrev PhysicalState : Type := PyStr × Nat × Nat

/-- One of the two passes over the files: its failing calls, and the times it sees. -/
structure PassEnvironment where
  inspect : Nat → InspectFaults
  hash : Nat → Option OSError
  lstat : Nat → Option OSError
  mtime : List PyStr → Nat

/-- The two passes, and what happens between them. -/
structure ChecksumEnvironment where
  paths : StoragePaths
  links : Links
  first : PassEnvironment
  second : PassEnvironment
  /-- What other requests write before the transaction. -/
  meanwhile : Database → Database
  loadFault : Option PyException
  auditFault : Option PyException
  commitFault : Option PyException

/-- What the first pass finds about a row. -/
inductive Examined
  | failed
  | unchanged
  | skippedPublished
  | changed (change : ChecksumChange) (state : PhysicalState)

/-- Whether `except OSError, StorageError` catches it. -/
def isStorageFailure : PyException → Bool
  | .os _ => true
  | .application .storageError _ => true
  | _ => false

section Recalculation

variable (env : ChecksumEnvironment)

/-- The single file of a path, measured; `none` counts as an error. -/
def measure (pass : PassEnvironment) (fileId : Nat) (relativePath : PyStr) (tree : Directory) :
    Except PyException (Option (StoredFile × PhysicalState)) :=
  let measured : Except PyException (Option (StoredFile × PhysicalState)) := do
    match ← inspectStoredFiles env.links env.paths (pass.inspect fileId) relativePath tree with
    | [stored] => do
        let digest ← sha256File (pass.hash fileId) stored.path tree
        match pass.lstat fileId with
        | some e => .error (.os e)
        | none => return some (stored, digest.1, digest.2, pass.mtime stored.path)
    | _ => return none
  match measured with
  | .error e => if isStorageFailure e = true then .ok none else .error e
  | .ok found => .ok found

/-- The first pass about one row. -/
def examineItem (includePublished : Bool) (tree : Directory) (item : FileMetadata) : Except PyException Examined := do
  match ← measure env env.first item.fileId item.relativePath tree with
  | none => return .failed
  | some (_, state) =>
      if state.1 = item.sha256 ∧ state.2.1 = item.sizeBytes then return .unchanged
      else if item.status = .published ∧ includePublished = false then return .skippedPublished
      else return .changed ⟨item.fileId, item.relativePath, item.sha256, state.1, item.sizeBytes, state.2.1,
        item.status = .published⟩ state

/-- The change and the remembered state of a changed row. -/
def Examined.change? : Examined → Option (ChecksumChange × PhysicalState)
  | .changed change state => some (change, state)
  | _ => none

/-- One change in the transaction; `false` counts as an error. -/
def applyChange (tree : Directory) (change : ChecksumChange) (expected : PhysicalState) : CatalogProgram Bool := do
  match ← guarded env.loadFault (read (Database.file? change.fileId)) with
  | none => return false
  | some entity =>
      match ← lift (measure env env.second change.fileId entity.relativeStoragePath tree) with
      | none => return false
      | some (_, state) =>
          if state ≠ expected then return false
          else do
            lift (match env.auditFault with | some e => .error e | none => .ok ())
            write (Database.saveFile { entity with sha256 := state.1, fileSizeBytes := state.2.1 })
            return true

def applyChanges (tree : Directory) : List (ChecksumChange × PhysicalState) → CatalogProgram (List Bool)
  | [] => return []
  | (change, expected) :: changes => do
      let updated ← applyChange env tree change expected
      let rest ← applyChanges tree changes
      return updated :: rest

/-- `recalculate_checksums`: the first pass compares, and the second writes what it
still finds. -/
def recalculateChecksums (dryRun includePublished : Bool) : HostProgram ChecksumReport := do
  let database ← read Host.database
  let tree ← read Host.tree
  let metadata := metadataSnapshot database
  let examined ← lift (metadata.mapM (examineItem env includePublished tree))
  let changes := examined.filterMap Examined.change?
  let failed := examined.countP fun e => match e with | .failed => true | _ => false
  let skipped := examined.countP fun e => match e with | .skippedPublished => true | _ => false
  let report : List Bool → ChecksumReport := fun updates => {
    examined := metadata.length
    changes := changes.map (·.1)
    updatedCount := updates.countP (· = true)
    skippedPublishedCount := skipped
    errors := failed + updates.countP (· = false)
    dryRun := dryRun }
  if dryRun = false ∧ changes ≠ [] then do
    write fun host => { host with database := env.meanwhile host.database }
    let updates ← transaction env.commitFault (applyChanges env tree changes)
    return report updates
  else return report []

/-- A host with the `updated_at` column of its release files. -/
structure StampedHost where
  host : Host
  updatedAt : Nat → Instant

/-- The flush writes the rows with changed columns, and `onupdate` stamps each of them. -/
def stamped (now : Nat → Instant) (before after : Database) (updatedAt : Nat → Instant) (fileId : Nat) : Instant :=
  if after.file? fileId = before.file? fileId then updatedAt fileId else now fileId

/-- `recalculate_checksums` with the timestamps that its flush sets. -/
def recalculateStamped (now : Nat → Instant) (dryRun includePublished : Bool) :
    Program StampedHost PyException ChecksumReport := fun before =>
  match recalculateChecksums env dryRun includePublished before.host with
  | (outcome, host) => (outcome, ⟨host, stamped now before.host.database host.database before.updatedAt⟩)

end Recalculation

/-- What the removal of one entry meets. -/
structure RemovalEnvironment where
  uuid : Nat
  resolveRoot : Option OSError
  resolve : Option OSError
  lstat : Option OSError
  move : MoveCall → Option OSError
  unlink : UnlinkCall → Option OSError

/-- The report of a removal. -/
structure CleanupReport where
  discovered : List Issue
  deletedCount : Nat
  errors : Nat
  dryRun : Bool

section Cleanup

variable (env : ScanEnvironment) (device : List PyStr → Nat) (removal : Nat → RemovalEnvironment)

def removeEntry (faults : RemovalEnvironment) (area : StorageArea) (relativePath : PyStr) : TreeProgram Bool := do
  let root := env.paths.root area
  let relative := posixText relativePath
  let tree ← read id
  let path ← lift (safeResolve env.links faults.resolveRoot faults.resolve root relative true true tree)
  match faults.lstat with
  | some e => raise (.os e)
  | none => match tree.node? path with
      | some (.leaf (.file content)) => do
          let staged ← stageForPermanentDeletion ⟨env.links, device, faults.move⟩ env.paths faults.uuid
            ⟨area, relative, path, content.length⟩
          unlinkStagedDeletion env.links faults.unlink env.paths staged
          return true
      | _ => return false

/-- One iteration of the loop; `false` counts as an error. -/
def cleanupIssue (faults : RemovalEnvironment) (issue : Issue) : TreeProgram Bool :=
  match issue.storageArea with
  | none => return false
  | some area => tryExcept (removeEntry env device faults area issue.relativePath) fun e =>
      if isStorageFailure e = true then return false else raise e

/-- The loop; the iterations are numbered. -/
def cleanupIssues : Nat → List Issue → TreeProgram (List Bool)
  | _, [] => return []
  | index, issue :: issues => do
      let deleted ← cleanupIssue env device (removal index) issue
      let rest ← cleanupIssues (index + 1) issues
      return deleted :: rest

/-- `cleanup_orphans`: the scan, and unless it is a dry run the loop over its
issues. -/
def cleanupOrphans (dryRun : Bool) : HostProgram CleanupReport := do
  let database ← read Host.database
  let tree ← read Host.tree
  let orphans := orphanIssues env (knownPaths database) tree
  if dryRun = false then do
    let deletions ← onTree (cleanupIssues env device removal 0 orphans)
    return ⟨orphans, deletions.countP (· = true), deletions.countP (· = false), dryRun⟩
  else return ⟨orphans, 0, 0, dryRun⟩

end Cleanup
end SoftwareHub.Reconciliation
