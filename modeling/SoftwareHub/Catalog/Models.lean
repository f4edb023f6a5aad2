import SoftwareHub.Python.Instant
import SoftwareHub.Python.Text
import SoftwareHub.Semantics.Program
import SoftwareHub.Semantics.Table

/-! The catalog tables: software, releases and release files, with the stored values
of their enumerations. -/
namespace SoftwareHub.Catalog

open SoftwareHub.Python SoftwareHub.Semantics

/-- The life of a software entry, from its draft to the archive. -/
inductive SoftwareStatus
  | draft
  | published
  | hidden
  | archived
  | disabled
  deriving DecidableEq, Repr

inductive Visibility
  | isPublic
  | unlisted
  | isPrivate
  deriving DecidableEq, Repr

inductive ReleaseChannel
  | stable
  | beta
  | alpha
  | nightly
  | legacy
  deriving DecidableEq, Repr

/-- The life of a release. -/
inductive ReleaseStatus
  | draft
  | published
  | archived
  | disabled
  deriving DecidableEq, Repr

/-- The life of a file, from its upload into the quarantine. -/
inductive FileStatus
  | quarantine
  | ready
  | published
  | disabled
  | archived
  | rejected
  deriving DecidableEq, Repr

inductive Architecture
  | x64
  | x86
  | arm64
  | universal
  | other
  deriving DecidableEq, Repr

inductive PackageType
  | installer
  | portable
  | archive
  | msi
  | other
  deriving DecidableEq, Repr

inductive SignatureStatus
  | unknown
  | valid
  | invalid
  | unsigned
  | notChecked
  deriving DecidableEq, Repr

inductive ScannerStatus
  | notScanned
  | clean
  | infected
  | error
  | unavailable
  deriving DecidableEq, Repr

/-- The stored values, which also stand in the messages about transitions. -/
def SoftwareStatus.value : SoftwareStatus → String
  | draft => "draft"
  | published => "published"
  | hidden => "hidden"
  | archived => "archived"
  | disabled => "disabled"

def ReleaseStatus.value : ReleaseStatus → String
  | draft => "draft"
  | published => "published"
  | archived => "archived"
  | disabled => "disabled"

def FileStatus.value : FileStatus → String
  | quarantine => "quarantine"
  | ready => "ready"
  | published => "published"
  | disabled => "disabled"
  | archived => "archived"
  | rejected => "rejected"

/-- A `date`, as the number of days since the start of the year 1. -/
abbrev Date : Type := Nat

/-- The columns of a software entry that the lifecycle reads and writes. -/
structure Software where
  id : Nat
  status : SoftwareStatus
  visibility : Visibility
  publishedAt : Option Instant
  archivedAt : Option Instant
  deriving DecidableEq, Repr

/-- A row of `releases`. -/
structure Release where
  id : Nat
  softwareId : Nat
  version : PyStr
  releaseChannel : ReleaseChannel
  releaseDate : Option Date
  changelog : Option PyStr
  isCurrent : Bool
  status : ReleaseStatus
  publishedAt : Option Instant
  deriving DecidableEq, Repr

/-- A row of `release_files`. -/
structure ReleaseFile where
  id : Nat
  publicUuid : Nat
  releaseId : Nat
  originalFilename : PyStr
  displayFilename : PyStr
  storageFilename : PyStr
  relativeStoragePath : PyStr
  fileExtension : PyStr
  detectedMimeType : PyStr
  fileSizeBytes : Nat
  sha256 : PyStr
  architecture : Architecture
  packageType : PackageType
  platform : PyStr
  edition : Option PyStr
  downloadCount : Nat
  status : FileStatus
  visibility : Visibility
  publishedAt : Option Instant
  disabledAt : Option Instant
  sourceUrl : Option PyStr
  signatureStatus : SignatureStatus
  scannerStatus : ScannerStatus
  scannerDetails : Option PyStr
  adminNote : Option PyStr
  deriving DecidableEq, Repr

/-- The counters of one file for one UTC day. -/
structure DownloadStat where
  id : Nat
  releaseFileId : Nat
  date : Date
  downloadCount : Nat
  successfulDownloadCount : Nat
  blockedDownloadCount : Nat
  deriving DecidableEq, Repr

/-- The tables of software, releases, files and their download counters. Rows refer
to each other by their ids. -/
structure Database where
  software : List Software
  releases : List Release
  files : List ReleaseFile
  downloadStats : List DownloadStat
  deriving DecidableEq, Repr

namespace Database

def software? (id : Nat) (database : Database) : Option Software :=
  database.software.find? fun software => software.id = id

def release? (id : Nat) (database : Database) : Option Release :=
  database.releases.find? fun release => release.id = id

def file? (id : Nat) (database : Database) : Option ReleaseFile :=
  database.files.find? fun file => file.id = id

def saveSoftware (software : Software) (database : Database) : Database :=
  { database with software := updateRows (fun row => row.id = software.id) (fun _ => software) database.software }

def updateReleases (f : List Release → List Release) (database : Database) : Database :=
  { database with releases := f database.releases }

def saveFile (file : ReleaseFile) (database : Database) : Database :=
  { database with files := updateRows (fun row => row.id = file.id) (fun _ => file) database.files }

end Database

end SoftwareHub.Catalog
