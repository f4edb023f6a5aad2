import SoftwareHub.Catalog.Releases
import SoftwareHub.Downloads.Grant
import SoftwareHub.Semantics.Interleaving

/-! `DownloadService.authorize`: the call as the service writes it, and the steps in
which calls of several clients meet at the database. -/
namespace SoftwareHub.Downloads

open SoftwareHub.Python SoftwareHub.Semantics SoftwareHub.Catalog SoftwareHub.Storage Program

def fileDate (row : DownloadStat) : Nat × Date := (row.releaseFileId, row.date)

/-- The `set_` clause of the upsert, which adds to the stored counters. -/
def addCounts (downloadIncrement successfulIncrement blockedIncrement : Nat) (row : DownloadStat) : DownloadStat :=
  { row with
    downloadCount := row.downloadCount + downloadIncrement
    successfulDownloadCount := row.successfulDownloadCount + successfulIncrement
    blockedDownloadCount := row.blockedDownloadCount + blockedIncrement }

/-- `INSERT … ON CONFLICT DO UPDATE`: the row of the file and the day gets the
increments, or is added with them. -/
def upsertDaily (releaseFileId : Nat) (day : Date) (downloadIncrement successfulIncrement blockedIncrement : Nat)
    (rows : List DownloadStat) : List DownloadStat :=
  if ∃ row ∈ rows, fileDate row = (releaseFileId, day) then
    updateRows (fun row => fileDate row = (releaseFileId, day))
      (addCounts downloadIncrement successfulIncrement blockedIncrement) rows
  else rows ++ [{
    id := nextId DownloadStat.id rows
    releaseFileId := releaseFileId
    date := day
    downloadCount := downloadIncrement
    successfulDownloadCount := successfulIncrement
    blockedDownloadCount := blockedIncrement }]

/-- The increment of the file's own counter, by the database itself. -/
def incrementDownloadCount (releaseFileId : Nat) (database : Database) : Database :=
  { database with
    files := updateRows (fun row => row.id = releaseFileId)
      (fun row => { row with downloadCount := row.downloadCount + 1 }) database.files }

def updateStats (f : List DownloadStat → List DownloadStat) (database : Database) : Database :=
  { database with downloadStats := f database.downloadStats }

namespace DownloadStatRepository

/-- `record_authorized_start` of the repository: both counters of the day, and that
of the file. -/
def recordAuthorizedStart (releaseFileId : Nat) (day : Date) : CatalogProgram Unit := do
  write (incrementDownloadCount releaseFileId)
  write (updateStats (upsertDaily releaseFileId day 1 1 0))

/-- `record_blocked` of the repository. -/
def recordBlocked (releaseFileId : Nat) (day : Date) : CatalogProgram Unit :=
  write (updateStats (upsertDaily releaseFileId day 0 0 1))

end DownloadStatRepository

/-- The arguments of a call, the UTC day at its accounting, the stored files it
finds, and the failures of its three accesses. -/
structure DownloadRequest where
  publicUuid : Nat
  requestedFilename : PyStr
  isAdmin : Bool
  countDownload : Bool
  day : Date
  storage : Areas
  lookupFault : Option PyException
  storageFault : Option PyException
  accountingFault : Option PyException

abbrev resourceNotFound : PyException := entityNotFound "The requested resource was not found."

/-- `except SQLAlchemyError`. -/
def isSQLAlchemyError : PyException → Bool
  | .databaseError => true
  | .integrityError => true
  | _ => false

/-- A file with its release and its software. -/
structure FileGraph where
  file : ReleaseFile
  release : Release
  software : Software

/-- The look-up of a file by its public identifier. The foreign keys have a parent
row for each file and each release. -/
def getByPublicUuid (publicUuid : Nat) : CatalogProgram (Option FileGraph) := do
  match ← read (fun database => database.files.find? fun row => row.publicUuid = publicUuid) with
  | none => return none
  | some file =>
      match ← read (Database.release? file.releaseId) with
      | none => raise .attributeError
      | some release =>
          match ← read (Database.software? release.softwareId) with
          | none => raise .attributeError
          | some software => return some ⟨file, release, software⟩

namespace DownloadService

/-- The accounting transaction of a granted call, which may fail. -/
def recordAuthorizedStart (request : DownloadRequest) (releaseFileId : Nat) : CatalogProgram Unit :=
  guarded request.accountingFault
    (atomically (DownloadStatRepository.recordAuthorizedStart releaseFileId request.day))

/-- The accounting transaction of a refused call, whose failure the service
swallows. -/
def recordBlocked (request : DownloadRequest) (releaseFileId : Nat) : CatalogProgram Unit :=
  tryExcept
    (guarded request.accountingFault (atomically (DownloadStatRepository.recordBlocked releaseFileId request.day)))
    fun e => if isSQLAlchemyError e then pure () else raise e

/-- `locate_stored_file`, where the storage answers. -/
def located (request : DownloadRequest) (file : ReleaseFile) : Except PyException StoredFile :=
  match request.storageFault with
  | some e => .error e
  | none => locateStoredFile request.storage file.relativeStoragePath

/-- The physical file of an allowed download, or the refusal of one that is not
there. -/
def locate (request : DownloadRequest) (file : ReleaseFile) : Except PyException StoredFile :=
  match located request file with
  | .error (.application .storageError _) => .error resourceNotFound
  | .error e => .error e
  | .ok stored =>
      if stored.area ≠ .software then .error resourceNotFound
      else if stored.sizeBytes ≠ file.fileSizeBytes then .error resourceNotFound
      else .ok stored

/-- A refused download: it is counted if that is possible, and the answer never
tells why. -/
def refuse (request : DownloadRequest) (releaseFileId : Nat) : CatalogProgram DownloadGrant := do
  recordBlocked request releaseFileId
  raise resourceNotFound

section Authorize

variable (unicode : Unicode) (internalDownloadPrefix : PyStr)

/-- `authorize`: the look-up, the checks in their order, the accounting and the
headers. -/
def authorize (request : DownloadRequest) : CatalogProgram DownloadGrant := do
  match ← guarded request.lookupFault (getByPublicUuid request.publicUuid) with
  | none => raise resourceNotFound
  | some graph =>
      if request.requestedFilename ≠ graph.file.displayFilename then refuse request graph.file.id
      else if ¬canDownloadFile graph.software graph.release graph.file request.isAdmin = true then
        refuse request graph.file.id
      else do
        let stored ← lift (locate request graph.file)
        if request.countDownload = true then do
          recordAuthorizedStart request graph.file.id
          lift (grant unicode internalDownloadPrefix graph.file stored)
        else lift (grant unicode internalDownloadPrefix graph.file stored)

/-- How far a call has come: the look-up, at most one accounting transaction, and
the headers. -/
inductive Stage
  | started
  | refusing (releaseFileId : Nat)
  | counting (file : ReleaseFile) (stored : StoredFile)
  | building (file : ReleaseFile) (stored : StoredFile)
  | finished (outcome : Except PyException DownloadGrant)

/-- A call under way. -/
structure Call where
  request : DownloadRequest
  stage : Stage

/-- The decision after the look-up, which looks at nothing but what was found. -/
def decision (request : DownloadRequest) : Option FileGraph → Stage
  | none => .finished (.error resourceNotFound)
  | some graph =>
      if request.requestedFilename ≠ graph.file.displayFilename then .refusing graph.file.id
      else if ¬canDownloadFile graph.software graph.release graph.file request.isAdmin = true then
        .refusing graph.file.id
      else match locate request graph.file with
        | .error e => .finished (.error e)
        | .ok stored =>
            if request.countDownload = true then .counting graph.file stored else .building graph.file stored

/-- One step of a call; other calls may run between the steps. -/
def step (call : Call) (database : Database) : Call × Database :=
  match call.stage with
  | .started =>
      match guarded call.request.lookupFault (getByPublicUuid call.request.publicUuid) database with
      | (.error e, after) => (⟨call.request, .finished (.error e)⟩, after)
      | (.ok found, after) => (⟨call.request, decision call.request found⟩, after)
  | .refusing releaseFileId =>
      match refuse call.request releaseFileId database with
      | (outcome, after) => (⟨call.request, .finished outcome⟩, after)
  | .counting file stored =>
      match recordAuthorizedStart call.request file.id database with
      | (.error e, after) => (⟨call.request, .finished (.error e)⟩, after)
      | (.ok _, after) => (⟨call.request, .building file stored⟩, after)
  | .building file stored =>
      (⟨call.request, .finished (grant unicode internalDownloadPrefix file stored)⟩, database)
  | .finished _ => (call, database)

/-- What is left of a call, as the service would run it alone. -/
def remaining (call : Call) : CatalogProgram DownloadGrant :=
  match call.stage with
  | .started => authorize unicode internalDownloadPrefix call.request
  | .refusing releaseFileId => refuse call.request releaseFileId
  | .counting file stored => do
      recordAuthorizedStart call.request file.id
      lift (grant unicode internalDownloadPrefix file stored)
  | .building file stored => lift (grant unicode internalDownloadPrefix file stored)
  | .finished outcome => lift outcome

/-- A step does the next part of the call and leaves the rest. This ties the steps
to `authorize`. -/
theorem remaining_step (call : Call) (database : Database) :
    remaining unicode internalDownloadPrefix (step unicode internalDownloadPrefix call database).1
      (step unicode internalDownloadPrefix call database).2 =
    remaining unicode internalDownloadPrefix call database := by
  obtain ⟨request, stage⟩ := call
  cases stage with
  | started =>
      rcases hFound : guarded request.lookupFault (getByPublicUuid request.publicUuid) database with ⟨found, after⟩
      cases found with
      | error e =>
          simp only [step, hFound]
          exact (bind_error hFound _).symm
      | ok found =>
          simp only [step, hFound]
          refine Eq.trans ?_ (bind_ok hFound _).symm
          cases found with
          | none => rfl
          | some graph =>
              by_cases hName : request.requestedFilename ≠ graph.file.displayFilename
              · simp only [decision, if_pos hName, remaining]
              · by_cases hChain : ¬canDownloadFile graph.software graph.release graph.file request.isAdmin = true
                · simp only [decision, if_neg hName, if_pos hChain, remaining]
                · simp only [decision, if_neg hName, if_neg hChain]
                  cases hStored : locate request graph.file with
                  | error e => rfl
                  | ok stored =>
                      by_cases hCount : request.countDownload = true
                      · simp only [if_pos hCount, remaining]
                        rfl
                      · simp only [if_neg hCount, remaining]
                        rfl
  | refusing releaseFileId =>
      simp only [step, remaining]
      rfl
  | counting file stored =>
      rcases hStart : recordAuthorizedStart request file.id database with ⟨outcome, after⟩
      cases outcome with
      | error e =>
          simp only [step, hStart]
          exact (bind_error hStart _).symm
      | ok _ =>
          simp only [step, hStart]
          exact (bind_ok hStart fun _ => lift (grant unicode internalDownloadPrefix file stored)).symm
  | building file stored => rfl
  | finished outcome => rfl

end Authorize
end DownloadService
end SoftwareHub.Downloads
