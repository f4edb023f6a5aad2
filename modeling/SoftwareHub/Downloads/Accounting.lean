import SoftwareHub.Downloads.Authorize
import SoftwareHub.Storage.Filename

/-! The counters of one file under any number of overlapping calls. Each counter is
the number of calls that have passed the accounting transaction. -/
namespace SoftwareHub.Downloads

open SoftwareHub.Python SoftwareHub.Semantics SoftwareHub.Catalog SoftwareHub.Storage Program

/-- The sum of a counter over the days of a file. -/
def total (counter : DownloadStat → Nat) (releaseFileId : Nat) (rows : List DownloadStat) : Nat :=
  (rows.map fun row => if row.releaseFileId = releaseFileId then counter row else 0).sum

section Upsert

variable {releaseFileId : Nat} {day : Date} {downloadIncrement successfulIncrement blockedIncrement : Nat}
  {rows : List DownloadStat}

/-- The upsert keeps one row for a file and a day. -/
theorem nodup_upsertDaily (h : (rows.map fileDate).Nodup) :
    ((upsertDaily releaseFileId day downloadIncrement successfulIncrement blockedIncrement rows).map fileDate).Nodup := by
  unfold upsertDaily
  split_ifs with hStored
  · rwa [map_updateRows]
    exact fun _ _ _ => rfl
  · rw [List.map_append, List.nodup_append]
    refine ⟨h, by simp, fun stored hMem other hOther hEq => hStored ?_⟩
    obtain ⟨row, hRow, rfl⟩ := List.mem_map.mp hMem
    rw [List.map_singleton, List.mem_singleton] at hOther
    exact ⟨row, hRow, hEq.trans hOther⟩

/-- The upsert adds its increment once, whether the day has a row or not. -/
theorem total_upsertDaily (h : (rows.map fileDate).Nodup) {counter : DownloadStat → Nat} {increment : Nat}
    (hUpdate : ∀ row, counter (addCounts downloadIncrement successfulIncrement blockedIncrement row) =
      counter row + increment)
    (hInsert : ∀ id, counter ⟨id, releaseFileId, day, downloadIncrement, successfulIncrement, blockedIncrement⟩ =
      increment) (other : Nat) :
    total counter other (upsertDaily releaseFileId day downloadIncrement successfulIncrement blockedIncrement rows) =
      total counter other rows + if releaseFileId = other then increment else 0 := by
  unfold upsertDaily total
  split_ifs with hStored hFile hFile
  · obtain ⟨row, hRow, hKey⟩ := hStored
    have hSum := @sum_updateRows_of_key _ _ (addCounts downloadIncrement successfulIncrement blockedIncrement) _
      fileDate (fun row => if row.releaseFileId = other then counter row else 0) rows h row hRow
    have hId : row.releaseFileId = other := (congrArg Prod.fst hKey).trans hFile
    have hOld : (if row.releaseFileId = other then counter row else 0) = counter row := if_pos hId
    have hNew : (if (addCounts downloadIncrement successfulIncrement blockedIncrement row).releaseFileId = other then
        counter (addCounts downloadIncrement successfulIncrement blockedIncrement row) else 0) =
        counter row + increment := (if_pos hId).trans (hUpdate row)
    rw [hKey, hOld, hNew] at hSum
    omega
  · apply sum_updateRows_of_eq
    intro stored hMem hKey
    have hId : stored.releaseFileId ≠ other := fun hId => hFile ((congrArg Prod.fst hKey).symm.trans hId)
    exact (if_neg hId).trans (if_neg hId).symm
  · simp only [List.map_append, List.sum_append, List.map_singleton, List.sum_singleton, if_pos hFile, hInsert]
  · simp only [List.map_append, List.sum_append, List.map_singleton, List.sum_singleton, if_neg hFile]

end Upsert

namespace DownloadService

variable {unicode : Unicode} {internalDownloadPrefix : PyStr}

/-- What the accounting of a granted call writes. -/
def authorizedStart (releaseFileId : Nat) (day : Date) (database : Database) : Database :=
  updateStats (upsertDaily releaseFileId day 1 1 0) (incrementDownloadCount releaseFileId database)

/-- What the accounting of a refused call writes. -/
def blockedAttempt (releaseFileId : Nat) (day : Date) (database : Database) : Database :=
  updateStats (upsertDaily releaseFileId day 0 0 1) database

variable (unicode internalDownloadPrefix) in
/-- The moves of a call. Only two of them write, and each of these leaves its
stage. -/
inductive Move (request : DownloadRequest) (database : Database) : Stage → Stage → Database → Prop
  | failed {stage : Stage} (hStage : stage = .started ∨ (∃ id, stage = .refusing id) ∨ ∃ file stored, stage = .counting file stored)
      (e : PyException) : Move request database stage (.finished (.error e)) database
  | refused {file : ReleaseFile} (hFile : file ∈ database.files) (hUuid : file.publicUuid = request.publicUuid) :
      Move request database .started (.refusing file.id) database
  | allowed {file : ReleaseFile} {stored : StoredFile} (hFile : file ∈ database.files)
      (hUuid : file.publicUuid = request.publicUuid) (hStored : stored.relativePath = posixText file.relativeStoragePath)
      (hCount : request.countDownload = true) : Move request database .started (.counting file stored) database
  | uncounted {file : ReleaseFile} {stored : StoredFile} (hFile : file ∈ database.files)
      (hUuid : file.publicUuid = request.publicUuid) (hStored : stored.relativePath = posixText file.relativeStoragePath)
      (hCount : request.countDownload = false) : Move request database .started (.building file stored) database
  | blocked (releaseFileId : Nat) : Move request database (.refusing releaseFileId) (.finished (.error resourceNotFound))
      (blockedAttempt releaseFileId request.day database)
  | counted (file : ReleaseFile) (stored : StoredFile) : Move request database (.counting file stored)
      (.building file stored) (authorizedStart file.id request.day database)
  | built (file : ReleaseFile) (stored : StoredFile) : Move request database (.building file stored)
      (.finished (grant unicode internalDownloadPrefix file stored)) database
  | stayed (outcome : Except PyException DownloadGrant) : Move request database (.finished outcome)
      (.finished outcome) database

/-- Looking up reads; a found file is a row with the requested identifier. -/
theorem getByPublicUuid_run {publicUuid : Nat} {database after : Database} {outcome : Except PyException (Option FileGraph)}
    (h : getByPublicUuid publicUuid database = (outcome, after)) :
    after = database ∧ ∀ graph, outcome = .ok (some graph) →
      graph.file ∈ database.files ∧ graph.file.publicUuid = publicUuid := by
  rw [getByPublicUuid, read_bind] at h
  cases hFile : database.files.find? fun row => row.publicUuid = publicUuid with
  | none =>
      rw [hFile] at h
      cases h
      exact ⟨rfl, fun graph hGraph => by cases hGraph⟩
  | some file =>
      rw [hFile] at h
      dsimp only at h
      rw [read_bind] at h
      cases hRelease : Database.release? file.releaseId database with
      | none =>
          rw [hRelease] at h
          cases h
          exact ⟨rfl, fun graph hGraph => by cases hGraph⟩
      | some release =>
          rw [hRelease] at h
          dsimp only at h
          rw [read_bind] at h
          cases hSoftware : Database.software? release.softwareId database with
          | none =>
              rw [hSoftware] at h
              cases h
              exact ⟨rfl, fun graph hGraph => by cases hGraph⟩
          | some software =>
              rw [hSoftware] at h
              cases h
              refine ⟨rfl, fun graph hGraph => ?_⟩
              cases hGraph
              exact ⟨List.mem_of_find?_eq_some hFile, by simpa using List.find?_some hFile⟩

theorem locate_eq_ok {request : DownloadRequest} {file : ReleaseFile} {stored : StoredFile}
    (h : locate request file = .ok stored) : stored.relativePath = posixText file.relativeStoragePath := by
  unfold locate at h
  split at h
  · cases h
  · cases h
  · next found hFound =>
      split_ifs at h
      cases h
      unfold located at hFound
      split at hFound
      · cases hFound
      · exact (locateStoredFile_eq_ok hFound).1

/-- The decision for a found file is one of the moves. -/
theorem decision_move {request : DownloadRequest} {database : Database} {graph : FileGraph}
    (hFile : graph.file ∈ database.files) (hUuid : graph.file.publicUuid = request.publicUuid) :
    Move unicode internalDownloadPrefix request database .started (decision request (some graph)) database := by
  unfold decision
  by_cases hName : request.requestedFilename ≠ graph.file.displayFilename
  · simp only [if_pos hName]
    exact .refused hFile hUuid
  · by_cases hChain : ¬canDownloadFile graph.software graph.release graph.file request.isAdmin = true
    · simp only [if_neg hName, if_pos hChain]
      exact .refused hFile hUuid
    · simp only [if_neg hName, if_neg hChain]
      cases hStored : locate request graph.file with
      | error e => exact .failed (.inl rfl) e
      | ok stored =>
          by_cases hCount : request.countDownload = true
          · simp only [if_pos hCount]
            exact .allowed hFile hUuid (locate_eq_ok hStored) hCount
          · simp only [if_neg hCount]
            exact .uncounted hFile hUuid (locate_eq_ok hStored) (Bool.not_eq_true _ ▸ hCount)

/-- So is a refusal, whether it can be counted or not. -/
theorem refuse_move (request : DownloadRequest) (releaseFileId : Nat) (database : Database) :
    ∃ outcome after, refuse request releaseFileId database = (outcome, after) ∧
      Move unicode internalDownloadPrefix request database (.refusing releaseFileId) (.finished outcome) after := by
  have hStage : (Stage.refusing releaseFileId = .started ∨ (∃ id, Stage.refusing releaseFileId = .refusing id) ∨
      ∃ file stored, Stage.refusing releaseFileId = .counting file stored) := .inr (.inl ⟨_, rfl⟩)
  cases hFault : request.accountingFault with
  | none =>
      have hRun : recordBlocked request releaseFileId database =
          (.ok (), blockedAttempt releaseFileId request.day database) := by
        apply tryExcept_ok
        rw [hFault]
        rfl
      exact ⟨_, _, bind_ok hRun _, .blocked releaseFileId⟩
  | some e =>
      have hRun : recordBlocked request releaseFileId database =
          (if isSQLAlchemyError e then pure () else raise e : CatalogProgram Unit) database := by
        apply tryExcept_error
        rw [hFault]
        rfl
      split_ifs at hRun
      · exact ⟨_, _, bind_ok hRun _, .failed hStage resourceNotFound⟩
      · exact ⟨_, _, bind_error hRun _, .failed hStage e⟩

theorem recordAuthorizedStart_run (request : DownloadRequest) (releaseFileId : Nat) (database : Database) :
    recordAuthorizedStart request releaseFileId database =
      (.ok (), authorizedStart releaseFileId request.day database) ∨
    ∃ e, recordAuthorizedStart request releaseFileId database = (.error e, database) := by
  unfold recordAuthorizedStart
  cases request.accountingFault with
  | none => exact .inl rfl
  | some e => exact .inr ⟨e, rfl⟩

/-- Every step of a call is one of the moves. -/
theorem step_move (call : Call) (database : Database) :
    (step unicode internalDownloadPrefix call database).1.request = call.request ∧
      Move unicode internalDownloadPrefix call.request database call.stage
        (step unicode internalDownloadPrefix call database).1.stage
        (step unicode internalDownloadPrefix call database).2 := by
  obtain ⟨request, stage⟩ := call
  cases stage with
  | started =>
      cases hFault : request.lookupFault with
      | some e =>
          simp only [step, hFault, guarded_some, raise_apply]
          exact ⟨trivial, .failed (.inl rfl) e⟩
      | none =>
          rcases hFound : getByPublicUuid request.publicUuid database with ⟨found, after⟩
          obtain ⟨rfl, hGraph⟩ := getByPublicUuid_run hFound
          simp only [step, hFault, guarded_none, hFound]
          cases found with
          | error e => exact ⟨rfl, .failed (.inl rfl) e⟩
          | ok found =>
              cases found with
              | none => exact ⟨rfl, .failed (.inl rfl) resourceNotFound⟩
              | some graph =>
                  obtain ⟨hFile, hUuid⟩ := hGraph graph rfl
                  exact ⟨rfl, decision_move hFile hUuid⟩
  | refusing releaseFileId =>
      obtain ⟨outcome, after, hRun, hMove⟩ :=
        @refuse_move unicode internalDownloadPrefix request releaseFileId database
      simp only [step, hRun]
      exact ⟨trivial, hMove⟩
  | counting file stored =>
      rcases recordAuthorizedStart_run request file.id database with hRun | ⟨e, hRun⟩
      · simp only [step, hRun]
        exact ⟨trivial, .counted file stored⟩
      · simp only [step, hRun]
        exact ⟨trivial, .failed (.inr (.inr ⟨file, stored, rfl⟩)) e⟩
  | building file stored => exact ⟨rfl, .built file stored⟩
  | finished outcome => exact ⟨rfl, .stayed outcome⟩

/-- The call has started to read and has not come to its end. -/
def Stage.inProgress : Stage → Bool
  | .started => false
  | .finished _ => false
  | _ => true

def Stage.returned : Stage → Bool
  | .finished (.ok _) => true
  | _ => false

def Stage.raised : Stage → Bool
  | .finished (.error _) => true
  | _ => false

/-- The accounting has committed, and the call has not raised. -/
def Stage.accounted : Stage → Bool
  | .building _ _ => true
  | stage => stage.returned

/-- A counting call for the file that has returned a grant. -/
def Call.granted (file : ReleaseFile) (call : Call) : Bool :=
  call.request.publicUuid == file.publicUuid && call.request.countDownload && call.stage.returned

/-- A call for the file whose accounting has committed. -/
def Call.counted (file : ReleaseFile) (call : Call) : Bool :=
  call.request.publicUuid == file.publicUuid && call.request.countDownload && call.stage.accounted

/-- A call for the file that has raised. -/
def Call.denied (file : ReleaseFile) (call : Call) : Bool :=
  call.request.publicUuid == file.publicUuid && call.stage.raised

variable (unicode internalDownloadPrefix) in
/-- What a call in progress remembers about the file is still so. -/
def Consistent (file : ReleaseFile) (call : Call) : Prop :=
  match call.stage with
  | .refusing releaseFileId => releaseFileId = file.id → call.request.publicUuid = file.publicUuid
  | .counting found stored => (found.id = file.id ↔ call.request.publicUuid = file.publicUuid) ∧
      call.request.countDownload = true ∧
      (found.id = file.id → ∃ headers, grant unicode internalDownloadPrefix found stored = .ok headers)
  | .building found stored => (found.id = file.id ↔ call.request.publicUuid = file.publicUuid) ∧
      (found.id = file.id → ∃ headers, grant unicode internalDownloadPrefix found stored = .ok headers)
  | _ => True

variable (unicode internalDownloadPrefix) in
/-- Every counter of the file is the number of calls that have counted it. -/
structure Ledger (file : ReleaseFile) (system : List Call × Database) : Prop where
  rows : ∀ row ∈ system.2.files, row.id = file.id ∨ row.publicUuid = file.publicUuid →
    row = { file with downloadCount := system.1.countP (Call.counted file) }
  present : ∃ row ∈ system.2.files, row.id = file.id
  days : (system.2.downloadStats.map fileDate).Nodup
  downloads : total DownloadStat.downloadCount file.id system.2.downloadStats = system.1.countP (Call.counted file)
  successes : total DownloadStat.successfulDownloadCount file.id system.2.downloadStats =
    system.1.countP (Call.counted file)
  blocked : total DownloadStat.blockedDownloadCount file.id system.2.downloadStats ≤
    system.1.countP (Call.denied file)
  calls : ∀ call ∈ system.1, Consistent unicode internalDownloadPrefix file call

namespace Ledger

variable {file : ReleaseFile} {calls : List Call} {database : Database} {i : Nat} {old new : Call}

theorem forall_set {P : Call → Prop} (h : ∀ call ∈ calls, P call) (hNew : P new) :
    ∀ call ∈ calls.set i new, P call := by
  intro call hCall
  rcases List.mem_or_eq_of_mem_set hCall with hOld | rfl
  · exact h call hOld
  · exact hNew

/-- A step that neither writes nor counts keeps the ledger. -/
theorem quiet (h : Ledger unicode internalDownloadPrefix file (calls, database)) (hOld : calls[i]? = some old)
    (hCounted : new.counted file = old.counted file) (hDenied : old.denied file = false)
    (hNew : Consistent unicode internalDownloadPrefix file new) :
    Ledger unicode internalDownloadPrefix file (calls.set i new, database) := by
  have hCount := countP_set hOld new (Call.counted file)
  have hDenials := countP_set hOld new (Call.denied file)
  rw [hCounted] at hCount
  rw [hDenied] at hDenials
  have hSame : (calls.set i new).countP (Call.counted file) = calls.countP (Call.counted file) := by omega
  constructor
  · intro row hRow hFile
    rw [h.rows row hRow hFile, hSame]
  · exact h.present
  · exact h.days
  · exact h.downloads.trans hSame.symm
  · exact h.successes.trans hSame.symm
  · have hBlocked := h.blocked
    simp only [Bool.toNat_false] at hDenials hBlocked ⊢
    omega
  · exact forall_set h.calls hNew

/-- A denied call is accounted at most once, for the file that it asked for. -/
theorem blockedAttempt (h : Ledger unicode internalDownloadPrefix file (calls, database)) (hOld : calls[i]? = some old)
    {releaseFileId : Nat} {day : Date} (hCounted : new.counted file = old.counted file)
    (hDenied : old.denied file = false) (hNewDenied : releaseFileId = file.id → new.denied file = true)
    (hNew : Consistent unicode internalDownloadPrefix file new) :
    Ledger unicode internalDownloadPrefix file (calls.set i new, blockedAttempt releaseFileId day database) := by
  have hQuiet := h.quiet hOld hCounted hDenied hNew
  have hTotal := @total_upsertDaily releaseFileId day 0 0 1 _ h.days
  constructor
  · exact hQuiet.rows
  · exact hQuiet.present
  · exact nodup_upsertDaily h.days
  · refine Eq.trans ?_ hQuiet.downloads
    exact (@hTotal DownloadStat.downloadCount 0 (fun _ => rfl) (fun _ => rfl) file.id).trans (by simp)
  · refine Eq.trans ?_ hQuiet.successes
    exact (@hTotal DownloadStat.successfulDownloadCount 0 (fun _ => rfl) (fun _ => rfl) file.id).trans (by simp)
  · have hBlocked := @hTotal DownloadStat.blockedDownloadCount 1 (fun _ => rfl) (fun _ => rfl) file.id
    have hDenials := countP_set hOld new (Call.denied file)
    have hBefore := h.blocked
    rw [hDenied] at hDenials
    show total _ file.id (upsertDaily releaseFileId day 0 0 1 database.downloadStats) ≤ _
    rw [hBlocked]
    by_cases hFile : releaseFileId = file.id
    · rw [hNewDenied hFile] at hDenials
      simp only [if_pos hFile, Bool.toNat_false, Bool.toNat_true] at hDenials hBefore ⊢
      omega
    · simp only [if_neg hFile, Bool.toNat_false] at hDenials hBefore ⊢
      omega
  · exact hQuiet.calls

/-- The accounting transaction counts the call in all three counters. -/
theorem authorizedStart (h : Ledger unicode internalDownloadPrefix file (calls, database))
    (hOld : calls[i]? = some old) {releaseFileId : Nat} {day : Date} (hOldCounted : old.counted file = false)
    (hCounted : new.counted file = true ↔ releaseFileId = file.id) (hDenied : old.denied file = false)
    (hNew : Consistent unicode internalDownloadPrefix file new) :
    Ledger unicode internalDownloadPrefix file (calls.set i new, authorizedStart releaseFileId day database) := by
  have hTotal := @total_upsertDaily releaseFileId day 1 1 0 _ h.days
  have hCount := countP_set hOld new (Call.counted file)
  have hDenials := countP_set hOld new (Call.denied file)
  have hSame : (calls.set i new).countP (Call.counted file) =
      calls.countP (Call.counted file) + if releaseFileId = file.id then 1 else 0 := by
    rw [hOldCounted] at hCount
    by_cases hFile : releaseFileId = file.id
    · rw [hCounted.mpr hFile] at hCount
      simpa [hFile] using hCount
    · rw [Bool.eq_false_iff.mpr (hFile ∘ hCounted.mp)] at hCount
      simpa [hFile] using hCount
  constructor
  · intro row hRow hFile
    obtain ⟨stored, hStored, rfl⟩ := mem_updateRows.mp hRow
    by_cases hId : stored.id = releaseFileId
    · rw [if_pos hId] at hFile ⊢
      have hStoredRow := h.rows stored hStored hFile
      have hStoredId : stored.id = file.id := by rw [hStoredRow]
      rw [hSame, if_pos (hId.symm.trans hStoredId), hStoredRow]
    · rw [if_neg hId] at hFile ⊢
      have hStoredRow := h.rows stored hStored hFile
      have hStoredId : stored.id = file.id := by rw [hStoredRow]
      rw [hSame, if_neg fun hEq => hId (hStoredId.trans hEq.symm)]
      exact hStoredRow
  · obtain ⟨row, hRow, hId⟩ := h.present
    refine ⟨_, mem_updateRows.mpr ⟨row, hRow, rfl⟩, ?_⟩
    split_ifs <;> exact hId
  · exact nodup_upsertDaily h.days
  · refine (@hTotal DownloadStat.downloadCount 1 (fun _ => rfl) (fun _ => rfl) file.id).trans ?_
    rw [hSame]
    exact congrArg (· + _) h.downloads
  · refine (@hTotal DownloadStat.successfulDownloadCount 1 (fun _ => rfl) (fun _ => rfl) file.id).trans ?_
    rw [hSame]
    exact congrArg (· + _) h.successes
  · have hBlocked := @hTotal DownloadStat.blockedDownloadCount 0 (fun _ => rfl) (fun _ => rfl) file.id
    have hBefore := h.blocked
    rw [hDenied] at hDenials
    show total _ file.id (upsertDaily releaseFileId day 1 1 0 database.downloadStats) ≤ _
    rw [hBlocked, ite_self]
    simp only [Bool.toNat_false] at hDenials hBefore ⊢
    omega
  · exact forall_set h.calls hNew

/-- The rows found under the identifier of the file are its row. -/
theorem id_iff (h : Ledger unicode internalDownloadPrefix file (calls, database)) {found : ReleaseFile}
    (hFound : found ∈ database.files) : found.id = file.id ↔ found.publicUuid = file.publicUuid := by
  constructor
  · intro hId
    rw [h.rows found hFound (.inl hId)]
  · intro hUuid
    rw [h.rows found hFound (.inr hUuid)]

variable (hName : ∀ c ∈ file.displayFilename, isScalar c = true)
  (hPath : ∀ c ∈ posixText file.relativeStoragePath, isScalar c = true)

include hName hPath in
/-- The headers of the file can be built, whatever call asks for them. -/
theorem exists_headers (h : Ledger unicode internalDownloadPrefix file (calls, database)) {found : ReleaseFile}
    (hFound : found ∈ database.files) {stored : StoredFile} (hStored : stored.relativePath = posixText found.relativeStoragePath)
    (hId : found.id = file.id) : ∃ headers, grant unicode internalDownloadPrefix found stored = .ok headers := by
  have hRow := h.rows found hFound (.inl hId)
  apply exists_grant
  · rw [hRow]
    exact hName
  · rw [hStored, hRow]
    exact hPath

include hName hPath in
/-- Every step of every call keeps the ledger. -/
theorem step (h : Ledger unicode internalDownloadPrefix file (calls, database)) (hOld : calls[i]? = some old) :
    Ledger unicode internalDownloadPrefix file
      (calls.set i (DownloadService.step unicode internalDownloadPrefix old database).1,
        (DownloadService.step unicode internalDownloadPrefix old database).2) := by
  obtain ⟨hRequest, hMove⟩ := @step_move unicode internalDownloadPrefix old database
  have hConsistent := h.calls old (List.mem_of_getElem? hOld)
  generalize DownloadService.step unicode internalDownloadPrefix old database = result at hRequest hMove ⊢
  obtain ⟨⟨asked, stage⟩, after⟩ := result
  obtain ⟨request, before⟩ := old
  obtain rfl : asked = request := hRequest
  dsimp only at hOld hConsistent hMove ⊢
  cases hMove with
  | failed hStage e =>
      rcases hStage with rfl | ⟨id, rfl⟩ | ⟨found, stored, rfl⟩
      all_goals exact h.quiet hOld rfl (Bool.and_false _) trivial
  | refused hFile hUuid =>
      refine h.quiet hOld rfl (Bool.and_false _) fun hId => ?_
      exact hUuid.symm.trans ((h.id_iff hFile).mp hId)
  | allowed hFile hUuid hStored hCount =>
      refine h.quiet hOld rfl (Bool.and_false _) ⟨?_, hCount, h.exists_headers hName hPath hFile hStored⟩
      rw [h.id_iff hFile, hUuid]
  | uncounted hFile hUuid hStored hCount =>
      refine h.quiet hOld ?_ (Bool.and_false _) ⟨?_, h.exists_headers hName hPath hFile hStored⟩
      · simp [Call.counted, hCount]
      · rw [h.id_iff hFile, hUuid]
  | blocked releaseFileId =>
      refine h.blockedAttempt hOld rfl (Bool.and_false _) (fun hId => ?_) trivial
      have hAsked : asked.publicUuid = file.publicUuid := hConsistent hId
      simp [Call.denied, Stage.raised, hAsked]
  | counted found stored =>
      obtain ⟨hIff, hCount, hHeaders⟩ :
        (found.id = file.id ↔ asked.publicUuid = file.publicUuid) ∧ asked.countDownload = true ∧ _ := hConsistent
      refine h.authorizedStart hOld (Bool.and_false _) ?_ (Bool.and_false _) ⟨hIff, hHeaders⟩
      simp [Call.counted, Stage.accounted, hCount, hIff]
  | built found stored =>
      obtain ⟨hIff, hHeaders⟩ : (found.id = file.id ↔ asked.publicUuid = file.publicUuid) ∧ _ := hConsistent
      refine h.quiet hOld ?_ (Bool.and_false _) trivial
      by_cases hId : found.id = file.id
      · obtain ⟨headers, hOk⟩ := hHeaders hId
        rw [hOk]
        rfl
      · have hOther : (asked.publicUuid == file.publicUuid) = false := by simpa using hId ∘ hIff.mpr
        simp [Call.counted, hOther]
  | stayed outcome =>
      obtain ⟨hBound, hGet⟩ := List.getElem?_eq_some_iff.mp hOld
      rwa [← hGet, List.set_getElem_self]

theorem file?_eq (h : Ledger unicode internalDownloadPrefix file (calls, database)) :
    database.file? file.id = some { file with downloadCount := calls.countP (Call.counted file) } := by
  cases hFind : database.file? file.id with
  | none =>
      obtain ⟨row, hRow, hId⟩ := h.present
      exact absurd (by simpa using hId) (List.find?_eq_none.mp hFind row hRow)
  | some row =>
      have hId : row.id = file.id := by simpa using List.find?_some hFind
      rw [h.rows row (List.mem_of_find?_eq_some hFind) (.inl hId)]

end Ledger

/-- A counted call stays counted: its headers can be built. -/
theorem counted_step {file : ReleaseFile} {call : Call}
    (h : call.counted file = true ∧ Consistent unicode internalDownloadPrefix file call) (database : Database) :
    (step unicode internalDownloadPrefix call database).1.counted file = true ∧
      Consistent unicode internalDownloadPrefix file (step unicode internalDownloadPrefix call database).1 := by
  obtain ⟨request, stage⟩ := call
  obtain ⟨hCounted, hConsistent⟩ := h
  simp only [Call.counted, Bool.and_eq_true, beq_iff_eq] at hCounted
  obtain ⟨⟨hUuid, hCount⟩, hStage⟩ := hCounted
  cases stage with
  | started => cases hStage
  | refusing id => cases hStage
  | counting found stored => cases hStage
  | building found stored =>
      obtain ⟨hIff, hHeaders⟩ : (found.id = file.id ↔ request.publicUuid = file.publicUuid) ∧ _ := hConsistent
      obtain ⟨headers, hOk⟩ := hHeaders (hIff.mpr hUuid)
      refine ⟨?_, trivial⟩
      simp [step, Call.counted, Stage.accounted, Stage.returned, hUuid, hCount, hOk]
  | finished outcome => exact ⟨by simp [step, Call.counted, hUuid, hCount, hStage], trivial⟩

theorem not_raised_of_counted {file : ReleaseFile} {call : Call} (h : call.counted file = true) :
    call.stage.raised = false := by
  simp only [Call.counted, Bool.and_eq_true] at h
  rcases hStage : call.stage with _ | _ | _ | _ | (_ | _)
  all_goals first | rfl | (rw [hStage] at h; cases h.2)

/-- One move changes the blocked attempts by at most one, and only to deny. -/
theorem Move.blocked_total {file : ReleaseFile} {request : DownloadRequest} {database after : Database}
    {before stage : Stage} (hMove : Move unicode internalDownloadPrefix request database before stage after)
    (hDays : (database.downloadStats.map fileDate).Nodup)
    (hConsistent : Consistent unicode internalDownloadPrefix file ⟨request, before⟩) :
    total DownloadStat.blockedDownloadCount file.id after.downloadStats =
        total DownloadStat.blockedDownloadCount file.id database.downloadStats ∨
      total DownloadStat.blockedDownloadCount file.id after.downloadStats =
          total DownloadStat.blockedDownloadCount file.id database.downloadStats + 1 ∧
        before.inProgress = true ∧ Call.denied file ⟨request, stage⟩ = true := by
  cases hMove with
  | blocked releaseFileId =>
      have hTotal := @total_upsertDaily releaseFileId request.day 0 0 1 _ hDays DownloadStat.blockedDownloadCount 1
        (fun _ => rfl) (fun _ => rfl) file.id
      by_cases hFile : releaseFileId = file.id
      · have hAsked : request.publicUuid = file.publicUuid := hConsistent hFile
        refine .inr ⟨hTotal.trans (by rw [if_pos hFile]), rfl, ?_⟩
        simp [Call.denied, Stage.raised, hAsked]
      · exact .inl (hTotal.trans (by rw [if_neg hFile, Nat.add_zero]))
  | counted found stored =>
      have hTotal := @total_upsertDaily found.id request.day 1 1 0 _ hDays DownloadStat.blockedDownloadCount 0
        (fun _ => rfl) (fun _ => rfl) file.id
      exact .inl (hTotal.trans (by rw [ite_self, Nat.add_zero]))
  | failed | refused | allowed | uncounted | built | stayed => exact .inl rfl

/-- The counters that only authorized downloads change. -/
def authorizedCounters (file : ReleaseFile) (database : Database) : Option Nat × Nat × Nat :=
  ((database.file? file.id).map ReleaseFile.downloadCount,
    total DownloadStat.downloadCount file.id database.downloadStats,
    total DownloadStat.successfulDownloadCount file.id database.downloadStats)

/-- A stored file that has not been downloaded. Its display name is one that an
upload accepts, and its path is SQLite text, which is UTF-8 and holds no surrogate. -/
structure FreshFile (unicode : Unicode) (database : Database) (file : ReleaseFile) : Prop where
  stored : file ∈ database.files
  ids : (database.files.map ReleaseFile.id).Nodup
  publicUuids : (database.files.map ReleaseFile.publicUuid).Nodup
  fileDates : (database.downloadStats.map fileDate).Nodup
  downloadCount : file.downloadCount = 0
  stats : ∀ row ∈ database.downloadStats, row.releaseFileId = file.id →
    row.downloadCount = 0 ∧ row.successfulDownloadCount = 0 ∧ row.blockedDownloadCount = 0
  displayFilename : ∃ allowedExtensions filename normalized, (∀ c ∈ filename, c < 0x110000) ∧
    normalizeOriginalFilename unicode allowedExtensions filename = .ok normalized ∧
    file.displayFilename = normalized.value
  relativeStoragePath : ∀ c ∈ file.relativeStoragePath, isScalar c = true

variable (unicode internalDownloadPrefix) in
/-- What the counters of a file say in one state of a run, and what the next
step of any call does to them. -/
structure Accounted (file : ReleaseFile) (system : List Call × Database) : Prop where
  /-- The three authorized counters agree. -/
  agree : ∃ row, system.2.file? file.id = some row ∧
    row.downloadCount = total DownloadStat.downloadCount file.id system.2.downloadStats ∧
    row.downloadCount = total DownloadStat.successfulDownloadCount file.id system.2.downloadStats
  /-- With no call in progress they count the grants. -/
  grants : (∀ call ∈ system.1, call.stage.inProgress = false) → ∃ row, system.2.file? file.id = some row ∧
    row.downloadCount = system.1.countP (Call.granted file)
  /-- No denied call is counted twice. -/
  blocked : total DownloadStat.blockedDownloadCount file.id system.2.downloadStats ≤
    system.1.countP (Call.denied file)
  /-- Only the step in which a call is denied adds a blocked attempt. -/
  blockedStep : ∀ call ∈ system.1,
    let next := step unicode internalDownloadPrefix call system.2
    total DownloadStat.blockedDownloadCount file.id next.2.downloadStats =
        total DownloadStat.blockedDownloadCount file.id system.2.downloadStats ∨
      total DownloadStat.blockedDownloadCount file.id next.2.downloadStats =
          total DownloadStat.blockedDownloadCount file.id system.2.downloadStats + 1 ∧
        call.stage.inProgress = true ∧ next.1.denied file = true
  /-- A call that raises, now or later, changes no authorized counter. -/
  raised : ∀ (i : Nat) (later : List Nat), (∃ call, (interleave (step unicode internalDownloadPrefix) later
      (advance (step unicode internalDownloadPrefix) i system)).1[i]? = some call ∧ call.stage.raised = true) →
    authorizedCounters file (advance (step unicode internalDownloadPrefix) i system).2 =
      authorizedCounters file system.2

namespace FreshFile

variable {database : Database} {file : ReleaseFile}

/-- A display name that an upload accepts can be encoded. -/
theorem isScalar_displayFilename (h : FreshFile unicode database file) : ∀ c ∈ file.displayFilename, isScalar c = true := by
  obtain ⟨_, _, normalized, hText, hAccepted, hName⟩ := h.displayFilename
  rw [hName]
  exact isScalar_of_normalizeOriginalFilename hText hAccepted

/-- Before the first step nothing has been counted. -/
theorem ledger (h : FreshFile unicode database file) (requests : List DownloadRequest) :
    Ledger unicode internalDownloadPrefix file (requests.map fun request => ⟨request, .started⟩, database) := by
  have hZero (p : Call → Bool) (hp : ∀ request, p ⟨request, .started⟩ = false) :
      (requests.map fun request => (⟨request, .started⟩ : Call)).countP p = 0 := by
    rw [List.countP_map, List.countP_eq_zero]
    intro request _
    simp [hp]
  have hTotal (counter : DownloadStat → Nat)
      (hCounter : ∀ row ∈ database.downloadStats, row.releaseFileId = file.id → counter row = 0) :
      total counter file.id database.downloadStats = 0 := by
    apply List.sum_eq_zero
    intro value hValue
    obtain ⟨row, hRow, rfl⟩ := List.mem_map.mp hValue
    split_ifs with hFile
    · exact hCounter row hRow hFile
    · rfl
  have hCounted := hZero (Call.counted file) fun _ => Bool.and_false _
  constructor
  · intro row hRow hFile
    obtain rfl : row = file := by
      rcases hFile with hId | hUuid
      · exact List.inj_on_of_nodup_map h.ids hRow h.stored hId
      · exact List.inj_on_of_nodup_map h.publicUuids hRow h.stored hUuid
    rw [hCounted, ← h.downloadCount]
  · exact ⟨file, h.stored, rfl⟩
  · exact h.fileDates
  · exact (hTotal _ fun row hRow hFile => (h.stats row hRow hFile).1).trans hCounted.symm
  · exact (hTotal _ fun row hRow hFile => (h.stats row hRow hFile).2.1).trans hCounted.symm
  · exact (hTotal _ fun row hRow hFile => (h.stats row hRow hFile).2.2).le.trans (Nat.zero_le _)
  · intro call hCall
    obtain ⟨request, -, rfl⟩ := List.mem_map.mp hCall
    trivial

end FreshFile

/-- The ledger says what the counters of the file are. -/
theorem Ledger.accounted {file : ReleaseFile} {system : List Call × Database}
    (hName : ∀ c ∈ file.displayFilename, isScalar c = true)
    (hPath : ∀ c ∈ posixText file.relativeStoragePath, isScalar c = true)
    (h : Ledger unicode internalDownloadPrefix file system) :
    Accounted unicode internalDownloadPrefix file system := by
  obtain ⟨calls, database⟩ := system
  constructor
  · exact ⟨_, h.file?_eq, h.downloads.symm, h.successes.symm⟩
  · intro hIdle
    refine ⟨_, h.file?_eq, List.countP_congr fun call hCall => ?_⟩
    have hStage := hIdle call hCall
    rcases hCases : call.stage with _ | _ | _ | _ | _
    all_goals simp [Call.counted, Call.granted, Stage.accounted, Stage.inProgress, hCases] at hStage ⊢
  · exact h.blocked
  · intro call hCall
    obtain ⟨hRequest, hMove⟩ := @step_move unicode internalDownloadPrefix call database
    have hTotal := hMove.blocked_total h.days (h.calls call hCall)
    rwa [← hRequest] at hTotal
  · intro i later ⟨last, hLast, hRaised⟩
    cases hCall : calls[i]? with
    | none => rw [advance_of_none hCall]
    | some call =>
        have hNext := h.step hName hPath hCall
        have hStays := fun hCounted => counted_step ⟨hCounted, h.calls call (List.mem_of_getElem? hCall)⟩ database
        rw [advance_of_getElem? hCall] at hLast ⊢
        generalize DownloadService.step unicode internalDownloadPrefix call database = next at hNext hStays hLast ⊢
        have hBound : i < calls.length := (List.getElem?_eq_some_iff.mp hCall).1
        have hNotNew : next.1.counted file = true → call.counted file = true := by
          intro hCounted
          -- a call counted in this step could not raise any more
          have hNow : ∃ other, (calls.set i next.1, next.2).1[i]? = some other ∧
              other.counted file = true ∧ Consistent unicode internalDownloadPrefix file other :=
            ⟨_, List.getElem?_set_self hBound, hCounted, hNext.calls _ (List.mem_set hBound _)⟩
          obtain ⟨other, hOther, hStill, -⟩ := interleave_local (fun _ database h => counted_step h database) hNow later
          obtain rfl : other = last := Option.some.inj (hOther.symm.trans hLast)
          rw [not_raised_of_counted hStill] at hRaised
          cases hRaised
        have hCount := countP_set hCall next.1 (Call.counted file)
        rw [Bool.eq_iff_iff.mpr ⟨hNotNew, fun hCounted => (hStays hCounted).1⟩] at hCount
        have hSame : (calls.set i next.1).countP (Call.counted file) = calls.countP (Call.counted file) := by omega
        unfold authorizedCounters
        rw [hNext.file?_eq, h.file?_eq, hNext.downloads, h.downloads, hNext.successes, h.successes, hSame]

/-- Whatever the calls and their order: no increment is lost, doubled or made
for a call that raises. -/
theorem downloads_accounted {database : Database} {file : ReleaseFile} (hFile : FreshFile unicode database file)
    (requests : List DownloadRequest) (schedule : List Nat) :
    Accounted unicode internalDownloadPrefix file (interleave (step unicode internalDownloadPrefix) schedule
      (requests.map fun request => ⟨request, .started⟩, database)) := by
  have hName := hFile.isScalar_displayFilename
  have hPath := isScalar_posixText hFile.relativeStoragePath
  have hLedger := @interleave_of_invariant _ _ _ (Ledger unicode internalDownloadPrefix file)
    (fun calls database i call h hCall => h.step hName hPath hCall) _ (hFile.ledger requests) schedule
  exact hLedger.accounted hName hPath

/-- A published installer in the catalog, not downloaded yet. -/
def sampleFile : ReleaseFile where
  id := 1
  publicUuid := 7
  releaseId := 1
  originalFilename := py "setup.exe"
  displayFilename := py "setup.exe"
  storageFilename := py "0123456789abcdef0123456789abcdef.exe"
  relativeStoragePath := py "01/23/0123456789abcdef0123456789abcdef.exe"
  fileExtension := py ".exe"
  detectedMimeType := py "application/vnd.microsoft.portable-executable"
  fileSizeBytes := 2
  sha256 := List.replicate 64 0x30
  architecture := .x64
  packageType := .installer
  platform := py "windows"
  edition := none
  downloadCount := 0
  status := .published
  visibility := .isPublic
  publishedAt := none
  disabledAt := none
  sourceUrl := none
  signatureStatus := .unknown
  scannerStatus := .clean
  scannerDetails := none
  adminNote := none

def sampleDatabase : Database where
  software := [⟨1, .published, .isPublic, none, none⟩]
  releases := [⟨1, 1, py "1.0", .stable, none, none, false, .published, none⟩]
  files := [sampleFile]
  downloadStats := []

/-- A request for the sample file, under a name. -/
def sampleRequest (requestedFilename : PyStr) : DownloadRequest where
  publicUuid := 7
  requestedFilename := requestedFilename
  isAdmin := false
  countDownload := true
  day := 739446
  storage := ⟨fun _ => none, fun path => if path = sampleFile.relativeStoragePath then some [0x4D, 0x5A] else none,
    fun _ => none⟩
  lookupFault := none
  storageFault := none
  accountingFault := none

/-- Two downloads and a wrong name, step by step in turn. -/
theorem downloads_accounted_sample :
    Accounted Unicode.ascii (py "/_protected/") sampleFile
      (interleave (step Unicode.ascii (py "/_protected/")) [0, 1, 2, 1, 0, 2, 1, 0]
        ([sampleRequest (py "setup.exe"), sampleRequest (py "setup.exe"), sampleRequest (py "other.exe")].map
          fun request => ⟨request, .started⟩, sampleDatabase)) := by
  apply downloads_accounted
  constructor
  · exact List.mem_singleton.mpr rfl
  · decide
  · decide
  · decide
  · rfl
  · intro row hRow
    cases hRow
  · exact ⟨[py ".exe"], py "setup.exe", ⟨py "setup.exe", py "setup", py ".exe"⟩, by decide, by rfl, rfl⟩
  · decide

end DownloadService
end SoftwareHub.Downloads
