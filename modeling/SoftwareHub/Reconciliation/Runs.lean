import SoftwareHub.Catalog.SoftwareMetadata
import SoftwareHub.Lifecycle.UploadRow
import SoftwareHub.Reconciliation.Service
import SoftwareHub.Semantics.Trace

/-! Runs of all calls that write rows or files, one after the other, and the upload
that each row of a run comes from. -/
namespace SoftwareHub.Reconciliation

open SoftwareHub.Python SoftwareHub.Tree SoftwareHub.Semantics SoftwareHub.Catalog SoftwareHub.Lifecycle Program
open SoftwareHub.Backup (Directory)
open SoftwareHub.Storage (MoveCall)

/-- The bytes of a stored file are replaced. -/
def overwriteFile (path : List PyStr) (content : Bytes) (tree : Directory) : Directory :=
  match tree.file? path with
  | some (.file _) => ((tree.erase path).create path (.leaf (.file content))).getD tree
  | _ => tree

/-- One call; between two calls somebody else may overwrite a file. -/
inductive Operation
  | upload (env : UploadEnvironment) (request : UploadRequest)
  | file (env : ServiceEnvironment) (fileId : Nat) (request : FileRequest)
  | release (request : ReleaseRequest)
  | software (edit : SoftwareEdit)
  | recalculate (env : ChecksumEnvironment) (dryRun includePublished : Bool)
  | cleanup (env : ScanEnvironment) (device : List PyStr → Nat) (removal : Nat → RemovalEnvironment) (dryRun : Bool)
  | overwrite (path : List PyStr) (content : Bytes)

section Perform

variable (unicode : Unicode)

/-- An upload of a run: the one Unicode of the interpreter, and nobody else who
writes rows. -/
def uploadAlone (env : UploadEnvironment) : UploadEnvironment := { env with unicode := unicode, meanwhile := id }

/-- A call of the file service, likewise. -/
def serviceAlone (env : ServiceEnvironment) : ServiceEnvironment := { env with unicode := unicode, meanwhile := id }

def checksumAlone (env : ChecksumEnvironment) : ChecksumEnvironment := { env with meanwhile := id }

/-- An upload answers with its row. -/
def Operation.perform : Operation → HostProgram (Option ReleaseFile)
  | upload env request => some <$> UploadService.uploadReleaseFile (uploadAlone unicode env) request
  | file env fileId request => (fun _ => none) <$> request.perform (serviceAlone unicode env) fileId
  | release request => (fun _ => none) <$> onDatabase request.perform
  | software edit => (fun _ => none) <$> onDatabase edit.perform
  | recalculate env dryRun includePublished =>
      (fun _ => none) <$> recalculateChecksums (checksumAlone env) dryRun includePublished
  | cleanup env device removal dryRun => (fun _ => none) <$> cleanupOrphans env device removal dryRun
  | overwrite path content => do
      write fun host => { host with tree := overwriteFile path content host.tree }
      return none

end Perform

/-- The row with another digest and size. -/
def RowsMeasured (before after : Database) : Prop :=
  ∀ row ∈ after.files, ∃ old ∈ before.files, row = { old with sha256 := row.sha256, fileSizeBytes := row.fileSizeBytes }

theorem RowsMeasured.refl (database : Database) : RowsMeasured database database := fun row hRow => ⟨row, hRow, rfl⟩

theorem RowsMeasured.trans {before mid after : Database} (first : RowsMeasured before mid) (second : RowsMeasured mid after) :
    RowsMeasured before after := by
  intro row hRow
  obtain ⟨between, hBetween, hSecond⟩ := second row hRow
  obtain ⟨old, hOld, hFirst⟩ := first between hBetween
  refine ⟨old, hOld, ?_⟩
  rw [hFirst] at hSecond
  exact hSecond

section Recalculation

variable {env : ChecksumEnvironment}

/-- One change gives a row another digest and size. -/
theorem applyChange_measured {tree : Directory} {change : ChecksumChange} {expected : PhysicalState}
    {before after : Database} {updated : Bool} (h : applyChange env tree change expected before = (.ok updated, after)) :
    RowsMeasured before after := by
  unfold applyChange at h
  obtain ⟨found, mid, hFound, h⟩ := bind_eq_ok h
  cases hLoad : env.loadFault with
  | some e =>
      rw [hLoad] at hFound
      cases hFound
  | none =>
      rw [hLoad, guarded_none, read_apply] at hFound
      obtain ⟨hFile, hMid⟩ := Prod.mk.inj hFound
      obtain rfl := Except.ok.inj hFile
      rw [← hMid] at h
      cases hEntity : before.file? change.fileId with
      | none =>
          rw [hEntity] at h
          cases h
          exact RowsMeasured.refl _
      | some entity =>
          rw [hEntity] at h
          obtain ⟨measured, -, h⟩ := lift_bind_eq_ok h
          cases measured with
          | none =>
              cases h
              exact RowsMeasured.refl _
          | some state =>
              dsimp only at h
              split_ifs at h
              · cases h
                exact RowsMeasured.refl _
              · obtain ⟨_, -, h⟩ := lift_bind_eq_ok h
                rw [write_bind] at h
                cases h
                intro row hRow
                obtain ⟨old, hOld, rfl⟩ := mem_updateRows.mp hRow
                split_ifs
                · exact ⟨entity, List.mem_of_find?_eq_some hEntity, rfl⟩
                · exact ⟨old, hOld, rfl⟩

theorem applyChanges_measured {tree : Directory} (changes : List (ChecksumChange × PhysicalState)) {before after : Database}
    {updates : List Bool} (h : applyChanges env tree changes before = (.ok updates, after)) : RowsMeasured before after := by
  induction changes generalizing before updates with
  | nil =>
      cases h
      exact RowsMeasured.refl _
  | cons first changes ih =>
      unfold applyChanges at h
      obtain ⟨updated, mid, hFirst, h⟩ := bind_eq_ok h
      obtain ⟨rest, last, hRest, h⟩ := bind_eq_ok h
      cases h
      exact (applyChange_measured hFirst).trans (ih hRest)

/-- A recalculation measures rows or writes nothing. -/
theorem recalculateChecksums_writes (hAlone : env.meanwhile = id) (dryRun includePublished : Bool) :
    Writes Host.database RowsMeasured (recalculateChecksums env dryRun includePublished) := by
  unfold recalculateChecksums
  apply (Silent.read _).bind_writes
  intro database
  apply (Silent.read _).bind_writes
  intro tree
  apply (Silent.lift _).bind_writes
  intro examined
  apply Writes.ite
  · apply Silent.bind_writes
    · apply Silent.write
      intro host
      rw [hAlone]
      rfl
    intro _
    refine Writes.bind_silent ?_ fun _ => Silent.pure _
    apply transaction_writes
    intro before updates after h
    exact applyChanges_measured _ h
  · exact (Silent.pure _).writes _

theorem recalculateChecksums_dry (includePublished : Bool) :
    Silent Host.database (recalculateChecksums env true includePublished) := by
  unfold recalculateChecksums
  apply (Silent.read _).bind
  intro database
  apply (Silent.read _).bind
  intro tree
  apply (Silent.lift _).bind
  intro examined
  dsimp only
  rw [if_neg fun hRun => Bool.noConfusion hRun.1]
  exact Silent.pure _

/-- A removal of orphans writes no rows. -/
theorem cleanupOrphans_silent (scan : ScanEnvironment) (device : List PyStr → Nat) (removal : Nat → RemovalEnvironment)
    (dryRun : Bool) : Silent Host.database (cleanupOrphans scan device removal dryRun) := by
  unfold cleanupOrphans
  apply (Silent.read _).bind
  intro database
  apply (Silent.read _).bind
  intro tree
  apply Silent.ite
  · exact (onTree_silent _).bind fun _ => Silent.pure _
  · exact Silent.pure _

end Recalculation

/-- A step on the database that leaves the rows of the files. -/
theorem onDatabase_files_silent {α : Type} {x : CatalogProgram α} (h : Silent Database.files x) :
    Silent (fun host : Host => host.database.files) (onDatabase x) := fun host => h host.database

/-- A step of a run, with the states around it and its answer. -/
abbrev Event : Type := Step Operation Host PyException (Option ReleaseFile)

/-- How a row got into the table, and what has become of it. -/
structure Descends (uploaded row : ReleaseFile) : Prop where
  columns : row = { uploaded with
    status := row.status
    visibility := row.visibility
    publishedAt := row.publishedAt
    disabledAt := row.disabledAt
    sha256 := row.sha256
    fileSizeBytes := row.fileSizeBytes }
  cleared : row.status = .ready ∨ row.status = .published →
    row.status = uploaded.status ∨ uploaded.scannerStatus ≠ .infected

namespace Descends

variable {uploaded row next : ReleaseFile}

theorem refl (row : ReleaseFile) : Descends row row := ⟨rfl, fun _ => Or.inl rfl⟩

/-- What a request makes of a row descends from the same upload. -/
theorem carried (h : Descends uploaded row) (hNext : Carried row next) : Descends uploaded next := by
  constructor
  · have hColumns := hNext.columns
    rw [h.columns] at hColumns
    rw [hColumns]
  · intro hStatus
    rcases hNext.cleared hStatus with hSame | hClean
    · rw [hSame] at hStatus ⊢
      exact h.cleared hStatus
    · rw [h.columns] at hClean
      exact Or.inr hClean

theorem measured (h : Descends uploaded row)
    (hNext : next = { row with sha256 := next.sha256, fileSizeBytes := next.fileSizeBytes }) : Descends uploaded next := by
  have hStatus : next.status = row.status := (congrArg ReleaseFile.status hNext).trans rfl
  constructor
  · rw [h.columns] at hNext
    rw [hNext]
  · intro hReady
    rw [hStatus] at hReady ⊢
    exact h.cleared hReady

end Descends

/-- An applied recalculation has given the row of a file another digest. -/
def Rewrites (step : Event) (fileId : Nat) : Prop :=
  ∃ env includePublished, step.request = .recalculate env false includePublished ∧
    ∃ old ∈ step.before.database.files, ∃ new ∈ step.after.database.files,
      old.id = fileId ∧ new.id = fileId ∧ old.sha256 ≠ new.sha256

/-- The upload of a row in the history; `later` are the steps since then. -/
structure Origin (unicode : Unicode) (past : List Event) (env : UploadEnvironment) (request : UploadRequest)
    (first row : ReleaseFile) (later : List Event) : Prop where
  upload : ∃ before step, past = before ++ step :: later ∧ step.request = .upload env request ∧
    step.outcome = .ok (some first)
  uploaded : Uploaded (uploadAlone unicode env) request first
  descends : Descends first row
  digest : row.sha256 = first.sha256 ∨ ∃ step ∈ later, Rewrites step row.id

/-- The row comes from an upload of the history. -/
def HasOrigin (unicode : Unicode) (past : List Event) (row : ReleaseFile) : Prop :=
  ∃ env request uploaded later, Origin unicode past env request uploaded row later

section Steps

variable {unicode : Unicode} {past : List Event} {row next : ReleaseFile}

/-- A step that keeps the digest of a row keeps its origin. -/
theorem HasOrigin.carried (h : HasOrigin unicode past row) (step : Event) (hNext : Carried row next) :
    HasOrigin unicode (past ++ [step]) next := by
  obtain ⟨env, request, uploaded, later, hOrigin⟩ := h
  obtain ⟨before, upload, rfl, hRequest, hOutcome⟩ := hOrigin.upload
  have hId : next.id = row.id := (congrArg ReleaseFile.id hNext.columns).trans rfl
  have hDigest : next.sha256 = row.sha256 := (congrArg ReleaseFile.sha256 hNext.columns).trans rfl
  refine ⟨env, request, uploaded, later ++ [step], ⟨before, upload, by simp, hRequest, hOutcome⟩, hOrigin.uploaded,
    hOrigin.descends.carried hNext, ?_⟩
  rw [hId, hDigest]
  rcases hOrigin.digest with hSame | ⟨other, hOther, hRewrites⟩
  · exact Or.inl hSame
  · exact Or.inr ⟨other, List.mem_append_left _ hOther, hRewrites⟩

/-- A recalculation keeps the origin; where it changes the digest, it is in the history. -/
theorem HasOrigin.measured (h : HasOrigin unicode past row) {step : Event}
    (hStep : ∃ env includePublished, step.request = .recalculate env false includePublished)
    (hRow : row ∈ step.before.database.files) (hAfter : next ∈ step.after.database.files)
    (hNext : next = { row with sha256 := next.sha256, fileSizeBytes := next.fileSizeBytes }) :
    HasOrigin unicode (past ++ [step]) next := by
  obtain ⟨env, request, uploaded, later, hOrigin⟩ := h
  obtain ⟨before, upload, rfl, hRequest, hOutcome⟩ := hOrigin.upload
  have hId : next.id = row.id := (congrArg ReleaseFile.id hNext).trans rfl
  refine ⟨env, request, uploaded, later ++ [step], ⟨before, upload, by simp, hRequest, hOutcome⟩, hOrigin.uploaded,
    hOrigin.descends.measured hNext, ?_⟩
  rw [hId]
  rcases hOrigin.digest with hSame | ⟨other, hOther, hRewrites⟩
  · by_cases hDigest : next.sha256 = row.sha256
    · exact Or.inl (hDigest.trans hSame)
    · obtain ⟨checksums, includePublished, hRecalculate⟩ := hStep
      have hRewrites : Rewrites step row.id :=
        ⟨checksums, includePublished, hRecalculate, row, hRow, next, hAfter, rfl, hId, Ne.symm hDigest⟩
      exact Or.inr ⟨step, List.mem_append_right _ (List.mem_singleton_self step), hRewrites⟩
  · exact Or.inr ⟨other, List.mem_append_left _ hOther, hRewrites⟩

/-- Rows that stay as they are keep their origins. -/
theorem hasOrigin_of_files_eq {before after : List ReleaseFile} (h : ∀ row ∈ before, HasOrigin unicode past row)
    (hFiles : after = before) (step : Event) : ∀ row ∈ after, HasOrigin unicode (past ++ [step]) row := by
  intro row hRow
  rw [hFiles] at hRow
  exact (h row hRow).carried step (Carried.refl row)

/-- A new row has the last step as its origin. -/
theorem hasOrigin_of_upload {step : Event} {env : UploadEnvironment} {request : UploadRequest}
    (hRequest : step.request = .upload env request) (hOutcome : step.outcome = .ok (some row))
    (hUploaded : Uploaded (uploadAlone unicode env) request row) : HasOrigin unicode (past ++ [step]) row :=
  ⟨env, request, row, [], ⟨past, step, rfl, hRequest, hOutcome⟩, hUploaded, Descends.refl row, Or.inl rfl⟩

/-- A call that writes no file row. -/
theorem hasOrigin_of_silent {operation : Operation}
    (hSilent : Silent (fun host : Host => host.database.files) (operation.perform unicode)) {host : Host}
    (h : ∀ row ∈ host.database.files, HasOrigin unicode past row) :
    ∀ row ∈ (operation.perform unicode host).2.database.files,
      HasOrigin unicode (past ++ [answer (Operation.perform unicode) operation host]) row :=
  hasOrigin_of_files_eq h (hSilent host) _

/-- An upload: the new row comes from this step, the others from earlier ones. -/
theorem hasOrigin_upload (env : UploadEnvironment) (request : UploadRequest) {host : Host}
    (h : ∀ row ∈ host.database.files, HasOrigin unicode past row) :
    ∀ row ∈ ((Operation.upload env request).perform unicode host).2.database.files,
      HasOrigin unicode (past ++ [answer (Operation.perform unicode) (.upload env request) host]) row := by
  have hSpec := uploadReleaseFile_spec (show (uploadAlone unicode env).meanwhile = id from rfl) request host.database host rfl
  have hRun : (Operation.upload env request).perform unicode host =
      ((UploadService.uploadReleaseFile (uploadAlone unicode env) request host).1.map some,
        (UploadService.uploadReleaseFile (uploadAlone unicode env) request host).2) := map_apply _ _ _
  rw [answer_of_run hRun, hRun]
  rcases hAnswer : UploadService.uploadReleaseFile (uploadAlone unicode env) request host with ⟨outcome, after⟩
  rw [hAnswer] at hSpec
  cases outcome with
  | error e => exact hasOrigin_of_files_eq h (congrArg Database.files hSpec) _
  | ok added =>
      obtain ⟨hUploaded, hDatabase⟩ := hSpec
      intro row hRow
      have hFiles : row ∈ host.database.files ++ [added] := by
        rw [show (added, after).2.database = _ from hDatabase] at hRow
        exact hRow
      rcases List.mem_append.mp hFiles with hOld | hNew
      · exact (h row hOld).carried _ (Carried.refl row)
      · rw [List.mem_singleton.mp hNew]
        exact hasOrigin_of_upload rfl rfl hUploaded

/-- A recalculation: its rows keep their origins. -/
theorem hasOrigin_recalculate (env : ChecksumEnvironment) (dryRun includePublished : Bool) {host : Host}
    (h : ∀ row ∈ host.database.files, HasOrigin unicode past row) :
    ∀ row ∈ ((Operation.recalculate env dryRun includePublished).perform unicode host).2.database.files,
      HasOrigin unicode (past ++ [answer (Operation.perform unicode) (.recalculate env dryRun includePublished) host])
        row := by
  have hWrites : Writes Host.database RowsMeasured
      ((Operation.recalculate env dryRun includePublished).perform unicode) :=
    (recalculateChecksums_writes rfl dryRun includePublished).map _
  cases dryRun with
  | true =>
      apply hasOrigin_of_silent _ h
      intro host
      exact congrArg Database.files ((recalculateChecksums_dry includePublished).map _ host)
  | false =>
      rcases hWrites host with hSame | hMeasured
      · exact hasOrigin_of_files_eq h (congrArg Database.files hSame) _
      · intro row hRow
        obtain ⟨old, hOld, hColumns⟩ := hMeasured row hRow
        exact (h old hOld).measured ⟨env, includePublished, rfl⟩ hOld hRow hColumns

/-- Each row of a run comes from an upload of the run. -/
theorem hasOrigin_perform (operation : Operation) {host : Host}
    (h : ∀ row ∈ host.database.files, HasOrigin unicode past row) :
    ∀ row ∈ (operation.perform unicode host).2.database.files,
      HasOrigin unicode (past ++ [answer (Operation.perform unicode) operation host]) row := by
  cases operation with
  | upload env request => exact hasOrigin_upload env request h
  | file env fileId request =>
      intro row hRow
      have hState : ((Operation.file env fileId request).perform unicode host).2 =
          (request.perform (serviceAlone unicode env) fileId host).2 := congrArg Prod.snd (map_apply _ _ host)
      rw [hState] at hRow
      obtain ⟨old, hOld, hCarried⟩ :=
        request.rowsCarried (show (serviceAlone unicode env).meanwhile = id from rfl) fileId host row hRow
      exact (h old hOld).carried _ hCarried
  | release request => exact hasOrigin_of_silent ((onDatabase_files_silent request.files_silent).map _) h
  | software edit => exact hasOrigin_of_silent ((onDatabase_files_silent edit.files_silent).map _) h
  | recalculate env dryRun includePublished => exact hasOrigin_recalculate env dryRun includePublished h
  | cleanup env device removal dryRun =>
      apply hasOrigin_of_silent _ h
      intro host
      exact congrArg Database.files (((cleanupOrphans_silent env device removal dryRun).map _) host)
  | overwrite path content => exact hasOrigin_of_silent (fun _ => rfl) h

/-- At each step of a run that starts without files. -/
theorem hasOrigin_of_trace {start : Host} (hStart : start.database.files = []) {operations : List Operation}
    {earlier later : List Event} {step : Event}
    (hTrace : trace (Operation.perform unicode) start operations = earlier ++ step :: later) :
    (∀ row ∈ step.before.database.files, HasOrigin unicode earlier row) ∧
      ∀ row ∈ step.after.database.files, HasOrigin unicode (earlier ++ [step]) row := by
  have hNone : ∀ row ∈ start.database.files, HasOrigin unicode [] row := by
    intro row hRow
    rw [hStart] at hRow
    cases hRow
  have hStep : ∀ operation ∈ operations, ∀ past host, (∀ row ∈ host.database.files, HasOrigin unicode past row) →
      ∀ row ∈ (operation.perform unicode host).2.database.files,
        HasOrigin unicode (past ++ [answer (Operation.perform unicode) operation host]) row :=
    fun operation _ past host h => hasOrigin_perform operation h
  exact @history_of_invariant Operation Host PyException (Option ReleaseFile) (Operation.perform unicode)
    (fun past host => ∀ row ∈ host.database.files, HasOrigin unicode past row) operations hStep [] start hNone earlier
    later step hTrace

end Steps
end SoftwareHub.Reconciliation
