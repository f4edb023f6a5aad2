import SoftwareHub.Lifecycle.SignatureGate
import SoftwareHub.Reconciliation.Runs

/-! Over whole runs: no infected file gets ready or published, and a file that is
published has passed every check of the gate. -/
namespace SoftwareHub.Reconciliation

open SoftwareHub.Python SoftwareHub.Semantics SoftwareHub.Catalog SoftwareHub.Lifecycle Program
open SoftwareHub.Lifecycle.FileService (ensurePublishReady)
open SoftwareHub.Storage (assessStoredSignature detectFileType validateFileSignature)

section Rows

variable {unicode : Unicode} {past : List Event} {row : ReleaseFile}

/-- The upload rejects what the scanner calls infected, and no transition gets it out. -/
theorem not_cleared_of_infected (h : HasOrigin unicode past row) (hInfected : row.scannerStatus = .infected) :
    row.status ≠ .ready ∧ row.status ≠ .published := by
  obtain ⟨env, request, uploaded, later, hOrigin⟩ := h
  obtain ⟨id, streamed, scanResult, texts, -, -, hRow⟩ := hOrigin.uploaded
  have hScanner : uploaded.scannerStatus = .infected :=
    ((congrArg ReleaseFile.scannerStatus hOrigin.descends.columns).trans rfl).symm.trans hInfected
  have hRejected : uploaded.status = .rejected := by
    rw [hRow] at hScanner ⊢
    exact if_pos hScanner
  have hNot : ¬(row.status = .ready ∨ row.status = .published) := by
    intro hStatus
    rcases hOrigin.descends.cleared hStatus with hSame | hClean
    · rw [hSame, hRejected] at hStatus
      rcases hStatus with hStatus | hStatus <;> cases hStatus
    · exact hClean hScanner
  exact not_or.mp hNot

theorem ensurePublishReady_eq_ok {graph : Downloads.FileGraph} {u : Unit} (h : ensurePublishReady unicode graph = .ok u) :
    graph.file.status = .ready ∧
      assessStoredSignature unicode graph.file.fileExtension graph.file.detectedMimeType = .isMatch ∧
      graph.release.status = .published ∧ graph.software.Released ∧
      (graph.file.scannerStatus = .clean ∨ graph.file.scannerStatus = .unavailable) := by
  obtain ⟨_, hReady, h⟩ := except_bind_eq_ok h
  obtain ⟨_, hSignature, h⟩ := except_bind_eq_ok h
  obtain ⟨_, hRelease, h⟩ := except_bind_eq_ok h
  obtain ⟨_, hSoftware, hScanner⟩ := except_bind_eq_ok h
  exact ⟨require_eq_ok_iff.mp hReady, require_eq_ok_iff.mp hSignature, require_eq_ok_iff.mp hRelease,
    require_eq_ok_iff.mp hSoftware, require_eq_ok_iff.mp hScanner⟩

/-- A stored media type matches only if the sample was detected under the extension. -/
theorem detected_of_isMatch (hFold : unicode.FoldsAscii) {env : UploadEnvironment} {id releaseId : Nat}
    {streamed : StreamedUpload} {scanResult : ScanResult} {metadata : UploadMetadata} {texts : UploadService.RowTexts}
    {extension : PyStr} {sample : Bytes}
    (h : assessStoredSignature unicode extension (UploadService.newRow env id releaseId streamed
      (validateFileSignature unicode extension sample) scanResult metadata texts).detectedMimeType = .isMatch) :
    ∃ fileType, detectFileType sample = some fileType ∧ fileType.extension = unicode.casefold (strip extension) := by
  rcases hDetected : detectFileType sample with _ | fileType
  · rw [validateFileSignature, hDetected] at h
    have hUnknown := (assessStoredSignature_unknown hFold extension).symm.trans h
    cases hUnknown
  · refine ⟨fileType, rfl, ?_⟩
    by_contra hExtension
    rw [validateFileSignature, hDetected] at h
    dsimp only at h
    rw [if_pos hExtension] at h
    have hMismatch := (assessStoredSignature_detected hFold extension (detectFileType_mem hDetected)).symm.trans h
    rw [if_pos hExtension] at hMismatch
    cases hMismatch

/-- A stored row that matches comes from a sample that did. -/
theorem sample_of_isMatch (hFold : unicode.FoldsAscii) {env : UploadEnvironment} {request : UploadRequest}
    {uploaded : ReleaseFile} {later : List Event} (h : Origin unicode past env request uploaded row later)
    (hMatch : assessStoredSignature unicode row.fileExtension row.detectedMimeType = .isMatch) :
    ∃ fileType, detectFileType ((body request.reads).take env.settings.uploadMagicSampleSize) = some fileType ∧
      fileType.extension = unicode.casefold (strip row.fileExtension) := by
  obtain ⟨id, streamed, scanResult, texts, hSampled, -, hRow⟩ := h.uploaded
  have hExtension : row.fileExtension = streamed.pathPlan.original.extension := by
    have hColumn := congrArg ReleaseFile.fileExtension h.descends.columns
    rw [hRow] at hColumn
    exact hColumn
  have hMime : row.detectedMimeType = uploaded.detectedMimeType :=
    (congrArg ReleaseFile.detectedMimeType h.descends.columns).trans rfl
  rw [hMime, hRow, hExtension] at hMatch
  rw [show (body request.reads).take env.settings.uploadMagicSampleSize = streamed.signatureSample from
    hSampled.sample.symm, hExtension]
  exact detected_of_isMatch hFold hMatch

end Rows

/-- What holds of a row at the moment of its publication. -/
structure Gate (unicode : Unicode) (past : List Event) (database : Database) (row : ReleaseFile) : Prop where
  parents : ∃ release software, database.release? row.releaseId = some release ∧ release.status = .published ∧
    database.software? release.softwareId = some software ∧ software.Released
  scanner : row.scannerStatus = .clean ∨ row.scannerStatus = .unavailable
  sample : ∃ step ∈ past, ∃ env request uploaded fileType, step.request = .upload env request ∧
    step.outcome = .ok (some uploaded) ∧ Descends uploaded row ∧
    detectFileType ((body request.reads).take env.settings.uploadMagicSampleSize) = some fileType ∧
    fileType.extension = unicode.casefold (strip row.fileExtension)

/-- A row that a publication has turned published passed the gate. -/
theorem gate_of_publish {unicode : Unicode} (hFold : unicode.FoldsAscii) {past : List Event} {host : Host}
    (h : ∀ row ∈ host.database.files, HasOrigin unicode past row) (env : ServiceEnvironment) (fileId : Nat)
    {row : ReleaseFile}
    (hRow : row ∈ (FileRequest.publish.perform (serviceAlone unicode env) fileId host).2.database.files)
    (hStatus : row.status = .published)
    (hTurned : ∀ old ∈ host.database.files, old.id = row.id → old.status ≠ .published) :
    Gate unicode past host.database row := by
  have hNew : row ∉ host.database.files := fun hOld => hTurned row hOld rfl hStatus
  rcases FileRequest.publish.writes (show (serviceAlone unicode env).meanwhile = id from rfl) fileId host with
    hSame | hEffect
  · rw [hSame] at hRow
    exact (hNew hRow).elim
  · obtain ⟨graph, file, hGraph, hReady, hFile, hAfter⟩ := hEffect
    -- The saved row is the only new one.
    rw [hAfter] at hRow
    obtain ⟨old, hOld, hUpdated⟩ := mem_updateRows.mp hRow
    split_ifs at hUpdated
    · obtain ⟨-, hMatch, hRelease, hSoftware, hScanner⟩ := ensurePublishReady_eq_ok hReady
      have hCarried := carried_of_transition hFile
      rw [← hUpdated] at hCarried
      have hReleaseId : row.releaseId = graph.file.releaseId :=
        (congrArg ReleaseFile.releaseId hCarried.columns).trans rfl
      have hScannerStatus : row.scannerStatus = graph.file.scannerStatus :=
        (congrArg ReleaseFile.scannerStatus hCarried.columns).trans rfl
      have hExtension : row.fileExtension = graph.file.fileExtension :=
        (congrArg ReleaseFile.fileExtension hCarried.columns).trans rfl
      obtain ⟨uploadEnv, request, uploaded, later, hOrigin⟩ := h _ (List.mem_of_find?_eq_some hGraph.file)
      obtain ⟨fileType, hDetected, hType⟩ := sample_of_isMatch hFold hOrigin hMatch
      obtain ⟨before, step, hPast, hRequest, hOutcome⟩ := hOrigin.upload
      refine ⟨⟨graph.release, graph.software, ?_, hRelease, hGraph.software, hSoftware⟩, ?_, step, ?_, uploadEnv, request,
        uploaded, fileType, hRequest, hOutcome, hOrigin.descends.carried hCarried, hDetected, ?_⟩
      · rw [hReleaseId]
        exact hGraph.release
      · rw [hScannerStatus]
        exact hScanner
      · rw [hPast]
        exact List.mem_append_right _ List.mem_cons_self
      · rw [hExtension]
        exact hType
    · rw [hUpdated] at hNew
      exact (hNew hOld).elim

/-- At every step of every run: infected rows are neither ready nor published,
and what `publish` turns published has passed the gate. -/
theorem publication_gate_in_every_run (unicode : Unicode) (hFold : unicode.FoldsAscii) (start : Host)
    (hStart : start.database.files = []) (operations : List Operation) (earlier later : List Event) (step : Event)
    (hTrace : trace (Operation.perform unicode) start operations = earlier ++ step :: later) :
    (∀ row ∈ step.after.database.files, row.scannerStatus = .infected → row.status ≠ .ready ∧ row.status ≠ .published) ∧
      ∀ env fileId, step.request = .file env fileId .publish → ∀ row ∈ step.after.database.files,
        row.status = .published → (∀ old ∈ step.before.database.files, old.id = row.id → old.status ≠ .published) →
          Gate unicode earlier step.before.database row := by
  obtain ⟨hBefore, hAfter⟩ := hasOrigin_of_trace hStart hTrace
  refine ⟨fun row hRow hInfected => not_cleared_of_infected (hAfter row hRow) hInfected, ?_⟩
  intro env fileId hRequest row hRow hStatus hTurned
  have hStep : step ∈ trace (Operation.perform unicode) start operations := by
    rw [hTrace]
    exact List.mem_append_right _ List.mem_cons_self
  have hAnswer := eq_answer_of_mem_trace _ hStep
  have hState : step.after = (FileRequest.publish.perform (serviceAlone unicode env) fileId step.before).2 := by
    rw [hAnswer, hRequest]
    exact congrArg Prod.snd (map_apply _ _ _)
  rw [hState] at hRow
  exact gate_of_publish hFold hBefore env fileId hRow hStatus hTurned

/-- Three empty directories, and no rows of files. -/
def emptyHost : Host where
  database := { Lifecycle.sampleDatabase with files := [] }
  tree := .dir (py "quarantine") .nil (.dir (py "software") .nil (.dir (py "temporary") .nil .nil))
  commits := 0

def sampleUploadStep : Operation := .upload sampleUploadEnvironment sampleUpload

/-- The row of the upload is published. -/
def samplePublishStep : Operation := .file { sampleEnvironment with commitFault := none } 1 .publish

/-- The first step with its answer. -/
def sampleUploadEvent : Event := answer (Operation.perform .ascii) sampleUploadStep emptyHost

/-- The second step with its answer. -/
def samplePublishEvent : Event := answer (Operation.perform .ascii) samplePublishStep sampleUploadEvent.after

theorem publication_gate_sample : (samplePublishEvent.after.database.files.map fun row => row.status) = [.published] ∧
    ∀ row ∈ samplePublishEvent.after.database.files, row.status = .published →
      Gate .ascii [sampleUploadEvent] samplePublishEvent.before.database row := by
  refine ⟨by decide +kernel, ?_⟩
  have hTrace : trace (Operation.perform .ascii) emptyHost [sampleUploadStep, samplePublishStep] =
      [sampleUploadEvent] ++ [samplePublishEvent] := trace_pair _ _ _ _
  have hGate := (publication_gate_in_every_run .ascii Unicode.ascii_foldsAscii emptyHost rfl
    [sampleUploadStep, samplePublishStep] [sampleUploadEvent] [] samplePublishEvent hTrace).2
  have hReady : ∀ old ∈ samplePublishEvent.before.database.files, old.status ≠ .published := by decide +kernel
  intro row hRow hStatus
  exact hGate _ 1 rfl row hRow hStatus fun old hOld _ => hReady old hOld

end SoftwareHub.Reconciliation
