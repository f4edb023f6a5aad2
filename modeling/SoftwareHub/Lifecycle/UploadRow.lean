import SoftwareHub.Lifecycle.RowEffects
import SoftwareHub.Lifecycle.UploadCompensation

/-! The row that an upload adds, and where its columns come from. -/
namespace SoftwareHub.Lifecycle

open SoftwareHub.Python SoftwareHub.Tree SoftwareHub.Semantics SoftwareHub.Catalog Program
open SoftwareHub.Backup (Directory)
open SoftwareHub.Storage (atomicMove validateFileSignature)

/-- The streamed copy of a request: its digest, and the sample of its first bytes. -/
structure SampledFrom (env : UploadEnvironment) (request : UploadRequest) (streamed : StreamedUpload) : Prop where
  size : streamed.sizeBytes = (body request.reads).length
  digest : streamed.sha256 = Sha256.hexdigest (body request.reads)
  sample : streamed.signatureSample = (body request.reads).take env.settings.uploadMagicSampleSize

/-- A new row records the sample and the answer of the scanner. -/
def Uploaded (env : UploadEnvironment) (request : UploadRequest) (row : ReleaseFile) : Prop :=
  ∃ id streamed scanResult texts, SampledFrom env request streamed ∧ env.scan = .ok scanResult ∧
    row = UploadService.newRow env id request.releaseId streamed
      (validateFileSignature env.unicode streamed.pathPlan.original.extension streamed.signatureSample) scanResult
      request.metadata texts

section Upload

variable {env : UploadEnvironment}

/-- A stored upload has the submitted bytes. -/
theorem storeUpload_eq_ok {reads : List (Except PyException Bytes)} {path : List PyStr} {tree after : Directory}
    {content : Bytes} (h : UploadService.storeUpload env reads path tree = (.ok content, after)) :
    content = body reads ∧ UploadService.createFile path content tree = some after := by
  unfold UploadService.storeUpload at h
  rcases hCopy : (lift (call env.seekFault id) >>= fun _ => UploadService.copyStream env reads path) tree with
    ⟨outcome, mid⟩
  cases outcome with
  | ok copied =>
      rw [tryExcept_ok hCopy] at h
      cases h
      obtain ⟨_, -, hCopied⟩ := lift_bind_eq_ok hCopy
      rcases UploadService.copyStream_run reads path tree with ⟨e, hRun⟩ | ⟨written, created, hCreate, ⟨e, hRun⟩ | ⟨hRun, hBody⟩⟩
      · rw [hRun] at hCopied
        cases hCopied
      · rw [hRun] at hCopied
        cases hCopied
      · rw [hRun] at hCopied
        cases hCopied
        exact ⟨hBody, hCreate⟩
  | error e =>
      -- The handler raises.
      rw [tryExcept_error hCopy] at h
      obtain ⟨_, _, -, hRaise⟩ := bind_eq_ok h
      split_ifs at hRaise
      · cases hRaise
      · cases hRaise

/-- So the streamed copy has their digest and their sample. -/
theorem streamUploadToTemporary_eq_ok {request : UploadRequest} {tree after : Directory} {streamed : StreamedUpload}
    (h : UploadService.streamUploadToTemporary env request tree = (.ok streamed, after)) :
    SampledFrom env request streamed := by
  unfold UploadService.streamUploadToTemporary at h
  rw [read_bind] at h
  obtain ⟨plan, -, h⟩ := lift_bind_eq_ok h
  obtain ⟨_, -, h⟩ := lift_bind_eq_ok h
  obtain ⟨_, -, h⟩ := lift_bind_eq_ok h
  obtain ⟨content, stored, hStored, h⟩ := bind_eq_ok h
  cases h
  rw [(storeUpload_eq_ok hStored).1]
  exact ⟨rfl, rfl, rfl⟩

/-- A handler of the upload raises, and leaves the rows alone. -/
theorem failed_spec {α : Type} (candidates : List (List PyStr)) (e : PyException) (P : Database → Prop) (Q : α → Host → Prop) :
    Triple (fun host => P host.database) (UploadService.failed env candidates e : HostProgram α) Q
      fun _ host => P host.database := by
  unfold UploadService.failed
  refine Triple.bind ((Silent.forEach fun _ => onTree_silent _).triple P) fun _ => ?_
  exact reraise_spec e _

/-- The transaction adds the row made of the copy, its signature and the answer of
the scanner. -/
theorem persistMetadata_spec (hAlone : env.meanwhile = id) (request : UploadRequest) (streamed : StreamedUpload)
    (signature : Storage.SignatureValidation) (scanResult : ScanResult) (database : Database) :
    Triple (fun host => host.database = database)
      (UploadService.persistMetadata env request streamed signature scanResult)
      (fun row host => (∃ id texts, row = UploadService.newRow env id request.releaseId streamed signature scanResult
        request.metadata texts) ∧ host.database = UploadService.addRow row database)
      fun _ host => host.database = database := by
  unfold UploadService.persistMetadata
  apply Triple.bind ((Silent.lift _).triple (· = database))
  intro texts
  have hOthers : Silent Host.database
      (write fun host => { host with database := env.meanwhile host.database } : HostProgram Unit) := by
    apply Silent.write
    intro host
    rw [hAlone]
    rfl
  apply Triple.bind (hOthers.triple (· = database))
  intro _
  have hTransaction : Triple (fun host => host.database = database)
      (transaction env.commitFault (UploadService.persistRow env request streamed signature scanResult texts))
      (fun row host => (∃ id texts, row = UploadService.newRow env id request.releaseId streamed signature scanResult
        request.metadata texts) ∧ host.database = UploadService.addRow row database)
      fun _ host => host.database = database := by
    intro host hHost
    rcases transaction_run env.commitFault (UploadService.persistRow env request streamed signature scanResult texts) host
      with ⟨row, after, hRow, -, hRun⟩ | ⟨e, hRun⟩
    · obtain ⟨hAfter, -, hNew⟩ := UploadService.persistRow_eq_ok hRow
      rw [hRun]
      exact ⟨⟨_, texts, hNew⟩, hHost ▸ hAfter⟩
    · rw [hRun]
      exact hHost
  apply hTransaction.tryExcept
  intro e
  exact Triple.ite (fun _ => Triple.raise fun _ hHost => hHost) fun _ => Triple.raise fun _ hHost => hHost

/-- The body of the call passes these on from the copy and the scan. -/
theorem uploadChecked_spec (hAlone : env.meanwhile = id) (request : UploadRequest) (database : Database) :
    Triple (fun host => host.database = database) (UploadService.uploadChecked env request)
      (fun row host => Uploaded env request row ∧ host.database = UploadService.addRow row database)
      fun _ host => host.database = database := by
  unfold UploadService.uploadChecked
  have hStream : Triple (fun host => host.database = database)
      (onTree (UploadService.streamUploadToTemporary env request))
      (fun streamed host => SampledFrom env request streamed ∧ host.database = database)
      fun _ host => host.database = database := by
    intro host hHost
    rw [onTree]
    rcases hRun : UploadService.streamUploadToTemporary env request host.tree with ⟨outcome, tree⟩
    cases outcome with
    | error e => exact hHost
    | ok streamed => exact ⟨streamUploadToTemporary_eq_ok hRun, hHost⟩
  apply (hStream.tryExcept fun e => failed_spec _ e (· = database) _).bind
  intro streamed
  have hMove := (onTree_silent (atomicMove env.moving (UploadService.quarantineMove env streamed))).triple
    fun after => SampledFrom env request streamed ∧ after = database
  apply (hMove.tryExcept fun e => failed_spec _ e (fun after => SampledFrom env request streamed ∧ after = database) _).mono
    (fun _ hHost => hHost) (fun _ _ hHost => hHost) (fun _ _ hHost => hHost.2) |>.bind
  intro result
  let signature := validateFileSignature env.unicode streamed.pathPlan.original.extension streamed.signatureSample
  have hPersist : Triple (fun host => SampledFrom env request streamed ∧ host.database = database)
      (lift env.scan >>= fun scanResult => UploadService.persistMetadata env request streamed signature scanResult)
      (fun row host => Uploaded env request row ∧ host.database = UploadService.addRow row database)
      fun _ host => host.database = database := by
    rintro host ⟨hSampled, hHost⟩
    cases hScan : env.scan with
    | error e => exact hHost
    | ok scanResult =>
        rw [lift_ok_bind]
        have hRun := persistMetadata_spec hAlone request streamed signature scanResult database host hHost
        rcases hAnswer : UploadService.persistMetadata env request streamed signature scanResult host with ⟨outcome, after⟩
        rw [hAnswer] at hRun
        cases outcome with
        | error e => exact hRun
        | ok row =>
            obtain ⟨⟨id, texts, hRow⟩, hAfter⟩ := hRun
            exact ⟨⟨id, streamed, scanResult, texts, hSampled, hScan, hRow⟩, hAfter⟩
  exact hPersist.tryExcept fun e => failed_spec _ e (· = database) _

/-- An upload that returns adds its row, one that raises writes nothing. -/
theorem uploadReleaseFile_spec (hAlone : env.meanwhile = id) (request : UploadRequest) (database : Database) :
    Triple (fun host => host.database = database) (UploadService.uploadReleaseFile env request)
      (fun row host => Uploaded env request row ∧ host.database = UploadService.addRow row database)
      fun _ host => host.database = database := by
  have hChecked := uploadChecked_spec hAlone request database
  have hClose : UploadService.closeUpload env = pure () := by
    funext host
    unfold UploadService.closeUpload
    cases env.uploadCloseFault <;> rfl
  unfold UploadService.uploadReleaseFile
  rw [hClose]
  apply Triple.bind ((Silent.lift _).triple (· = database))
  intro _
  apply Triple.bind ((Silent.read _).triple (· = database))
  intro release
  apply Triple.ite
  · exact fun _ => Triple.raise fun _ hHost => hHost
  · intro _
    apply hChecked.tryFinally
    · exact fun row => Triple.pure fun _ hHost => hHost
    · exact fun e => Triple.pure fun _ hHost => hHost

end Upload
end SoftwareHub.Lifecycle
