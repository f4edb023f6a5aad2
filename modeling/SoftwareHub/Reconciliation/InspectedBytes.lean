import SoftwareHub.Lifecycle.Outcomes
import SoftwareHub.Reconciliation.PublicationGate
import SoftwareHub.Reconciliation.Recalculation

/-! What publishing puts into the software area: bytes of the recorded digest, which
are those of the upload unless a recalculation has changed the record. -/
namespace SoftwareHub.Reconciliation

open SoftwareHub.Python SoftwareHub.Tree SoftwareHub.Semantics SoftwareHub.Catalog SoftwareHub.Lifecycle Program
open SoftwareHub.Backup (Directory)
open SoftwareHub.Storage (MoveEnvironment StorageArea TreeProgram atomicMove posixText rejectUnsafeRelativePath)

section Trees

variable {env : ScanEnvironment} {device : List PyStr → Nat}

/-- The removal of an entry keeps the names of the tree apart. -/
theorem removeEntry_preserves (faults : RemovalEnvironment) (area : StorageArea) (relativePath : PyStr) :
    Preserves DistinctNames (removeEntry env device faults area relativePath) := by
  unfold removeEntry
  refine Preserves.bind (Preserves.read _) ?_
  intro tree
  refine Preserves.bind (Preserves.lift _) ?_
  intro path
  split
  · exact Preserves.raise _
  · split
    · apply (stageForPermanentDeletion_preserves _ _ _ _).bind
      intro staged
      exact (unlinkStagedDeletion_preserves _ _ _ _).bind fun _ => Preserves.pure _
    · exact Preserves.pure _

theorem cleanupIssues_preserves (removal : Nat → RemovalEnvironment) (issues : List Issue) (index : Nat) :
    Preserves DistinctNames (cleanupIssues env device removal index issues) := by
  induction issues generalizing index with
  | nil => exact Preserves.pure _
  | cons issue issues ih =>
      unfold cleanupIssues
      apply Preserves.bind
      · unfold cleanupIssue
        split
        · exact Preserves.pure _
        · apply (removeEntry_preserves _ _ _).tryExcept
          intro e
          exact Preserves.ite (Preserves.pure _) (Preserves.raise _)
      · intro deleted
        exact (ih (index + 1)).bind fun _ => Preserves.pure _

theorem distinctNames_overwriteFile (path : List PyStr) (content : Bytes) {tree : Directory} (h : DistinctNames tree) :
    DistinctNames (overwriteFile path content tree) := by
  unfold overwriteFile
  split
  · cases hCreate : (tree.erase path).create path (.leaf (.file content)) with
    | none => exact h
    | some created => exact (h.erase path).create (fun _ _ => trivial) (by exact trivial) hCreate
  · exact h

theorem Operation.preserves (unicode : Unicode) (operation : Operation) :
    Preserves (fun host => DistinctNames host.tree) (operation.perform unicode) := by
  have hSilent {x : HostProgram (Option ReleaseFile)} (h : Silent Host.tree x) :
      Preserves (fun host => DistinctNames host.tree) x := h.preserves DistinctNames
  cases operation with
  | upload env request => exact (uploadReleaseFile_preserves request).map _
  | file env fileId request => exact (request.preserves _ fileId).map _
  | release request => exact hSilent (Silent.map (fun _ => rfl) _)
  | software edit => exact hSilent (Silent.map (fun _ => rfl) _)
  | recalculate env dryRun includePublished =>
      apply hSilent
      apply Silent.map
      unfold recalculateChecksums
      apply (Silent.read _).bind
      intro database
      apply (Silent.read _).bind
      intro tree
      apply (Silent.lift _).bind
      intro examined
      apply Silent.ite
      · refine Silent.bind (fun _ => rfl) ?_
        intro _
        exact (transaction_tree _ _).bind fun _ => Silent.pure _
      · exact Silent.pure _
  | cleanup env device removal dryRun =>
      apply Preserves.map
      unfold cleanupOrphans
      refine Preserves.bind (Preserves.read _) ?_
      intro database
      refine Preserves.bind (Preserves.read _) ?_
      intro tree
      apply Preserves.ite
      · exact (onTree_preserves (cleanupIssues_preserves _ _ _)).bind fun _ => Preserves.pure _
      · exact Preserves.pure _
  | overwrite path content =>
      refine Preserves.bind (Preserves.write ?_) fun _ => Preserves.pure _
      intro host hHost
      exact distinctNames_overwriteFile path content hHost

end Trees

/-- A publication puts the bytes of the quarantine, of the recorded digest and size, into the software area. -/
structure PutsOut (env : ServiceEnvironment) (row : ReleaseFile) (content : Bytes) (before after : Host) : Prop where
  recorded : Sha256.hexdigest content = row.sha256 ∧ content.length = row.fileSizeBytes
  files : ∃ names, rejectUnsafeRelativePath (posixText row.relativeStoragePath) = .ok names ∧
    before.tree.file? (env.moving.realPath before.tree env.paths.quarantine names) = some (.file content) ∧
    after.tree.file? (env.moving.realPath before.tree env.paths.software names) = some (.file content)

/-- A measured digest is that of the bytes at the path. -/
theorem sha256File_eq_ok {fault : Option OSError} {path : List PyStr} {tree : Directory} {measured : PyStr × Nat}
    (h : FileService.sha256File fault path tree = .ok measured) :
    ∃ content, tree.file? path = some (.file content) ∧ measured = (Sha256.hexdigest content, content.length) := by
  unfold FileService.sha256File at h
  cases fault with
  | some e => cases h
  | none =>
      dsimp only at h
      split at h
      · rename_i content hFile
        exact ⟨content, hFile, (Except.ok.inj h).symm⟩
      · cases h

/-- A publication that returns has verified what it moves. -/
theorem putsOut_of_publish {env : ServiceEnvironment} (hAlone : env.meanwhile = id) {fileId : Nat} {before after : Host}
    {result : Downloads.FileGraph} (hTree : DistinctNames before.tree)
    (h : FileService.publish env fileId before = (.ok result, after)) :
    ∃ graph content, HasGraph before.database fileId graph ∧ PutsOut env graph.file content before after := by
  obtain ⟨graph, stored, hVerified, hArea, ⟨moved, hMoved⟩, -⟩ := (publish_run fileId hAlone).of_ok rfl h
  obtain ⟨hLocated, -, hHash⟩ := verifiedPhysicalFile_eq_ok hVerified.stored
  obtain ⟨names, stale, hFound⟩ := locateStoredFile_found hLocated
  obtain ⟨content, hFile, hRecorded⟩ := sha256File_eq_ok (hHash rfl)
  obtain ⟨sourceNames, targetNames, hSourceNames, hTargetNames, hTarget, hFiles⟩ := Storage.allOrNothing_of_ok hTree hMoved
  -- Source and destination have the relative path of the row.
  have hSame : stored.relativePath = posixText graph.file.relativeStoragePath := hFound.relativePath
  have hAccepted : rejectUnsafeRelativePath stored.relativePath = .ok names := hSame ▸ hFound.accepted
  obtain rfl : names = sourceNames := Except.ok.inj (hAccepted.symm.trans hSourceNames)
  obtain rfl : names = targetNames := Except.ok.inj (hAccepted.symm.trans hTargetNames)
  obtain ⟨source, hSource, -, -, hAfter⟩ := hFiles
  have hPath : stored.path = env.moving.realPath before.tree env.paths.quarantine names := by
    rw [hFound.path, hArea]
    rfl
  rw [hPath] at hFile
  obtain rfl : source = content := by
    have hBoth := hSource.symm.trans hFile
    cases hBoth
    rfl
  obtain ⟨hDigest, hSize⟩ := Prod.mk.inj hRecorded
  refine ⟨graph, source, hVerified.row, ⟨hDigest.symm, hSize.symm⟩, names, hFound.accepted, hFile, ?_⟩
  have hThere := hAfter moved.destination
  rw [if_pos rfl, hTarget] at hThere
  exact hThere

/-- A publication as a step of a run. -/
theorem perform_publish (unicode : Unicode) (env : ServiceEnvironment) (fileId : Nat) (host : Host) :
    (Operation.file env fileId .publish).perform unicode host =
      (((FileService.publish (serviceAlone unicode env) fileId host).1.map fun _ => ()).map fun _ => none,
        (FileService.publish (serviceAlone unicode env) fileId host).2) := by
  have hPublish : FileRequest.publish.perform (serviceAlone unicode env) fileId host =
      ((FileService.publish (serviceAlone unicode env) fileId host).1.map (fun _ => ()),
        (FileService.publish (serviceAlone unicode env) fileId host).2) := map_apply _ _ _
  have hPerform : (Operation.file env fileId .publish).perform unicode host =
      ((FileRequest.publish.perform (serviceAlone unicode env) fileId host).1.map (fun _ => none),
        (FileRequest.publish.perform (serviceAlone unicode env) fileId host).2) := map_apply _ _ _
  rw [hPerform, hPublish]

/-- No file of a run collides with an upload of the run. -/
def CollisionFree (operations : List Operation) (run : List Event) : Prop :=
  ∀ env request, .upload env request ∈ operations → ∀ step ∈ run, ∀ path content,
    step.before.tree.file? path = some (.file content) →
      Sha256.hexdigest content = Sha256.hexdigest (body request.reads) → content = body request.reads

/-- The row of a publication comes from an upload: its columns, and unless its
digest has been rewritten since, the bytes. -/
def InspectedBefore (unicode : Unicode) (past : List Event) (row : ReleaseFile) (content : Bytes) : Prop :=
  ∃ env request uploaded later, Origin unicode past env request uploaded row later ∧
    (content = body request.reads ∨ ∃ step ∈ later, Rewrites step row.id)

/-- The row of an upload records the digest of the submitted bytes. -/
theorem uploaded_digest {env : UploadEnvironment} {request : UploadRequest} {row : ReleaseFile} (h : Uploaded env request row) :
    row.sha256 = Sha256.hexdigest (body request.reads) := by
  obtain ⟨id, streamed, scanResult, texts, hSampled, -, hRow⟩ := h
  rw [hRow]
  exact hSampled.digest

/-- In every run, a publication that succeeds puts out the bytes of the recorded
digest, and these are the inspected ones unless a recalculation has rewritten the record. -/
theorem published_bytes_in_every_run (unicode : Unicode) (start : Host) (hStart : start.database.files = [])
    (hTree : DistinctNames start.tree) (operations : List Operation) (earlier later : List Event) (step : Event)
    (hTrace : trace (Operation.perform unicode) start operations = earlier ++ step :: later)
    (hCollision : CollisionFree operations (trace (Operation.perform unicode) start operations))
    (env : ServiceEnvironment) (fileId : Nat) (hRequest : step.request = .file env fileId .publish)
    (hOk : step.outcome.isOk = true) :
    ∃ row ∈ step.before.database.files, row.id = fileId ∧ ∃ content, PutsOut env row content step.before step.after ∧
      InspectedBefore unicode earlier row content := by
  have hMem : step ∈ trace (Operation.perform unicode) start operations := by
    rw [hTrace]
    exact List.mem_append_right _ List.mem_cons_self
  have hDistinct : DistinctNames step.before.tree :=
    (@trace_of_invariant Operation Host PyException (Option ReleaseFile) (Operation.perform unicode)
      (fun host => DistinctNames host.tree) start operations hTree (fun operation _ => operation.preserves unicode) step
      hMem).1
  have hAnswer := eq_answer_of_mem_trace _ hMem
  rw [hRequest] at hAnswer
  have hPerform := perform_publish unicode env fileId step.before
  rw [answer_of_run hPerform] at hAnswer
  have hOutcome := congrArg Step.outcome hAnswer
  have hAfter := congrArg Step.after hAnswer
  rcases hRun : FileService.publish (serviceAlone unicode env) fileId step.before with ⟨outcome, after⟩
  dsimp only at hOutcome hAfter
  rw [hRun] at hOutcome hAfter
  cases outcome with
  | error e =>
      rw [hOutcome] at hOk
      cases hOk
  | ok result =>
      obtain ⟨graph, content, hGraph, hPuts⟩ := putsOut_of_publish rfl hDistinct hRun
      have hRow : graph.file ∈ step.before.database.files := List.mem_of_find?_eq_some hGraph.file
      refine ⟨graph.file, hRow, ?_, content, ?_, ?_⟩
      · simpa using List.find?_some hGraph.file
      · rw [hAfter]
        exact ⟨hPuts.recorded, hPuts.files⟩
      · obtain ⟨uploadEnv, request, uploaded, since, hOrigin⟩ := (hasOrigin_of_trace hStart hTrace).1 _ hRow
        refine ⟨uploadEnv, request, uploaded, since, hOrigin, ?_⟩
        rcases hOrigin.digest with hSame | hRewrites
        · obtain ⟨before, upload, hPast, hUpload, -⟩ := hOrigin.upload
          have hOperation : Operation.upload uploadEnv request ∈ operations := by
            rw [← map_request_trace (Operation.perform unicode) start operations, hTrace, hPast]
            exact List.mem_map.mpr ⟨upload, by simp, hUpload⟩
          obtain ⟨names, -, hFile, -⟩ := hPuts.files
          have hDigest : Sha256.hexdigest content = Sha256.hexdigest (body request.reads) :=
            hPuts.recorded.1.trans (hSame.trans (uploaded_digest hOrigin.uploaded))
          exact Or.inl (hCollision uploadEnv request hOperation step hMem _ content hFile hDigest)
        · exact Or.inr hRewrites

/-- Every file of a run has one of these contents. -/
def FilesAmong (contents : List Bytes) (run : List Event) : Prop :=
  ∀ step ∈ run, step.before.tree.AllLeaves (· ∈ contents.map Backup.Leaf.file)

/-- Few contents that do not collide are enough. -/
theorem collisionFree_of_filesAmong {operations : List Operation} {run : List Event} {contents : List Bytes}
    (hFiles : FilesAmong contents run)
    (hDistinct : ∀ env request, .upload env request ∈ operations → ∀ content ∈ contents,
      Sha256.hexdigest content = Sha256.hexdigest (body request.reads) → content = body request.reads) :
    CollisionFree operations run := by
  intro env request hUpload step hStep path content hFile hDigest
  obtain ⟨among, hAmong, hEq⟩ := List.mem_map.mp (Forest.AllLeaves.file? (hFiles step hStep) hFile)
  cases hEq
  exact hDistinct env request hUpload content hAmong hDigest

/-- Two steps, each of which starts from few contents. -/
theorem filesAmong_pair {contents : List Bytes} {first second : Event}
    (hFirst : first.before.tree.AllLeaves (· ∈ contents.map Backup.Leaf.file))
    (hSecond : second.before.tree.AllLeaves (· ∈ contents.map Backup.Leaf.file)) :
    FilesAmong contents ([first] ++ [second]) := by
  intro step hStep
  rcases List.mem_append.mp hStep with hStep | hStep
  · rw [List.mem_singleton.mp hStep]
    exact hFirst
  · rw [List.mem_singleton.mp hStep]
    exact hSecond

theorem published_bytes_sample : samplePublishEvent.outcome.isOk = true ∧
    ∃ row ∈ samplePublishEvent.before.database.files, row.id = 1 ∧ ∃ content,
      PutsOut { sampleEnvironment with commitFault := none } row content samplePublishEvent.before
        samplePublishEvent.after ∧ InspectedBefore .ascii [sampleUploadEvent] row content := by
  have hOk : samplePublishEvent.outcome.isOk = true := by decide +kernel
  have hTrace : trace (Operation.perform .ascii) emptyHost [sampleUploadStep, samplePublishStep] =
      [sampleUploadEvent] ++ [samplePublishEvent] := trace_pair _ _ _ _
  refine ⟨hOk, published_bytes_in_every_run .ascii emptyHost rfl (by unfold DistinctNames; decide +kernel)
    [sampleUploadStep, samplePublishStep] [sampleUploadEvent] [] samplePublishEvent hTrace ?_ _ 1 rfl hOk⟩
  rw [hTrace]
  have hFiles : FilesAmong [body sampleUpload.reads] ([sampleUploadEvent] ++ [samplePublishEvent]) :=
    filesAmong_pair (by decide +kernel) (by decide +kernel)
  apply collisionFree_of_filesAmong hFiles
  intro env request hUpload content hContent _
  have hRequest : request = sampleUpload := by
    rcases List.mem_cons.mp hUpload with hUpload | hUpload
    · exact (Operation.upload.inj hUpload).2
    · cases List.mem_singleton.mp hUpload
  rw [hRequest]
  exact List.mem_singleton.mp hContent

/-- Somebody overwrites the file in the quarantine. -/
def overwriteStep : Operation :=
  .overwrite [py "quarantine", py "00", py "00", py "00000000000000000000000000000001.zip"] [9]

def recalculateStep : Operation := .recalculate sampleRecalculation false false

def tamperedRun : List Event :=
  trace (Operation.perform .ascii) emptyHost [sampleUploadStep, overwriteStep, recalculateStep]

def tamperedEvent : Event :=
  answer (Operation.perform .ascii) samplePublishStep
    (final (Operation.perform .ascii) emptyHost [sampleUploadStep, overwriteStep, recalculateStep])

/-- The overwritten bytes are published, though no upload has inspected them. -/
theorem recalculated_bytes_published :
    ¬∀ (operations : List Operation) (earlier later : List Event) (step : Event),
      trace (Operation.perform .ascii) emptyHost operations = earlier ++ step :: later →
      CollisionFree operations (trace (Operation.perform .ascii) emptyHost operations) →
      ∀ env fileId, step.request = .file env fileId .publish → step.outcome.isOk = true →
        ∃ row ∈ step.before.database.files, row.id = fileId ∧ ∃ content, PutsOut env row content step.before step.after ∧
          ∃ uploadEnv request uploaded since, Origin .ascii earlier uploadEnv request uploaded row since ∧
            content = body request.reads := by
  intro hClaim
  have hTrace : trace (Operation.perform .ascii) emptyHost
      ([sampleUploadStep, overwriteStep, recalculateStep] ++ [samplePublishStep]) = tamperedRun ++ [tamperedEvent] :=
    trace_append _ _ _ _
  have hUploads : ∀ env request, Operation.upload env request ∈
      [sampleUploadStep, overwriteStep, recalculateStep] ++ [samplePublishStep] → request = sampleUpload := by
    intro env request hUpload
    rcases List.mem_cons.mp hUpload with hUpload | hUpload
    · exact (Operation.upload.inj hUpload).2
    · simp [overwriteStep, recalculateStep, samplePublishStep] at hUpload
  have hFiles : FilesAmong [body sampleUpload.reads, [9]] (tamperedRun ++ [tamperedEvent]) := by
    unfold FilesAmong
    decide +kernel
  have hFree : CollisionFree ([sampleUploadStep, overwriteStep, recalculateStep] ++ [samplePublishStep])
      (tamperedRun ++ [tamperedEvent]) := by
    apply collisionFree_of_filesAmong hFiles
    intro env request hUpload
    rw [hUploads env request hUpload]
    decide +kernel
  have hOk : tamperedEvent.outcome.isOk = true := by decide +kernel
  obtain ⟨row, hRow, -, content, hPuts, uploadEnv, request, uploaded, since, hOrigin, hContent⟩ :=
    hClaim _ tamperedRun [] tamperedEvent hTrace (hTrace ▸ hFree) _ 1 rfl hOk
  -- The recorded size is the one of the other bytes.
  have hSizes : ∀ row ∈ tamperedEvent.before.database.files, row.fileSizeBytes = 1 := by decide +kernel
  have hLength : content.length = 1 := hPuts.recorded.2.trans (hSizes row hRow)
  obtain ⟨before, upload, hPast, hUpload, -⟩ := hOrigin.upload
  have hOperation : Operation.upload uploadEnv request ∈
      [sampleUploadStep, overwriteStep, recalculateStep] ++ [samplePublishStep] := by
    apply List.mem_append_left
    rw [← map_request_trace (Operation.perform .ascii) emptyHost [sampleUploadStep, overwriteStep, recalculateStep]]
    refine List.mem_map.mpr ⟨upload, ?_, hUpload⟩
    rw [show trace (Operation.perform .ascii) emptyHost [sampleUploadStep, overwriteStep, recalculateStep] = _ from hPast]
    simp
  rw [hContent, hUploads _ _ hOperation] at hLength
  revert hLength
  decide

end SoftwareHub.Reconciliation
