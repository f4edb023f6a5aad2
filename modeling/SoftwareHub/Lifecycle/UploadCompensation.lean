import SoftwareHub.Lifecycle.Compensation
import SoftwareHub.Lifecycle.UploadService

/-! An upload that raises leaves no file and no row; one that returns leaves one of
each. -/
namespace SoftwareHub.Lifecycle

open SoftwareHub.Python SoftwareHub.Tree SoftwareHub.Semantics SoftwareHub.Catalog Program
open SoftwareHub.Backup (Directory Leaf isDir isSymlink pathExists)
open SoftwareHub.Downloads (isSQLAlchemyError)
open SoftwareHub.Storage (AllOrNothing Moved MoveEnvironment MoveRequest MoveResult TreeProgram atomicMove
  isSymlink_eq_file? realPathFrom_congr rejectUnsafeRelativePath safeResolve)

/-- The bytes of a submitted file: its chunks up to the first empty one. -/
def body : List (Except PyException Bytes) → Bytes
  | .ok chunk :: reads => if chunk = [] then [] else chunk ++ body reads
  | _ => []

/-- No file is new and none has another content. -/
def NoNewFiles (before after : Directory) : Prop :=
  ∀ path leaf, after.file? path = some leaf → before.file? path = some leaf

/-- No file of the upload and no row. -/
def NothingLeft (env : UploadEnvironment) (before after : Host) : Prop :=
  NoNewFiles before.tree after.tree ∧
    (after.database = before.database ∨ after.database = env.meanwhile before.database)

/-- One row, its file in the quarantine, and nothing else. -/
def OneFileLeft (env : UploadEnvironment) (request : UploadRequest) (row : ReleaseFile) (before after : Host) : Prop :=
  after.database = UploadService.addRow row (env.meanwhile before.database) ∧
    row.fileSizeBytes = (body request.reads).length ∧ row.sha256 = Sha256.hexdigest (body request.reads) ∧
    ∃ names, rejectUnsafeRelativePath row.relativeStoragePath = .ok names ∧
      let stored := env.moving.realPath before.tree env.paths.quarantine names
      before.tree.file? stored = none ∧ after.tree.file? stored = some (.file (body request.reads)) ∧
        ∀ path, path ≠ stored → after.tree.file? path = before.tree.file? path

/-- What an upload leaves behind. -/
structure Accounted (env : UploadEnvironment) (request : UploadRequest) (before : Host)
    (run : Except PyException ReleaseFile × Host) : Prop where
  raised : ∀ e after, run = (.error e, after) → NothingLeft env before after
  returned : ∀ row after, run = (.ok row, after) → OneFileLeft env request row before after

theorem Accounted.error {env : UploadEnvironment} {request : UploadRequest} {before after : Host} {e : PyException}
    (h : NothingLeft env before after) : Accounted env request before (.error e, after) := by
  constructor
  · intro _ _ hRun
    cases hRun
    exact h
  · intro _ _ hRun
    cases hRun

theorem Accounted.ok {env : UploadEnvironment} {request : UploadRequest} {before after : Host} {row : ReleaseFile}
    (h : OneFileLeft env request row before after) : Accounted env request before (.ok row, after) := by
  constructor
  · intro _ _ hRun
    cases hRun
  · intro _ _ hRun
    cases hRun
    exact h

section Files

variable {tree : Directory}

theorem unlinkQuietly_run (hTree : tree.WellFormed fun _ => True) (path : List PyStr) :
    ∃ after, unlinkQuietly none path tree = (.ok (), after) ∧ (after.WellFormed fun _ => True) ∧
      ∀ other, after.file? other = if other = path then none else tree.file? other := by
  unfold unlinkQuietly
  rw [write_apply, if_pos rfl]
  cases hNode : tree.node? path with
  | none =>
      refine ⟨tree, rfl, hTree, ?_⟩
      intro other
      split_ifs with hOther
      · rw [hOther, Forest.file?, hNode]
      · rfl
  | some entry =>
      cases entry with
      | dir sub =>
          refine ⟨tree, rfl, hTree, ?_⟩
          intro other
          split_ifs with hOther
          · rw [hOther, Forest.file?, hNode]
          · rfl
      | leaf value =>
          exact ⟨tree.erase path, rfl, hTree.erase path, fun other =>
            Forest.file?_erase hTree ((Forest.file?_eq_some_iff _ _ _).mpr hNode) other⟩

/-- What creating a file does to the files. -/
theorem createFile_eq_some {path : List PyStr} {content : Bytes} {created : Directory}
    (hTree : tree.WellFormed fun _ => True) (h : UploadService.createFile path content tree = some created) :
    (created.WellFormed fun _ => True) ∧ tree.node? path = none ∧
      ∀ other, created.file? other = if other = path then some (.file content) else tree.file? other := by
  unfold UploadService.createFile at h
  split at h
  · exact ⟨hTree.create (fun _ _ => trivial) (by exact trivial) h, Forest.node?_of_create h, Forest.file?_create hTree h⟩
  · cases h

/-- A new regular file is no link. -/
theorem isSymlink_of_files {created : Directory} {path : List PyStr} {content : Bytes} (hFree : tree.node? path = none)
    (hFiles : ∀ other, created.file? other = if other = path then some (.file content) else tree.file? other)
    (other : List PyStr) : isSymlink (created.node? other) = isSymlink (tree.node? other) := by
  rw [isSymlink_eq_file?, isSymlink_eq_file? tree, hFiles]
  split_ifs with hOther
  · rw [hOther, Forest.file?, hFree]
    rfl
  · rfl

end Files

namespace UploadService

variable {env : UploadEnvironment}

/-- A loop that returns has written the chunks up to the first empty one. -/
theorem copyChunks_eq_ok {maxSize : Nat} {writeFault : Nat → Option (OSError × Nat)}
    (reads : List (Except PyException Bytes)) : ∀ (index : Nat) (written copied : Bytes) (u : Unit),
      copyChunks maxSize writeFault reads index written = (.ok u, copied) → copied = written ++ body reads := by
  induction reads with
  | nil =>
      intro index written copied u h
      cases h
      exact (List.append_nil _).symm
  | cons read reads ih =>
      intro index written copied u h
      cases read with
      | error e => cases h
      | ok chunk =>
          rw [copyChunks] at h
          rw [body]
          by_cases hEmpty : chunk = []
          · rw [if_pos hEmpty] at h
            rw [if_pos hEmpty]
            cases h
            exact (List.append_nil _).symm
          · rw [if_neg hEmpty] at h
            rw [if_neg hEmpty]
            by_cases hLarge : maxSize < written.length + chunk.length
            · rw [if_pos hLarge] at h
              cases h
            · rw [if_neg hLarge] at h
              cases hFault : writeFault index with
              | some fault =>
                  rw [hFault] at h
                  cases h
              | none =>
                  rw [hFault] at h
                  rw [ih _ _ _ _ h, List.append_assoc]

/-- What follows the loop changes no bytes. -/
theorem finishCopy_eq_ok {copied : Except PyException Unit × Bytes} {content : Bytes}
    (h : finishCopy env copied = .ok content) : (∃ u, copied.1 = .ok u) ∧ content = copied.2 := by
  obtain ⟨u, hCopied, h⟩ := except_bind_eq_ok h
  obtain ⟨_, -, h⟩ := except_bind_eq_ok h
  obtain ⟨_, -, h⟩ := except_bind_eq_ok h
  obtain ⟨_, -, h⟩ := except_bind_eq_ok h
  cases h
  cases hOutcome : copied.1 with
  | error e =>
      rw [hOutcome] at hCopied
      cases hCopied
  | ok u => exact ⟨⟨u, rfl⟩, rfl⟩

/-- The file is not created, or it is created with what was written. -/
theorem copyStream_run (reads : List (Except PyException Bytes)) (path : List PyStr) (tree : Directory) :
    (∃ e, copyStream env reads path tree = (.error e, tree)) ∨
    ∃ content created, createFile path content tree = some created ∧
      ((∃ e, copyStream env reads path tree = (.error e, created)) ∨
        copyStream env reads path tree = (.ok content, created) ∧ content = body reads) := by
  unfold copyStream
  cases hOpen : env.openFault with
  | some e => exact Or.inl ⟨_, rfl⟩
  | none =>
      rcases hCopied : copyChunks env.settings.maxUploadSize env.writeFault reads 0 [] with ⟨outcome, content⟩
      cases hCreate : createFile path content tree with
      | none =>
          refine Or.inl ⟨storeError (.os .fileExistsError), ?_⟩
          rw [call, bind_ok (lift_apply (.ok ()) tree), read_bind, id, hCreate]
          rfl
      | some created =>
          refine Or.inr ⟨content, created, hCreate, ?_⟩
          rw [call, bind_ok (lift_apply (.ok ()) tree), read_bind, id, hCreate]
          change (∃ e, Program.tryFinally (lift (finishCopy env (outcome, content))) (lift (call env.closeFault .os)) created =
            (.error e, created)) ∨ Program.tryFinally (lift (finishCopy env (outcome, content)))
              (lift (call env.closeFault .os)) created = (.ok content, created) ∧ content = body reads
          rw [tryFinally_run (lift_apply _ created) (lift_apply _ created)]
          cases call env.closeFault .os with
          | error e => exact Or.inl ⟨e, rfl⟩
          | ok _ =>
              cases hFinish : finishCopy env (outcome, content) with
              | error e => exact Or.inl ⟨e, rfl⟩
              | ok all =>
                  obtain ⟨⟨u, rfl⟩, rfl⟩ := finishCopy_eq_ok hFinish
                  exact Or.inr ⟨rfl, copyChunks_eq_ok reads 0 [] _ u hCopied⟩

/-- A failed copy leaves no file, a successful one the submitted bytes. -/
theorem storeUpload_run (reads : List (Except PyException Bytes)) (path : List PyStr) {tree : Directory}
    (hTree : tree.WellFormed fun _ => True) (hUnlink : env.unlinkTemporary = none) :
    (∃ e after, storeUpload env reads path tree = (.error e, after) ∧ (after.WellFormed fun _ => True) ∧
      NoNewFiles tree after) ∨
    ∃ created, createFile path (body reads) tree = some created ∧
      storeUpload env reads path tree = (.ok (body reads), created) := by
  have hFailed : ∀ {e : PyException} {mid : Directory},
      (lift (call env.seekFault id) >>= fun _ => copyStream env reads path) tree = (.error e, mid) →
      (mid.WellFormed fun _ => True) → (∀ other leaf, other ≠ path → mid.file? other = some leaf →
        tree.file? other = some leaf) →
      ∃ e after, storeUpload env reads path tree = (.error e, after) ∧ (after.WellFormed fun _ => True) ∧
        NoNewFiles tree after := by
    intro e mid hCopy hMid hFiles
    obtain ⟨after, hRun, hAfter, hErased⟩ := unlinkQuietly_run hMid path
    unfold storeUpload
    rw [tryExcept_error hCopy, hUnlink, bind_ok hRun]
    have hNew : NoNewFiles tree after := by
      intro other leaf hLeaf
      rw [hErased] at hLeaf
      split_ifs at hLeaf with hOther
      exact hFiles other leaf hOther hLeaf
    by_cases hStream : isStreamError e = true
    · exact ⟨_, after, by rw [if_pos hStream]; rfl, hAfter, hNew⟩
    · exact ⟨_, after, by rw [if_neg hStream]; rfl, hAfter, hNew⟩
  cases hSeek : call env.seekFault id with
  | error e =>
      refine Or.inl (@hFailed e tree ?_ hTree fun _ _ _ h => h)
      rw [hSeek]
      rfl
  | ok u =>
      have hSought : (lift (call env.seekFault id) >>= fun _ => copyStream env reads path) tree =
          copyStream env reads path tree := by
        rw [hSeek]
        rfl
      rcases copyStream_run reads path tree with ⟨e, hCopy⟩ | ⟨content, created, hCreate, hCopy⟩
      · exact Or.inl (hFailed (hSought.trans hCopy) hTree fun _ _ _ h => h)
      · obtain ⟨hCreated, -, hFiles⟩ := createFile_eq_some hTree hCreate
        rcases hCopy with ⟨e, hCopy⟩ | ⟨hCopy, rfl⟩
        · refine Or.inl (hFailed (hSought.trans hCopy) hCreated ?_)
          intro other leaf hOther hLeaf
          rwa [hFiles, if_neg hOther] at hLeaf
        · exact Or.inr ⟨created, hCreate, tryExcept_ok (hSought.trans hCopy)⟩

/-- What a successful copy has established. -/
structure Streamed (env : UploadEnvironment) (request : UploadRequest) (before : Directory) (streamed : StreamedUpload)
    (after : Directory) : Prop where
  wellFormed : after.WellFormed fun _ => True
  size : streamed.sizeBytes = (body request.reads).length
  digest : streamed.sha256 = Sha256.hexdigest (body request.reads)
  planned : ∃ names, rejectUnsafeRelativePath streamed.pathPlan.temporaryRelativePath = .ok names ∧
    streamed.pathPlan.temporaryPath = env.moving.realPath before env.paths.temporary names
  free : before.node? streamed.pathPlan.temporaryPath = none
  files : ∀ path, after.file? path =
    if path = streamed.pathPlan.temporaryPath then some (.file (body request.reads)) else before.file? path

/-- The planned temporary path is the real one of its relative path. -/
theorem planUploadPaths_eq_ok {filename : PyStr} {tree : Directory} {plan : UploadPathPlan}
    (h : planUploadPaths env filename tree = .ok plan) :
    ∃ names, rejectUnsafeRelativePath plan.temporaryRelativePath = .ok names ∧
      plan.temporaryPath = env.moving.realPath tree env.paths.temporary names := by
  obtain ⟨original, -, h⟩ := except_bind_eq_ok h
  obtain ⟨storageFilename, -, h⟩ := except_bind_eq_ok h
  dsimp only at h
  split at h
  · cases h
  · obtain ⟨temporaryPath, hTemporary, h⟩ := except_bind_eq_ok h
    obtain ⟨_, -, h⟩ := except_bind_eq_ok h
    obtain ⟨_, -, h⟩ := except_bind_eq_ok h
    cases h
    exact Storage.safeResolve_eq_ok hTemporary

/-- The temporary file is complete, or there is none of this upload. -/
theorem streamUploadToTemporary_run (request : UploadRequest) {tree : Directory}
    (hTree : tree.WellFormed fun _ => True) (hUnlink : env.unlinkTemporary = none) :
    (∃ e after, streamUploadToTemporary env request tree = (.error e, after) ∧ (after.WellFormed fun _ => True) ∧
      NoNewFiles tree after) ∨
    ∃ streamed after, streamUploadToTemporary env request tree = (.ok streamed, after) ∧
      Streamed env request tree streamed after := by
  have hSame : NoNewFiles tree tree := fun _ _ h => h
  unfold streamUploadToTemporary
  rw [read_bind]
  cases hPlan : planUploadPaths env (request.filename.getD []) (id tree) with
  | error e => exact Or.inl ⟨e, tree, rfl, hTree, hSame⟩
  | ok plan =>
      rw [bind_ok (lift_apply _ tree)]
      cases hSize : require (∀ size ∈ request.size, size ≤ env.settings.maxUploadSize) payloadTooLarge with
      | error e => exact Or.inl ⟨e, tree, rfl, hTree, hSame⟩
      | ok _ =>
          rw [bind_ok (lift_apply _ tree)]
          generalize ensureFreeSpace env.free _ env.settings.storageMinFreeBytes = space
          cases space with
          | error e => exact Or.inl ⟨e, tree, rfl, hTree, hSame⟩
          | ok _ =>
              rw [bind_ok (lift_apply _ tree)]
              rcases storeUpload_run request.reads plan.temporaryPath hTree hUnlink with
                ⟨e, after, hRun, hAfter, hNew⟩ | ⟨created, hCreate, hRun⟩
              · exact Or.inl ⟨e, after, bind_error hRun _, hAfter, hNew⟩
              · obtain ⟨hCreated, hFree, hFiles⟩ := createFile_eq_some hTree hCreate
                exact Or.inr ⟨_, created, bind_ok hRun _, hCreated, rfl, rfl, planUploadPaths_eq_ok hPlan, hFree, hFiles⟩

theorem unlinkAll_run (hUnlink : ∀ path, env.unlinkCandidate path = none) (candidates : List (List PyStr)) :
    ∀ host : Host, (host.tree.WellFormed fun _ => True) → ∃ after : Host,
      forEach candidates (fun path => onTree (unlinkQuietly (env.unlinkCandidate path) path)) host = (.ok (), after) ∧
        after.database = host.database ∧
        ∀ other, after.tree.file? other = if other ∈ candidates then none else host.tree.file? other := by
  induction candidates with
  | nil =>
      intro host _
      exact ⟨host, rfl, rfl, fun other => by simp⟩
  | cons path candidates ih =>
      intro host hTree
      obtain ⟨tree, hRun, hAfter, hErased⟩ := unlinkQuietly_run hTree path
      have hStep : onTree (unlinkQuietly (env.unlinkCandidate path) path) host = (.ok (), { host with tree := tree }) := by
        rw [hUnlink, onTree, hRun]
      obtain ⟨after, hRest, hDatabase, hFiles⟩ := ih { host with tree := tree } hAfter
      refine ⟨after, (bind_ok hStep _).trans hRest, hDatabase, ?_⟩
      intro other
      rw [hFiles]
      dsimp only
      rw [hErased]
      by_cases hOther : other = path
      · simp [hOther]
      · simp [hOther]

/-- The handler removes the files of its candidates, and raises. -/
theorem failed_run {α : Type} (hUnlink : ∀ path, env.unlinkCandidate path = none) (candidates : List (List PyStr))
    (host : Host) (hTree : host.tree.WellFormed fun _ => True) (e : PyException) :
    ∃ other after, (failed env candidates e : HostProgram α) host = (.error other, after) ∧
      after.database = host.database ∧
      ∀ path, after.tree.file? path = if path ∈ candidates then none else host.tree.file? path := by
  obtain ⟨after, hRun, hDatabase, hFiles⟩ := unlinkAll_run hUnlink candidates host hTree
  unfold failed FileService.reraise
  rw [bind_ok hRun]
  by_cases hApplication : e.isApplication = true
  · exact ⟨_, after, by rw [if_pos hApplication]; rfl, hDatabase, hFiles⟩
  · exact ⟨_, after, by rw [if_neg hApplication]; rfl, hDatabase, hFiles⟩

theorem getWithGraph_reads (releaseId : Nat) (database : Database) :
    (Catalog.getWithGraph releaseId database).2 = database := by
  rcases Catalog.getWithGraph_cases releaseId database with ⟨e, -, hRun⟩ | ⟨release, software, -, -, hRun⟩
  · rw [hRun]
  · rw [hRun]

/-- The transaction adds the new row, which collides with no other. -/
theorem persistRow_eq_ok {request : UploadRequest} {streamed : StreamedUpload} {signature : Storage.SignatureValidation}
    {scanResult : ScanResult} {texts : RowTexts} {row : ReleaseFile} {before after : Database}
    (h : persistRow env request streamed signature scanResult texts before = (.ok row, after)) :
    after = addRow row before ∧ (∀ other ∈ before.files, ¬Conflicts row other) ∧
      row = newRow env (nextId ReleaseFile.id before.files) request.releaseId streamed signature scanResult
        request.metadata texts := by
  obtain ⟨_, -, hLoaded⟩ := lift_bind_eq_ok h
  obtain ⟨graph, mid, hGraph, hRead⟩ := bind_eq_ok hLoaded
  obtain rfl : mid = before := (congrArg Prod.snd hGraph).symm.trans (getWithGraph_reads _ _)
  rw [read_bind] at hRead
  obtain ⟨u, added, hAdd, hAdded⟩ := bind_eq_ok hRead
  obtain ⟨_, -, hRow⟩ := lift_bind_eq_ok hAdded
  cases hRow
  rw [add, read_bind] at hAdd
  split_ifs at hAdd with hConflict
  · cases hAdd
  · have hNew : ∀ other ∈ mid.files, ¬Conflicts (newRow env (nextId ReleaseFile.id mid.files) request.releaseId streamed
        signature scanResult request.metadata texts) other := by
      intro other hOther hBoth
      exact hConflict ⟨other, hOther, hBoth⟩
    cases hFault : env.addFault with
    | some e =>
        rw [hFault] at hAdd
        cases hAdd
    | none =>
        rw [hFault] at hAdd
        cases hAdd
        exact ⟨rfl, hNew, rfl⟩

theorem persistMetadata_run (request : UploadRequest) (streamed : StreamedUpload) (signature : Storage.SignatureValidation)
    (scanResult : ScanResult) (host : Host) :
    (∃ e after, persistMetadata env request streamed signature scanResult host = (.error e, after) ∧
      after.tree = host.tree ∧ (after.database = host.database ∨ after.database = env.meanwhile host.database)) ∨
    ∃ row after, persistMetadata env request streamed signature scanResult host = (.ok row, after) ∧
      after.tree = host.tree ∧ after.database = addRow row (env.meanwhile host.database) ∧
      row.fileSizeBytes = streamed.sizeBytes ∧ row.sha256 = streamed.sha256 ∧
      row.relativeStoragePath = streamed.pathPlan.quarantineRelativePath := by
  unfold persistMetadata
  cases hTexts : rowTexts env streamed request.metadata scanResult with
  | error e => exact Or.inl ⟨e, host, rfl, rfl, Or.inl rfl⟩
  | ok texts =>
      rw [bind_ok (lift_apply _ host), write_bind]
      rcases transaction_run env.commitFault (persistRow env request streamed signature scanResult texts)
        { host with database := env.meanwhile host.database } with ⟨row, database, hRow, -, hRun⟩ | ⟨e, hRun⟩
      · obtain ⟨hDatabase, -, rfl⟩ := persistRow_eq_ok hRow
        exact Or.inr ⟨_, _, tryExcept_ok hRun, rfl, hDatabase, rfl, rfl, rfl⟩
      · rw [tryExcept_error hRun]
        by_cases hSQL : isSQLAlchemyError e = true
        · exact Or.inl ⟨_, { host with database := env.meanwhile host.database }, by rw [if_pos hSQL]; rfl, rfl,
            Or.inr rfl⟩
        · exact Or.inl ⟨_, { host with database := env.meanwhile host.database }, by rw [if_neg hSQL]; rfl, rfl,
            Or.inr rfl⟩

/-- The moved file is the only one that is new. -/
theorem Streamed.moved {request : UploadRequest} {before created moved : Directory} {streamed : StreamedUpload}
    {result : MoveResult} (h : Streamed env request before streamed created)
    (hMove : AllOrNothing env.moving (quarantineMove env streamed) created (.ok result, moved)) :
    (∃ names, rejectUnsafeRelativePath streamed.pathPlan.quarantineRelativePath = .ok names ∧
      result.destination = env.moving.realPath before env.paths.quarantine names) ∧
    before.file? result.destination = none ∧ before.file? streamed.pathPlan.temporaryPath = none ∧
    ∀ path, moved.file? path =
      if path = result.destination then some (.file (body request.reads)) else before.file? path := by
  obtain ⟨sourceNames, names, hSourceNames, hNames, hDestination, content, hSource, hFree, -, hFiles⟩ := hMove
  obtain ⟨planned, hPlanned, hPath⟩ := h.planned
  have hReal : ∀ root names, env.moving.realPath created root names = env.moving.realPath before root names := by
    intro root names
    rw [MoveEnvironment.realPath, MoveEnvironment.realPath, realPathFrom_congr _ (isSymlink_of_files h.free h.files),
      realPathFrom_congr _ (isSymlink_of_files h.free h.files)]
  have hTemporary : before.file? streamed.pathPlan.temporaryPath = none := by
    rw [Forest.file?, h.free]
  obtain rfl : planned = sourceNames := Except.ok.inj (hPlanned.symm.trans hSourceNames)
  have hSourcePath : env.moving.realPath created (quarantineMove env streamed).sourceRoot planned =
      streamed.pathPlan.temporaryPath := (hReal _ _).trans hPath.symm
  rw [hSourcePath] at hSource hFiles
  rw [h.files, if_pos rfl] at hSource
  cases hSource
  have hNe : result.destination ≠ streamed.pathPlan.temporaryPath := by
    intro hEq
    have hThere := h.files streamed.pathPlan.temporaryPath
    rw [if_pos rfl, ← hEq, Forest.file?, hFree] at hThere
    cases hThere
  refine ⟨⟨names, hNames, hDestination.trans (hReal _ _)⟩, ?_, hTemporary, ?_⟩
  · have hThere := h.files result.destination
    rw [if_neg hNe, Forest.file?, hFree] at hThere
    exact hThere.symm
  · intro path
    rw [hFiles]
    by_cases hPathEq : path = result.destination
    · rw [if_pos hPathEq, if_pos hPathEq]
    · rw [if_neg hPathEq, if_neg hPathEq]
      by_cases hTemp : path = streamed.pathPlan.temporaryPath
      · rw [if_pos hTemp, hTemp, hTemporary]
      · rw [if_neg hTemp, h.files, if_neg hTemp]

variable (hUnlink : env.unlinkTemporary = none ∧ ∀ path, env.unlinkCandidate path = none)
  (hMove : ∀ move tree, (tree.WellFormed fun _ => True) → AllOrNothing env.moving move tree (atomicMove env.moving move tree))
include hUnlink hMove

/-- The body of the call, step by step: what is there when each of them fails. -/
theorem uploadChecked_accounted (request : UploadRequest) {host : Host} (hTree : host.tree.WellFormed fun _ => True) :
    Accounted env request host (uploadChecked env request host) := by
  unfold uploadChecked
  rcases streamUploadToTemporary_run request hTree hUnlink.1 with ⟨e, tree, hRun, hAfter, hNew⟩ | ⟨streamed, created, hRun, h⟩
  · obtain ⟨other, after, hFailed, hDatabase, hFiles⟩ :=
      failed_run (α := StreamedUpload) hUnlink.2 [] { host with tree := tree } hAfter e
    have hStream : onTree (streamUploadToTemporary env request) host = (.error e, { host with tree := tree }) := by
      rw [onTree, hRun]
    rw [bind_error ((tryExcept_error hStream).trans hFailed)]
    refine Accounted.error ⟨?_, Or.inl hDatabase⟩
    intro path leaf hLeaf
    rw [hFiles, if_neg List.not_mem_nil] at hLeaf
    exact hNew path leaf hLeaf
  · have hStream : onTree (streamUploadToTemporary env request) host = (.ok streamed, { host with tree := created }) := by
      rw [onTree, hRun]
    rw [bind_ok (tryExcept_ok hStream)]
    have hAtomic := hMove (quarantineMove env streamed) created h.wellFormed
    rcases hMoveRun : atomicMove env.moving (quarantineMove env streamed) created with ⟨outcome, moved⟩
    have hMovedTree := Storage.wellFormed_of_atomicMove env.moving h.wellFormed hMoveRun
    rw [hMoveRun] at hAtomic
    have hHost : onTree (atomicMove env.moving (quarantineMove env streamed)) { host with tree := created } =
        (outcome, { host with tree := moved }) := by
      rw [onTree]
      dsimp only
      rw [hMoveRun]
    cases outcome with
    | error e =>
        obtain ⟨other, after, hFailed, hDatabase, hFiles⟩ := failed_run (α := MoveResult) hUnlink.2
          [streamed.pathPlan.temporaryPath] { host with tree := moved } hMovedTree e
        rw [bind_error ((tryExcept_error hHost).trans hFailed)]
        refine Accounted.error ⟨?_, Or.inl hDatabase⟩
        intro path leaf hLeaf
        rw [hFiles] at hLeaf
        split_ifs at hLeaf with hPath
        rw [List.mem_singleton] at hPath
        dsimp only at hLeaf
        rwa [hAtomic.1, h.files, if_neg hPath] at hLeaf
    | ok result =>
        obtain ⟨hDestination, hFree, hTemporary, hFiles⟩ := h.moved hAtomic
        rw [bind_ok (tryExcept_ok hHost)]
        have hCleaned : ∀ {x : HostProgram ReleaseFile} {e : PyException} {mid : Host},
            x { host with tree := moved } = (.error e, mid) → mid.tree = moved →
            (mid.database = host.database ∨ mid.database = env.meanwhile host.database) →
            Accounted env request host
              (tryExcept x (failed env [streamed.pathPlan.temporaryPath, result.destination]) { host with tree := moved }) := by
          intro x e mid hRaised hMid hDatabase
          obtain ⟨other, after, hFailed, hAfter, hErased⟩ := failed_run (α := ReleaseFile) hUnlink.2
            [streamed.pathPlan.temporaryPath, result.destination] mid (hMid ▸ hMovedTree) e
          rw [tryExcept_error hRaised, hFailed]
          refine Accounted.error ⟨?_, hAfter ▸ hDatabase⟩
          intro path leaf hLeaf
          rw [hErased] at hLeaf
          split_ifs at hLeaf with hPath
          rw [hMid, hFiles, if_neg (fun hEq => hPath (by simp [hEq]))] at hLeaf
          exact hLeaf
        cases hScan : env.scan with
        | error e => exact hCleaned (bind_error (lift_apply _ _) _) rfl (Or.inl rfl)
        | ok scanResult =>
            rcases persistMetadata_run request streamed (Storage.validateFileSignature env.unicode
              streamed.pathPlan.original.extension streamed.signatureSample) scanResult { host with tree := moved } with
              ⟨e, after, hPersist, hAfter, hDatabase⟩ | ⟨row, after, hPersist, hAfter, hDatabase, hSize, hDigest, hPath⟩
            · exact hCleaned ((bind_ok (lift_apply _ _) _).trans hPersist) hAfter hDatabase
            · rw [tryExcept_ok ((bind_ok (lift_apply _ _) _).trans hPersist)]
              obtain ⟨names, hNames, hStored⟩ := hDestination
              refine Accounted.ok ⟨hDatabase, hSize.trans h.size, hDigest.trans h.digest, names, hPath ▸ hNames, ?_⟩
              rw [← hStored]
              refine ⟨hFree, ?_, ?_⟩
              · rw [hAfter, hFiles, if_pos rfl]
              · intro path hOther
                rw [hAfter, hFiles, if_neg hOther]

end UploadService

/-- Every upload, whatever is submitted and whatever fails: an exception leaves
no file of the upload and no row; a return leaves exactly one row, with its
file in the quarantine, and nothing else. -/
theorem uploadReleaseFile_accounted (env : UploadEnvironment) (request : UploadRequest) (host : Host)
    (hTree : host.tree.WellFormed fun _ => True)
    (hUnlink : env.unlinkTemporary = none ∧ ∀ path, env.unlinkCandidate path = none)
    (hMove : ∀ move tree, (tree.WellFormed fun _ => True) →
      AllOrNothing env.moving move tree (atomicMove env.moving move tree)) :
    Accounted env request host (UploadService.uploadReleaseFile env request host) := by
  have hSame : NoNewFiles host.tree host.tree := fun _ _ h => h
  unfold UploadService.uploadReleaseFile
  cases hRequire : call env.requireFault id with
  | error e => exact Accounted.error ⟨hSame, Or.inl rfl⟩
  | ok _ =>
      rw [bind_ok (lift_apply _ host), read_bind]
      by_cases hRelease : host.database.release? request.releaseId = none
      · rw [if_pos hRelease]
        exact Accounted.error ⟨hSame, Or.inl rfl⟩
      · rw [if_neg hRelease]
        have hChecked := UploadService.uploadChecked_accounted hUnlink hMove request hTree
        rcases hRun : UploadService.uploadChecked env request host with ⟨outcome, after⟩
        rw [hRun] at hChecked
        have hClose : UploadService.closeUpload env after = (.ok (), after) := by
          unfold UploadService.closeUpload
          cases env.uploadCloseFault <;> rfl
        rw [tryFinally_run hRun hClose]
        exact hChecked

/-- No call fails, and the scanner finds nothing. -/
def sampleUploadEnvironment : UploadEnvironment where
  paths := sampleEnvironment.paths
  links := id
  device _ := 0
  unicode := Unicode.ascii
  settings := ⟨[py ".zip"], 100, 64, 10⟩
  urlsplit _ := .error (.validationError "Invalid URL")
  fileUuid := 1
  temporaryUuid := 2
  publicUuid := 3
  meanwhile := id
  requireFault := none
  planRoot _ := none
  planResolve _ := none
  free := some 1000
  seekFault := none
  openFault := none
  writeFault _ := none
  syncFault := none
  chmodFault := none
  closeFault := none
  unlinkTemporary := none
  unlinkCandidate _ := none
  move _ := none
  scan := .ok ⟨.clean, none⟩
  loadFault := none
  addFault := none
  auditFault := none
  commitFault := none
  uploadCloseFault := none

/-- An archive of four bytes, in two chunks. -/
def sampleUpload : UploadRequest where
  releaseId := 1
  filename := some (py "tool.zip")
  size := some 4
  reads := [.ok [0x50, 0x4B], .ok [0x03, 0x04]]
  metadata := ⟨none, .x64, .archive, py "any", none, .isPublic, none, none⟩

theorem uploadReleaseFile_accounted_sample :
    (UploadService.uploadReleaseFile sampleUploadEnvironment sampleUpload sampleHost).1.isOk = true ∧
      Accounted sampleUploadEnvironment sampleUpload sampleHost
        (UploadService.uploadReleaseFile sampleUploadEnvironment sampleUpload sampleHost) := by
  have hMove : ∀ move tree, (tree.WellFormed fun _ => True) → AllOrNothing sampleUploadEnvironment.moving move tree
      (atomicMove sampleUploadEnvironment.moving move tree) := by
    intro move tree hTree
    exact Storage.allOrNothing_of_synchronizes ⟨rfl, rfl, rfl⟩ move hTree
  refine ⟨by decide +kernel, ?_⟩
  exact uploadReleaseFile_accounted sampleUploadEnvironment sampleUpload sampleHost (by decide)
    ⟨rfl, fun _ => rfl⟩ hMove

end SoftwareHub.Lifecycle
