import SoftwareHub.Lifecycle.Compensation
import SoftwareHub.Semantics.View

/-! What a request for a file does to the rows: nothing, or the one change of its
transaction. -/
namespace SoftwareHub.Lifecycle

open SoftwareHub.Python SoftwareHub.Tree SoftwareHub.Semantics SoftwareHub.Catalog Program
open SoftwareHub.Downloads (FileGraph)
open SoftwareHub.Storage (StorageArea TreeProgram)

/-- The calls of the file service that write. -/
inductive FileRequest
  | reviewStatus (target : FileStatus)
  | publish
  | disable
  | archive
  | restoreReady
  | verifyIntegrity
  | transitionStatus (target : FileStatus)
  | setVisibility (visibility : Visibility)
  | deleteMetadata
  | permanentlyDelete
  deriving DecidableEq

/-- The call of the service, without what it returns. -/
def FileRequest.perform (env : ServiceEnvironment) (fileId : Nat) : FileRequest → HostProgram Unit
  | reviewStatus target => (fun _ => ()) <$> FileService.reviewStatus env fileId target
  | publish => (fun _ => ()) <$> FileService.publish env fileId
  | disable => (fun _ => ()) <$> FileService.disable env fileId
  | archive => (fun _ => ()) <$> FileService.archive env fileId
  | restoreReady => (fun _ => ()) <$> FileService.restoreReady env fileId
  | verifyIntegrity => (fun _ => ()) <$> FileService.verifyIntegrity env fileId
  | transitionStatus target => (fun _ => ()) <$> FileService.transitionStatus env fileId target
  | setVisibility visibility => (fun _ => ()) <$> FileService.setVisibility env fileId visibility
  | deleteMetadata => (fun _ => ()) <$> FileService.deleteMetadata env fileId
  | permanentlyDelete => (fun _ => ()) <$> FileService.permanentlyDelete env fileId

/-- The row of a file with its parents. -/
structure HasGraph (database : Database) (fileId : Nat) (graph : FileGraph) : Prop where
  file : database.file? fileId = some graph.file
  release : database.release? graph.file.releaseId = some graph.release
  software : database.software? graph.release.softwareId = some graph.software

/-- A file that is ready for it makes a transition. -/
def Transitions (env : ServiceEnvironment) (fileId : Nat) (ready : FileGraph → Prop) (target : FileStatus)
    (before after : Database) : Prop :=
  ∃ graph file, HasGraph before fileId graph ∧ ready graph ∧
    applyFileTransition graph.software graph.release graph.file target env.now = .ok file ∧ after = before.saveFile file

/-- The change that a request makes, if it makes one. -/
def FileRequest.Effect (env : ServiceEnvironment) (fileId : Nat) : FileRequest → Database → Database → Prop
  | reviewStatus target => Transitions env fileId (fun _ => True) target
  | publish => Transitions env fileId (fun graph => FileService.ensurePublishReady env.unicode graph = .ok ()) .published
  | disable => Transitions env fileId (fun _ => True) .disabled
  | archive => Transitions env fileId (fun _ => True) .archived
  | restoreReady => Transitions env fileId (fun _ => True) .ready
  | verifyIntegrity => fun before after => after = before
  | transitionStatus target => Transitions env fileId (fun _ => True) target
  | setVisibility visibility => fun before after => ∃ file, before.file? fileId = some file ∧
      after = before.saveFile { file with visibility := visibility }
  | deleteMetadata => fun before after => after = deleteFile fileId before
  | permanentlyDelete => fun before after => after = deleteFile fileId before

section Parts

variable {α : Type} {env : ServiceEnvironment}

/-- Reading a row with its parents leaves the rows. -/
theorem requireGraph_eq_ok {fault : Option PyException} {fileId : Nat} {database after : Database} {graph : FileGraph}
    (h : requireGraph fault fileId database = (.ok graph, after)) :
    HasGraph database fileId graph ∧ after = database := by
  obtain ⟨found, mid, hFound, h⟩ := bind_eq_ok h
  cases fault with
  | some e => cases hFound
  | none =>
      rw [getWithGraph, guarded_none, read_bind] at hFound
      cases hFile : Database.file? fileId database with
      | none =>
          rw [hFile] at hFound
          cases hFound
          cases h
      | some file =>
          rw [hFile] at hFound
          dsimp only at hFound
          rw [read_bind] at hFound
          cases hRelease : Database.release? file.releaseId database with
          | none =>
              rw [hRelease] at hFound
              cases hFound
          | some release =>
              rw [hRelease] at hFound
              dsimp only at hFound
              rw [read_bind] at hFound
              cases hSoftware : Database.software? release.softwareId database with
              | none =>
                  rw [hSoftware] at hFound
                  cases hFound
              | some software =>
                  rw [hSoftware] at hFound
                  cases hFound
                  cases h
                  exact ⟨⟨hFile, hRelease, hSoftware⟩, rfl⟩

/-- A step on the tree writes no row. -/
theorem onTree_silent (x : TreeProgram α) : Silent Host.database (onTree x) := fun _ => rfl

theorem get_silent (fault : Option PyException) (fileId : Nat) : Silent Host.database (FileService.get fault fileId) := by
  intro host
  obtain ⟨outcome, hRun, -⟩ := requireGraph_run fault fileId host.database
  rw [FileService.get, onDatabase, hRun]

theorem physicalFile_silent (graph : FileGraph) (verifyHash : Bool) :
    Silent Host.database (FileService.physicalFile env graph verifyHash) :=
  (Silent.read _).bind fun _ => Silent.lift _

/-- There are no requests of others where a call is alone. -/
theorem others_silent (h : env.meanwhile = id) : Silent Host.database (FileService.others env) := by
  apply Silent.write
  intro host
  rw [h]
  rfl

theorem reraise_silent (e : PyException) (message : String) :
    Silent Host.database (FileService.reraise e message : HostProgram α) :=
  Silent.ite (Silent.raise _) (Silent.raise _)

/-- The compensating move is one on the tree. -/
theorem restoreMoveAfterFailure_silent (stored : StoredFile) (source destination : StorageArea) :
    Silent Host.database (FileService.restoreMoveAfterFailure env stored source destination) := by
  unfold FileService.restoreMoveAfterFailure
  apply Silent.tryExcept
  · exact (onTree_silent _).bind fun _ => Silent.pure ()
  · intro e
    split
    · exact Silent.raise _
    · exact Silent.raise _

/-- A transaction makes the change of its body or none. -/
theorem transaction_writes {B : Database → Database → Prop} {commitFault : Option PyException} {body : CatalogProgram α}
    (h : ∀ database a after, body database = (.ok a, after) → B database after) :
    Writes Host.database B (transaction commitFault body) := by
  intro host
  rcases transaction_run commitFault body host with ⟨a, database, hBody, -, hRun⟩ | ⟨e, hRun⟩
  · rw [hRun]
    exact Or.inr (h _ _ _ hBody)
  · rw [hRun]
    exact Or.inl rfl

/-- A saved row replaces the one of its id. -/
theorem save_eq_ok {file : ReleaseFile} {database after : Database} {u : Unit}
    (h : FileService.save env file database = (.ok u, after)) : after = database.saveFile file := by
  obtain ⟨_, _, h⟩ := lift_bind_eq_ok h
  cases hFlush : env.flushFault with
  | some e =>
      rw [hFlush] at h
      cases h
  | none =>
      rw [hFlush] at h
      cases h
      rfl

end Parts

section Transactions

variable {env : ServiceEnvironment} {fileId : Nat}

/-- The transaction of a change of the status makes that transition. -/
theorem transitionMetadata_effect (target : FileStatus) (database : Database) (a : ReleaseFile) (after : Database)
    (h : FileService.transitionMetadata env fileId target database = (.ok a, after)) :
    Transitions env fileId (fun _ => True) target database after := by
  unfold FileService.transitionMetadata at h
  obtain ⟨graph, mid, hGraph, h⟩ := bind_eq_ok h
  obtain ⟨hGraph, hMid⟩ := requireGraph_eq_ok hGraph
  rw [hMid] at h
  obtain ⟨file, hFile, h⟩ := lift_bind_eq_ok h
  obtain ⟨u, saved, hSaved, h⟩ := bind_eq_ok h
  cases h
  exact ⟨graph, _, hGraph, trivial, hFile, save_eq_ok hSaved⟩

/-- The transaction of a publication publishes a row that is ready for it. -/
theorem publishMetadata_effect (stored : StoredFile) (database : Database) (u : Unit) (after : Database)
    (h : FileService.publishMetadata env fileId stored database = (.ok u, after)) :
    FileRequest.publish.Effect env fileId database after := by
  unfold FileService.publishMetadata at h
  obtain ⟨graph, mid, hGraph, h⟩ := bind_eq_ok h
  obtain ⟨hGraph, hMid⟩ := requireGraph_eq_ok hGraph
  rw [hMid] at h
  obtain ⟨_, hReady, h⟩ := lift_bind_eq_ok h
  obtain ⟨_, hPath, h⟩ := lift_bind_eq_ok h
  obtain ⟨file, hFile, h⟩ := lift_bind_eq_ok h
  refine ⟨graph, file, hGraph, hReady, hFile, ?_⟩
  -- The transition keeps the path, which is the one of the moved file.
  obtain ⟨hColumns, -, -⟩ := applyFileTransition_eq_ok hFile
  rw [save_eq_ok h, ← require_eq_ok_iff.mp hPath]
  congr 1
  rw [hColumns]

/-- The visibility is the only column that its request changes. -/
theorem setVisibility_writes (visibility : Visibility) :
    Writes Host.database (FileRequest.Effect env fileId (.setVisibility visibility))
      (FileService.setVisibility env fileId visibility) := by
  apply transaction_writes
  intro database a after h
  obtain ⟨found, mid, hFound, h⟩ := bind_eq_ok h
  cases hLoad : env.loadFault with
  | some e =>
      rw [hLoad] at hFound
      cases hFound
  | none =>
      rw [hLoad, guarded_none, read_apply] at hFound
      cases hFile : database.file? fileId with
      | none =>
          rw [hFile] at hFound
          cases hFound
          cases h
      | some file =>
          rw [hFile] at hFound
          cases hFound
          obtain ⟨u, saved, hSaved, h⟩ := bind_eq_ok h
          cases h
          exact ⟨file, hFile, save_eq_ok hSaved⟩

/-- A write that returns has been made. -/
theorem guarded_write_eq_ok {fault : Option PyException} {f : Database → Database} {database after : Database} {u : Unit}
    (h : guarded fault (write f) database = (.ok u, after)) : after = f database := by
  cases fault with
  | some e => cases h
  | none =>
      cases h
      rfl

theorem deleteMetadataRow_effect (database : Database) (a : Nat) (after : Database)
    (h : FileService.deleteMetadataRow env fileId database = (.ok a, after)) : after = deleteFile fileId database := by
  unfold FileService.deleteMetadataRow at h
  obtain ⟨graph, mid, hGraph, h⟩ := bind_eq_ok h
  obtain ⟨-, hMid⟩ := requireGraph_eq_ok hGraph
  rw [hMid] at h
  obtain ⟨_, -, h⟩ := lift_bind_eq_ok h
  obtain ⟨_, deleted, hDeleted, h⟩ := bind_eq_ok h
  obtain ⟨_, -, h⟩ := lift_bind_eq_ok h
  cases h
  exact guarded_write_eq_ok hDeleted

theorem permanentlyDeleteRow_effect (stored : StoredFile) (database : Database) (a : Nat) (after : Database)
    (h : FileService.permanentlyDeleteRow env fileId stored database = (.ok a, after)) :
    after = deleteFile fileId database := by
  unfold FileService.permanentlyDeleteRow at h
  obtain ⟨graph, mid, hGraph, h⟩ := bind_eq_ok h
  obtain ⟨-, hMid⟩ := requireGraph_eq_ok hGraph
  rw [hMid] at h
  obtain ⟨_, -, h⟩ := lift_bind_eq_ok h
  obtain ⟨_, -, h⟩ := lift_bind_eq_ok h
  obtain ⟨_, deleted, hDeleted, h⟩ := bind_eq_ok h
  obtain ⟨_, -, h⟩ := lift_bind_eq_ok h
  cases h
  exact guarded_write_eq_ok hDeleted

end Transactions

section Calls

variable {env : ServiceEnvironment} (hAlone : env.meanwhile = id) (fileId : Nat)
include hAlone

/-- A publication publishes the row, or writes nothing. -/
theorem publish_writes : Writes Host.database (FileRequest.publish.Effect env fileId) (FileService.publish env fileId) := by
  unfold FileService.publish
  apply (get_silent _ _).bind_writes
  intro graph
  apply (Silent.lift _).bind_writes
  intro _
  apply (physicalFile_silent _ _).bind_writes
  intro stored
  apply (Silent.lift _).bind_writes
  intro _
  apply (onTree_silent _).bind_writes
  intro _
  apply (others_silent hAlone).bind_writes
  intro _
  refine Writes.bind_silent ?_ fun _ => get_silent _ _
  apply (transaction_writes (publishMetadata_effect _)).tryExcept
  intro e
  exact (restoreMoveAfterFailure_silent _ _ _).bind fun _ => reraise_silent _ _

/-- A change of the status without a move makes the transition, or writes nothing. -/
theorem transitionWithStorageCheck_writes (target : FileStatus) :
    Writes Host.database (Transitions env fileId (fun _ => True) target)
      (FileService.transitionWithStorageCheck env fileId target) := by
  unfold FileService.transitionWithStorageCheck
  apply (get_silent _ _).bind_writes
  intro graph
  apply (physicalFile_silent _ _).bind_writes
  intro _
  apply (others_silent hAlone).bind_writes
  intro _
  exact (transaction_writes (transitionMetadata_effect _)).bind_silent fun _ => get_silent _ _

theorem reviewStatus_writes (target : FileStatus) : Writes Host.database (Transitions env fileId (fun _ => True) target)
    (FileService.reviewStatus env fileId target) := by
  unfold FileService.reviewStatus
  apply (Silent.lift _).bind_writes
  intro _
  apply (get_silent _ _).bind_writes
  intro graph
  apply (physicalFile_silent _ _).bind_writes
  intro stored
  apply (Silent.lift _).bind_writes
  intro _
  apply (others_silent hAlone).bind_writes
  intro _
  exact (transaction_writes (transitionMetadata_effect _)).bind_silent fun _ => get_silent _ _

/-- So does the return to the ready status, from either area. -/
theorem restoreReady_writes : Writes Host.database (Transitions env fileId (fun _ => True) .ready)
    (FileService.restoreReady env fileId) := by
  unfold FileService.restoreReady
  apply (get_silent _ _).bind_writes
  intro graph
  apply (physicalFile_silent _ _).bind_writes
  intro stored
  apply Writes.ite
  · apply (onTree_silent _).bind_writes
    intro _
    apply (others_silent hAlone).bind_writes
    intro _
    refine Writes.bind_silent ?_ fun _ => get_silent _ _
    apply (transaction_writes (transitionMetadata_effect _)).tryExcept
    intro e
    exact (restoreMoveAfterFailure_silent _ _ _).bind fun _ => reraise_silent _ _
  · apply (others_silent hAlone).bind_writes
    intro _
    refine Writes.bind_silent ?_ fun _ => get_silent _ _
    exact (transaction_writes (transitionMetadata_effect _)).tryExcept fun e => reraise_silent _ _

/-- The check of the integrity changes no row of the catalog. -/
theorem verifyIntegrity_writes : Writes Host.database (fun before after => after = before)
    (FileService.verifyIntegrity env fileId) := by
  unfold FileService.verifyIntegrity
  apply (get_silent _ _).bind_writes
  intro graph
  apply (physicalFile_silent _ _).bind_writes
  intro _
  apply (others_silent hAlone).bind_writes
  intro _
  refine Writes.bind_silent ?_ fun _ => Silent.pure _
  apply transaction_writes
  intro database a after h
  obtain ⟨graph, mid, hGraph, h⟩ := bind_eq_ok h
  obtain ⟨-, hMid⟩ := requireGraph_eq_ok hGraph
  rw [hMid] at h
  exact (congrArg Prod.snd h).symm

theorem deleteMetadata_writes : Writes Host.database (fun before after => after = deleteFile fileId before)
    (FileService.deleteMetadata env fileId) := by
  unfold FileService.deleteMetadata
  apply (get_silent _ _).bind_writes
  intro graph
  apply (Silent.lift _).bind_writes
  intro _
  apply (Silent.read _).bind_writes
  intro tree
  apply (Silent.lift _).bind_writes
  intro stored
  apply (Silent.lift _).bind_writes
  intro _
  apply (others_silent hAlone).bind_writes
  intro _
  exact (transaction_writes deleteMetadataRow_effect).bind_silent fun _ => Silent.pure _

theorem permanentlyDelete_writes : Writes Host.database (fun before after => after = deleteFile fileId before)
    (FileService.permanentlyDelete env fileId) := by
  unfold FileService.permanentlyDelete
  apply (get_silent _ _).bind_writes
  intro graph
  apply (Silent.lift _).bind_writes
  intro _
  apply (physicalFile_silent _ _).bind_writes
  intro stored
  apply (onTree_silent _).bind_writes
  intro staged
  apply (others_silent hAlone).bind_writes
  intro _
  refine Writes.bind_silent ?_ fun _ => ?_
  · apply (transaction_writes (permanentlyDeleteRow_effect _)).tryExcept
    intro e
    refine Silent.bind ?_ fun _ => reraise_silent _ _
    apply Silent.tryExcept
    · exact (onTree_silent _).bind fun _ => Silent.pure ()
    · intro e
      split
      · exact Silent.raise _
      · exact Silent.raise _
  · refine Silent.bind ?_ fun _ => Silent.pure _
    apply (onTree_silent _).tryExcept
    intro e
    split
    · exact Silent.raise _
    · exact Silent.raise _

/-- A request makes its change or none, whether it returns or raises. -/
theorem FileRequest.writes (request : FileRequest) :
    Writes Host.database (request.Effect env fileId) (request.perform env fileId) := by
  cases request with
  | reviewStatus target => exact (reviewStatus_writes hAlone fileId target).map _
  | publish => exact (publish_writes hAlone fileId).map _
  | disable => exact (transitionWithStorageCheck_writes hAlone fileId .disabled).map _
  | archive => exact (transitionWithStorageCheck_writes hAlone fileId .archived).map _
  | restoreReady => exact (restoreReady_writes hAlone fileId).map _
  | verifyIntegrity => exact (verifyIntegrity_writes hAlone fileId).map _
  | transitionStatus target => exact (transaction_writes (transitionMetadata_effect target)).map _
  | setVisibility visibility => exact (setVisibility_writes visibility).map _
  | deleteMetadata => exact (deleteMetadata_writes hAlone fileId).map _
  | permanentlyDelete => exact (permanentlyDelete_writes hAlone fileId).map _

end Calls

/-- The status, the visibility and the timestamps of a row may change; it gets
ready or published only if it is not infected. -/
structure Carried (before after : ReleaseFile) : Prop where
  columns : after = { before with
    status := after.status
    visibility := after.visibility
    publishedAt := after.publishedAt
    disabledAt := after.disabledAt }
  cleared : after.status = .ready ∨ after.status = .published →
    after.status = before.status ∨ before.scannerStatus ≠ .infected

theorem Carried.refl (row : ReleaseFile) : Carried row row := ⟨rfl, fun _ => Or.inl rfl⟩

/-- Each row comes from one of the rows before. -/
def RowsCarried (before after : Database) : Prop := ∀ row ∈ after.files, ∃ old ∈ before.files, Carried old row

/-- Saving a row changes that row only. -/
theorem rowsCarried_saveFile {database : Database} {fileId : Nat} {old file : ReleaseFile}
    (hOld : database.file? fileId = some old) (hFile : Carried old file) :
    RowsCarried database (database.saveFile file) := by
  intro row hRow
  obtain ⟨other, hOther, rfl⟩ := mem_updateRows.mp hRow
  split_ifs
  · exact ⟨old, List.mem_of_find?_eq_some hOld, hFile⟩
  · exact ⟨other, hOther, Carried.refl other⟩

/-- A transition of the status is such a change: the policy lets no infected file
become ready or published. -/
theorem carried_of_transition {software : Software} {release : Release} {file after : ReleaseFile} {target : FileStatus}
    {now : Instant} (h : applyFileTransition software release file target now = .ok after) : Carried file after := by
  obtain ⟨hColumns, -, hCleared⟩ := applyFileTransition_eq_ok h
  rw [hColumns]
  exact ⟨rfl, hCleared⟩

/-- So every change of the status leaves rows that come from the rows before. -/
theorem Transitions.rowsCarried {env : ServiceEnvironment} {fileId : Nat} {ready : FileGraph → Prop} {target : FileStatus}
    {before after : Database} (h : Transitions env fileId ready target before after) : RowsCarried before after := by
  obtain ⟨graph, file, hGraph, -, hFile, rfl⟩ := h
  exact rowsCarried_saveFile hGraph.file (carried_of_transition hFile)

theorem FileRequest.Effect.rowsCarried {env : ServiceEnvironment} {fileId : Nat} {request : FileRequest}
    {before after : Database} (h : request.Effect env fileId before after) : RowsCarried before after := by
  have hDeleted (hAfter : after = deleteFile fileId before) : RowsCarried before after := by
    intro row hRow
    rw [hAfter] at hRow
    exact ⟨row, (List.mem_filter.mp hRow).1, Carried.refl row⟩
  cases request with
  | reviewStatus target => exact Transitions.rowsCarried h
  | publish => exact Transitions.rowsCarried h
  | disable => exact Transitions.rowsCarried h
  | archive => exact Transitions.rowsCarried h
  | restoreReady => exact Transitions.rowsCarried h
  | verifyIntegrity =>
      obtain rfl := h
      exact fun row hRow => ⟨row, hRow, Carried.refl row⟩
  | transitionStatus target => exact Transitions.rowsCarried h
  | setVisibility visibility =>
      obtain ⟨file, hFile, rfl⟩ := h
      exact rowsCarried_saveFile hFile ⟨rfl, fun _ => Or.inl rfl⟩
  | deleteMetadata => exact hDeleted h
  | permanentlyDelete => exact hDeleted h

theorem FileRequest.rowsCarried {env : ServiceEnvironment} (hAlone : env.meanwhile = id) (fileId : Nat)
    (request : FileRequest) (host : Host) : RowsCarried host.database (request.perform env fileId host).2.database := by
  rcases request.writes hAlone fileId host with hSame | hEffect
  · rw [hSame]
    exact fun row hRow => ⟨row, hRow, Carried.refl row⟩
  · exact hEffect.rowsCarried

end SoftwareHub.Lifecycle
