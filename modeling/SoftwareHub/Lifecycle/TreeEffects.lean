import SoftwareHub.Lifecycle.RowEffects
import SoftwareHub.Lifecycle.Staging
import SoftwareHub.Lifecycle.UploadCompensation

/-! Whatever fails, a call leaves a directory tree behind in which no two entries of
one directory share a name. -/
namespace SoftwareHub.Lifecycle

open SoftwareHub.Python SoftwareHub.Tree SoftwareHub.Semantics SoftwareHub.Catalog Program
open SoftwareHub.Backup (Directory)
open SoftwareHub.Storage (MoveEnvironment MoveRequest StorageArea TreeProgram atomicMove)

/-- No two entries of one directory share a name. -/
def DistinctNames (tree : Directory) : Prop := tree.WellFormed fun _ => True

section Trees

variable {α : Type}

/-- A move keeps names apart: its destination is free. -/
theorem atomicMove_preserves (env : MoveEnvironment) (move : MoveRequest) :
    Preserves DistinctNames (atomicMove env move) := by
  intro tree hTree
  rcases hRun : atomicMove env move tree with ⟨outcome, after⟩
  exact Storage.wellFormed_of_atomicMove env hTree hRun

theorem stageForPermanentDeletion_preserves (env : MoveEnvironment) (paths : StoragePaths) (uuid : Nat) (stored : StoredFile) :
    Preserves DistinctNames (stageForPermanentDeletion env paths uuid stored) :=
  (atomicMove_preserves env _).bind fun _ => Preserves.pure _

theorem restoreStagedDeletion_preserves (env : MoveEnvironment) (paths : StoragePaths) (faults : InspectFaults)
    (staged : StagedDeletion) : Preserves DistinctNames (restoreStagedDeletion env paths faults staged) := by
  apply (atomicMove_preserves env _).bind
  intro _
  exact (Preserves.read _).bind fun _ => Preserves.lift _

/-- Removing a staged file keeps names apart. -/
theorem unlinkStagedDeletion_preserves (links : Storage.Links) (signal : UnlinkCall → Option OSError) (paths : StoragePaths)
    (staged : StagedDeletion) : Preserves DistinctNames (unlinkStagedDeletion links signal paths staged) := by
  intro tree hTree
  rcases @unlinkStagedDeletion_cases links signal paths staged tree with hSame | ⟨names, content, -, -, hErased⟩
  · rw [hSame]
    exact hTree
  · rw [hErased]
    exact Forest.WellFormed.erase hTree _

theorem unlinkQuietly_preserves (fault : Option OSError) (path : List PyStr) :
    Preserves DistinctNames (unlinkQuietly fault path) := by
  intro tree hTree
  unfold unlinkQuietly
  rw [write_apply]
  dsimp only
  split_ifs
  · split
    · exact Forest.WellFormed.erase hTree _
    · exact hTree
  · exact hTree

/-- A step on the tree keeps what it keeps of the tree. -/
theorem onTree_preserves {I : Directory → Prop} {x : TreeProgram α} (h : Preserves I x) :
    Preserves (fun host => I host.tree) (onTree x) := fun host hHost => h host.tree hHost

theorem transaction_tree (commitFault : Option PyException) (body : CatalogProgram α) :
    Silent Host.tree (transaction commitFault body) := by
  intro host
  rcases transaction_run commitFault body host with ⟨a, database, -, -, hRun⟩ | ⟨e, hRun⟩
  · rw [hRun]
  · rw [hRun]

end Trees

section Uploads

variable {env : UploadEnvironment}

/-- `O_EXCL` opens new names only. -/
theorem createFile_preserves {path : List PyStr} {content : Bytes} {tree created : Directory} (hTree : DistinctNames tree)
    (h : UploadService.createFile path content tree = some created) : DistinctNames created :=
  (createFile_eq_some hTree h).1

theorem copyStream_preserves (reads : List (Except PyException Bytes)) (path : List PyStr) :
    Preserves DistinctNames (UploadService.copyStream env reads path) := by
  intro tree hTree
  rcases UploadService.copyStream_run reads path tree with ⟨e, hRun⟩ | ⟨content, created, hCreate, ⟨e, hRun⟩ | ⟨hRun, -⟩⟩
  · rw [hRun]
    exact hTree
  · rw [hRun]
    exact createFile_preserves hTree hCreate
  · rw [hRun]
    exact createFile_preserves hTree hCreate

theorem storeUpload_preserves (reads : List (Except PyException Bytes)) (path : List PyStr) :
    Preserves DistinctNames (UploadService.storeUpload env reads path) := by
  unfold UploadService.storeUpload
  apply Preserves.tryExcept
  · exact (Preserves.lift _).bind fun _ => copyStream_preserves reads path
  · intro e
    apply (unlinkQuietly_preserves _ _).bind
    intro _
    exact Preserves.ite (Preserves.raise _) (Preserves.raise _)

/-- What comes before the copy reads the tree only. -/
theorem streamUploadToTemporary_preserves (request : UploadRequest) :
    Preserves DistinctNames (UploadService.streamUploadToTemporary env request) := by
  unfold UploadService.streamUploadToTemporary
  refine Preserves.bind (Preserves.read _) ?_
  intro tree
  refine Preserves.bind (Preserves.lift _) ?_
  intro plan
  refine Preserves.bind (Preserves.lift _) ?_
  intro _
  refine Preserves.bind (Preserves.lift _) ?_
  intro _
  exact (storeUpload_preserves _ _).bind fun _ => Preserves.pure _

/-- The handler of an upload only removes files. -/
theorem failed_preserves {α : Type} (candidates : List (List PyStr)) (e : PyException) :
    Preserves (fun host => DistinctNames host.tree) (UploadService.failed env candidates e : HostProgram α) := by
  unfold UploadService.failed
  apply Preserves.bind
  · exact Preserves.forEach fun path => onTree_preserves (unlinkQuietly_preserves _ path)
  · exact fun _ => Preserves.ite (Preserves.raise _) (Preserves.raise _)

/-- The transaction of an upload leaves the tree. -/
theorem persistMetadata_tree (request : UploadRequest) (streamed : StreamedUpload) (signature : Storage.SignatureValidation)
    (scanResult : ScanResult) :
    Silent Host.tree (UploadService.persistMetadata env request streamed signature scanResult) := by
  unfold UploadService.persistMetadata
  apply (Silent.lift _).bind
  intro texts
  refine Silent.bind (fun _ => rfl) ?_
  intro _
  apply (transaction_tree _ _).tryExcept
  intro e
  exact Silent.ite (Silent.raise _) (Silent.raise _)

theorem uploadReleaseFile_preserves (request : UploadRequest) :
    Preserves (fun host => DistinctNames host.tree) (UploadService.uploadReleaseFile env request) := by
  have hChecked : Preserves (fun host => DistinctNames host.tree) (UploadService.uploadChecked env request) := by
    unfold UploadService.uploadChecked
    apply Preserves.bind
    · exact (onTree_preserves (streamUploadToTemporary_preserves request)).tryExcept fun e => failed_preserves _ e
    intro streamed
    apply Preserves.bind
    · exact (onTree_preserves (atomicMove_preserves _ _)).tryExcept fun e => failed_preserves _ e
    intro result
    apply Preserves.tryExcept
    · exact (Preserves.lift _).bind fun scanResult => (persistMetadata_tree _ _ _ _).preserves DistinctNames
    · exact fun e => failed_preserves _ e
  unfold UploadService.uploadReleaseFile
  refine Preserves.bind (Preserves.lift _) ?_
  intro _
  refine Preserves.bind (Preserves.read _) ?_
  intro release
  refine Preserves.ite (Preserves.raise _) ?_
  apply hChecked.tryFinally
  exact (Preserves.lift _).tryExcept fun _ => Preserves.pure ()

end Uploads

section Requests

variable {env : ServiceEnvironment}

/-- The first read of a call leaves the tree. -/
theorem get_tree (fault : Option PyException) (fileId : Nat) : Silent Host.tree (FileService.get fault fileId) :=
  fun _ => rfl

theorem physicalFile_tree (graph : Downloads.FileGraph) (verifyHash : Bool) :
    Silent Host.tree (FileService.physicalFile env graph verifyHash) :=
  (Silent.read _).bind fun _ => Silent.lift _

theorem others_tree : Silent Host.tree (FileService.others env) := fun _ => rfl

theorem reraise_tree {α : Type} (e : PyException) (message : String) :
    Silent Host.tree (FileService.reraise e message : HostProgram α) :=
  Silent.ite (Silent.raise _) (Silent.raise _)

theorem restoreMoveAfterFailure_preserves (stored : StoredFile) (source destination : StorageArea) :
    Preserves (fun host => DistinctNames host.tree)
      (FileService.restoreMoveAfterFailure env stored source destination) := by
  unfold FileService.restoreMoveAfterFailure
  apply Preserves.tryExcept
  · exact (onTree_preserves (atomicMove_preserves _ _)).bind fun _ => Preserves.pure ()
  · intro e
    split
    · exact Preserves.raise _
    · exact Preserves.raise _

variable (env) (fileId : Nat)

/-- A publication keeps names apart, with and without its compensation. -/
theorem publish_preserves : Preserves (fun host => DistinctNames host.tree) (FileService.publish env fileId) := by
  unfold FileService.publish
  apply ((get_tree _ _).preserves DistinctNames).bind
  intro graph
  refine Preserves.bind (Preserves.lift _) ?_
  intro _
  apply ((physicalFile_tree _ _).preserves DistinctNames).bind
  intro stored
  refine Preserves.bind (Preserves.lift _) ?_
  intro _
  apply (onTree_preserves (atomicMove_preserves _ _)).bind
  intro _
  apply ((others_tree).preserves DistinctNames).bind
  intro _
  apply Preserves.bind _ fun _ => (get_tree _ _).preserves DistinctNames
  apply ((transaction_tree _ _).preserves DistinctNames).tryExcept
  intro e
  exact (restoreMoveAfterFailure_preserves _ _ _).bind fun _ => (reraise_tree _ _).preserves DistinctNames

theorem restoreReady_preserves : Preserves (fun host => DistinctNames host.tree) (FileService.restoreReady env fileId) := by
  unfold FileService.restoreReady
  apply ((get_tree _ _).preserves DistinctNames).bind
  intro graph
  apply ((physicalFile_tree _ _).preserves DistinctNames).bind
  intro stored
  apply Preserves.ite
  · apply (onTree_preserves (atomicMove_preserves _ _)).bind
    intro _
    apply ((others_tree).preserves DistinctNames).bind
    intro _
    apply Preserves.bind _ fun _ => (get_tree _ _).preserves DistinctNames
    apply ((transaction_tree _ _).preserves DistinctNames).tryExcept
    intro e
    exact (restoreMoveAfterFailure_preserves _ _ _).bind fun _ => (reraise_tree _ _).preserves DistinctNames
  · apply ((others_tree).preserves DistinctNames).bind
    intro _
    apply Preserves.bind _ fun _ => (get_tree _ _).preserves DistinctNames
    exact ((transaction_tree _ _).preserves DistinctNames).tryExcept fun e => (reraise_tree _ _).preserves DistinctNames

theorem permanentlyDelete_preserves :
    Preserves (fun host => DistinctNames host.tree) (FileService.permanentlyDelete env fileId) := by
  unfold FileService.permanentlyDelete
  apply ((get_tree _ _).preserves DistinctNames).bind
  intro graph
  refine Preserves.bind (Preserves.lift _) ?_
  intro _
  apply ((physicalFile_tree _ _).preserves DistinctNames).bind
  intro stored
  apply (onTree_preserves (stageForPermanentDeletion_preserves _ _ _ _)).bind
  intro staged
  apply ((others_tree).preserves DistinctNames).bind
  intro _
  apply Preserves.bind
  · apply ((transaction_tree _ _).preserves DistinctNames).tryExcept
    intro e
    apply Preserves.bind _ fun _ => (reraise_tree _ _).preserves DistinctNames
    apply Preserves.tryExcept
    · exact (onTree_preserves (restoreStagedDeletion_preserves _ _ _ _)).bind fun _ => Preserves.pure ()
    · intro e
      split
      · exact Preserves.raise _
      · exact Preserves.raise _
  intro releaseId
  refine Preserves.bind ?_ fun _ => Preserves.pure _
  apply (onTree_preserves (unlinkStagedDeletion_preserves _ _ _ _)).tryExcept
  intro e
  split
  · exact Preserves.raise _
  · exact Preserves.raise _

theorem transitionWithStorageCheck_tree (target : FileStatus) :
    Silent Host.tree (FileService.transitionWithStorageCheck env fileId target) := by
  unfold FileService.transitionWithStorageCheck
  apply (get_tree _ _).bind
  intro graph
  apply (physicalFile_tree _ _).bind
  intro _
  apply others_tree.bind
  intro _
  exact (transaction_tree _ _).bind fun _ => get_tree _ _

/-- A review looks at the file only. -/
theorem reviewStatus_tree (target : FileStatus) : Silent Host.tree (FileService.reviewStatus env fileId target) := by
  unfold FileService.reviewStatus
  apply (Silent.lift _).bind
  intro _
  apply (get_tree _ _).bind
  intro graph
  apply (physicalFile_tree _ _).bind
  intro stored
  apply (Silent.lift _).bind
  intro _
  apply others_tree.bind
  intro _
  exact (transaction_tree _ _).bind fun _ => get_tree _ _

/-- The check of the integrity reads it. -/
theorem verifyIntegrity_tree : Silent Host.tree (FileService.verifyIntegrity env fileId) := by
  unfold FileService.verifyIntegrity
  apply (get_tree _ _).bind
  intro graph
  apply (physicalFile_tree _ _).bind
  intro _
  apply others_tree.bind
  intro _
  exact (transaction_tree _ _).bind fun _ => Silent.pure _

/-- The deletion of the metadata leaves it. -/
theorem deleteMetadata_tree : Silent Host.tree (FileService.deleteMetadata env fileId) := by
  unfold FileService.deleteMetadata
  apply (get_tree _ _).bind
  intro graph
  apply (Silent.lift _).bind
  intro _
  apply (Silent.read _).bind
  intro tree
  apply (Silent.lift _).bind
  intro stored
  apply (Silent.lift _).bind
  intro _
  apply others_tree.bind
  intro _
  exact (transaction_tree _ _).bind fun _ => Silent.pure _

/-- No request for a file spoils the names. -/
theorem FileRequest.preserves (request : FileRequest) :
    Preserves (fun host => DistinctNames host.tree) (request.perform env fileId) := by
  cases request with
  | reviewStatus target => exact ((reviewStatus_tree env fileId target).preserves DistinctNames).map _
  | publish => exact (publish_preserves env fileId).map _
  | disable => exact ((transitionWithStorageCheck_tree env fileId .disabled).preserves DistinctNames).map _
  | archive => exact ((transitionWithStorageCheck_tree env fileId .archived).preserves DistinctNames).map _
  | restoreReady => exact (restoreReady_preserves env fileId).map _
  | verifyIntegrity => exact ((verifyIntegrity_tree env fileId).preserves DistinctNames).map _
  | transitionStatus target => exact ((transaction_tree _ _).preserves DistinctNames).map _
  | setVisibility visibility => exact ((transaction_tree _ _).preserves DistinctNames).map _
  | deleteMetadata => exact ((deleteMetadata_tree env fileId).preserves DistinctNames).map _
  | permanentlyDelete => exact (permanentlyDelete_preserves env fileId).map _

end Requests
end SoftwareHub.Lifecycle
