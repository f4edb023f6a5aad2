import SoftwareHub.Reconciliation.InspectedBytes
import SoftwareHub.Reconciliation.PlacementKept

/-! Every run keeps every file of a row in its place, and the report on the storage
names nothing but orphans. -/
namespace SoftwareHub.Reconciliation

open SoftwareHub.Python SoftwareHub.Tree SoftwareHub.Semantics SoftwareHub.Catalog SoftwareHub.Lifecycle Program
open SoftwareHub.Backup (Directory Leaf)
open SoftwareHub.Storage (Grown StorageArea)

section Recalculation

variable {env : ChecksumEnvironment} {tree : Directory} {row : ReleaseFile} {area : StorageArea} {parts : List PyStr}
  {content : Bytes}

/-- One stored file is inspected below its root. -/
theorem PlacedAt.inspected (h : PlacedAt env.paths tree row area parts content) (hTree : StorageTree env.paths tree)
    {faults : InspectFaults} {stored : StoredFile} {stores : List StoredFile}
    (hStores : inspectStoredFiles env.links env.paths faults row.relativeStoragePath tree = .ok stores)
    (hStored : stored ∈ stores) : tree.file? stored.path = some (.file content) := by
  obtain ⟨quarantine, hQuarantine, hStores⟩ := except_bind_eq_ok hStores
  obtain ⟨software, hSoftware, hStores⟩ := except_bind_eq_ok hStores
  obtain rfl := Except.ok.inj hStores
  have hFound : ∃ names data, Lifecycle.Found env.links env.paths tree (Storage.posixText row.relativeStoragePath) names data
      stored := by
    rcases List.mem_append.mp hStored with hMem | hMem
    · rw [Option.mem_toList.mp hMem] at hQuarantine
      exact (inspectArea_eq_some hQuarantine).2
    · rw [Option.mem_toList.mp hMem] at hSoftware
      exact (inspectArea_eq_some hSoftware).2
  obtain ⟨names, data, hFound⟩ := hFound
  have hAccepted := hFound.accepted
  rw [h.posixText_eq, h.accepted] at hAccepted
  obtain rfl : parts = names := Except.ok.inj hAccepted
  have hFile := hFound.file
  rw [hFound.path, hTree.unlinked.realPath (isRoot_area _ _)] at hFile
  obtain ⟨hArea, rfl⟩ := h.unique hFile
  rw [hFound.path, hTree.unlinked.realPath (isRoot_area _ _)]
  exact hFile

/-- What can be measured of a placed file is what its row records. -/
theorem PlacedAt.measured (h : PlacedAt env.paths tree row area parts content) (hTree : StorageTree env.paths tree)
    {pass : PassEnvironment} {fileId : Nat} {stored : StoredFile} {state : PhysicalState}
    (hMeasured : measure env pass fileId row.relativeStoragePath tree = .ok (some (stored, state))) :
    state.1 = row.sha256 ∧ state.2.1 = row.fileSizeBytes := by
  unfold measure at hMeasured
  dsimp only at hMeasured
  split at hMeasured
  · split_ifs at hMeasured
    cases hMeasured
  · rename_i found hFound
    obtain rfl := Except.ok.inj hMeasured
    obtain ⟨stores, hStores, hFound⟩ := except_bind_eq_ok hFound
    split at hFound
    · rename_i single
      obtain ⟨digest, hDigest, hFound⟩ := except_bind_eq_ok hFound
      have hFile := h.inspected hTree hStores (List.mem_singleton_self single)
      obtain ⟨data, hData, rfl⟩ := sha256File_eq_ok hDigest
      obtain rfl : content = data := Leaf.file.inj (Option.some.inj (hFile.symm.trans hData))
      split at hFound
      · cases hFound
      · cases hFound
        exact ⟨h.digest, h.size⟩
    · cases hFound

/-- A placed file is as its row says, so that nothing is to be changed. -/
theorem change?_of_placed (h : PlacedAt env.paths tree row area parts content) (hTree : StorageTree env.paths tree)
    {includePublished : Bool} {examined : Examined}
    (hExamined : examineItem env includePublished tree (metadataOf row) = .ok examined) : examined.change? = none := by
  obtain ⟨found, hMeasured, hExamined⟩ := except_bind_eq_ok hExamined
  cases found with
  | none =>
      cases hExamined
      rfl
  | some found =>
      obtain ⟨stored, state⟩ := found
      dsimp only at hExamined
      have hSame : state.1 = (metadataOf row).sha256 ∧ state.2.1 = (metadataOf row).sizeBytes := h.measured hTree hMeasured
      rw [if_pos hSame] at hExamined
      cases hExamined
      rfl

/-- Where every file is in its place, a recalculation has nothing to write, whatever fails. -/
theorem recalculateChecksums_placed {host : Host} (h : Placed env.paths host.tree host.database.files)
    (dryRun includePublished : Bool) : (recalculateChecksums env dryRun includePublished host).2 = host := by
  unfold recalculateChecksums
  rw [read_bind, read_bind]
  cases hExamined : (metadataSnapshot host.database).mapM (examineItem env includePublished host.tree) with
  | error e => rfl
  | ok examined =>
      have hNone : examined.filterMap Examined.change? = [] := by
        apply List.filterMap_eq_nil_iff.mpr
        intro result hResult
        obtain ⟨item, hItem, hResult⟩ := exists_of_mem_except_mapM hExamined hResult
        obtain ⟨row, hRow, rfl⟩ := mem_metadataSnapshot.mp hItem
        obtain ⟨area, parts, content, hPlaced⟩ := h.file row hRow
        exact change?_of_placed hPlaced h.storage hResult
      rw [bind_ok (show lift (.ok examined) host = (.ok examined, host) from rfl)]
      dsimp only
      rw [hNone, if_neg fun hChanges => hChanges.2 rfl]
      rfl

end Recalculation

section Cleanup

variable {env : ScanEnvironment} {device : List PyStr → Nat} {removal : Nat → RemovalEnvironment} {host : Host}
  {before : Directory}

/-- The removal of an entry adds staged files only. -/
theorem removeEntry_staged (hApart : Apart env.paths) (hTree : StorageTree env.paths before) (faults : RemovalEnvironment)
    (area : StorageArea) (relativePath : PyStr) :
    Preserves (OnlyStaged env.paths before) (removeEntry env device faults area relativePath) := by
  have hStage (stored : StoredFile) : Preserves (OnlyStaged env.paths before)
      (stageForPermanentDeletion ⟨env.links, device, faults.move⟩ env.paths faults.uuid stored) := by
    apply Preserves.bind
    · intro tree h
      exact h.trans (stagingMove_grown hApart (hTree.of_grown h) rfl rfl)
    · exact fun _ => Preserves.pure _
  unfold removeEntry
  refine Preserves.bind (Preserves.read _) ?_
  intro tree
  refine Preserves.bind (Preserves.lift _) ?_
  intro path
  split
  · exact Preserves.raise _
  · split
    · apply (hStage _).bind
      intro staged
      refine Preserves.bind ?_ fun _ => Preserves.pure _
      intro tree h
      exact h.trans (grown_of_unlinkStagedDeletion h.wellFormed env.links faults.unlink staged)
    · exact Preserves.pure _

theorem cleanupIssues_staged (hApart : Apart env.paths) (hTree : StorageTree env.paths before) (issues : List Issue)
    (index : Nat) : Preserves (OnlyStaged env.paths before) (cleanupIssues env device removal index issues) := by
  induction issues generalizing index with
  | nil => exact Preserves.pure _
  | cons issue issues ih =>
      unfold cleanupIssues
      apply Preserves.bind
      · unfold cleanupIssue
        split
        · exact Preserves.pure _
        · apply (removeEntry_staged hApart hTree _ _ _).tryExcept
          intro e
          exact Preserves.ite (Preserves.pure _) (Preserves.raise _)
      · intro deleted
        exact (ih (index + 1)).bind fun _ => Preserves.pure _

/-- The scan can read the status of what the rows name. -/
def ReadsStatus (env : ScanEnvironment) (database : Database) : Prop :=
  ∀ area names, joinSlash names ∈ knownPaths database → env.lstat area names = none

/-- The scan can read the status of each stored file that a row names. -/
def ReadsFiles (env : ScanEnvironment) (host : Host) : Prop :=
  ∀ area names content, host.tree.file? (env.paths.root area ++ names) = some (.file content) →
    joinSlash names ∈ knownPaths host.database → env.lstat area names = none

theorem ReadsStatus.files (h : ReadsStatus env host.database) : ReadsFiles env host :=
  fun area names _ _ hKnown => h area names hKnown

/-- A removal of orphans takes no file of a row, and what is only listed is not touched. -/
theorem Placed.cleanup (hApart : Apart env.paths) (h : Placed env.paths host.tree host.database.files) {dryRun : Bool}
    (hReads : dryRun = false → ReadsFiles env host) :
    Placed env.paths (cleanupOrphans env device removal dryRun host).2.tree
      (cleanupOrphans env device removal dryRun host).2.database.files := by
  cases dryRun with
  | true => exact h
  | false =>
      obtain ⟨contents, hRoots⟩ := exists_roots h.storage
      have hScanned : ReferencedScanned env contents host.database := by
        intro area names content hFile hKnown _
        rw [← hRoots.file?] at hFile
        exact hReads rfl area names content hFile hKnown
      have hKept := @onlyUnreferenced_of_scanned env device removal host contents ⟨hRoots, hApart.areas, hApart.temporary⟩
        hScanned
      have hStaged := @cleanupIssues_staged env device removal host.tree hApart h.storage
        (orphanIssues env (knownPaths host.database) host.tree) 0 host.tree (Grown.refl h.storage.wellFormed)
      rw [cleanupOrphans_state] at hKept ⊢
      refine ⟨h.storage.of_grown hStaged, h.ids, h.distinct, ?_⟩
      intro row hRow
      obtain ⟨area, parts, content, hPlaced⟩ := h.file row hRow
      have hKnown : joinSlash parts ∈ knownPaths host.database := by
        rw [← hPlaced.path]
        exact List.mem_map.mpr ⟨metadataOf row, mem_metadataSnapshot.mpr ⟨row, hRow, rfl⟩, rfl⟩
      have hHere : (contents area).file? parts = some (.file content) := by
        rw [← hRoots.file?, hPlaced.file]
      refine ⟨area, parts, content, { hPlaced with
        file := hKept.referenced area parts content hHere hKnown
        other := ?_ }⟩
      intro place hPlace
      apply hStaged.absent (hPlaced.other place hPlace)
      · exact fun hDirectory => hDirectory place parts hPlaced.length rfl
      · intro hTemporary
        rcases List.prefix_or_prefix_of_prefix hTemporary (List.prefix_append _ parts) with hPrefix | hPrefix
        · exact (hApart.temporary place).1 hPrefix
        · exact (hApart.temporary place).2 hPrefix

end Cleanup

/-- What a run relies on at a step: the calls agree on the roots, new names are
new, no call fails after a rename and a move can be taken back, a removal of
orphans can read the status of the files that rows name, and nobody else
touches the files. -/
def Permitted (unicode : Unicode) (paths : StoragePaths) : Operation → Host → Prop
  | .upload env _, host => env.paths = paths ∧ Fresh (uploadAlone unicode env) host.tree
  | .file env _ request, host => env.paths = paths ∧ MovesSafely (serviceAlone unicode env) host ∧
      ∀ target, request = .transitionStatus target → ∀ area, areaAllowed target area = true
  | .release _, _ => True
  | .software _, _ => True
  | .recalculate env _ _, _ => env.paths = paths
  | .cleanup env _ _ _, host => env.paths = paths ∧ ReadsStatus env host.database
  | .overwrite _ _, _ => False

/-- What the services are promised at a step: the calls agree on the roots, new
names are new, a move is all or nothing and can be taken back, and nobody else
touches the files. All other calls may fail. -/
def Assumed (unicode : Unicode) (paths : StoragePaths) : Operation → Host → Prop
  | .upload env _, host => env.paths = paths ∧ Fresh (uploadAlone unicode env) host.tree
  | .file env _ request, host => env.paths = paths ∧ Reversible (serviceAlone unicode env) host ∧
      ∀ target, request = .transitionStatus target → ∀ area, areaAllowed target area = true
  | .release _, _ => True
  | .software _, _ => True
  | .recalculate env _ _, _ => env.paths = paths
  | .cleanup env _ _ _, _ => env.paths = paths
  | .overwrite _ _, _ => False

/-- A removal of orphans that is no dry run can read the status of the stored
files that rows name. It deletes whatever the scan reports, and the scan reports
each file with a status that it cannot read. -/
def ScansRows : Operation → Host → Prop
  | .cleanup env _ _ dryRun, host => dryRun = false → ReadsFiles env host
  | _, _ => True

section Runs

variable {unicode : Unicode} {paths : StoragePaths} {host : Host}

/-- A permitted step meets both. -/
theorem Permitted.assumed (h : Placed paths host.tree host.database.files) {operation : Operation}
    (hPermitted : Permitted unicode paths operation host) :
    Assumed unicode paths operation host ∧ ScansRows operation host := by
  cases operation with
  | upload env request => exact ⟨hPermitted, trivial⟩
  | file env fileId request =>
      obtain ⟨hPaths, hSafe, hTransition⟩ := hPermitted
      exact ⟨⟨hPaths, hSafe.reversible h.storage.distinct, hTransition⟩, trivial⟩
  | release request => exact ⟨trivial, trivial⟩
  | software edit => exact ⟨trivial, trivial⟩
  | recalculate env dryRun includePublished => exact ⟨hPermitted, trivial⟩
  | cleanup env device removal dryRun =>
      obtain ⟨hPaths, hReads⟩ := hPermitted
      exact ⟨hPaths, fun _ => hReads.files⟩
  | overwrite path content => exact hPermitted.elim

/-- A step that meets both keeps every file in its place. -/
theorem Placed.perform (hApart : Apart paths) (h : Placed paths host.tree host.database.files) {operation : Operation}
    (hAssumed : Assumed unicode paths operation host) (hScans : ScansRows operation host) :
    Placed paths (operation.perform unicode host).2.tree (operation.perform unicode host).2.database.files := by
  have hState {α β : Type} (f : α → β) (x : HostProgram α) : ((f <$> x : HostProgram β) host).2 = (x host).2 :=
    congrArg Prod.snd (map_apply f x host)
  cases operation with
  | upload env request =>
      obtain ⟨rfl, hFresh⟩ := hAssumed
      rw [Operation.perform, hState]
      exact @Placed.upload (uploadAlone unicode env) host hApart rfl h hFresh request
  | file env fileId request =>
      obtain ⟨rfl, hSafe, hTransition⟩ := hAssumed
      rw [Operation.perform, hState]
      exact @Placed.request (serviceAlone unicode env) host hApart rfl h hSafe fileId request hTransition
  | release request =>
      rw [Operation.perform, hState]
      have hFiles := onDatabase_files_silent request.files_silent host
      dsimp only at hFiles
      rw [hFiles]
      exact h
  | software edit =>
      rw [Operation.perform, hState]
      have hFiles := onDatabase_files_silent edit.files_silent host
      dsimp only at hFiles
      rw [hFiles]
      exact h
  | recalculate env dryRun includePublished =>
      obtain rfl : env.paths = paths := hAssumed
      rw [Operation.perform, hState, @recalculateChecksums_placed (checksumAlone env) host h]
      exact h
  | cleanup env device removal dryRun =>
      obtain rfl : env.paths = paths := hAssumed
      rw [Operation.perform, hState]
      exact h.cleanup hApart hScans
  | overwrite path content => exact hAssumed.elim

/-- The same of the state in an answer of a run. -/
theorem Placed.answer (hApart : Apart paths) (h : Placed paths host.tree host.database.files) {operation : Operation}
    (hPermitted : Permitted unicode paths operation host) :
    Placed paths (answer (Operation.perform unicode) operation host).after.tree
      (answer (Operation.perform unicode) operation host).after.database.files :=
  h.perform hApart (hPermitted.assumed h).1 (hPermitted.assumed h).2

end Runs

/-- In every run that starts with each file of a row in its place, and whose
steps are permitted, each file of a row is in its place after every step, and
the report names nothing but orphans. -/
theorem placed_in_every_run (unicode : Unicode) (paths : StoragePaths) (hApart : Apart paths) (start : Host)
    (hStart : Placed paths start.tree start.database.files) (operations : List Operation)
    (hPermitted : ∀ step ∈ trace (Operation.perform unicode) start operations,
      Permitted unicode paths step.request step.before) :
    ∀ step ∈ trace (Operation.perform unicode) start operations,
      Placed paths step.after.tree step.after.database.files ∧
        ∀ scan, Quiet scan → scan.paths = paths →
          ∃ report, verifyStorage scan true step.after.database step.after.tree = .ok report ∧ OnlyOrphans report := by
  intro step hStep
  have hPlaced := (@trace_of_permitted Operation Host PyException (Option ReleaseFile) (Operation.perform unicode)
    (fun host => Placed paths host.tree host.database.files) (Permitted unicode paths) start operations hStart hPermitted
    (fun operation host hOperation hHost => hHost.answer hApart hOperation) step hStep).2
  refine ⟨hPlaced, ?_⟩
  rintro scan hScan rfl
  exact hPlaced.report hScan

/-- The roots are empty directories. -/
structure EmptyRoots (paths : StoragePaths) (tree : Directory) : Prop where
  wellFormed : tree.WellFormed IsFileName
  empty : ∀ root, IsRoot paths root → tree.node? root = some (.dir .nil)

section Empty

variable {paths : StoragePaths} {tree : Directory} {host : Host}

/-- Below an empty root there is nothing. -/
theorem EmptyRoots.kind? (h : EmptyRoots paths tree) {root : List PyStr} (hRoot : IsRoot paths root) (names : List PyStr) :
    tree.kind? (root ++ names) = if names = [] then some none else none := by
  rw [Forest.kind?_append (h.empty root hRoot)]
  cases names with
  | nil => rfl
  | cons name names => rfl

theorem EmptyRoots.storage (h : EmptyRoots paths tree) : StorageTree paths tree := by
  refine ⟨h.wellFormed, ?_, ?_⟩
  · intro root hRoot
    have hKind := h.kind? hRoot []
    rwa [List.append_nil] at hKind
  · intro root hRoot names leaf hLeaf
    rw [h.kind? hRoot] at hLeaf
    split_ifs at hLeaf
    cases hLeaf

/-- Without rows every file of a row is in its place. -/
theorem placed_of_empty (hRoots : EmptyRoots paths host.tree) (hRows : host.database.files = []) :
    Placed paths host.tree host.database.files := by
  rw [hRows]
  exact ⟨hRoots.storage, List.nodup_nil, List.nodup_nil, fun row hRow => by cases hRow⟩

end Empty

/-- In every run from empty roots and no rows, in which each removal of orphans
can read the status of what the rows name, each file of a row is in its place
after every step, and the report names nothing but orphans. -/
theorem runs_from_empty_report_orphans (unicode : Unicode) (paths : StoragePaths) (hApart : Apart paths) (start : Host)
    (hRoots : EmptyRoots paths start.tree) (hRows : start.database.files = []) (operations : List Operation)
    (hAssumed : ∀ step ∈ trace (Operation.perform unicode) start operations,
      Assumed unicode paths step.request step.before)
    (hScans : ∀ step ∈ trace (Operation.perform unicode) start operations, ScansRows step.request step.before) :
    ∀ step ∈ trace (Operation.perform unicode) start operations,
      Placed paths step.after.tree step.after.database.files ∧
        ∀ scan, Quiet scan → scan.paths = paths →
          ∃ report, verifyStorage scan true step.after.database step.after.tree = .ok report ∧ OnlyOrphans report := by
  intro step hStep
  have hPlaced := (@trace_of_permitted Operation Host PyException (Option ReleaseFile) (Operation.perform unicode)
    (fun host => Placed paths host.tree host.database.files)
    (fun operation host => Assumed unicode paths operation host ∧ ScansRows operation host) start operations
    (placed_of_empty hRoots hRows) (fun step hMem => ⟨hAssumed step hMem, hScans step hMem⟩)
    (fun operation host hBoth hHost => hHost.perform hApart hBoth.1 hBoth.2) step hStep).2
  refine ⟨hPlaced, ?_⟩
  rintro scan hScan rfl
  exact hPlaced.report hScan

/-- The three directories of the sample lie apart. -/
theorem apart_sample : Apart sampleEnvironment.paths where
  areas first second hNe := by
    cases first <;> cases second
    · exact (hNe rfl).elim
    · decide
    · decide
    · exact (hNe rfl).elim
  temporary area := by
    cases area <;> decide

/-- Only the roots are there. -/
theorem emptyHost_roots : EmptyRoots sampleEnvironment.paths emptyHost.tree := by
  refine ⟨by decide, ?_⟩
  rintro root (rfl | ⟨area, rfl⟩)
  · decide
  · cases area <;> decide

/-- The sample upload finds its names new. -/
theorem sampleUpload_permitted : Permitted .ascii sampleEnvironment.paths sampleUploadStep emptyHost := by
  refine ⟨rfl, ?_⟩
  rintro area names ⟨above, rest, rfl⟩
  exact (emptyHost_roots.kind? (isRoot_area _ area) _).trans (if_neg (by simp))

/-- The uploaded file can be published and taken back. -/
theorem samplePublish_permitted : Permitted .ascii sampleEnvironment.paths samplePublishStep
    (answer (Operation.perform .ascii) sampleUploadStep emptyHost).after := by
  have hMid := @Placed.answer .ascii sampleEnvironment.paths emptyHost apart_sample (placed_of_empty emptyHost_roots rfl)
    sampleUploadStep sampleUpload_permitted
  refine ⟨rfl, ⟨⟨rfl, rfl, rfl⟩, ?_⟩, fun target hTarget => by cases hTarget⟩
  exact @compensates_of_unfailing (serviceAlone .ascii { sampleEnvironment with commitFault := none })
    (answer (Operation.perform .ascii) sampleUploadStep emptyHost).after apart_sample hMid (fun _ => rfl) fun _ _ => rfl

theorem samplePublishEvent_mem :
    samplePublishEvent ∈ trace (Operation.perform .ascii) emptyHost [sampleUploadStep, samplePublishStep] := by
  have hTrace : trace (Operation.perform .ascii) emptyHost [sampleUploadStep, samplePublishStep] =
      [sampleUploadEvent] ++ [samplePublishEvent] := trace_pair _ _ _ _
  rw [hTrace]
  exact List.mem_append_right _ (List.mem_singleton_self _)

/-- The uploaded and published file is in the software area. -/
theorem placed_in_every_run_sample :
    Placed sampleEnvironment.paths samplePublishEvent.after.tree samplePublishEvent.after.database.files ∧
      ∃ report, verifyStorage sampleScan true samplePublishEvent.after.database samplePublishEvent.after.tree = .ok report ∧
        OnlyOrphans report := by
  obtain ⟨hPlaced, hReport⟩ := placed_in_every_run .ascii sampleEnvironment.paths apart_sample emptyHost
    (placed_of_empty emptyHost_roots rfl) _ (forall_trace_pair _ sampleUpload_permitted samplePublish_permitted)
    samplePublishEvent samplePublishEvent_mem
  exact ⟨hPlaced, hReport sampleScan ⟨fun _ => rfl, fun _ => rfl, fun _ _ => rfl⟩ rfl⟩

/-- The same upload and publication, from empty roots. -/
theorem runs_from_empty_report_orphans_sample :
    (samplePublishEvent.after.database.files.map fun row => row.status) = [.published] ∧
      Placed sampleEnvironment.paths samplePublishEvent.after.tree samplePublishEvent.after.database.files ∧
      ∃ report, verifyStorage sampleScan true samplePublishEvent.after.database samplePublishEvent.after.tree = .ok report ∧
        OnlyOrphans report := by
  have hStart := placed_of_empty emptyHost_roots rfl
  have hUpload := sampleUpload_permitted.assumed hStart
  have hPublish := samplePublish_permitted.assumed (hStart.answer apart_sample sampleUpload_permitted)
  obtain ⟨hPlaced, hReport⟩ := runs_from_empty_report_orphans .ascii sampleEnvironment.paths apart_sample emptyHost
    emptyHost_roots rfl _ (forall_trace_pair _ hUpload.1 hPublish.1) (forall_trace_pair _ hUpload.2 hPublish.2)
    samplePublishEvent samplePublishEvent_mem
  exact ⟨by decide +kernel, hPlaced, hReport sampleScan ⟨fun _ => rfl, fun _ => rfl, fun _ _ => rfl⟩ rfl⟩

/-- A removal of orphans whose scan can read no status. -/
def blindCleanupStep : Operation := .cleanup { sampleScan with lstat := fun _ _ => some .other } (fun _ => 0) sampleRemoval false

/-- The removal after the sample upload. -/
def blindCleanupEvent : Event := answer (Operation.perform .ascii) blindCleanupStep sampleUploadEvent.after

/-- It is sent to the same roots. -/
theorem blindCleanup_assumed (host : Host) : Assumed .ascii sampleEnvironment.paths blindCleanupStep host := rfl

theorem blind_cleanup_loses_placed_file :
    EmptyRoots sampleEnvironment.paths emptyHost.tree ∧ emptyHost.database.files = [] ∧
      (∀ step ∈ trace (Operation.perform .ascii) emptyHost [sampleUploadStep, blindCleanupStep],
        Assumed .ascii sampleEnvironment.paths step.request step.before) ∧
      blindCleanupEvent ∈ trace (Operation.perform .ascii) emptyHost [sampleUploadStep, blindCleanupStep] ∧
      ((verifyStorage sampleScan true blindCleanupEvent.after.database blindCleanupEvent.after.tree).map
        fun report => report.issues.map fun issue => issue.kind) = .ok [.metadataWithoutFile] := by
  have hUpload := sampleUpload_permitted.assumed (placed_of_empty emptyHost_roots rfl)
  refine ⟨emptyHost_roots, rfl, forall_trace_pair _ hUpload.1 (blindCleanup_assumed _), ?_, by decide +kernel⟩
  have hTrace : trace (Operation.perform .ascii) emptyHost [sampleUploadStep, blindCleanupStep] =
      [sampleUploadEvent] ++ [blindCleanupEvent] := trace_pair _ _ _ _
  rw [hTrace]
  exact List.mem_append_right _ (List.mem_singleton_self _)

end SoftwareHub.Reconciliation
