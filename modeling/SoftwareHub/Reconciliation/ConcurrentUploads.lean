import SoftwareHub.Reconciliation.CleanupProcess
import SoftwareHub.Reconciliation.PublicationGate
import SoftwareHub.Reconciliation.Swept
import SoftwareHub.Semantics.Interleaving

/-! The removal of orphans while files are uploaded: when every row keeps its file,
and an order of the steps in which one loses it. -/
namespace SoftwareHub.Reconciliation

open SoftwareHub.Python SoftwareHub.Tree SoftwareHub.Semantics SoftwareHub.Catalog SoftwareHub.Lifecycle
open SoftwareHub.Backup (Directory Leaf)
open SoftwareHub.Storage (StorageArea)

/-- A removal of orphans, or an upload. -/
inductive Process
  | removal (cleanup : Cleanup)
  | request (upload : Upload)

namespace Process

def step : Process → Host → Process × Host
  | .removal cleanup, host => (.removal (cleanup.step host).1, (cleanup.step host).2)
  | .request upload, host => (.request (upload.step host).1, (upload.step host).2)

/-- The directories that a process works in. -/
def paths : Process → StoragePaths
  | .removal cleanup => cleanup.env.paths
  | .request upload => upload.env.paths

/-- Nothing is done. What other requests write is written by processes of their own. -/
def Started : Process → Prop
  | .removal cleanup => cleanup.stage = .reading
  | .request upload => upload.stage = .requiring ∧ upload.env.meanwhile = id

end Process

/-- A path that a row has, or that of a file whose row is still to come. -/
def Referenced (processes : List Process) (host : Host) (names : List PyStr) : Prop :=
  (∃ row ∈ host.database.files, row.relativeStoragePath = joinSlash names) ∨
    ∃ upload, .request upload ∈ processes ∧ upload.Awaits names

/-- What holds between any two steps. -/
structure Joint (paths : StoragePaths) (system : List Process × Host) : Prop where
  roots : ∀ process ∈ system.1, process.paths = paths
  distinct : DistinctNames system.2.tree
  unlinked : Unlinked paths system.2.tree
  regular : RegularAreas paths system.2.tree
  rows : ∀ row ∈ system.2.database.files, HasPhysicalFile paths system.2.tree row
  uploads : ∀ upload, .request upload ∈ system.1 → upload.Sound system.2 ∧ upload.env.meanwhile = id
  uuids : ∀ (i j : Nat) (first second : Upload), system.1[i]? = some (.request first) →
    system.1[j]? = some (.request second) → i ≠ j →
    uuidHex first.env.fileUuid ≠ uuidHex second.env.fileUuid ∧
      uuidHex first.env.temporaryUuid ≠ uuidHex second.env.temporaryUuid
  cleanups : ∀ cleanup, .removal cleanup ∈ system.1 → cleanup.Sound (Referenced system.1 system.2) system.2.tree

section Steps

variable {paths : StoragePaths} {processes : List Process} {host : Host}

/-- A row keeps its file as long as none of that path goes. -/
theorem hasPhysicalFile_of_changes {tree after : Directory} {gone added : List PyStr → Prop} {row : ReleaseFile}
    (h : HasPhysicalFile paths tree row) (hChanges : Changes gone added tree after)
    (hGone : ∀ area names, (∀ name ∈ names, IsFileName name) → row.relativeStoragePath = joinSlash names →
      ¬gone (paths.root area ++ names)) : HasPhysicalFile paths after row := by
  obtain ⟨area, names, content, hNames, hPath, hFile, hSize, hDigest⟩ := h
  exact ⟨area, names, content, hNames, hPath, (hChanges.kept _ _ hFile).resolve_right (hGone area names hNames hPath),
    hSize, hDigest⟩

/-- Regular files do not spoil the areas. -/
theorem RegularAreas.of_changes {tree after : Directory} {gone added : List PyStr → Prop} (h : RegularAreas paths tree)
    (hChanges : Changes gone added tree after)
    (hAdded : ∀ area names, added (paths.root area ++ names) → names ≠ [] ∧ ∀ name ∈ names, IsFileName name) :
    RegularAreas paths after := by
  intro area names leaf hFile
  rcases hChanges.appeared _ _ hFile with hOld | ⟨hNew, hContent⟩
  · exact h area names leaf hOld
  · exact ⟨(hAdded area names hNew).1, (hAdded area names hNew).2, hContent⟩

/-- Staged files are in no area, and are no temporary files of uploads. -/
theorem not_stagedPath (hApart : Apart paths) (area : StorageArea) (names : List PyStr) :
    ¬StagedPath paths (paths.root area ++ names) := by
  rintro ⟨uuid, hSame⟩
  exact hApart.temporary_ne _ _ _ hSame.symm

/-- A temporary file of an upload is no staged one. -/
theorem temporaryPath_not_staged (upload : Upload) : ¬StagedPath upload.env.paths upload.env.temporaryPath := by
  rintro ⟨uuid, hSame⟩
  have hLength := congrArg List.length (List.append_cancel_left hSame)
  cases hLength

theorem Joint.cleanup_step (h : Joint paths (processes, host)) (hApart : Apart paths) {i : Nat} {cleanup : Cleanup}
    (hProcess : processes[i]? = some (.removal cleanup))
    (hRecognizes : cleanup.Recognizes (Referenced processes host) host.tree) :
    Joint paths (processes.set i (.removal (cleanup.step host).1), (cleanup.step host).2) := by
  have hMem : .removal cleanup ∈ processes := List.mem_of_getElem? hProcess
  have hPaths : cleanup.env.paths = paths := h.roots _ hMem
  have hEffect := Cleanup.step_effect h.distinct (hPaths ▸ h.unlinked) (hPaths ▸ h.regular) hRecognizes (h.cleanups _ hMem)
  have hAfterPaths : (cleanup.step host).1.env.paths = paths :=
    (congrArg ScanEnvironment.paths (cleanup.step_env host)).trans hPaths
  generalize hAfter : cleanup.step host = after at hEffect hAfterPaths ⊢
  obtain ⟨next, afterHost⟩ := after
  obtain ⟨hChanges, hRows, hSound⟩ := hEffect
  dsimp only at hChanges hRows hSound hAfterPaths ⊢
  have hGone : ∀ area names, cleanup.Removes (Referenced processes host) (paths.root area ++ names) →
      ¬Referenced processes host names := by
    rintro area names (⟨other, others, -, hFree, hSame⟩ | hStaged)
    · rw [hPaths] at hSame
      obtain ⟨-, rfl⟩ := hApart.place_inj hSame
      exact hFree
    · rw [hPaths] at hStaged
      exact (not_stagedPath hApart area names hStaged).elim
  -- The uploads are the same, and so are the references.
  have hUpload : ∀ upload, .request upload ∈ processes.set i (.removal next) → .request upload ∈ processes := by
    intro upload hUpload
    rcases List.mem_or_eq_of_mem_set hUpload with hOld | hNew
    · exact hOld
    · cases hNew
  have hReferenced : ∀ names, Referenced (processes.set i (.removal next)) afterHost names → Referenced processes host names := by
    rintro names (⟨row, hRow, hPath⟩ | ⟨upload, hOther, hAwaits⟩)
    · exact Or.inl ⟨row, hRows ▸ hRow, hPath⟩
    · exact Or.inr ⟨upload, hUpload upload hOther, hAwaits⟩
  refine ⟨?_, hChanges.distinct, h.unlinked.of_changes hChanges, ?_, ?_, ?_, ?_, ?_⟩
  · intro process hOther
    rcases List.mem_or_eq_of_mem_set hOther with hOld | rfl
    · exact h.roots process hOld
    · exact hAfterPaths
  · apply h.regular.of_changes hChanges
    intro area names hStaged
    rw [hPaths] at hStaged
    exact (not_stagedPath hApart area names hStaged).elim
  · intro row hRow
    rw [hRows] at hRow
    apply hasPhysicalFile_of_changes (h.rows row hRow) hChanges
    intro area names _ hPath hRemoved
    exact hGone area names hRemoved (Or.inl ⟨row, hRow, hPath⟩)
  · intro upload hOther
    have hOld := hUpload upload hOther
    have hUploadPaths : upload.env.paths = paths := h.roots _ hOld
    refine ⟨?_, (h.uploads upload hOld).2⟩
    apply (h.uploads upload hOld).1.of_others hChanges
    · intro names _ hAwaits hRemoved
      rw [hUploadPaths] at hRemoved
      exact hGone .quarantine names hRemoved (Or.inr ⟨upload, hOld, hAwaits⟩)
    · rw [hPaths, ← hUploadPaths]
      exact temporaryPath_not_staged upload
    · intro area names _ hStaged
      rw [hPaths, hUploadPaths] at hStaged
      exact not_stagedPath hApart area names hStaged
    · intro hRowless row hRow
      rw [hRows] at hRow
      exact hRowless row hRow
  · intro first second one other hOne hOther hNe
    have hSame : ∀ (j : Nat) (upload : Upload), (processes.set i (.removal next))[j]? = some (.request upload) →
        processes[j]? = some (.request upload) := by
      intro j upload hThere
      by_cases hIndex : i = j
      · subst hIndex
        rw [List.getElem?_set_self (List.getElem?_eq_some_iff.mp hProcess).1] at hThere
        cases hThere
      · rwa [List.getElem?_set_ne hIndex] at hThere
    exact h.uuids first second one other (hSame _ _ hOne) (hSame _ _ hOther) hNe
  · intro other hOther
    rcases List.mem_or_eq_of_mem_set hOther with hOld | hNew
    · have hOtherPaths : other.env.paths = paths := h.roots _ hOld
      apply (h.cleanups other hOld).of_others hChanges
      · intro area names _ hRemoved hNow
        rw [hOtherPaths] at hRemoved
        exact hGone area names hRemoved (hReferenced names hNow)
      · exact fun names _ => hReferenced names
    · obtain rfl : other = next := by
        cases hNew
        rfl
      have hNothing : Changes (fun _ => False) (fun _ => False) afterHost.tree afterHost.tree :=
        Changes.refl hChanges.distinct
      apply hSound.of_others hNothing
      · exact fun _ _ _ hNone => hNone.elim
      · exact fun names _ => hReferenced names

/-- An upload and another have no file in common. -/
theorem Joint.not_owned (h : Joint paths (processes, host)) {i j : Nat} {first second : Upload}
    (hFirst : processes[i]? = some (.request first)) (hSecond : processes[j]? = some (.request second)) (hNe : i ≠ j)
    {names : List PyStr} (hOwned : first.env.Owned names) : ¬second.env.Owned names := by
  intro hOther
  exact (h.uuids i j first second hFirst hSecond hNe).1 (hOwned.uuid_eq hOther)

section UploadStep

variable {i : Nat} {upload next : Upload} {afterHost : Host}

/-- Who takes no part in a step is where it was. -/
theorem mem_set_cases {α : Type} {threads : List α} {i : Nat} {old next thread : α} (hThread : threads[i]? = some old)
    (h : thread ∈ threads.set i next) : thread = next ∨ ∃ j, i ≠ j ∧ threads[j]? = some thread := by
  obtain ⟨j, hThere⟩ := List.mem_iff_getElem?.mp h
  by_cases hIndex : i = j
  · subst hIndex
    rw [List.getElem?_set_self (List.getElem?_eq_some_iff.mp hThread).1] at hThere
    exact Or.inl (Option.some.inj hThere).symm
  · rw [List.getElem?_set_ne hIndex] at hThere
    exact Or.inr ⟨j, hIndex, hThere⟩

/-- In the areas an upload takes files of its own only, and then no row has them. -/
theorem owned_of_removes (hApart : Apart upload.env.paths) (hSound : upload.Sound host) {area : StorageArea}
    {names : List PyStr} (h : upload.Removes (upload.env.paths.root area ++ names)) : upload.env.Owned names ∧
      (∃ candidates, upload.stage = .cleaning candidates) ∧ upload.Rowless host := by
  rcases h with hTemporary | ⟨⟨candidates, hStage⟩, others, hOwned, -, hSame⟩
  · exact (hApart.temporary_ne _ _ _ hTemporary.symm).elim
  · obtain ⟨-, rfl⟩ := hApart.place_inj hSame
    unfold Upload.Sound at hSound
    rw [hStage] at hSound
    exact ⟨hOwned, ⟨candidates, hStage⟩, hSound.1⟩

/-- A file that an upload adds to an area is its own. -/
theorem owned_of_creates (hApart : Apart upload.env.paths) {area : StorageArea} {names : List PyStr}
    (h : upload.Creates (upload.env.paths.root area ++ names)) : upload.env.Owned names ∧ ∀ name ∈ names, IsFileName name := by
  rcases h with hTemporary | ⟨others, hOwned, hNames, hSame⟩
  · exact (hApart.temporary_ne _ _ _ hTemporary.symm).elim
  · obtain ⟨-, rfl⟩ := hApart.place_inj hSame
    exact ⟨hOwned, hNames⟩

variable (h : Joint upload.env.paths (processes, host)) (hApart : Apart upload.env.paths)
  (hProcess : processes[i]? = some (.request upload)) (hEffect : upload.Effect host (next, afterHost))
include h hProcess hEffect

omit h in
/-- No path is referenced that was not before. -/
theorem Joint.referenced_of_upload {names : List PyStr} (hNames : ∀ name ∈ names, IsFileName name)
    (hNow : Referenced (processes.set i (.request next)) afterHost names) : Referenced processes host names := by
  have hMem : .request upload ∈ processes := List.mem_of_getElem? hProcess
  rcases hNow with ⟨row, hRow, hPath⟩ | ⟨other, hOther, hWaits⟩
  · rcases hEffect.rows with hSame | ⟨added, others, hAdded, hValid, hAddedPath, -, hWaits, -⟩
    · exact Or.inl ⟨row, hSame ▸ hRow, hPath⟩
    · dsimp only at hAdded
      rw [hAdded] at hRow
      rcases List.mem_append.mp hRow with hOld | hNew
      · exact Or.inl ⟨row, hOld, hPath⟩
      · obtain rfl := List.mem_singleton.mp hNew
        obtain rfl : others = names := joinSlash_injective hValid hNames (hAddedPath.symm.trans hPath)
        exact Or.inr ⟨upload, hMem, hWaits⟩
  · rcases mem_set_cases hProcess hOther with hNext | ⟨j, -, hThere⟩
    · cases hNext
      exact Or.inr ⟨upload, hMem, hEffect.awaits names hNames hWaits⟩
    · exact Or.inr ⟨other, List.mem_of_getElem? hThere, hWaits⟩

include hApart

/-- After the step of an upload every row has its file. -/
theorem Joint.rows_of_upload {row : ReleaseFile} (hRow : row ∈ afterHost.database.files) :
    HasPhysicalFile upload.env.paths afterHost.tree row := by
  have hSound := (h.uploads upload (List.mem_of_getElem? hProcess)).1
  have hOld : ∀ row ∈ host.database.files, HasPhysicalFile upload.env.paths afterHost.tree row := by
    intro row hRow
    apply hasPhysicalFile_of_changes (h.rows row hRow) hEffect.changes
    intro area names hNames hPath hRemoved
    obtain ⟨hOwned, -, hRowless⟩ := owned_of_removes hApart hSound hRemoved
    exact hRowless row hRow names hNames hPath hOwned
  rcases hEffect.rows with hSame | ⟨added, others, hAdded, -, -, -, -, hFile⟩
  · exact hOld row (hSame ▸ hRow)
  · dsimp only at hAdded
    rw [hAdded] at hRow
    rcases List.mem_append.mp hRow with hBefore | hNew
    · exact hOld row hBefore
    · rw [List.mem_singleton.mp hNew]
      exact hFile

theorem Joint.sound_of_upload {j : Nat} {other : Upload} (hThere : processes[j]? = some (.request other)) (hNe : i ≠ j) :
    other.Sound afterHost := by
  have hSound := (h.uploads upload (List.mem_of_getElem? hProcess)).1
  have hOtherMem := List.mem_of_getElem? hThere
  have hOtherPaths : other.env.paths = upload.env.paths := h.roots _ hOtherMem
  have hOtherSound := (h.uploads other hOtherMem).1
  apply hOtherSound.of_others hEffect.changes
  · intro names hNames hWaits hRemoved
    rw [hOtherPaths] at hRemoved
    exact h.not_owned hProcess hThere hNe (owned_of_removes hApart hSound hRemoved).1
      (hOtherSound.owned_of_awaits hNames hWaits)
  · rintro (hSame | ⟨names, -, -, hSame⟩)
    · unfold UploadEnvironment.temporaryPath temporaryName at hSame
      rw [hOtherPaths] at hSame
      have hName := (List.cons.inj (List.append_cancel_left hSame)).1
      exact (h.uuids i j upload other hProcess hThere hNe).2 (List.append_cancel_right hName).symm
    · unfold UploadEnvironment.temporaryPath at hSame
      rw [hOtherPaths] at hSame
      exact hApart.temporary_ne _ _ _ hSame
  · intro area names hOwned hCreated
    rw [hOtherPaths] at hCreated
    exact h.not_owned hProcess hThere hNe (owned_of_creates hApart hCreated).1 hOwned
  · intro hRowless row hRow names hNames hPath
    rcases hEffect.rows with hSame | ⟨added, others, hAdded, hValid, hAddedPath, hOwned, -, -⟩
    · exact hRowless row (hSame ▸ hRow) names hNames hPath
    · dsimp only at hAdded
      rw [hAdded] at hRow
      rcases List.mem_append.mp hRow with hBefore | hNew
      · exact hRowless row hBefore names hNames hPath
      · obtain rfl := List.mem_singleton.mp hNew
        obtain rfl : others = names := joinSlash_injective hValid hNames (hAddedPath.symm.trans hPath)
        exact h.not_owned hProcess hThere hNe hOwned

/-- An upload that takes a file waits for nothing, and nobody else refers to its files. -/
theorem Joint.not_referenced_of_removes {area : StorageArea} {names : List PyStr} (hNames : ∀ name ∈ names, IsFileName name)
    (hRemoved : upload.Removes (upload.env.paths.root area ++ names)) :
    ¬Referenced (processes.set i (.request next)) afterHost names := by
  intro hNow
  have hSound := (h.uploads upload (List.mem_of_getElem? hProcess)).1
  obtain ⟨hOwned, ⟨candidates, hStage⟩, hRowless⟩ := owned_of_removes hApart hSound hRemoved
  rcases Joint.referenced_of_upload hProcess hEffect hNames hNow with ⟨row, hRow, hPath⟩ | ⟨other, hWaiting, hWaits⟩
  · exact hRowless row hRow names hNames hPath hOwned
  · obtain ⟨k, hIndex⟩ := List.mem_iff_getElem?.mp hWaiting
    by_cases hSame : i = k
    · subst hSame
      obtain rfl : upload = other := by
        rw [hProcess] at hIndex
        cases hIndex
        rfl
      unfold Upload.Awaits at hWaits
      rw [hStage] at hWaits
      exact hWaits
    · exact h.not_owned hProcess hIndex hSame hOwned ((h.uploads other hWaiting).1.owned_of_awaits hNames hWaits)

end UploadStep

theorem Joint.upload_step (h : Joint paths (processes, host)) (hApart : Apart paths) {i : Nat} {upload : Upload}
    (hProcess : processes[i]? = some (.request upload)) :
    Joint paths (processes.set i (.request (upload.step host).1), (upload.step host).2) := by
  obtain rfl : upload.env.paths = paths := h.roots _ (List.mem_of_getElem? hProcess)
  obtain ⟨hUpload, hAlone⟩ := h.uploads _ (List.mem_of_getElem? hProcess)
  have hEffect := Upload.step_effect h.distinct h.unlinked hApart hAlone hUpload
  have hEnv := upload.step_env host
  generalize hAfter : upload.step host = after at hEffect hEnv ⊢
  obtain ⟨next, afterHost⟩ := after
  refine ⟨?_, hEffect.changes.distinct, h.unlinked.of_changes hEffect.changes, ?_, ?_, ?_, ?_, ?_⟩
  · intro process hOther
    rcases mem_set_cases hProcess hOther with rfl | ⟨j, -, hThere⟩
    · exact congrArg UploadEnvironment.paths hEnv
    · exact h.roots process (List.mem_of_getElem? hThere)
  · apply h.regular.of_changes hEffect.changes
    intro area names hCreated
    obtain ⟨⟨above, rest, rfl⟩, hNames⟩ := owned_of_creates hApart hCreated
    exact ⟨by simp, hNames⟩
  · exact fun row hRow => h.rows_of_upload hApart hProcess hEffect hRow
  · intro other hOther
    rcases mem_set_cases hProcess hOther with hNext | ⟨j, hNe, hThere⟩
    · cases hNext
      exact ⟨hEffect.sound, (congrArg UploadEnvironment.meanwhile hEnv).trans hAlone⟩
    · exact ⟨h.sound_of_upload hApart hProcess hEffect hThere hNe, (h.uploads other (List.mem_of_getElem? hThere)).2⟩
  · intro first second one other hOne hOther hNe
    have hBefore : ∀ (j : Nat) (current : Upload), (processes.set i (.request next))[j]? = some (.request current) →
        ∃ old, processes[j]? = some (.request old) ∧ old.env = current.env := by
      intro j current hThere
      by_cases hIndex : i = j
      · subst hIndex
        rw [List.getElem?_set_self (List.getElem?_eq_some_iff.mp hProcess).1] at hThere
        cases hThere
        exact ⟨upload, hProcess, hEnv.symm⟩
      · rw [List.getElem?_set_ne hIndex] at hThere
        exact ⟨current, hThere, rfl⟩
    obtain ⟨oldOne, hOldOne, hOneEnv⟩ := hBefore first one hOne
    obtain ⟨oldOther, hOldOther, hOtherEnv⟩ := hBefore second other hOther
    rw [← hOneEnv, ← hOtherEnv]
    exact h.uuids first second oldOne oldOther hOldOne hOldOther hNe
  · intro cleanup hOther
    rcases mem_set_cases hProcess hOther with hNext | ⟨j, hNe, hThere⟩
    · cases hNext
    · have hCleanup := List.mem_of_getElem? hThere
      have hCleanupPaths : cleanup.env.paths = upload.env.paths := h.roots _ hCleanup
      apply (h.cleanups cleanup hCleanup).of_others hEffect.changes
      · intro area names hNames hRemoved
        rw [hCleanupPaths] at hRemoved
        exact h.not_referenced_of_removes hApart hProcess hEffect hNames hRemoved
      · exact fun names hNames hNow => Joint.referenced_of_upload hProcess hEffect hNames hNow

end Steps

/-- The moved file of an upload whose row is not committed. -/
def InFlight (upload : Upload) (names : List PyStr) : Prop :=
  match upload.stage with
  | .scanning streamed _ => streamed.pathPlan.quarantineRelativePath = joinSlash names
  | .persisting streamed _ _ => streamed.pathPlan.quarantineRelativePath = joinSlash names
  | _ => False

/-- A walk that is about to look at the file of a row, or of an upload in
flight, knows the path from its snapshot, and the status of the file can be read. -/
def Recognized (system : List Process × Host) : Prop :=
  ∀ cleanup walk area names entries, .removal cleanup ∈ system.1 → cleanup.stage = .walking walk →
    walk.entries = (area, names) :: entries →
    ((∃ row ∈ system.2.database.files, row.relativeStoragePath = joinSlash names) ∨
      ∃ upload, .request upload ∈ system.1 ∧ InFlight upload names) →
    joinSlash names ∈ walk.known ∧ cleanup.env.lstat area names = none

/-- Before the first step: the rows have their files, and the names that the
uploads will generate are new. -/
structure Start (paths : StoragePaths) (processes : List Process) (host : Host) : Prop where
  started : ∀ process ∈ processes, process.Started
  roots : ∀ process ∈ processes, process.paths = paths
  apart : Apart paths
  distinct : DistinctNames host.tree
  unlinked : Unlinked paths host.tree
  regular : RegularAreas paths host.tree
  rows : ∀ row ∈ host.database.files, HasPhysicalFile paths host.tree row
  uuids : ∀ (i j : Nat) (first second : Upload), processes[i]? = some (.request first) →
    processes[j]? = some (.request second) → i ≠ j →
    uuidHex first.env.fileUuid ≠ uuidHex second.env.fileUuid ∧
      uuidHex first.env.temporaryUuid ≠ uuidHex second.env.temporaryUuid
  fresh : ∀ upload, .request upload ∈ processes → ∀ area names leaf, upload.env.Owned names →
    host.tree.file? (paths.root area ++ names) ≠ some leaf

section Runs

variable {paths : StoragePaths} {processes : List Process} {host : Host}

theorem Start.joint (h : Start paths processes host) : Joint paths (processes, host) := by
  refine ⟨h.roots, h.distinct, h.unlinked, h.regular, h.rows, ?_, h.uuids, ?_⟩
  · intro upload hMem
    obtain ⟨hStage, hAlone⟩ := h.started _ hMem
    have hPaths : upload.env.paths = paths := h.roots _ hMem
    refine ⟨?_, hAlone⟩
    unfold Upload.Sound
    rw [hStage]
    constructor
    · intro row hRow names hNames hPath hOwned
      obtain ⟨area, others, content, hOthers, hSame, hFile, -, -⟩ := h.rows row hRow
      obtain rfl : names = others := joinSlash_injective hNames hOthers (hPath.symm.trans hSame)
      exact h.fresh upload hMem area names _ hOwned hFile
    · intro area names leaf hOwned
      rw [hPaths]
      exact h.fresh upload hMem area names leaf hOwned
  · intro cleanup hMem
    have hStage : cleanup.stage = .reading := h.started _ hMem
    unfold Cleanup.Sound
    rw [hStage]
    exact trivial

/-- What the walk must know of an upload before its move is nothing: there is no file. -/
theorem Joint.recognizes (h : Joint paths (processes, host)) (hRecognized : Recognized (processes, host))
    {cleanup : Cleanup} (hMem : .removal cleanup ∈ processes) :
    cleanup.Recognizes (Referenced processes host) host.tree := by
  intro walk area names entries hStage hEntries hReferenced hThere
  apply hRecognized cleanup walk area names entries hMem hStage hEntries
  rcases hReferenced with hRow | ⟨upload, hUpload, hAwaits⟩
  · exact Or.inl hRow
  · refine Or.inr ⟨upload, hUpload, ?_⟩
    have hNames := ((h.cleanups cleanup hMem).seen hStage hEntries).2.1
    obtain ⟨leaf, hLeaf⟩ := hThere
    have hSound := (h.uploads upload hUpload).1
    have hOwned := hSound.owned_of_awaits hNames hAwaits
    have hPaths : cleanup.env.paths = upload.env.paths := (h.roots _ hMem).trans (h.roots _ hUpload).symm
    rw [hPaths] at hLeaf
    unfold Upload.Sound at hSound
    unfold Upload.Awaits at hAwaits
    unfold InFlight
    cases hUploadStage : upload.stage with
    | requiring =>
        rw [hUploadStage] at hSound
        exact (hSound.2 area names leaf hOwned hLeaf).elim
    | streaming =>
        rw [hUploadStage] at hSound
        exact (hSound.2 area names leaf hOwned hLeaf).elim
    | moving streamed =>
        rw [hUploadStage] at hSound
        exact (hSound.2.1 area names leaf hOwned hLeaf).elim
    | scanning streamed destination =>
        rw [hUploadStage] at hAwaits
        exact hAwaits
    | persisting streamed destination scanResult =>
        rw [hUploadStage] at hAwaits
        exact hAwaits
    | cleaning candidates =>
        rw [hUploadStage] at hAwaits
        exact hAwaits.elim
    | finished =>
        rw [hUploadStage] at hAwaits
        exact hAwaits.elim

theorem Joint.step (h : Joint paths (processes, host)) (hApart : Apart paths) (hRecognized : Recognized (processes, host))
    {i : Nat} {process : Process} (hProcess : processes[i]? = some process) :
    Joint paths (processes.set i (process.step host).1, (process.step host).2) := by
  cases process with
  | removal cleanup => exact h.cleanup_step hApart hProcess (h.recognizes hRecognized (List.mem_of_getElem? hProcess))
  | request upload => exact h.upload_step hApart hProcess

/-- Removals of orphans among uploads, in any order of their steps and
whatever fails: as long as each walk knows the files of rows and of uploads in
flight when it reaches them, every row keeps its file. -/
theorem rows_keep_files (hStart : Start paths processes host) (schedule : List Nat)
    (hRecognized : ∀ first rest, schedule = first ++ rest → Recognized (interleave Process.step first (processes, host))) :
    ∀ row ∈ (interleave Process.step schedule (processes, host)).2.database.files,
      HasPhysicalFile paths (interleave Process.step schedule (processes, host)).2.tree row := by
  have hJoint := @interleave_of_invariant_along _ _ Process.step (Joint paths) Recognized
    (fun _ _ _ _ hBefore hNow hProcess => hBefore.step hStart.apart hNow hProcess) (processes, host) hStart.joint schedule
    hRecognized
  exact hJoint.rows

end Runs

def sampleProcesses : List Process :=
  [.removal ⟨sampleScan, fun _ => 0, sampleRemoval, .reading⟩, .request ⟨sampleUploadEnvironment, sampleUpload, .requiring⟩]

theorem emptyHost_file? (path : List PyStr) : emptyHost.tree.file? path = none := by
  have hEmpty : emptyHost.tree.AllLeaves fun _ => False := by decide
  cases hFile : emptyHost.tree.file? path with
  | none => rfl
  | some leaf => exact (hEmpty.file? hFile).elim

/-- Removals and uploads may start on empty storage once the uploads generate
different names. -/
theorem start_emptyHost {processes : List Process}
    (hProcess : ∀ process ∈ processes, process.Started ∧ process.paths = sampleEnvironment.paths)
    (hUuids : ∀ (i j : Nat) (first second : Upload), processes[i]? = some (.request first) →
      processes[j]? = some (.request second) → i ≠ j →
      uuidHex first.env.fileUuid ≠ uuidHex second.env.fileUuid ∧
        uuidHex first.env.temporaryUuid ≠ uuidHex second.env.temporaryUuid) :
    Start sampleEnvironment.paths processes emptyHost := by
  refine ⟨fun process hMem => (hProcess process hMem).1, fun process hMem => (hProcess process hMem).2, ?_,
    by unfold DistinctNames; decide, ?_, ?_, ?_, hUuids, ?_⟩
  · constructor
    · intro first second hNe
      cases first <;> cases second
      · exact (hNe rfl).elim
      · decide
      · decide
      · exact (hNe rfl).elim
    · intro area
      cases area <;> decide
  · intro root _ path _
    rw [Storage.isSymlink_eq_file?, emptyHost_file?]
    rfl
  · intro area names leaf hFile
    rw [emptyHost_file?] at hFile
    cases hFile
  · exact fun row hRow => absurd hRow List.not_mem_nil
  · intro upload _ area names leaf _ hFile
    rw [emptyHost_file?] at hFile
    cases hFile

theorem sampleProcesses_started : ∀ process ∈ sampleProcesses, process.Started ∧ process.paths = sampleEnvironment.paths := by
  intro process hMem
  rcases List.mem_cons.mp hMem with rfl | hMem
  · exact ⟨rfl, rfl⟩
  · rw [List.mem_singleton.mp hMem]
    exact ⟨⟨rfl, rfl⟩, rfl⟩

theorem sampleProcesses_start : Start sampleEnvironment.paths sampleProcesses emptyHost := by
  apply start_emptyHost sampleProcesses_started
  intro i j first second hFirst hSecond hNe
  -- Only the second process is an upload.
  have hIndex : ∀ (k : Nat) (upload : Upload), sampleProcesses[k]? = some (.request upload) → k = 1 := by
    intro k upload hThere
    rcases k with _ | _ | k
    · cases hThere
    · rfl
    · cases hThere
  exact (hNe ((hIndex i first hFirst).trans (hIndex j second hSecond).symm)).elim

/-- Another upload, with names of its own. -/
def secondUpload : Upload :=
  ⟨{ sampleUploadEnvironment with fileUuid := 7, temporaryUuid := 8, publicUuid := 9 }, sampleUpload, .requiring⟩

def meetingProcesses : List Process := sampleProcesses ++ [.request secondUpload]

theorem meetingProcesses_start : Start sampleEnvironment.paths meetingProcesses emptyHost := by
  apply start_emptyHost
  · intro process hMem
    rcases List.mem_append.mp hMem with hMem | hMem
    · exact sampleProcesses_started process hMem
    · rw [List.mem_singleton.mp hMem]
      exact ⟨⟨rfl, rfl⟩, rfl⟩
  · intro i j first second hFirst hSecond hNe
    have hIndex : ∀ (k : Nat) (upload : Upload), meetingProcesses[k]? = some (.request upload) →
        (k = 1 ∧ upload.env = sampleUploadEnvironment) ∨ (k = 2 ∧ upload = secondUpload) := by
      intro k upload hThere
      rcases k with _ | _ | _ | k
      · cases hThere
      · cases hThere
        exact Or.inl ⟨rfl, rfl⟩
      · cases hThere
        exact Or.inr ⟨rfl, rfl⟩
      · cases hThere
    rcases hIndex i first hFirst with ⟨rfl, hFirstEnv⟩ | ⟨rfl, rfl⟩
    · rcases hIndex j second hSecond with ⟨rfl, -⟩ | ⟨rfl, rfl⟩
      · exact (hNe rfl).elim
      · rw [hFirstEnv]
        decide
    · rcases hIndex j second hSecond with ⟨rfl, hSecondEnv⟩ | ⟨rfl, -⟩
      · rw [hSecondEnv]
        decide
      · exact (hNe rfl).elim

/-- The second upload streams while the first one runs, the removal reads its
snapshot after the first commit, and the second upload moves its file when the
walk has left that directory. -/
def meeting : List Nat := [2, 1, 1, 2, 1, 1, 1, 0, 0, 0, 0, 2, 0, 2, 0, 0, 2, 0]

/-- The snapshot, the upload up to its move, the removal, and the rest of the upload. -/
def racing : List Nat := [0, 1, 1, 1] ++ List.replicate 13 0 ++ [1, 1]

/-- Whether a process has come to its end. -/
def Process.isFinished : Process → Bool
  | .removal cleanup => match cleanup.stage with
      | .finished => true
      | _ => false
  | .request upload => match upload.stage with
      | .finished => true
      | _ => false

/-- Whether a walk knows the entry that it is about to look at. -/
def Process.knowsNext : Process → Bool
  | .removal cleanup => match cleanup.stage with
      | .walking walk => match walk.entries with
          | (area, names) :: _ => joinSlash names ∈ walk.known ∧ cleanup.env.lstat area names = none
          | [] => true
      | _ => true
  | .request _ => true

/-- Walks that know their next entries recognise them. -/
theorem recognized_of_knowsNext {system : List Process × Host} (h : system.1.all Process.knowsNext = true) :
    Recognized system := by
  intro cleanup walk area names entries hMem hStage hEntries _
  have hKnows := List.all_eq_true.mp h _ hMem
  unfold Process.knowsNext at hKnows
  dsimp only at hKnows
  rw [hStage] at hKnows
  dsimp only at hKnows
  rw [hEntries] at hKnows
  exact of_decide_eq_true hKnows

/-- The path of the uploaded file in the quarantine. -/
def samplePath : List PyStr := [py "00", py "00", uuidHex 1 ++ py ".zip"]

/-- The steps of the three calls, evaluated: all finish, each knowing what it looks
at. -/
theorem meeting_evaluated :
    (interleave Process.step meeting (meetingProcesses, emptyHost)).1.map Process.isFinished = [true, true, true] ∧
    (interleave Process.step meeting (meetingProcesses, emptyHost)).2.database.files.length = 2 ∧
    ∀ first ∈ meeting.inits, (interleave Process.step first (meetingProcesses, emptyHost)).1.all Process.knowsNext = true := by
  decide +kernel

/-- Three calls that meet finish, and both committed rows have their files. -/
theorem rows_keep_files_sample :
    (interleave Process.step meeting (meetingProcesses, emptyHost)).1.map Process.isFinished = [true, true, true] ∧
      (interleave Process.step meeting (meetingProcesses, emptyHost)).2.database.files.length = 2 ∧
      ∀ row ∈ (interleave Process.step meeting (meetingProcesses, emptyHost)).2.database.files,
        HasPhysicalFile sampleEnvironment.paths (interleave Process.step meeting (meetingProcesses, emptyHost)).2.tree row := by
  obtain ⟨hFinished, hLength, hKnown⟩ := meeting_evaluated
  refine ⟨hFinished, hLength, rows_keep_files meetingProcesses_start meeting ?_⟩
  intro first rest hSchedule
  apply recognized_of_knowsNext
  exact hKnown first ((List.mem_inits _ _).mpr ⟨rest, hSchedule.symm⟩)

/-- The steps of the two calls, evaluated: the row is committed after its file was
removed. -/
theorem racing_evaluated :
    (interleave Process.step racing (sampleProcesses, emptyHost)).1.map Process.isFinished = [true, true] ∧
    (interleave Process.step racing (sampleProcesses, emptyHost)).2.database.files.map (·.relativeStoragePath) =
      [joinSlash samplePath] ∧
    ∀ area ∈ [StorageArea.quarantine, .software], (interleave Process.step racing (sampleProcesses, emptyHost)).2.tree.file?
      (sampleEnvironment.paths.root area ++ samplePath) = none := by
  decide +kernel

/-- The snapshot is older than the commit, and the walk younger than the move. -/
theorem removal_loses_uploaded_file : Start sampleEnvironment.paths sampleProcesses emptyHost ∧
    (interleave Process.step racing (sampleProcesses, emptyHost)).1.map Process.isFinished = [true, true] ∧
    ∃ row ∈ (interleave Process.step racing (sampleProcesses, emptyHost)).2.database.files,
      ¬HasPhysicalFile sampleEnvironment.paths (interleave Process.step racing (sampleProcesses, emptyHost)).2.tree row := by
  obtain ⟨hFinished, hPaths, hGone⟩ := racing_evaluated
  refine ⟨sampleProcesses_start, hFinished, ?_⟩
  have hRow : joinSlash samplePath ∈ (interleave Process.step racing (sampleProcesses, emptyHost)).2.database.files.map
      (·.relativeStoragePath) := by
    rw [hPaths]
    exact List.mem_singleton_self _
  obtain ⟨row, hMem, hPath⟩ := List.mem_map.mp hRow
  refine ⟨row, hMem, ?_⟩
  rintro ⟨area, names, content, hNames, hSame, hFile, -, -⟩
  obtain rfl : names = samplePath := joinSlash_injective hNames (by decide) (hSame.symm.trans hPath)
  have hArea : area ∈ [StorageArea.quarantine, .software] := by cases area <;> decide
  rw [hGone area hArea] at hFile
  cases hFile

end SoftwareHub.Reconciliation
