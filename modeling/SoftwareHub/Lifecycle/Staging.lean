import SoftwareHub.Lifecycle.Stored
import SoftwareHub.Storage.Unfailing

/-! Staging a file for deletion and removing it: what can be lost when calls fail,
and what happens when none does. -/
namespace SoftwareHub.Lifecycle

open SoftwareHub.Python SoftwareHub.Tree SoftwareHub.Semantics Program
open SoftwareHub.Backup (Directory Leaf isDir isSymlink pathExists)
open SoftwareHub.Storage (AllOrNothing Links MoveCall MoveEnvironment MoveRequest MoveResult Moved StorageArea TreeProgram
  atomicMove finishMove finishMove_cases isSymlink_eq_file? posixText prepareMove prepareMove_spec realPathFrom
  realPathFrom_congr rejectUnsafeRelativePath renameFile safeResolve safeResolve_eq_ok)

/-- Only regular files at some paths can be lost, and links stay. -/
structure LosesAtMost (lost : List PyStr → Prop) (before after : Directory) : Prop where
  wellFormed : after.WellFormed fun _ => True
  links : ∀ path, isSymlink (after.node? path) = isSymlink (before.node? path)
  files : ∀ path leaf, before.file? path = some leaf →
    after.file? path = some leaf ∨ lost path ∧ ∃ content, leaf = .file content

namespace LosesAtMost

variable {lost more : List PyStr → Prop} {before mid after : Directory}

theorem refl (h : before.WellFormed fun _ => True) : LosesAtMost lost before before :=
  ⟨h, fun _ => rfl, fun _ _ hFile => Or.inl hFile⟩

theorem mono (h : LosesAtMost lost before after) (hMore : ∀ path, lost path → more path) :
    LosesAtMost more before after := by
  refine ⟨h.wellFormed, h.links, ?_⟩
  intro path leaf hFile
  rcases h.files path leaf hFile with hKept | ⟨hLost, hRegular⟩
  · exact Or.inl hKept
  · exact Or.inr ⟨hMore path hLost, hRegular⟩

theorem trans (first : LosesAtMost lost before mid) (second : LosesAtMost lost mid after) :
    LosesAtMost lost before after := by
  refine ⟨second.wellFormed, fun path => (second.links path).trans (first.links path), ?_⟩
  intro path leaf hFile
  rcases first.files path leaf hFile with hKept | hLost
  · exact second.files path leaf hKept
  · exact Or.inr hLost

end LosesAtMost

/-- A move, whatever fails, keeps all files or renames its source. -/
theorem atomicMove_cases (env : MoveEnvironment) (move : MoveRequest) {before : Directory}
    (hBefore : before.WellFormed fun _ => True) : (∀ path, (atomicMove env move before).2.file? path = before.file? path) ∨
      ∃ sourceNames names, rejectUnsafeRelativePath move.sourceRelativePath = .ok sourceNames ∧
        rejectUnsafeRelativePath move.destinationRelativePath = .ok names ∧
        Moved (env.realPath before move.sourceRoot sourceNames) (env.realPath before move.destinationRoot names) before
          (atomicMove env move before).2 := by
  have hPrepare := prepareMove_spec env move hBefore
  unfold atomicMove
  rcases hRun : prepareMove env move before with ⟨outcome, mid⟩
  cases outcome with
  | error e =>
      rw [bind_error hRun]
      exact Or.inl (hPrepare.of_error rfl hRun).2.1
  | ok prepared =>
      rw [bind_ok hRun]
      have hReady := hPrepare.of_ok rfl hRun
      rcases finishMove_cases env prepared mid with ⟨e, hFinish, -⟩ | ⟨renamed, -, hRename, hFinish⟩
      · rw [hFinish]
        exact Or.inl hReady.steady.2.1
      · have hMoved := hReady.moved env move hRename
        obtain ⟨sourceNames, hSourceNames, hSource⟩ := hReady.source
        obtain ⟨names, hNames, hDestination⟩ := hReady.destination
        rw [hSource, hDestination] at hMoved
        have hAfter : (finishMove env prepared mid).2 = renamed := by
          rcases hFinish with ⟨-, hFinish⟩ | ⟨-, e, hFinish⟩
          · rw [hFinish]
          · rw [hFinish]
        rw [hAfter]
        exact Or.inr ⟨sourceNames, names, hSourceNames, hNames, hMoved⟩

/-- A renamed file is lost at the name that it had. -/
theorem losesAtMost_of_moved {source destination : List PyStr} {before after : Directory}
    (h : Moved source destination before after) (hAfter : after.WellFormed fun _ => True) :
    LosesAtMost (· = source) before after := by
  refine ⟨hAfter, h.isSymlink, ?_⟩
  obtain ⟨content, hSource, hFree, -, hFiles⟩ := h
  intro path leaf hFile
  by_cases hPath : path = source
  · rw [hPath, hSource] at hFile
    exact Or.inr ⟨hPath, content, (Option.some.inj hFile).symm⟩
  · have hOther : path ≠ destination := by
      rintro rfl
      rw [Forest.file?, hFree] at hFile
      cases hFile
    rw [hFiles, if_neg hOther, if_neg hPath]
    exact Or.inl hFile

section Unlink

variable {links : Links} {signal : UnlinkCall → Option OSError} {paths : StoragePaths} {staged : StagedDeletion}

/-- The removal of a staged file leaves everything, or erases a regular file. -/
theorem unlinkStagedDeletion_cases (tree : Directory) :
    (unlinkStagedDeletion links signal paths staged tree).2 = tree ∨ ∃ names content,
      rejectUnsafeRelativePath staged.stagedRelativePath = .ok names ∧
        tree.file? (realPathFrom links tree (realPathFrom links tree [] paths.temporary) names) = some (.file content) ∧
        (unlinkStagedDeletion links signal paths staged tree).2 =
          tree.erase (realPathFrom links tree (realPathFrom links tree [] paths.temporary) names) := by
  unfold unlinkStagedDeletion
  rw [read_bind]
  cases hPath : safeResolve links (signal .resolveRoot) (signal .resolve) paths.temporary staged.stagedRelativePath
      true true tree with
  | error e =>
      rw [id, hPath, bind_error (show lift (.error e) tree = (.error e, tree) from rfl)]
      exact Or.inl rfl
  | ok path =>
      obtain ⟨names, hNames, rfl⟩ := safeResolve_eq_ok hPath
      rw [id, hPath, bind_ok (show lift (.ok _) tree = (.ok _, tree) from rfl)]
      by_cases hStat : signal .lstat = none
      · rw [bind_ok (show lift (require (signal .lstat = none) _) tree = (.ok (), tree) by
          rw [require, if_pos hStat]; rfl)]
        cases hNode : tree.node? (realPathFrom links tree (realPathFrom links tree [] paths.temporary) names) with
        | none => exact Or.inl rfl
        | some entry =>
            cases entry with
            | dir sub => exact Or.inl rfl
            | leaf value =>
                cases value with
                | symlink target => exact Or.inl rfl
                | special => exact Or.inl rfl
                | file content =>
                    dsimp only
                    by_cases hUnlink : signal .unlink = none
                    · rw [bind_ok (show lift (require (signal .unlink = none) _) tree = (.ok (), tree) by
                        rw [require, if_pos hUnlink]; rfl), write_bind]
                      exact Or.inr ⟨names, content, hNames, (Forest.file?_eq_some_iff _ _ _).mpr hNode, rfl⟩
                    · rw [bind_error (show lift (require (signal .unlink = none)
                        (.storageError "The staged file could not be permanently deleted.")) tree = (.error _, tree) by
                          rw [require, if_neg hUnlink]; rfl)]
                      exact Or.inl rfl
      · rw [bind_error (show lift (require (signal .lstat = none)
          (.storageError "The staged file is unavailable.")) tree = (.error _, tree) by
            rw [require, if_neg hStat]; rfl)]
        exact Or.inl rfl

/-- Staging and removing a file loses that file at most. -/
theorem deletion_losesAtMost (device : List PyStr → Nat) (move : MoveCall → Option OSError) (uuid : Nat)
    (stored : StoredFile) {α : Type} (a : α) {before : Directory} (hBefore : before.WellFormed fun _ => True) :
    LosesAtMost (fun path => ∃ names, rejectUnsafeRelativePath stored.relativePath = .ok names ∧
        path = realPathFrom links before (realPathFrom links before [] (paths.root stored.area)) names) before
      ((stageForPermanentDeletion ⟨links, device, move⟩ paths uuid stored >>= fun staged =>
        unlinkStagedDeletion links signal paths staged >>= fun _ => pure a) before).2 := by
  let request : MoveRequest :=
    ⟨paths.root stored.area, stored.relativePath, paths.temporary, stagedRelativePath uuid⟩
  rcases hMove : atomicMove ⟨links, device, move⟩ request before with ⟨outcome, mid⟩
  have hMid := Storage.wellFormed_of_atomicMove _ hBefore hMove
  have hCases := atomicMove_cases ⟨links, device, move⟩ request hBefore
  rw [hMove] at hCases
  have hStaged : LosesAtMost (fun path => ∃ names, rejectUnsafeRelativePath stored.relativePath = .ok names ∧
      path = realPathFrom links before (realPathFrom links before [] (paths.root stored.area)) names) before mid := by
    rcases hCases with hKept | ⟨names, stagedNames, hNames, -, hMoved⟩
    · refine ⟨hMid, ?_, ?_⟩
      · intro path
        rw [isSymlink_eq_file?, isSymlink_eq_file? before, hKept]
      · intro path leaf hFile
        exact Or.inl ((hKept path).trans hFile)
    · apply (losesAtMost_of_moved hMoved hMid).mono
      intro path hPath
      exact ⟨names, hNames, hPath⟩
  cases outcome with
  | error e =>
      rw [bind_error (show stageForPermanentDeletion ⟨links, device, move⟩ paths uuid stored before = (.error e, mid) from
        bind_error hMove _)]
      exact hStaged
  | ok result =>
      have hStage : stageForPermanentDeletion ⟨links, device, move⟩ paths uuid stored before =
          (.ok ⟨stored, stagedRelativePath uuid, result.destination⟩, mid) := by
        unfold stageForPermanentDeletion
        rw [bind_ok hMove]
        rfl
      rw [bind_ok hStage, bind_pure_state _ fun _ => a]
      obtain ⟨sourceNames, names, hSourceNames, hNames, hDestination, hMoved⟩ :=
        Storage.allOrNothing_of_ok hBefore hMove
      rcases @unlinkStagedDeletion_cases links signal paths ⟨stored, stagedRelativePath uuid, result.destination⟩ mid with
        hSame | ⟨stagedNames, content, hStagedNames, hFile, hErased⟩
      · rw [hSame]
        exact hStaged
      · -- The erased file is the staged one, which was not there before.
        obtain rfl : names = stagedNames := Except.ok.inj (hNames.symm.trans hStagedNames)
        have hReal : realPathFrom links mid (realPathFrom links mid [] paths.temporary) names = result.destination := by
          rw [realPathFrom_congr links hMoved.isSymlink, realPathFrom_congr links hMoved.isSymlink]
          exact hDestination.symm
        rw [hReal] at hErased hFile
        have hErase := Forest.file?_erase hMid hFile
        obtain ⟨-, -, hFree, -, -⟩ := hMoved
        rw [hErased]
        refine ⟨hMid.erase _, ?_, ?_⟩
        · intro path
          rw [← hStaged.links path, isSymlink_eq_file?, isSymlink_eq_file? mid, hErase]
          by_cases hPath : path = result.destination
          · rw [if_pos hPath, hPath, hFile]
            rfl
          · rw [if_neg hPath]
        · intro path leaf hLeaf
          have hPath : path ≠ result.destination := by
            rintro rfl
            rw [Forest.file?, hFree] at hLeaf
            cases hLeaf
          rw [hErase, if_neg hPath]
          exact hStaged.files path leaf hLeaf

end Unlink

/-- The directory of the staged files. -/
def deletionsName : PyStr := py "deletions"

/-- The name of a staged file. -/
def stagedName (uuid : Nat) : PyStr := uuidHex uuid ++ py ".delete"

/-- The characters of a generated name, whose suffix is an ASCII text. -/
theorem of_mem_hexName {suffix : PyStr} (hSuffix : ∀ c ∈ suffix, c < 0x80 ∧ c ≠ slash ∧ c ≠ 0 ∧ c ≠ 0x5C) {uuid c : Nat}
    (hc : c ∈ uuidHex uuid ++ suffix) : c < 0x80 ∧ c ≠ slash ∧ c ≠ 0 ∧ c ≠ 0x5C := by
  rcases List.mem_append.mp hc with hc | hc
  · have hHex := Sha256.isLowerHex_of_mem_hexDigits hc
    simp only [isLowerHex, isDigit, Bool.or_eq_true, Bool.and_eq_true, decide_eq_true_eq] at hHex
    unfold slash
    omega
  · exact hSuffix c hc

/-- A generated name can stand in a path. -/
theorem isFileName_hexName {suffix : PyStr} (hSuffix : ∀ c ∈ suffix, c < 0x80 ∧ c ≠ slash ∧ c ≠ 0 ∧ c ≠ 0x5C) (uuid : Nat) :
    IsFileName (uuidHex uuid ++ suffix) := by
  have hLength : 32 ≤ (uuidHex uuid ++ suffix).length := by
    unfold uuidHex
    rw [List.length_append, Sha256.length_hexDigits]
    exact Nat.le_add_right _ _
  have hShort {name : PyStr} (hName : name.length < 32) : uuidHex uuid ++ suffix ≠ name := by
    rintro rfl
    omega
  refine ⟨hShort (by decide), ?_, ?_, hShort (by decide), hShort (by decide), ?_⟩
  · intro hMem
    exact (of_mem_hexName hSuffix hMem).2.1 rfl
  · intro hMem
    exact (of_mem_hexName hSuffix hMem).2.2.1 rfl
  · apply fsname_of_scalar
    rw [List.all_eq_true]
    intro c hc
    exact isScalar_of_lt (of_mem_hexName hSuffix hc).1

/-- So it is with the name of a staged file. -/
theorem of_mem_stagedName {uuid c : Nat} (hc : c ∈ stagedName uuid) : c < 0x80 ∧ c ≠ slash ∧ c ≠ 0 ∧ c ≠ 0x5C :=
  of_mem_hexName (by decide) hc

theorem isFileName_stagedName (uuid : Nat) : IsFileName (stagedName uuid) := isFileName_hexName (by decide) uuid

/-- The relative path of a staged file has two names. -/
theorem stagedRelativePath_eq (uuid : Nat) : stagedRelativePath uuid = joinSlash [deletionsName, stagedName uuid] := by
  unfold stagedRelativePath stagedName deletionsName joinSlash
  rw [List.intercalate_cons_cons, List.intercalate_singleton, List.append_assoc, List.append_assoc]
  rfl

theorem rejectUnsafeRelativePath_staged (uuid : Nat) :
    rejectUnsafeRelativePath (stagedRelativePath uuid) = .ok [deletionsName, stagedName uuid] := by
  rw [stagedRelativePath_eq]
  apply Storage.rejectUnsafeRelativePath_joinSlash (List.cons_ne_nil _ _)
  · intro name hName
    rcases List.mem_cons.mp hName with rfl | hName
    · decide
    · rw [List.mem_singleton.mp hName]
      exact isFileName_stagedName uuid
  · intro hMem
    rcases mem_joinSlash hMem with hSlash | ⟨name, hName, hMem⟩
    · cases hSlash
    · rcases List.mem_cons.mp hName with rfl | hName
      · exact absurd hMem (by decide)
      · rw [List.mem_singleton.mp hName] at hMem
        exact (of_mem_stagedName hMem).2.2.2 rfl

/-- The temporary root can take staged files: they are not there, and their
directory is one or can be made. -/
structure StagingReady (paths : StoragePaths) (tree : Directory) : Prop where
  wellFormed : tree.WellFormed IsFileName
  root : tree.kind? paths.temporary = some none
  folder : tree.kind? (paths.temporary ++ [deletionsName]) = none ∨
    tree.kind? (paths.temporary ++ [deletionsName]) = some none
  free : ∀ uuid, tree.kind? (paths.temporary ++ [deletionsName, stagedName uuid]) = none

/-- Staging a regular file and removing it succeeds. -/
theorem deletion_run {links : Links} {device : List PyStr → Nat} {move : MoveCall → Option OSError}
    {signal : UnlinkCall → Option OSError} (hMove : ∀ call, move call = none) (hSignal : ∀ call, signal call = none)
    (hDevice : ∀ first second, device first = device second) {paths : StoragePaths} {tree : Directory}
    (h : StagingReady paths tree) (uuid : Nat) {stored : StoredFile} {names : List PyStr} {content : Bytes}
    (hNames : rejectUnsafeRelativePath stored.relativePath = .ok names) (hRoot : tree.kind? (paths.root stored.area) = some none)
    (hFile : tree.kind? (paths.root stored.area ++ names) = some (some (.file content))) {α : Type} (a : α) :
    ∃ after, (stageForPermanentDeletion ⟨links, device, move⟩ paths uuid stored >>= fun staged =>
        unlinkStagedDeletion links signal paths staged >>= fun _ => pure a) tree = (.ok a, after) ∧ after.WellFormed IsFileName ∧
      ∀ path, after.kind? path = if path = paths.root stored.area ++ names then none
        else if path <+: paths.temporary ++ [deletionsName] then some none else tree.kind? path := by
  have hMovable : Storage.Movable ⟨paths.root stored.area, stored.relativePath, paths.temporary, stagedRelativePath uuid⟩
      names [deletionsName, stagedName uuid] content tree := by
    refine ⟨h.wellFormed, hNames, rejectUnsafeRelativePath_staged uuid, ?_, hRoot, hFile, h.root, ?_, h.free uuid⟩
    · intro name hName
      rcases List.mem_cons.mp hName with rfl | hName
      · decide
      · rw [List.mem_singleton.mp hName]
        exact isFileName_stagedName uuid
    · intro path hPath
      rcases List.prefix_concat_iff.mp (show path <+: [] ++ [deletionsName] from hPath) with rfl | hPath
      · exact h.folder
      · rw [List.prefix_nil.mp hPath, List.append_nil]
        exact Or.inr h.root
  obtain ⟨mid, hRun, hMid, hKinds⟩ := @Storage.atomicMove_run ⟨links, device, move⟩ _ _ _ _ _ hMove hDevice hMovable
  change ∀ path, mid.kind? path = if path = paths.temporary ++ [deletionsName, stagedName uuid] then some (some (.file content))
    else if path = paths.root stored.area ++ names then none
    else if path <+: paths.temporary ++ [deletionsName] then some none else tree.kind? path at hKinds
  have hStage : stageForPermanentDeletion ⟨links, device, move⟩ paths uuid stored tree =
      (.ok ⟨stored, stagedRelativePath uuid, paths.temporary ++ [deletionsName, stagedName uuid]⟩, mid) := by
    unfold stageForPermanentDeletion
    rw [bind_ok hRun]
    rfl
  have hStaged : mid.kind? (paths.temporary ++ [deletionsName, stagedName uuid]) = some (some (.file content)) := by
    rw [hKinds, if_pos rfl]
  have hFolder : mid.kind? (paths.temporary ++ [deletionsName]) = some none := by
    rw [hKinds, if_neg (by simp), if_neg, if_pos (List.prefix_refl _)]
    intro hSame
    rcases h.folder with hNone | hDir
    · rw [hSame, hFile] at hNone
      cases hNone
    · rw [hSame, hFile] at hDir
      cases hDir
  have hPath : safeResolve links none none paths.temporary (stagedRelativePath uuid) true true mid =
      .ok (paths.temporary ++ [deletionsName, stagedName uuid]) := by
    apply Storage.safeResolve_run (Storage.kind?_above_dir hFolder (List.prefix_append _ _))
      (rejectUnsafeRelativePath_staged uuid)
    · intro above hAbove hNil
      rcases List.prefix_concat_iff.mp (show above <+: [deletionsName] ++ [stagedName uuid] from hAbove) with rfl | hAbove
      · change isSymlink (mid.node? (paths.temporary ++ [deletionsName, stagedName uuid])) = false
        rw [(Forest.file?_eq_some_iff _ _ _).mp (Forest.kind?_eq_leaf_iff.mp hStaged)]
        rfl
      · apply Storage.isSymlink_of_kind?
        exact Or.inr (Storage.kind?_above_dir hFolder ((List.prefix_append_right_inj _).mpr hAbove))
    · intro _
      rw [hStaged]
      simp
  have hUnlink : unlinkStagedDeletion links signal paths
      ⟨stored, stagedRelativePath uuid, paths.temporary ++ [deletionsName, stagedName uuid]⟩ mid =
        (.ok (), mid.erase (paths.temporary ++ [deletionsName, stagedName uuid])) := by
    unfold unlinkStagedDeletion
    rw [read_bind, id, hSignal, hSignal, hSignal, hSignal, hSignal, hSignal, hSignal,
      bind_ok (show lift (safeResolve links none none paths.temporary (stagedRelativePath uuid) true true mid) mid =
        (.ok _, mid) by rw [hPath]; rfl),
      bind_ok (show lift (require ((none : Option OSError) = none) _) mid = (.ok (), mid) from rfl),
      (Forest.file?_eq_some_iff _ _ _).mp (Forest.kind?_eq_leaf_iff.mp hStaged)]
    rfl
  refine ⟨mid.erase (paths.temporary ++ [deletionsName, stagedName uuid]), ?_, hMid.erase _, ?_⟩
  · rw [bind_ok hStage, bind_ok hUnlink, pure_apply]
  · intro path
    rw [Forest.kind?_erase hMid hStaged, hKinds]
    by_cases hStagedPath : path = paths.temporary ++ [deletionsName, stagedName uuid]
    · subst hStagedPath
      have hSource : paths.temporary ++ [deletionsName, stagedName uuid] ≠ paths.root stored.area ++ names := by
        intro hSame
        have hFree := h.free uuid
        rw [hSame, hFile] at hFree
        cases hFree
      have hLong : ¬paths.temporary ++ [deletionsName, stagedName uuid] <+: paths.temporary ++ [deletionsName] := by
        intro hPrefix
        have hLength := hPrefix.length_le
        simp at hLength
      rw [if_pos rfl, if_neg hSource, if_neg hLong, h.free uuid]
    · rw [if_neg hStagedPath, if_neg hStagedPath]

end SoftwareHub.Lifecycle
