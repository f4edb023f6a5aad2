import SoftwareHub.Reconciliation.Cleanup

/-! The removal of orphans when no call of the removal fails: which files are gone,
and what the next report says. -/
namespace SoftwareHub.Reconciliation

open SoftwareHub.Python SoftwareHub.Tree SoftwareHub.Semantics SoftwareHub.Catalog SoftwareHub.Lifecycle Program
open SoftwareHub.Backup (Directory Leaf isSymlink)
open SoftwareHub.Storage (StorageArea posixText posixText_joinSlash rejectUnsafeRelativePath
  rejectUnsafeRelativePath_joinSlash resolveBelow_of_ne_nil resolveRoot_of_dir safeResolve)

/-- No call of one removal fails. -/
structure RemovalEnvironment.Unfailing (faults : RemovalEnvironment) : Prop where
  resolveRoot : faults.resolveRoot = none
  resolve : faults.resolve = none
  lstat : faults.lstat = none
  move : ∀ call, faults.move call = none
  unlink : ∀ call, faults.unlink call = none

/-- The files that some of the issues lead to and that are removed. -/
def DeletedBy (paths : StoragePaths) (contents : StorageArea → Directory) (issues : List Issue) (path : List PyStr) : Prop :=
  ∃ issue ∈ issues, ∃ area names content, issue.storageArea = some area ∧ issue.relativePath = joinSlash names ∧
    (contents area).file? names = some (.file content) ∧ 0x5C ∉ joinSlash names ∧ path = paths.root area ++ names

/-- A tree without the deleted files, and otherwise the same up to the
directory of the staged files. -/
structure Cleaned (paths : StoragePaths) (deleted : List PyStr → Prop) (before after : Directory) : Prop where
  wellFormed : after.WellFormed IsFileName
  below : ∀ path, deleted path → ∃ area names, names ≠ [] ∧ path = paths.root area ++ names
  gone : ∀ path, deleted path → after.kind? path = none
  kept : ∀ path, ¬deleted path → after.kind? path = before.kind? path ∨
    path <+: paths.temporary ++ [deletionsName] ∧ after.kind? path = some none

section Run

variable {env : ScanEnvironment} {device : List PyStr → Nat} {faults : RemovalEnvironment} {before tree : Directory}
  {contents : StorageArea → Directory} {deleted more : List PyStr → Prop}

theorem Cleaned.congr {paths : StoragePaths} (h : Cleaned paths deleted before tree)
    (hSame : ∀ path, more path ↔ deleted path) : Cleaned paths more before tree := by
  obtain rfl : more = deleted := funext fun path => propext (hSame path)
  exact h

/-- No place of an area is above the staged files. -/
theorem Layout.not_above_staged {paths : StoragePaths} (h : Layout paths before contents) (area : StorageArea)
    (names : List PyStr) : ¬paths.root area ++ names <+: paths.temporary ++ [deletionsName] := by
  intro hPrefix
  have hRoot := (List.prefix_append (paths.root area) names).trans hPrefix
  rcases List.prefix_concat_iff.mp hRoot with hWhole | hShort
  · exact (h.temporary area).1 (hWhole ▸ List.prefix_append _ _)
  · exact (h.temporary area).2 hShort

/-- The root of an area is a directory. -/
theorem Layout.kind?_root (h : Layout env.paths before contents) (area : StorageArea) :
    before.kind? (env.paths.root area) = some none :=
  Forest.kind?_eq_dir_iff.mpr ⟨_, h.roots.root area⟩

/-- What is below the areas, after some deletions. -/
theorem Cleaned.kind?_area (h : Layout env.paths before contents) (hCleaned : Cleaned env.paths deleted before tree)
    (area : StorageArea) (names : List PyStr) (hKept : ¬deleted (env.paths.root area ++ names)) :
    tree.kind? (env.paths.root area ++ names) = before.kind? (env.paths.root area ++ names) := by
  rcases hCleaned.kept _ hKept with hSame | ⟨hPrefix, -⟩
  · exact hSame
  · exact (h.not_above_staged area names hPrefix).elim

theorem Cleaned.root (h : Layout env.paths before contents) (hCleaned : Cleaned env.paths deleted before tree)
    (area : StorageArea) : tree.kind? (env.paths.root area) = some none := by
  have hKept : ¬deleted (env.paths.root area ++ []) := by
    intro hDeleted
    obtain ⟨other, names, hNil, hSame⟩ := hCleaned.below _ hDeleted
    exact hNil (h.place_inj hSame).2.symm
  have hRoot := hCleaned.kind?_area h area [] hKept
  rw [List.append_nil, h.kind?_root] at hRoot
  exact hRoot

/-- The temporary root stays ready for staged files. -/
theorem Cleaned.staging (h : Layout env.paths before contents) (hStaging : StagingReady env.paths before)
    (hCleaned : Cleaned env.paths deleted before tree) : StagingReady env.paths tree := by
  have hKept (rest : List PyStr) : ¬deleted (env.paths.temporary ++ rest) := by
    intro hDeleted
    obtain ⟨area, names, -, hSame⟩ := hCleaned.below _ hDeleted
    rcases List.prefix_or_prefix_of_prefix (List.prefix_append env.paths.temporary rest) ⟨names, hSame.symm⟩ with
      hPrefix | hPrefix
    · exact (h.temporary area).1 hPrefix
    · exact (h.temporary area).2 hPrefix
  refine ⟨hCleaned.wellFormed, ?_, ?_, ?_⟩
  · have hRoot := hCleaned.kept _ (hKept [])
    rw [List.append_nil, hStaging.root] at hRoot
    rcases hRoot with hRoot | ⟨-, hRoot⟩
    · exact hRoot
    · exact hRoot
  · rcases hCleaned.kept _ (hKept [deletionsName]) with hSame | ⟨-, hDir⟩
    · rw [hSame]
      exact hStaging.folder
    · exact Or.inr hDir
  · intro uuid
    rcases hCleaned.kept _ (hKept [deletionsName, stagedName uuid]) with hSame | ⟨hPrefix, -⟩
    · rw [hSame]
      exact hStaging.free uuid
    · have hLength := hPrefix.length_le
      simp at hLength

/-- An entry that cannot be resolved counts as an error. -/
theorem cleanupIssue_refused {issue : Issue} {area : StorageArea} {message : String}
    (hArea : issue.storageArea = some area)
    (hRefused : safeResolve env.links faults.resolveRoot faults.resolve (env.paths.root area)
      (posixText issue.relativePath) true true tree = .error (.storageError message)) :
    cleanupIssue env device faults issue tree = (.ok false, tree) := by
  have hRun : removeEntry env device faults area issue.relativePath tree = (.error (.storageError message), tree) := by
    unfold removeEntry
    rw [read_bind, id, hRefused, lift_error_bind]
  unfold cleanupIssue
  rw [hArea]
  dsimp only
  rw [tryExcept_error hRun]
  rfl

/-- One iteration deletes the regular file of its entry, if its path is accepted. -/
theorem cleanupIssue_run (h : Layout env.paths before contents) (hStaging : StagingReady env.paths before)
    (hFaults : faults.Unfailing) (hDevice : ∀ first second, device first = device second) {issue : Issue}
    {area : StorageArea} {names : List PyStr} {leaf : Leaf} (hArea : issue.storageArea = some area)
    (hPath : issue.relativePath = joinSlash names) (hEntry : (contents area).file? names = some leaf)
    (hCleaned : Cleaned env.paths deleted before tree) :
    ∃ done after, cleanupIssue env device faults issue tree = (.ok done, after) ∧
      Cleaned env.paths (fun path => deleted path ∨ DeletedBy env.paths contents [issue] path) before after := by
  obtain ⟨hNil, hNames⟩ := h.roots.fileNames hEntry
  -- Only the entry's own file can be deleted.
  have hOwn {path : List PyStr} (hDeleted : DeletedBy env.paths contents [issue] path) :
      path = env.paths.root area ++ names ∧ (∃ content, leaf = .file content) ∧ 0x5C ∉ joinSlash names := by
    obtain ⟨other, hOther, found, others, content, hFound, hOthers, hFile, hBackslash, rfl⟩ := hDeleted
    obtain rfl := List.mem_singleton.mp hOther
    obtain rfl : area = found := Option.some.inj (hArea.symm.trans hFound)
    obtain rfl : names = others :=
      joinSlash_injective hNames (h.roots.fileNames hFile).2 (hPath.symm.trans hOthers)
    exact ⟨rfl, ⟨content, Option.some.inj (hEntry.symm.trans hFile)⟩, hBackslash⟩
  have hNothing (hNone : ∀ path, DeletedBy env.paths contents [issue] path → deleted path) :
      Cleaned env.paths (fun path => deleted path ∨ DeletedBy env.paths contents [issue] path) before tree := by
    apply hCleaned.congr
    intro path
    constructor
    · rintro (hOld | hNew)
      · exact hOld
      · exact hNone path hNew
    · exact Or.inl
  obtain ⟨root, hRoot⟩ := Forest.kind?_eq_dir_iff.mp (hCleaned.root h area)
  have hResolve : safeResolve env.links faults.resolveRoot faults.resolve (env.paths.root area)
      (posixText issue.relativePath) true true tree = (rejectUnsafeRelativePath (joinSlash names) >>= fun found =>
        Storage.resolveBelow env.links none (env.paths.root area) found true true tree) := by
    unfold safeResolve
    rw [hFaults.resolveRoot, hFaults.resolve, except_bind_ok (resolveRoot_of_dir hRoot), hPath,
      posixText_joinSlash hNil hNames]
  by_cases hBackslash : 0x5C ∈ joinSlash names
  · have hRefused : rejectUnsafeRelativePath (joinSlash names) = .error (.storageError "The storage path is invalid.") := by
      unfold rejectUnsafeRelativePath
      exact if_pos (Or.inr (Or.inr hBackslash))
    rw [hRefused] at hResolve
    refine ⟨false, tree, cleanupIssue_refused hArea hResolve, hNothing ?_⟩
    intro path hDeleted
    exact ((hOwn hDeleted).2.2 hBackslash).elim
  · rw [except_bind_ok (rejectUnsafeRelativePath_joinSlash hNil hNames hBackslash), resolveBelow_of_ne_nil hNil] at hResolve
    by_cases hDeleted : deleted (env.paths.root area ++ names)
    · have hGone : tree.node? (env.paths.root area ++ names) = none :=
        Forest.kind?_eq_none_iff.mp (hCleaned.gone _ hDeleted)
      have hRefused : ∃ message, safeResolve env.links faults.resolveRoot faults.resolve (env.paths.root area)
          (posixText issue.relativePath) true true tree = .error (.storageError message) := by
        rw [hResolve]
        split_ifs
        · exact ⟨_, rfl⟩
        · exact ⟨_, rfl⟩
        · rename_i hNot
          exact (hNot ⟨rfl, hGone⟩).elim
      obtain ⟨message, hRefused⟩ := hRefused
      refine ⟨false, tree, cleanupIssue_refused hArea hRefused, hNothing ?_⟩
      intro path hNew
      rw [(hOwn hNew).1]
      exact hDeleted
    · have hKind : tree.kind? (env.paths.root area ++ names) = some (some leaf) := by
        rw [hCleaned.kind?_area h area names hDeleted, Forest.kind?_append (h.roots.root area)]
        exact Forest.kind?_eq_leaf_iff.mpr hEntry
      have hNode : tree.node? (env.paths.root area ++ names) = some (.leaf leaf) :=
        (Forest.file?_eq_some_iff _ _ _).mp (Forest.kind?_eq_leaf_iff.mp hKind)
      have hAbove {above : List PyStr} (hPrefix : above <+: names) (hProper : above ≠ names) :
          isSymlink (tree.node? (env.paths.root area ++ above)) = false := by
        apply Storage.isSymlink_of_kind?
        apply Or.inr
        exact Storage.kind?_above_leaf hKind ((List.prefix_append_right_inj _).mpr hPrefix) (by simpa using hProper)
      have hAccepted (hLeaf : isSymlink (some (.leaf leaf)) = false) : safeResolve env.links faults.resolveRoot
          faults.resolve (env.paths.root area) (posixText issue.relativePath) true true tree =
            .ok (env.paths.root area ++ names) := by
        rw [hResolve, if_neg, if_neg]
        · rw [hNode]
          simp
        · rintro ⟨above, hMem, -, hLink⟩
          by_cases hWhole : above = names
          · rw [hWhole, hNode, hLeaf] at hLink
            cases hLink
          · rw [hAbove ((List.mem_inits _ _).mp hMem) hWhole] at hLink
            cases hLink
      cases leaf with
      | symlink target =>
          rw [if_pos ⟨names, (List.mem_inits _ _).mpr (List.prefix_refl _), hNil, by rw [hNode]; rfl⟩] at hResolve
          refine ⟨false, tree, cleanupIssue_refused hArea hResolve, hNothing ?_⟩
          intro path hNew
          obtain ⟨-, ⟨content, hContent⟩, -⟩ := hOwn hNew
          cases hContent
      | special =>
          have hRun : removeEntry env device faults area issue.relativePath tree = (.ok false, tree) := by
            unfold removeEntry
            rw [read_bind, id, hAccepted rfl, lift_ok_bind, hFaults.lstat, hNode]
            rfl
          refine ⟨false, tree, ?_, hNothing ?_⟩
          · unfold cleanupIssue
            rw [hArea]
            exact tryExcept_ok hRun
          · intro path hNew
            obtain ⟨-, ⟨content, hContent⟩, -⟩ := hOwn hNew
            cases hContent
      | file content =>
          obtain ⟨after, hDeletion, hAfter, hKinds⟩ := @deletion_run env.links device faults.move faults.unlink
            hFaults.move hFaults.unlink hDevice env.paths tree (hCleaned.staging h hStaging) faults.uuid
            ⟨area, joinSlash names, env.paths.root area ++ names, content.length⟩ names content
            (rejectUnsafeRelativePath_joinSlash hNil hNames hBackslash) (hCleaned.root h area) hKind Bool true
          have hRun : removeEntry env device faults area issue.relativePath tree = (.ok true, after) := by
            unfold removeEntry
            rw [read_bind, id, hAccepted rfl, lift_ok_bind, hFaults.lstat, hNode, hPath, posixText_joinSlash hNil hNames]
            exact hDeletion
          have hNew {path : List PyStr} : DeletedBy env.paths contents [issue] path ↔ path = env.paths.root area ++ names := by
            constructor
            · intro hDeletedBy
              exact (hOwn hDeletedBy).1
            · rintro rfl
              exact ⟨issue, List.mem_singleton_self _, area, names, content, hArea, hPath, hEntry, hBackslash, rfl⟩
          change ∀ path, after.kind? path = if path = env.paths.root area ++ names then none
            else if path <+: env.paths.temporary ++ [deletionsName] then some none else tree.kind? path at hKinds
          refine ⟨true, after, ?_, hAfter, ?_, ?_, ?_⟩
          · unfold cleanupIssue
            rw [hArea]
            exact tryExcept_ok hRun
          · rintro path (hOld | hDeletedBy)
            · exact hCleaned.below path hOld
            · exact ⟨area, names, hNil, hNew.mp hDeletedBy⟩
          · rintro path (hOld | hDeletedBy)
            · obtain ⟨other, others, -, rfl⟩ := hCleaned.below path hOld
              rw [hKinds, if_neg (h.not_above_staged other others), hCleaned.gone _ hOld, ite_self]
            · rw [hKinds, if_pos (hNew.mp hDeletedBy)]
          · intro path hNot
            rw [not_or, hNew] at hNot
            rw [hKinds, if_neg hNot.2]
            by_cases hStaged : path <+: env.paths.temporary ++ [deletionsName]
            · rw [if_pos hStaged]
              exact Or.inr ⟨hStaged, rfl⟩
            · rw [if_neg hStaged]
              exact hCleaned.kept path hNot.1

/-- The loop deletes what its issues lead to. -/
theorem cleanupIssues_run (h : Layout env.paths before contents) (hStaging : StagingReady env.paths before)
    {removal : Nat → RemovalEnvironment} (hRemoval : ∀ index, (removal index).Unfailing)
    (hDevice : ∀ first second, device first = device second) (issues : List Issue) (index : Nat)
    (hIssues : ∀ issue ∈ issues, ∃ area names leaf, issue.storageArea = some area ∧
      issue.relativePath = joinSlash names ∧ (contents area).file? names = some leaf)
    (hCleaned : Cleaned env.paths deleted before tree) :
    ∃ done after, cleanupIssues env device removal index issues tree = (.ok done, after) ∧
      Cleaned env.paths (fun path => deleted path ∨ DeletedBy env.paths contents issues path) before after := by
  induction issues generalizing index tree deleted with
  | nil =>
      refine ⟨[], tree, rfl, hCleaned.congr ?_⟩
      intro path
      constructor
      · rintro (hOld | ⟨issue, hIssue, -⟩)
        · exact hOld
        · cases hIssue
      · exact Or.inl
  | cons issue issues ih =>
      obtain ⟨area, names, leaf, hArea, hPath, hEntry⟩ := hIssues issue List.mem_cons_self
      obtain ⟨first, mid, hFirst, hMid⟩ :=
        cleanupIssue_run h hStaging (hRemoval index) hDevice hArea hPath hEntry hCleaned
      obtain ⟨rest, after, hRest, hAfter⟩ :=
        ih (index + 1) (fun other hOther => hIssues other (List.mem_cons_of_mem _ hOther)) hMid
      refine ⟨first :: rest, after, ?_, hAfter.congr ?_⟩
      · unfold cleanupIssues
        rw [bind_ok hFirst, bind_ok hRest, pure_apply]
      · intro path
        constructor
        · rintro (hOld | ⟨other, hOther, hDeleted⟩)
          · exact Or.inl (Or.inl hOld)
          · rcases List.mem_cons.mp hOther with rfl | hOther
            · exact Or.inl (Or.inr ⟨other, List.mem_singleton_self _, hDeleted⟩)
            · exact Or.inr ⟨other, hOther, hDeleted⟩
        · rintro ((hOld | ⟨other, hOther, hDeleted⟩) | ⟨other, hOther, hDeleted⟩)
          · exact Or.inl hOld
          · rw [List.mem_singleton.mp hOther] at hDeleted
            exact Or.inr ⟨issue, List.mem_cons_self, hDeleted⟩
          · exact Or.inr ⟨other, List.mem_cons_of_mem _ hOther, hDeleted⟩

end Run

end SoftwareHub.Reconciliation
