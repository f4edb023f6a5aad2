import SoftwareHub.Lifecycle.Staging
import SoftwareHub.Reconciliation.Recalculation

/-! The removal of orphans, where any of its calls may fail: which files it can
lose. -/
namespace SoftwareHub.Reconciliation

open SoftwareHub.Python SoftwareHub.Tree SoftwareHub.Semantics SoftwareHub.Catalog SoftwareHub.Lifecycle Program
open SoftwareHub.Backup (Directory Leaf isSymlink)
open SoftwareHub.Storage (Links StorageArea posixText posixText_joinSlash realPathFrom realPathFrom_congr
  realPathFrom_of_dir rejectUnsafeRelativePath rejectUnsafeRelativePath_joinSlash safeResolve safeResolve_rejecting)

section Removal

variable {env : ScanEnvironment} {device : List PyStr → Nat}

/-- Where a relative path leads below an area. -/
def Leads (links : Links) (paths : StoragePaths) (tree : Directory) (area : StorageArea) (relativePath : PyStr)
    (path : List PyStr) : Prop :=
  ∃ names, rejectUnsafeRelativePath (posixText relativePath) = .ok names ∧
    path = realPathFrom links tree [] (paths.root area) ++ names

/-- The removal of one entry loses what its path leads to, at most. -/
theorem removeEntry_losesAtMost (faults : RemovalEnvironment) (area : StorageArea) (relativePath : PyStr)
    {tree : Directory} (hTree : tree.WellFormed fun _ => True) :
    LosesAtMost (Leads env.links env.paths tree area relativePath) tree
      (removeEntry env device faults area relativePath tree).2 := by
  unfold removeEntry
  rw [read_bind, id]
  cases hPath : safeResolve env.links faults.resolveRoot faults.resolve (env.paths.root area) (posixText relativePath)
      true true tree with
  | error e =>
      rw [bind_error (show lift (.error e) tree = (.error e, tree) from rfl)]
      exact LosesAtMost.refl hTree
  | ok path =>
      rw [bind_ok (show lift (.ok path) tree = (.ok path, tree) from rfl)]
      cases faults.lstat with
      | some e => exact LosesAtMost.refl hTree
      | none =>
          cases hNode : tree.node? path with
          | none => exact LosesAtMost.refl hTree
          | some entry =>
              cases entry with
              | dir sub => exact LosesAtMost.refl hTree
              | leaf value =>
                  cases value with
                  | symlink target => exact LosesAtMost.refl hTree
                  | special => exact LosesAtMost.refl hTree
                  | file content =>
                      dsimp only
                      apply (@deletion_losesAtMost env.links faults.unlink env.paths device faults.move faults.uuid
                        ⟨area, posixText relativePath, path, content.length⟩ Bool true tree hTree).mono
                      rintro lost ⟨names, hNames, rfl⟩
                      obtain ⟨others, hOthers, -, hReal⟩ := safeResolve_rejecting hPath
                      obtain rfl : names = others := Except.ok.inj (hNames.symm.trans hOthers)
                      exact ⟨names, hNames, hReal⟩

/-- So does one iteration, for the area of its issue. -/
theorem cleanupIssue_losesAtMost (faults : RemovalEnvironment) (issue : Issue) {tree : Directory}
    (hTree : tree.WellFormed fun _ => True) :
    LosesAtMost (fun path => ∃ area, issue.storageArea = some area ∧
        Leads env.links env.paths tree area issue.relativePath path) tree
      (cleanupIssue env device faults issue tree).2 := by
  unfold cleanupIssue
  cases issue.storageArea with
  | none => exact LosesAtMost.refl hTree
  | some area =>
      dsimp only
      have hRemoved : LosesAtMost (fun path => ∃ found, some area = some found ∧
          Leads env.links env.paths tree found issue.relativePath path) tree
            (removeEntry env device faults area issue.relativePath tree).2 := by
        apply (removeEntry_losesAtMost faults area issue.relativePath hTree).mono
        intro path hPath
        exact ⟨area, rfl, hPath⟩
      rcases hRun : removeEntry env device faults area issue.relativePath tree with ⟨outcome, after⟩
      rw [hRun] at hRemoved
      cases outcome with
      | ok deleted =>
          rw [tryExcept_ok hRun]
          exact hRemoved
      | error e =>
          rw [tryExcept_error hRun]
          split_ifs
          · exact hRemoved
          · exact hRemoved

/-- The loop loses at most what its issues lead to. -/
theorem cleanupIssues_losesAtMost (removal : Nat → RemovalEnvironment) (issues : List Issue) (index : Nat)
    {tree : Directory} (hTree : tree.WellFormed fun _ => True) :
    LosesAtMost (fun path => ∃ issue ∈ issues, ∃ area, issue.storageArea = some area ∧
        Leads env.links env.paths tree area issue.relativePath path) tree
      (cleanupIssues env device removal index issues tree).2 := by
  induction issues generalizing index tree with
  | nil => exact LosesAtMost.refl hTree
  | cons issue issues ih =>
      have hFirst : LosesAtMost (fun path => ∃ other ∈ issue :: issues, ∃ area, other.storageArea = some area ∧
          Leads env.links env.paths tree area other.relativePath path) tree
            (cleanupIssue env device (removal index) issue tree).2 := by
        apply (cleanupIssue_losesAtMost (removal index) issue hTree).mono
        intro path hPath
        exact ⟨issue, List.mem_cons_self, hPath⟩
      unfold cleanupIssues
      rcases hRun : cleanupIssue env device (removal index) issue tree with ⟨outcome, mid⟩
      rw [hRun] at hFirst
      cases outcome with
      | error e =>
          rw [bind_error hRun]
          exact hFirst
      | ok deleted =>
          rw [bind_ok hRun, bind_pure_state]
          apply hFirst.trans
          apply (ih (index + 1) hFirst.wellFormed).mono
          rintro path ⟨other, hOther, area, hArea, names, hNames, rfl⟩
          refine ⟨other, List.mem_cons_of_mem _ hOther, area, hArea, names, hNames, ?_⟩
          rw [realPathFrom_congr _ hFirst.links]

end Removal

/-- Three directories, none of which lies in another. -/
structure Layout (paths : StoragePaths) (tree : Directory) (contents : StorageArea → Directory) : Prop where
  roots : Roots paths tree contents
  areas : ∀ first second, first ≠ second → ¬paths.root first <+: paths.root second
  temporary : ∀ area, ¬paths.temporary <+: paths.root area ∧ ¬paths.root area <+: paths.temporary

section Scan

variable {env : ScanEnvironment} {tree : Directory} {contents : StorageArea → Directory}

/-- Below different areas there are different paths. -/
theorem Layout.place_inj {paths : StoragePaths} (h : Layout paths tree contents) {first second : StorageArea}
    {names others : List PyStr} (hSame : paths.root first ++ names = paths.root second ++ others) :
    first = second ∧ names = others := by
  have hArea : first = second := by
    by_contra hNe
    rcases List.prefix_or_prefix_of_prefix (List.prefix_append (paths.root first) names)
      ⟨others, hSame.symm⟩ with hPrefix | hPrefix
    · exact h.areas first second hNe hPrefix
    · exact h.areas second first (Ne.symm hNe) hPrefix
  subst hArea
  exact ⟨rfl, List.append_cancel_left hSame⟩

/-- What the scan reports about an area: each entry that it does not recognise. -/
theorem mem_orphanIssues (h : Roots env.paths tree contents) {known : List PyStr} {issue : Issue} :
    issue ∈ orphanIssues env known tree ↔ ∃ area names leaf, (contents area).file? names = some leaf ∧
      entryIssue env known area (names, leaf) = some issue := by
  have hArea (area : StorageArea) : issue ∈ areaIssues env known tree area ↔
      ∃ names leaf, (contents area).file? names = some leaf ∧ entryIssue env known area (names, leaf) = some issue := by
    rw [areaIssues_eq h, List.mem_filterMap]
    constructor
    · rintro ⟨⟨names, leaf⟩, hEntry, hIssue⟩
      exact ⟨names, leaf, (mem_walkFiles_all (h.content area)).mp hEntry, hIssue⟩
    · rintro ⟨names, leaf, hFile, hIssue⟩
      exact ⟨(names, leaf), (mem_walkFiles_all (h.content area)).mpr hFile, hIssue⟩
  unfold orphanIssues
  rw [mem_sortIssues, List.mem_append, hArea, hArea]
  constructor
  · rintro (hIssue | hIssue)
    · exact ⟨.quarantine, hIssue⟩
    · exact ⟨.software, hIssue⟩
  · rintro ⟨area, hIssue⟩
    cases area with
    | quarantine => exact Or.inl hIssue
    | software => exact Or.inr hIssue

/-- An issue names the entry that it is about. -/
theorem of_entryIssue {known : List PyStr} {area : StorageArea} {names : List PyStr} {leaf : Leaf} {issue : Issue}
    (h : entryIssue env known area (names, leaf) = some issue) : issue.storageArea = some area ∧
      issue.relativePath = joinSlash names ∧ issue.fileId = none := by
  unfold entryIssue at h
  dsimp only at h
  by_cases hStat : env.lstat area names = none
  · rw [if_neg (not_not.mpr hStat)] at h
    cases leaf with
    | file content =>
        dsimp only at h
        split_ifs at h
        cases h
        exact ⟨rfl, rfl, rfl⟩
    | symlink target =>
        cases h
        exact ⟨rfl, rfl, rfl⟩
    | special =>
        cases h
        exact ⟨rfl, rfl, rfl⟩
  · rw [if_pos hStat] at h
    cases h
    exact ⟨rfl, rfl, rfl⟩

/-- A regular file has an issue if nothing refers to it, or its status cannot be read. -/
theorem entryIssue_file_isSome {known : List PyStr} {area : StorageArea} {names : List PyStr} {content : Bytes} :
    (∃ issue, entryIssue env known area (names, .file content) = some issue) ↔
      env.lstat area names ≠ none ∨ joinSlash names ∉ known := by
  unfold entryIssue
  dsimp only
  by_cases hStat : env.lstat area names = none
  · by_cases hKnown : joinSlash names ∈ known
    · simp [hStat, hKnown]
    · simp [hStat, hKnown]
  · simp [hStat]

end Scan

/-- No file is lost but regular ones below the areas, and none that a row refers to. -/
structure OnlyUnreferenced (paths : StoragePaths) (contents : StorageArea → Directory) (before after : Host) : Prop where
  referenced : ∀ area names content, (contents area).file? names = some (.file content) →
    joinSlash names ∈ knownPaths before.database → after.tree.file? (paths.root area ++ names) = some (.file content)
  regular : ∀ path leaf, before.tree.file? path = some leaf → after.tree.file? path ≠ some leaf →
    ∃ area names content, path = paths.root area ++ names ∧ leaf = .file content
  rows : after.database = before.database

/-- The scan can read the status of every regular file that a row refers to,
if the path of the file is one the removal accepts. -/
def ReferencedScanned (env : ScanEnvironment) (contents : StorageArea → Directory) (database : Database) : Prop :=
  ∀ area names content, (contents area).file? names = some (.file content) → joinSlash names ∈ knownPaths database →
    0x5C ∉ joinSlash names → env.lstat area names = none

section Safety

variable {env : ScanEnvironment} {device : List PyStr → Nat} {removal : Nat → RemovalEnvironment} {host : Host}
  {contents : StorageArea → Directory}

/-- The state that the call leaves is that of the loop over the issues. -/
theorem cleanupOrphans_state : (cleanupOrphans env device removal false host).2 = { host with
    tree := (cleanupIssues env device removal 0 (orphanIssues env (knownPaths host.database) host.tree) host.tree).2 } := by
  unfold cleanupOrphans
  rw [read_bind, read_bind, if_pos rfl, bind_pure_state]
  unfold onTree
  rfl

/-- What the walk reports leads to the reported entry, if it leads anywhere. -/
theorem names_of_rejectUnsafeRelativePath {names found : List PyStr} (hNil : names ≠ [])
    (hNames : ∀ name ∈ names, IsFileName name)
    (h : rejectUnsafeRelativePath (posixText (joinSlash names)) = .ok found) : found = names ∧ 0x5C ∉ joinSlash names := by
  rw [posixText_joinSlash hNil hNames] at h
  have hBackslash : 0x5C ∉ joinSlash names := by
    intro hMem
    unfold rejectUnsafeRelativePath at h
    rw [if_pos (Or.inr (Or.inr hMem))] at h
    cases h
  rw [rejectUnsafeRelativePath_joinSlash hNil hNames hBackslash] at h
  exact ⟨(Except.ok.inj h).symm, hBackslash⟩

/-- Whatever fails, only unreferenced files are lost, as the issues name no other. -/
theorem onlyUnreferenced_of_scanned (h : Layout env.paths host.tree contents)
    (hScanned : ReferencedScanned env contents host.database) :
    OnlyUnreferenced env.paths contents host (cleanupOrphans env device removal false host).2 := by
  have hTree : host.tree.WellFormed fun _ => True := h.roots.wellFormed.mono fun _ _ => trivial
  have hLoss := @cleanupIssues_losesAtMost env device removal (orphanIssues env (knownPaths host.database) host.tree) 0
    host.tree hTree
  rw [cleanupOrphans_state]
  -- A lost path is that of a reported entry.
  have hLost : ∀ path, (∃ issue ∈ orphanIssues env (knownPaths host.database) host.tree, ∃ area,
      issue.storageArea = some area ∧ Leads env.links env.paths host.tree area issue.relativePath path) →
      ∃ area names leaf, path = env.paths.root area ++ names ∧ (contents area).file? names = some leaf ∧
        0x5C ∉ joinSlash names ∧ ∃ issue, entryIssue env (knownPaths host.database) area (names, leaf) = some issue := by
    rintro path ⟨issue, hIssue, found, hArea, others, hOthers, rfl⟩
    obtain ⟨area, names, leaf, hFile, hEntry⟩ := (mem_orphanIssues h.roots).mp hIssue
    obtain ⟨hIssueArea, hIssuePath, -⟩ := of_entryIssue hEntry
    obtain rfl : area = found := Option.some.inj (hIssueArea.symm.trans hArea)
    obtain ⟨hNil, hNames⟩ := h.roots.fileNames hFile
    rw [hIssuePath] at hOthers
    obtain ⟨rfl, hBackslash⟩ := names_of_rejectUnsafeRelativePath hNil hNames hOthers
    rw [realPathFrom_of_dir (h.roots.root area)]
    exact ⟨area, others, leaf, rfl, hFile, hBackslash, issue, hEntry⟩
  refine ⟨?_, ?_, rfl⟩
  · intro area names content hFile hKnown
    have hHere : host.tree.file? (env.paths.root area ++ names) = some (.file content) := by
      rw [h.roots.file?, hFile]
    rcases hLoss.files _ _ hHere with hKept | ⟨hPath, -⟩
    · exact hKept
    · obtain ⟨found, others, leaf, hSame, hOther, hBackslash, hIssue⟩ := hLost _ hPath
      obtain ⟨rfl, rfl⟩ := h.place_inj hSame
      obtain rfl : Leaf.file content = leaf := Option.some.inj (hFile.symm.trans hOther)
      rcases entryIssue_file_isSome.mp hIssue with hStat | hUnknown
      · exact (hStat (hScanned area names content hFile hKnown hBackslash)).elim
      · exact (hUnknown hKnown).elim
  · intro path leaf hFile hGone
    rcases hLoss.files path leaf hFile with hKept | ⟨hPath, content, rfl⟩
    · exact (hGone hKept).elim
    · obtain ⟨area, names, -, hSame, -⟩ := hLost path hPath
      exact ⟨area, names, content, hSame, rfl⟩

end Safety

end SoftwareHub.Reconciliation
