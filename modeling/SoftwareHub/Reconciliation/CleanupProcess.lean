import SoftwareHub.Lifecycle.UploadProcess
import SoftwareHub.Reconciliation.Cleanup

/-! The removal of orphans step by step: the snapshot of the rows, the walk
directory by directory and entry by entry, and for each issue the check, the staging
and the deletion. Between two steps other processes take theirs. -/
namespace SoftwareHub.Reconciliation

open SoftwareHub.Python SoftwareHub.Tree SoftwareHub.Semantics SoftwareHub.Catalog SoftwareHub.Lifecycle Program
open SoftwareHub.Backup (Directory Leaf isSymlink)
open SoftwareHub.Storage (StorageArea posixText realPathFrom rejectUnsafeRelativePath safeResolve)

/-- A walk on its way: the directories it has still to list, the entries of
the last one it has still to look at, and the issues so far. -/
structure Walk where
  known : List PyStr
  directories : List (StorageArea × List PyStr)
  entries : List (StorageArea × List PyStr)
  issues : List Issue

/-- The issues that are left are removed one after another; the iterations are numbered. -/
inductive CleanupStage
  | reading
  | walking (walk : Walk)
  | removing (index : Nat) (issues : List Issue)
  | staging (index : Nat) (stored : StoredFile) (issues : List Issue)
  | unlinking (index : Nat) (staged : StagedDeletion) (issues : List Issue)
  | finished

/-- A removal under way. -/
structure Cleanup where
  env : ScanEnvironment
  device : List PyStr → Nat
  removal : Nat → RemovalEnvironment
  stage : CleanupStage

def Cleanup.at (cleanup : Cleanup) (stage : CleanupStage) : Cleanup := { cleanup with stage := stage }

section Steps

variable (env : ScanEnvironment)

def Walk.start (known : List PyStr) : Walk := ⟨known, [(.quarantine, []), (.software, [])], [], []⟩

/-- One directory is listed. One that is gone is passed over, but for the root of an area. -/
def Walk.list (walk : Walk) (area : StorageArea) (names : List PyStr) (directories : List (StorageArea × List PyStr))
    (tree : Directory) : Walk :=
  match tree.node? (env.paths.root area ++ names) with
  | some (.dir content) => { walk with
      directories := content.directoryNames.map (fun name => (area, names ++ [name])) ++ directories
      entries := content.leaves.map fun entry => (area, names ++ [entry.1]) }
  | _ => { walk with
      directories := directories
      issues := if names = [] then walk.issues ++ [⟨.unsafeStorageEntry, py ".", none, some area, none, none⟩]
        else walk.issues }

/-- `path.lstat()` of one entry, and what is reported about it. -/
def lookAt (known : List PyStr) (area : StorageArea) (names : List PyStr) (tree : Directory) : Option Issue :=
  match tree.file? (env.paths.root area ++ names) with
  | some leaf => entryIssue env known area (names, leaf)
  | none => some ⟨.unsafeStorageEntry, joinSlash names, none, some area, none, none⟩

/-- The checks before an entry is staged; `none` counts as an error. -/
def checkEntry (faults : RemovalEnvironment) (issue : Issue) (tree : Directory) : Except PyException (Option StoredFile) :=
  match issue.storageArea with
  | none => .ok none
  | some area => do
      let path ← safeResolve env.links faults.resolveRoot faults.resolve (env.paths.root area) (posixText issue.relativePath)
        true true tree
      match faults.lstat with
      | some e => .error (.os e)
      | none => match tree.node? path with
          | some (.leaf (.file content)) => return some ⟨area, posixText issue.relativePath, path, content.length⟩
          | _ => return none

end Steps

namespace Cleanup

/-- A failure of the file system ends the iteration, any other the run. -/
def skip (cleanup : Cleanup) (index : Nat) (issues : List Issue) (e : PyException) : Cleanup :=
  if isStorageFailure e = true then cleanup.at (.removing (index + 1) issues) else cleanup.at .finished

/-- One step: the snapshot, a listing, the look at one entry, the check of an issue,
its staging or its deletion. -/
def step (cleanup : Cleanup) (host : Host) : Cleanup × Host :=
  match cleanup.stage with
  | .reading => (cleanup.at (.walking (Walk.start (knownPaths host.database))), host)
  | .walking walk => match walk.entries with
      | (area, names) :: entries => (cleanup.at (.walking { walk with
          entries := entries
          issues := walk.issues ++ (lookAt cleanup.env walk.known area names host.tree).toList }), host)
      | [] => match walk.directories with
          | (area, names) :: directories =>
              (cleanup.at (.walking (walk.list cleanup.env area names directories host.tree)), host)
          | [] => (cleanup.at (.removing 0 (sortIssues walk.issues)), host)
  | .removing _ [] => (cleanup.at .finished, host)
  | .removing index (issue :: issues) => match checkEntry cleanup.env (cleanup.removal index) issue host.tree with
      | .ok (some stored) => (cleanup.at (.staging index stored issues), host)
      | .ok none => (cleanup.at (.removing (index + 1) issues), host)
      | .error e => (cleanup.skip index issues e, host)
  | .staging index stored issues =>
      match stageForPermanentDeletion ⟨cleanup.env.links, cleanup.device, (cleanup.removal index).move⟩ cleanup.env.paths
        (cleanup.removal index).uuid stored host.tree with
      | (.ok staged, tree) => (cleanup.at (.unlinking index staged issues), { host with tree := tree })
      | (.error e, tree) => (cleanup.skip index issues e, { host with tree := tree })
  | .unlinking index staged issues =>
      match unlinkStagedDeletion cleanup.env.links (cleanup.removal index).unlink cleanup.env.paths staged host.tree with
      | (.ok _, tree) => (cleanup.at (.removing (index + 1) issues), { host with tree := tree })
      | (.error e, tree) => (cleanup.skip index issues e, { host with tree := tree })
  | .finished => (cleanup, host)

/-- Skipping an entry leaves the environment of the removal. -/
theorem skip_env (cleanup : Cleanup) (index : Nat) (issues : List Issue) (e : PyException) :
    (cleanup.skip index issues e).env = cleanup.env := by
  unfold skip
  split_ifs <;> rfl

theorem step_env (cleanup : Cleanup) (host : Host) : (cleanup.step host).1.env = cleanup.env := by
  unfold step
  split
  · rfl
  · split
    · rfl
    · split <;> rfl
  · rfl
  · split
    · rfl
    · rfl
    · exact skip_env _ _ _ _
  · split
    · rfl
    · exact skip_env _ _ _ _
  · split
    · rfl
    · exact skip_env _ _ _ _
  · rfl

end Cleanup

/-- The check, the staging and the deletion are the removal of an entry. -/
theorem removeEntry_eq (env : ScanEnvironment) (device : List PyStr → Nat) (faults : RemovalEnvironment) (issue : Issue)
    {area : StorageArea} (hArea : issue.storageArea = some area) :
    removeEntry env device faults area issue.relativePath = (do
      match ← lift (checkEntry env faults issue (← read id)) with
      | none => return false
      | some stored => do
          let staged ← stageForPermanentDeletion ⟨env.links, device, faults.move⟩ env.paths faults.uuid stored
          unlinkStagedDeletion env.links faults.unlink env.paths staged
          return true) := by
  funext tree
  unfold removeEntry checkEntry
  rw [hArea, read_bind, read_bind]
  dsimp only [id]
  cases safeResolve env.links faults.resolveRoot faults.resolve (env.paths.root area) (posixText issue.relativePath) true true
      tree with
  | error e => rfl
  | ok path =>
      rw [lift_ok_bind, except_bind_ok rfl]
      cases faults.lstat with
      | some e => rfl
      | none =>
          cases tree.node? path with
          | none => rfl
          | some entry =>
              cases entry with
              | dir sub => rfl
              | leaf value => cases value <;> rfl

/-- Below the areas there are regular files only, and their names are file names. -/
def RegularAreas (paths : StoragePaths) (tree : Directory) : Prop :=
  ∀ area names leaf, tree.file? (paths.root area ++ names) = some leaf →
    names ≠ [] ∧ (∀ name ∈ names, IsFileName name) ∧ ∃ content, leaf = .file content

def StagedPath (paths : StoragePaths) (path : List PyStr) : Prop :=
  ∃ uuid, path = paths.temporary ++ [deletionsName, stagedName uuid]

section Sound

variable (referenced : List PyStr → Prop)

/-- The path of an issue leads to no referenced file. -/
def Harmless (relativePath : PyStr) : Prop :=
  ∀ names, rejectUnsafeRelativePath relativePath = .ok names → (∀ name ∈ names, IsFileName name) ∧ ¬referenced names

/-- An entry that was seen is still there, or nothing refers to it. -/
def SeenEntry (paths : StoragePaths) (tree : Directory) (area : StorageArea) (names : List PyStr) : Prop :=
  names ≠ [] ∧ (∀ name ∈ names, IsFileName name) ∧
    ((∃ leaf, tree.file? (paths.root area ++ names) = some leaf) ∨ ¬referenced names)

/-- What a removal relies on at each stage: what it is about to remove is not
referenced. -/
def Cleanup.Sound (cleanup : Cleanup) (tree : Directory) : Prop :=
  match cleanup.stage with
  | .reading => True
  | .walking walk => (∀ entry ∈ walk.entries, SeenEntry referenced cleanup.env.paths tree entry.1 entry.2) ∧
      ∀ issue ∈ walk.issues, Harmless referenced (posixText issue.relativePath)
  | .removing _ issues => ∀ issue ∈ issues, Harmless referenced (posixText issue.relativePath)
  | .staging _ stored issues => Harmless referenced stored.relativePath ∧
      ∀ issue ∈ issues, Harmless referenced (posixText issue.relativePath)
  | .unlinking _ staged issues => (∃ uuid, staged.stagedRelativePath = stagedRelativePath uuid) ∧
      ∀ issue ∈ issues, Harmless referenced (posixText issue.relativePath)
  | .finished => True

/-- Where a step removes a file. -/
def Cleanup.Removes (cleanup : Cleanup) (path : List PyStr) : Prop :=
  (∃ area names, (∀ name ∈ names, IsFileName name) ∧ ¬referenced names ∧ path = cleanup.env.paths.root area ++ names) ∨
    StagedPath cleanup.env.paths path

/-- What one step does. -/
structure Cleanup.Effect (cleanup : Cleanup) (host : Host) (after : Cleanup × Host) : Prop where
  changes : Changes (cleanup.Removes referenced) (StagedPath cleanup.env.paths) host.tree after.2.tree
  rows : after.2.database = host.database
  sound : after.1.Sound referenced after.2.tree

/-- The next entry of the walk, if it is referenced and there, is known from the snapshot, and its status can be read. -/
def Cleanup.Recognizes (cleanup : Cleanup) (tree : Directory) : Prop :=
  ∀ walk area names entries, cleanup.stage = .walking walk → walk.entries = (area, names) :: entries → referenced names →
    (∃ leaf, tree.file? (cleanup.env.paths.root area ++ names) = some leaf) →
    joinSlash names ∈ walk.known ∧ cleanup.env.lstat area names = none

end Sound

section Effects

variable {referenced : List PyStr → Prop} {cleanup : Cleanup} {host : Host}

/-- The path of an unreferenced entry is harmless. -/
theorem harmless_joinSlash {names : List PyStr} (hNil : names ≠ []) (hNames : ∀ name ∈ names, IsFileName name)
    (hFree : ¬referenced names) : Harmless referenced (posixText (joinSlash names)) := by
  intro found hFound
  obtain ⟨rfl, -⟩ := names_of_rejectUnsafeRelativePath hNil hNames hFound
  exact ⟨hNames, hFree⟩

/-- What the walk reports about an entry is not referenced. -/
theorem harmless_of_lookAt {env : ScanEnvironment} {known : List PyStr} {tree : Directory} {area : StorageArea}
    {names : List PyStr} {issue : Issue} (hRegular : RegularAreas env.paths tree)
    (hSeen : SeenEntry referenced env.paths tree area names)
    (hKnown : referenced names → (∃ leaf, tree.file? (env.paths.root area ++ names) = some leaf) →
      joinSlash names ∈ known ∧ env.lstat area names = none)
    (h : lookAt env known area names tree = some issue) : Harmless referenced (posixText issue.relativePath) := by
  obtain ⟨hNil, hNames, hThere⟩ := hSeen
  unfold lookAt at h
  cases hFile : tree.file? (env.paths.root area ++ names) with
  | none =>
      rw [hFile] at h
      cases h
      rcases hThere with ⟨leaf, hLeaf⟩ | hFree
      · rw [hFile] at hLeaf
        cases hLeaf
      · exact harmless_joinSlash hNil hNames hFree
  | some leaf =>
      rw [hFile] at h
      obtain ⟨-, hPath, -⟩ := of_entryIssue h
      rw [hPath]
      apply harmless_joinSlash hNil hNames
      intro hReferenced
      obtain ⟨-, -, content, rfl⟩ := hRegular area names leaf hFile
      obtain ⟨hIn, hStat⟩ := hKnown hReferenced ⟨_, hFile⟩
      rcases entryIssue_file_isSome.mp ⟨issue, h⟩ with hFault | hUnknown
      · exact hFault hStat
      · exact hUnknown hIn

/-- The root of an area is no file. -/
theorem harmless_dot : Harmless referenced (posixText (py ".")) := by
  intro names hNames
  have hRefused : rejectUnsafeRelativePath (posixText (py ".")) = .error (.storageError "The storage path is invalid.") := by
    rfl
  rw [hRefused] at hNames
  cases hNames

theorem walk_list_sound {env : ScanEnvironment} {tree : Directory} (hTree : DistinctNames tree)
    (hRegular : RegularAreas env.paths tree) {walk : Walk} (hEntries : walk.entries = [])
    (hIssues : ∀ issue ∈ walk.issues, Harmless referenced (posixText issue.relativePath)) (area : StorageArea)
    (names : List PyStr) (directories : List (StorageArea × List PyStr)) :
    (∀ entry ∈ (walk.list env area names directories tree).entries,
      SeenEntry referenced env.paths tree entry.1 entry.2) ∧
      ∀ issue ∈ (walk.list env area names directories tree).issues,
        Harmless referenced (posixText issue.relativePath) := by
  have hNothing : ∀ entry ∈ walk.entries, SeenEntry referenced env.paths tree entry.1 entry.2 := by
    rw [hEntries]
    exact fun _ h => absurd h List.not_mem_nil
  have hRefused : ∀ issue ∈ (if names = [] then walk.issues ++ [⟨.unsafeStorageEntry, py ".", none, some area, none, none⟩]
      else walk.issues), Harmless referenced (posixText issue.relativePath) := by
    split_ifs
    · intro issue hIssue
      rcases List.mem_append.mp hIssue with hOld | hNew
      · exact hIssues issue hOld
      · rw [List.mem_singleton.mp hNew]
        exact harmless_dot
    · exact hIssues
  unfold Walk.list
  cases hNode : tree.node? (env.paths.root area ++ names) with
  | none => exact ⟨hNothing, hRefused⟩
  | some entry =>
      cases entry with
      | leaf value => exact ⟨hNothing, hRefused⟩
      | dir content =>
          refine ⟨?_, hIssues⟩
          intro entry hEntry
          obtain ⟨⟨name, leaf⟩, hLeaf, rfl⟩ := List.mem_map.mp hEntry
          have hContent : content.WellFormed fun _ => True := (hTree.node? hNode).2
          have hFind := (Forest.mem_leaves_iff hContent name leaf).mp hLeaf
          have hFile : tree.file? (env.paths.root area ++ (names ++ [name])) = some leaf := by
            rw [← List.append_assoc, Forest.file?_append hNode, Forest.file?_cons, hFind]
            rfl
          obtain ⟨hNil, hNames, -⟩ := hRegular area _ leaf hFile
          exact ⟨hNil, hNames, Or.inl ⟨leaf, hFile⟩⟩

/-- The issues that are left stay harmless. -/
theorem skip_sound (index : Nat) {issues : List Issue} (e : PyException) {tree : Directory}
    (hIssues : ∀ issue ∈ issues, Harmless referenced (posixText issue.relativePath)) :
    (cleanup.skip index issues e).Sound referenced tree := by
  unfold Cleanup.skip
  split_ifs
  · exact hIssues
  · exact trivial

/-- A step that changes nothing but the stage. -/
theorem Cleanup.Effect.of_same (stage : CleanupStage) (hTree : DistinctNames host.tree)
    (hSound : (cleanup.at stage).Sound referenced host.tree) : cleanup.Effect referenced host (cleanup.at stage, host) :=
  ⟨Changes.refl hTree, rfl, hSound⟩

/-- The entries that the walk has still to look at. -/
theorem Cleanup.Sound.seen {tree : Directory} (h : cleanup.Sound referenced tree) {walk : Walk} {area : StorageArea}
    {names : List PyStr} {entries : List (StorageArea × List PyStr)} (hStage : cleanup.stage = .walking walk)
    (hEntries : walk.entries = (area, names) :: entries) : SeenEntry referenced cleanup.env.paths tree area names := by
  unfold Cleanup.Sound at h
  rw [hStage] at h
  exact h.1 (area, names) (hEntries ▸ List.mem_cons_self)

/-- The walk: an entry that it does not know is not referenced. -/
theorem walking_effect (hTree : DistinctNames host.tree) (hRegular : RegularAreas cleanup.env.paths host.tree)
    (hRecognizes : cleanup.Recognizes referenced host.tree) (hSound : cleanup.Sound referenced host.tree) {walk : Walk}
    (hStage : cleanup.stage = .walking walk) : cleanup.Effect referenced host (cleanup.step host) := by
  have hBefore := hSound
  unfold Cleanup.Sound at hSound
  rw [hStage] at hSound
  unfold Cleanup.step
  rw [hStage]
  dsimp only
  cases hEntries : walk.entries with
  | cons entry entries =>
      obtain ⟨area, names⟩ := entry
      apply Cleanup.Effect.of_same (.walking _) hTree
      refine ⟨fun other hOther => hSound.1 other (hEntries ▸ List.mem_cons_of_mem _ hOther), ?_⟩
      intro issue hIssue
      rcases List.mem_append.mp hIssue with hOld | hNew
      · exact hSound.2 issue hOld
      · exact harmless_of_lookAt hRegular (hBefore.seen hStage hEntries)
          (hRecognizes walk area names entries hStage hEntries) (Option.mem_toList.mp hNew)
  | nil =>
      cases walk.directories with
      | nil =>
          apply Cleanup.Effect.of_same (.removing 0 _) hTree
          exact fun issue hIssue => hSound.2 issue (mem_sortIssues.mp hIssue)
      | cons directory directories =>
          obtain ⟨area, names⟩ := directory
          exact Cleanup.Effect.of_same (.walking _) hTree
            (walk_list_sound hTree hRegular hEntries hSound.2 area names directories)

/-- A checked entry is stored under the path of its issue. -/
theorem relativePath_of_checkEntry {env : ScanEnvironment} {faults : RemovalEnvironment} {issue : Issue} {tree : Directory}
    {stored : StoredFile} (h : checkEntry env faults issue tree = .ok (some stored)) :
    stored.relativePath = posixText issue.relativePath := by
  unfold checkEntry at h
  split at h
  · cases h
  · obtain ⟨path, -, h⟩ := except_bind_eq_ok h
    split at h
    · cases h
    · split at h
      · cases h
        rfl
      · cases h

theorem removing_effect (hTree : DistinctNames host.tree) (hSound : cleanup.Sound referenced host.tree) {index : Nat}
    {issues : List Issue} (hStage : cleanup.stage = .removing index issues) :
    cleanup.Effect referenced host (cleanup.step host) := by
  unfold Cleanup.Sound at hSound
  rw [hStage] at hSound
  unfold Cleanup.step
  rw [hStage]
  cases issues with
  | nil => exact Cleanup.Effect.of_same .finished hTree trivial
  | cons issue issues =>
      have hRest : ∀ other ∈ issues, Harmless referenced (posixText other.relativePath) :=
        fun other hOther => hSound other (List.mem_cons_of_mem _ hOther)
      dsimp only
      split
      · rename_i stored hCheck
        apply Cleanup.Effect.of_same (.staging index stored issues) hTree
        refine ⟨?_, hRest⟩
        rw [relativePath_of_checkEntry hCheck]
        exact hSound issue List.mem_cons_self
      · exact Cleanup.Effect.of_same (.removing (index + 1) issues) hTree hRest
      · rename_i e _
        exact ⟨Changes.refl hTree, rfl, skip_sound index e hRest⟩

theorem staging_effect (hTree : DistinctNames host.tree) (hUnlinked : Unlinked cleanup.env.paths host.tree)
    (hSound : cleanup.Sound referenced host.tree) {index : Nat} {stored : StoredFile} {issues : List Issue}
    (hStage : cleanup.stage = .staging index stored issues) : cleanup.Effect referenced host (cleanup.step host) := by
  unfold Cleanup.Sound at hSound
  rw [hStage] at hSound
  have hChanges : Changes (cleanup.Removes referenced) (StagedPath cleanup.env.paths) host.tree
      (stageForPermanentDeletion ⟨cleanup.env.links, cleanup.device, (cleanup.removal index).move⟩ cleanup.env.paths
        (cleanup.removal index).uuid stored host.tree).2 := by
    unfold stageForPermanentDeletion
    rw [bind_pure_state]
    apply (atomicMove_changes _ _ hTree).mono
    · rintro path ⟨names, hNames, rfl⟩
      obtain ⟨hValid, hFree⟩ := hSound.1 names hNames
      exact Or.inl ⟨stored.area, names, hValid, hFree, hUnlinked.realPath (Or.inr ⟨_, rfl⟩) _ _⟩
    · rintro path ⟨names, hNames, rfl⟩
      obtain rfl : [deletionsName, stagedName (cleanup.removal index).uuid] = names :=
        Except.ok.inj ((rejectUnsafeRelativePath_staged _).symm.trans hNames)
      exact ⟨_, hUnlinked.realPath (Or.inl rfl) _ _⟩
  unfold Cleanup.step
  rw [hStage]
  dsimp only
  rcases hRun : stageForPermanentDeletion ⟨cleanup.env.links, cleanup.device, (cleanup.removal index).move⟩ cleanup.env.paths
    (cleanup.removal index).uuid stored host.tree with ⟨outcome, tree⟩
  rw [hRun] at hChanges
  cases outcome with
  | error e => exact ⟨hChanges, rfl, skip_sound index e hSound.2⟩
  | ok staged =>
      obtain ⟨result, mid, -, hStaged⟩ := bind_eq_ok hRun
      cases hStaged
      exact ⟨hChanges, rfl, ⟨_, rfl⟩, hSound.2⟩

theorem unlinking_effect (hTree : DistinctNames host.tree) (hUnlinked : Unlinked cleanup.env.paths host.tree)
    (hSound : cleanup.Sound referenced host.tree) {index : Nat} {staged : StagedDeletion} {issues : List Issue}
    (hStage : cleanup.stage = .unlinking index staged issues) : cleanup.Effect referenced host (cleanup.step host) := by
  unfold Cleanup.Sound at hSound
  rw [hStage] at hSound
  obtain ⟨⟨uuid, hStaged⟩, hIssues⟩ := hSound
  have hChanges : Changes (cleanup.Removes referenced) (StagedPath cleanup.env.paths) host.tree
      (unlinkStagedDeletion cleanup.env.links (cleanup.removal index).unlink cleanup.env.paths staged host.tree).2 := by
    apply (unlinkStagedDeletion_changes _ _ _ _ hTree).mono
    · rintro path ⟨names, hNames, rfl⟩
      rw [hStaged] at hNames
      obtain rfl : [deletionsName, stagedName uuid] = names :=
        Except.ok.inj ((rejectUnsafeRelativePath_staged _).symm.trans hNames)
      exact Or.inr ⟨uuid, hUnlinked.realPath (Or.inl rfl) _ _⟩
    · exact fun _ h => h.elim
  unfold Cleanup.step
  rw [hStage]
  dsimp only
  rcases hRun : unlinkStagedDeletion cleanup.env.links (cleanup.removal index).unlink cleanup.env.paths staged host.tree with
    ⟨outcome, tree⟩
  rw [hRun] at hChanges
  cases outcome with
  | error e => exact ⟨hChanges, rfl, skip_sound index e hIssues⟩
  | ok _ => exact ⟨hChanges, rfl, hIssues⟩

/-- What one step of the removal does, whatever fails. -/
theorem Cleanup.step_effect (hTree : DistinctNames host.tree) (hUnlinked : Unlinked cleanup.env.paths host.tree)
    (hRegular : RegularAreas cleanup.env.paths host.tree) (hRecognizes : cleanup.Recognizes referenced host.tree)
    (hSound : cleanup.Sound referenced host.tree) : cleanup.Effect referenced host (cleanup.step host) := by
  cases hStage : cleanup.stage with
  | reading =>
      have hStep : cleanup.step host = (cleanup.at (.walking (Walk.start (knownPaths host.database))), host) := by
        unfold Cleanup.step
        rw [hStage]
      rw [hStep]
      exact Cleanup.Effect.of_same (.walking _) hTree
        ⟨fun _ h => absurd h List.not_mem_nil, fun _ h => absurd h List.not_mem_nil⟩
  | walking walk => exact walking_effect hTree hRegular hRecognizes hSound hStage
  | removing index issues => exact removing_effect hTree hSound hStage
  | staging index stored issues => exact staging_effect hTree hUnlinked hSound hStage
  | unlinking index staged issues => exact unlinking_effect hTree hUnlinked hSound hStage
  | finished =>
      have hStep : cleanup.step host = (cleanup, host) := by
        unfold Cleanup.step
        rw [hStage]
      rw [hStep]
      exact ⟨Changes.refl hTree, rfl, hSound⟩

/-- What others do leaves the removal sound: they take no referenced file, and no more paths are referenced. -/
theorem Cleanup.Sound.of_others {tree after : Directory} {less : List PyStr → Prop} {gone added : List PyStr → Prop}
    (h : cleanup.Sound referenced tree) (hChanges : Changes gone added tree after)
    (hGone : ∀ area names, (∀ name ∈ names, IsFileName name) → gone (cleanup.env.paths.root area ++ names) → ¬less names)
    (hLess : ∀ names, (∀ name ∈ names, IsFileName name) → less names → referenced names) : cleanup.Sound less after := by
  have hPath {path : PyStr} (hFree : Harmless referenced path) : Harmless less path := by
    intro names hNames
    obtain ⟨hValid, hNot⟩ := hFree names hNames
    exact ⟨hValid, fun hMore => hNot (hLess names hValid hMore)⟩
  unfold Cleanup.Sound at h ⊢
  cases hStage : cleanup.stage with
  | reading => exact trivial
  | walking walk =>
      rw [hStage] at h
      refine ⟨?_, fun issue hIssue => hPath (h.2 issue hIssue)⟩
      intro entry hEntry
      obtain ⟨hNil, hNames, hSeen⟩ := h.1 entry hEntry
      refine ⟨hNil, hNames, ?_⟩
      rcases hSeen with ⟨leaf, hLeaf⟩ | hFree
      · rcases hChanges.kept _ leaf hLeaf with hKept | hLost
        · exact Or.inl ⟨leaf, hKept⟩
        · exact Or.inr (hGone entry.1 entry.2 hNames hLost)
      · exact Or.inr fun hMore => hFree (hLess _ hNames hMore)
  | removing index issues =>
      rw [hStage] at h
      exact fun issue hIssue => hPath (h issue hIssue)
  | staging index stored issues =>
      rw [hStage] at h
      exact ⟨hPath h.1, fun issue hIssue => hPath (h.2 issue hIssue)⟩
  | unlinking index staged issues =>
      rw [hStage] at h
      exact ⟨h.1, fun issue hIssue => hPath (h.2 issue hIssue)⟩
  | finished => exact trivial

end Effects
end SoftwareHub.Reconciliation
