import SoftwareHub.Reconciliation.CleanupRun

/-! The report after the removal of orphans, and when the removal loses nothing but
unreferenced files. -/
namespace SoftwareHub.Reconciliation

open SoftwareHub.Python SoftwareHub.Tree SoftwareHub.Semantics SoftwareHub.Catalog SoftwareHub.Lifecycle Program
open SoftwareHub.Backup (Directory Leaf isSymlink)
open SoftwareHub.Storage (StorageArea isScalar_posixText posixText posixText_joinSlash rejectUnsafeRelativePath)

/-- Areas without some of their regular files. -/
structure Swept (removed : StorageArea → List PyStr → Prop) (contents swept : StorageArea → Directory) : Prop where
  regular : ∀ area names, removed area names → ∃ content, (contents area).file? names = some (.file content)
  gone : ∀ area names, removed area names → (swept area).kind? names = none
  kept : ∀ area names, ¬removed area names → (swept area).kind? names = (contents area).kind? names

section Swept

variable {removed : StorageArea → List PyStr → Prop} {contents swept : StorageArea → Directory}

/-- Whether there is a link can be read off the kinds. -/
theorem isSymlink_eq_kind? (content : Directory) (path : List PyStr) :
    isSymlink (content.node? path) = true ↔ ∃ target, content.kind? path = some (some (.symlink target)) := by
  unfold Forest.kind?
  cases content.node? path with
  | none => simp [isSymlink]
  | some entry =>
      cases entry with
      | dir sub => simp [isSymlink, Node.payload?]
      | leaf value => cases value <;> simp [isSymlink, Node.payload?]

/-- The links are the same. -/
theorem Swept.kind?_symlink (h : Swept removed contents swept) (area : StorageArea) (names : List PyStr) (target : Backup.LinkTarget) :
    (swept area).kind? names = some (some (.symlink target)) ↔ (contents area).kind? names = some (some (.symlink target)) := by
  by_cases hRemoved : removed area names
  · obtain ⟨content, hFile⟩ := h.regular area names hRemoved
    rw [h.gone area names hRemoved, Forest.kind?_eq_leaf_iff.mpr hFile]
    simp
  · rw [h.kept area names hRemoved]

theorem Swept.isSymlink (h : Swept removed contents swept) (area : StorageArea) (names : List PyStr) :
    Backup.isSymlink ((swept area).node? names) = Backup.isSymlink ((contents area).node? names) := by
  rw [Bool.eq_iff_iff, isSymlink_eq_kind?, isSymlink_eq_kind?]
  simp only [h.kind?_symlink]

/-- A removed file is not found. -/
theorem Swept.lookUp_removed (h : Swept removed contents swept) {area : StorageArea} {names : List PyStr}
    (hRemoved : removed area names) : lookUp (swept area) names = .absent := by
  obtain ⟨content, hFile⟩ := h.regular area names hRemoved
  have hFound := lookUp_of_file hFile
  unfold lookUp at hFound ⊢
  simp only [h.isSymlink]
  split_ifs at hFound ⊢
  rw [Forest.kind?_eq_none_iff.mp (h.gone area names hRemoved)]

theorem Swept.lookUp_kept (h : Swept removed contents swept) {area : StorageArea} {names : List PyStr}
    (hKept : ¬removed area names) : lookUp (swept area) names = lookUp (contents area) names := by
  have hKind := h.kept area names hKept
  unfold lookUp
  simp only [h.isSymlink]
  split_ifs
  · rfl
  · unfold Forest.kind? at hKind
    cases hNode : (contents area).node? names with
    | none =>
        rw [hNode, Option.map_none, Option.map_eq_none_iff] at hKind
        rw [hKind]
    | some entry =>
        rw [hNode, Option.map_some, Option.map_eq_some_iff] at hKind
        obtain ⟨other, hOther, hSame⟩ := hKind
        rw [hOther]
        cases entry with
        | dir sub =>
            cases other with
            | dir sub => rfl
            | leaf value => cases hSame
        | leaf value =>
            cases other with
            | dir sub => cases hSame
            | leaf stored =>
                obtain rfl : stored = value := Option.some.inj hSame
                rfl

theorem Swept.file? (h : Swept removed contents swept) {area : StorageArea} {names : List PyStr} {leaf : Leaf} :
    (swept area).file? names = some leaf ↔ (contents area).file? names = some leaf ∧ ¬removed area names := by
  rw [← Forest.kind?_eq_leaf_iff, ← Forest.kind?_eq_leaf_iff]
  by_cases hRemoved : removed area names
  · rw [h.gone area names hRemoved]
    simp [hRemoved]
  · rw [h.kept area names hRemoved]
    simp [hRemoved]

/-- What a row finds, if nothing at its path was removed. -/
theorem Swept.rowState_kept (h : Swept removed contents swept) {path : PyStr}
    (hKept : ∀ area names, rejectUnsafeRelativePath (posixText path) = .ok names → ¬removed area names) :
    rowState swept path = rowState contents path := by
  unfold rowState
  cases hNames : rejectUnsafeRelativePath (posixText path) with
  | error e => rfl
  | ok names =>
      dsimp only
      rw [h.lookUp_kept (hKept .quarantine names hNames), h.lookUp_kept (hKept .software names hNames)]

/-- What a row finds, if every regular file at its path was removed. -/
theorem Swept.rowState_removed (h : Swept removed contents swept) {path : PyStr}
    (hRemoved : ∀ area names content, rejectUnsafeRelativePath (posixText path) = .ok names →
      (contents area).file? names = some (.file content) → removed area names) :
    rowState swept path = match rowState contents path with
      | .refused => .refused
      | _ => .missing := by
  have hLookUp (area : StorageArea) {names : List PyStr} (hNames : rejectUnsafeRelativePath (posixText path) = .ok names) :
      lookUp (swept area) names = match lookUp (contents area) names with
        | .regular _ => .absent
        | found => found := by
    cases hFound : lookUp (contents area) names with
    | regular content =>
        exact h.lookUp_removed (hRemoved area names content hNames (lookUp_eq_regular hFound))
    | absent =>
        rw [h.lookUp_kept, hFound]
        intro hGone
        obtain ⟨content, hFile⟩ := h.regular area names hGone
        rw [lookUp_of_file hFile] at hFound
        cases hFound
    | refused =>
        rw [h.lookUp_kept, hFound]
        intro hGone
        obtain ⟨content, hFile⟩ := h.regular area names hGone
        rw [lookUp_of_file hFile] at hFound
        cases hFound
  unfold rowState
  cases hNames : rejectUnsafeRelativePath (posixText path) with
  | error e => rfl
  | ok names =>
      dsimp only
      rw [hLookUp .quarantine hNames, hLookUp .software hNames]
      cases lookUp (contents .quarantine) names <;> cases lookUp (contents .software) names <;> rfl

theorem Swept.walkFiles_perm [∀ area names, Decidable (removed area names)] (h : Swept removed contents swept) (area : StorageArea) (hSwept : (swept area).WellFormed IsFileName)
    (hContents : (contents area).WellFormed IsFileName) :
    ((swept area).walkFiles fun _ => true).Perm
      (((contents area).walkFiles fun _ => true).filter fun entry => ¬removed area entry.1) := by
  have hSweptNodup := List.Nodup.of_map _ (Forest.nodup_walkFiles hSwept fun _ => true)
  have hNodup := List.Nodup.of_map _ (Forest.nodup_walkFiles hContents fun _ => true)
  apply (List.perm_ext_iff_of_nodup hSweptNodup (hNodup.filter _)).mpr
  rintro ⟨names, leaf⟩
  rw [List.mem_filter, mem_walkFiles_all hSwept, mem_walkFiles_all hContents, h.file?]
  simp

end Swept

/-- No status call of the scan fails, and the path of every orphan is accepted: an
orphan whose name has a backslash is a failing call, because `safe_resolve` raises for it. -/
structure NoCallFails (env : ScanEnvironment) (contents : StorageArea → Directory) (database : Database) : Prop where
  scan : ∀ area path, env.lstat area path = none
  resolve : ∀ area names content, (contents area).file? names = some (.file content) →
    joinSlash names ∉ knownPaths database → 0x5C ∉ joinSlash names

/-- No row finds a file at a path that it spells differently and that is no row's own. -/
def OwnSpelling (contents : StorageArea → Directory) (database : Database) : Prop :=
  ∀ row ∈ database.files, posixText row.relativeStoragePath ∉ knownPaths database →
    rowState contents row.relativeStoragePath = .refused ∨ rowState contents row.relativeStoragePath = .missing

/-- The report is the one before, without the orphans. -/
def OrphansGone (paths : StoragePaths) (before after : Host) : Prop :=
  ∀ scan, Quiet scan → scan.paths = paths → ∃ first second,
    verifyStorage scan true before.database before.tree = .ok first ∧
      verifyStorage scan true after.database after.tree = .ok second ∧
      second.issues.Perm (first.issues.filter fun issue => issue.kind ≠ .orphanFile)

/-- The regular files that no row refers to. -/
def Unreferenced (contents : StorageArea → Directory) (database : Database) (area : StorageArea) (names : List PyStr) : Prop :=
  (∃ content, (contents area).file? names = some (.file content)) ∧ joinSlash names ∉ knownPaths database

section Reports

variable {scan : ScanEnvironment} {tree after : Directory} {contents swept : StorageArea → Directory} {database : Database}

/-- Without the unreferenced files the walk has the issues that are no orphans. -/
theorem orphanIssues_swept (hScan : Quiet scan) (h : Roots scan.paths tree contents) (hAfter : Roots scan.paths after swept)
    (hSwept : Swept (Unreferenced contents database) contents swept) :
    (orphanIssues scan (knownPaths database) after).Perm
      ((orphanIssues scan (knownPaths database) tree).filter fun issue => issue.kind ≠ .orphanFile) := by
  classical
  have hArea (area : StorageArea) : (areaIssues scan (knownPaths database) after area).Perm
      ((areaIssues scan (knownPaths database) tree area).filter fun issue => issue.kind ≠ .orphanFile) := by
    rw [areaIssues_eq h, areaIssues_eq hAfter, List.filter_filterMap]
    apply ((hSwept.walkFiles_perm area (hAfter.content area) (h.content area)).filterMap _).trans
    rw [List.filterMap_filter]
    apply List.Perm.of_eq
    apply List.filterMap_congr
    rintro ⟨names, leaf⟩ hEntry
    have hFile := (mem_walkFiles_all (h.content area)).mp hEntry
    unfold entryIssue Unreferenced
    rw [if_neg (not_not.mpr (hScan.lstat area names))]
    cases leaf with
    | file content =>
        by_cases hKnown : joinSlash names ∈ knownPaths database
        · simp [hKnown]
        · simp [hKnown, hFile, Option.filter]
    | symlink target => simp [hFile, Option.filter]
    | special => simp [hFile, Option.filter]
  unfold orphanIssues sortIssues
  apply (List.perm_insertionSort _ _).trans
  apply ((hArea .quarantine).append (hArea .software)).trans
  rw [← List.filter_append]
  exact (List.perm_insertionSort _ _).symm.filter _

/-- A row whose path is known keeps what it finds. -/
theorem rowState_known (hSwept : Swept (Unreferenced contents database) contents swept) {row : ReleaseFile}
    (hText : ∀ c ∈ row.relativeStoragePath, isScalar c = true)
    (hKnown : posixText row.relativeStoragePath ∈ knownPaths database) :
    rowState swept row.relativeStoragePath = rowState contents row.relativeStoragePath := by
  apply hSwept.rowState_kept
  intro area names hNames hRemoved
  rcases rejectUnsafeRelativePath_cases (isScalar_posixText hText) with ⟨message, hRefused⟩ | ⟨hSafe, -⟩
  · rw [hRefused] at hNames
    cases hNames
  · obtain rfl := Except.ok.inj (hSafe.symm.trans hNames)
    apply hRemoved.2
    rwa [show joinSlash ((posixText row.relativeStoragePath).splitOn slash) = posixText row.relativeStoragePath from
      List.intercalate_splitOn slash]

/-- A row whose stored path is that of no row loses what it found. -/
theorem rowState_unknown (hSwept : Swept (Unreferenced contents database) contents swept) {row : ReleaseFile}
    (hText : ∀ c ∈ row.relativeStoragePath, isScalar c = true)
    (hUnknown : posixText row.relativeStoragePath ∉ knownPaths database) :
    rowState swept row.relativeStoragePath = match rowState contents row.relativeStoragePath with
      | .refused => .refused
      | _ => .missing := by
  apply hSwept.rowState_removed
  intro area names content hNames hFile
  rcases rejectUnsafeRelativePath_cases (isScalar_posixText hText) with ⟨message, hRefused⟩ | ⟨hSafe, -⟩
  · rw [hRefused] at hNames
    cases hNames
  · obtain rfl := Except.ok.inj (hSafe.symm.trans hNames)
    refine ⟨⟨content, hFile⟩, ?_⟩
    rwa [show joinSlash ((posixText row.relativeStoragePath).splitOn slash) = posixText row.relativeStoragePath from
      List.intercalate_splitOn slash]

/-- The issues of a row are never orphans, and name the row. -/
theorem kind_reportOf {item : FileMetadata} {state : RowState} {issue : Issue} (h : issue ∈ (reportOf item state).issues) :
    issue.kind ≠ .orphanFile ∧ issue.fileId = some item.fileId ∧ (issue.kind = .metadataWithoutFile → state = .missing) := by
  cases state with
  | refused =>
      rw [List.mem_singleton.mp h]
      exact ⟨nofun, rfl, nofun⟩
  | missing =>
      rw [List.mem_singleton.mp h]
      exact ⟨nofun, rfl, fun _ => rfl⟩
  | duplicated =>
      rw [List.mem_singleton.mp h]
      exact ⟨nofun, rfl, nofun⟩
  | single area names data =>
      unfold reportOf singleReport at h
      have hOne {c : Prop} [Decidable c] {kind : IssueKind} {expected actual : Option Detail}
          (hKind : kind ≠ .orphanFile ∧ kind ≠ .metadataWithoutFile)
          (hIssue : issue ∈ if c then [] else [rowIssue item kind (some area) expected actual]) :
          issue.kind ≠ .orphanFile ∧ issue.fileId = some item.fileId ∧
            (issue.kind = .metadataWithoutFile → RowState.single area names data = .missing) := by
        split_ifs at hIssue
        · cases hIssue
        · rw [List.mem_singleton.mp hIssue]
          exact ⟨hKind.1, rfl, fun h => (hKind.2 h).elim⟩
      rcases List.mem_append.mp h with h | h
      · rcases List.mem_append.mp h with h | h
        · exact hOne (by decide) h
        · exact hOne (by decide) h
      · exact hOne (by decide) h

/-- Without failing calls the orphans are gone and nothing else is reported
anew exactly if no row needs one of them under another spelling. -/
theorem orphansGone_iff {paths : StoragePaths} (h : Roots paths tree contents) (hAfter : Roots paths after swept)
    (hSwept : Swept (Unreferenced contents database) contents swept) (hText : StorableText database)
    (hIds : (database.files.map (·.id)).Nodup) (commits : Nat) :
    OrphansGone paths ⟨database, tree, commits⟩ ⟨database, after, commits⟩ ↔ OwnSpelling contents database := by
  constructor
  · intro hGone row hRow hUnknown
    let scan : ScanEnvironment := ⟨paths, id, fun _ => .never, fun _ => none, fun _ _ => none⟩
    obtain ⟨first, second, hFirst, hSecond, hPerm⟩ := hGone scan ⟨fun _ => rfl, fun _ => rfl, fun _ _ => rfl⟩ rfl
    have hScan : Quiet scan := ⟨fun _ => rfl, fun _ => rfl, fun _ _ => rfl⟩
    obtain rfl := Except.ok.inj ((verifyStorage_eq hScan h hText).symm.trans hFirst)
    obtain rfl := Except.ok.inj ((verifyStorage_eq hScan hAfter hText).symm.trans hSecond)
    have hState := rowState_unknown hSwept (hText row hRow) hUnknown
    by_contra hFinds
    have hMissing : rowState swept row.relativeStoragePath = .missing := by
      rw [hState]
      cases hBefore : rowState contents row.relativeStoragePath with
      | refused => exact (hFinds (Or.inl hBefore)).elim
      | missing => rfl
      | duplicated => rfl
      | single area names data => rfl
    -- The row is now reported as one without a file.
    have hIssue : rowIssue (metadataOf row) .metadataWithoutFile none none none ∈
        sortIssues ((metadataSnapshot database).flatMap
          (fun item => (reportOf item (rowState swept item.relativePath)).issues) ++
            orphanIssues scan (knownPaths database) after) := by
      rw [mem_sortIssues, List.mem_append, List.mem_flatMap]
      refine Or.inl ⟨metadataOf row, mem_metadataSnapshot.mpr ⟨row, hRow, rfl⟩, ?_⟩
      change _ ∈ (reportOf (metadataOf row) (rowState swept row.relativeStoragePath)).issues
      rw [hMissing]
      exact List.mem_singleton_self _
    have hBefore := (List.mem_filter.mp (hPerm.mem_iff.mp hIssue)).1
    dsimp only at hBefore
    rw [mem_sortIssues, List.mem_append, List.mem_flatMap] at hBefore
    rcases hBefore with ⟨item, hItem, hReported⟩ | hOrphan
    · obtain ⟨other, hOther, rfl⟩ := mem_metadataSnapshot.mp hItem
      obtain ⟨-, hId, hKind⟩ := kind_reportOf hReported
      obtain rfl := List.inj_on_of_nodup_map hIds hRow hOther (Option.some.inj hId)
      exact hFinds (Or.inr (hKind rfl))
    · rcases kind_of_mem_orphanIssues hOrphan with hKind | hKind <;> cases hKind
  · intro hSpelling scan hScan hPaths
    subst hPaths
    refine ⟨_, _, verifyStorage_eq hScan h hText, verifyStorage_eq hScan hAfter hText, ?_⟩
    have hRows : (metadataSnapshot database).flatMap
        (fun item => (reportOf item (rowState swept item.relativePath)).issues) =
          (metadataSnapshot database).flatMap fun item => (reportOf item (rowState contents item.relativePath)).issues := by
      apply List.flatMap_congr
      intro item hItem
      obtain ⟨row, hRow, rfl⟩ := mem_metadataSnapshot.mp hItem
      have hSame : rowState swept row.relativeStoragePath = rowState contents row.relativeStoragePath := by
        by_cases hKnown : posixText row.relativeStoragePath ∈ knownPaths database
        · exact rowState_known hSwept (hText row hRow) hKnown
        · rw [rowState_unknown hSwept (hText row hRow) hKnown]
          rcases hSpelling row hRow hKnown with hState | hState
          · rw [hState]
          · rw [hState]
      dsimp only
      rw [hSame]
    have hKept : ((metadataSnapshot database).flatMap
        fun item => (reportOf item (rowState contents item.relativePath)).issues).filter
          (fun issue => issue.kind ≠ .orphanFile) = (metadataSnapshot database).flatMap
            fun item => (reportOf item (rowState contents item.relativePath)).issues := by
      apply List.filter_eq_self.mpr
      intro issue hIssue
      obtain ⟨item, -, hReported⟩ := List.mem_flatMap.mp hIssue
      exact decide_eq_true (kind_reportOf hReported).1
    dsimp only
    rw [hRows]
    apply (List.perm_insertionSort _ _).trans
    apply ((List.Perm.refl _).append (orphanIssues_swept hScan h hAfter hSwept)).trans
    nth_rewrite 1 [← hKept]
    rw [← List.filter_append]
    exact (List.perm_insertionSort _ _).symm.filter _

end Reports

section Cleanup

variable {env : ScanEnvironment} {device : List PyStr → Nat} {removal : Nat → RemovalEnvironment} {host : Host}
  {contents : StorageArea → Directory}

/-- The files that go: those the removal accepts whose status cannot be read or that no row refers to. -/
theorem deletedBy_orphanIssues (h : Layout env.paths host.tree contents) {area : StorageArea} {names : List PyStr} :
    DeletedBy env.paths contents (orphanIssues env (knownPaths host.database) host.tree) (env.paths.root area ++ names) ↔
      ∃ content, (contents area).file? names = some (.file content) ∧ 0x5C ∉ joinSlash names ∧
        (env.lstat area names ≠ none ∨ joinSlash names ∉ knownPaths host.database) := by
  constructor
  · rintro ⟨issue, hIssue, found, others, content, hArea, hPath, hFile, hBackslash, hSame⟩
    obtain ⟨rfl, rfl⟩ := h.place_inj hSame
    obtain ⟨place, path, leaf, hEntry, hReported⟩ := (mem_orphanIssues h.roots).mp hIssue
    obtain ⟨hPlace, hJoin, -⟩ := of_entryIssue hReported
    obtain rfl : place = area := Option.some.inj (hPlace.symm.trans hArea)
    obtain rfl : path = names := joinSlash_injective (h.roots.fileNames hEntry).2 (h.roots.fileNames hFile).2
      (hJoin.symm.trans hPath)
    obtain rfl : leaf = .file content := Option.some.inj (hEntry.symm.trans hFile)
    exact ⟨content, hFile, hBackslash, entryIssue_file_isSome.mp ⟨issue, hReported⟩⟩
  · rintro ⟨content, hFile, hBackslash, hReason⟩
    obtain ⟨issue, hReported⟩ := entryIssue_file_isSome.mpr hReason
    obtain ⟨hArea, hPath, -⟩ := of_entryIssue hReported
    exact ⟨issue, (mem_orphanIssues h.roots).mpr ⟨area, names, _, hFile, hReported⟩, area, names, content, hArea, hPath,
      hFile, hBackslash, rfl⟩

/-- The call, when no call of the removal fails. -/
theorem cleanupOrphans_run (h : Layout env.paths host.tree contents) (hStaging : StagingReady env.paths host.tree)
    (hRemoval : ∀ index, (removal index).Unfailing) (hDevice : ∀ first second, device first = device second) :
    ∃ tree, (cleanupOrphans env device removal false host).2 = { host with tree := tree } ∧
      Cleaned env.paths (DeletedBy env.paths contents (orphanIssues env (knownPaths host.database) host.tree))
        host.tree tree := by
  have hStart : Cleaned env.paths (fun _ => False) host.tree host.tree :=
    ⟨h.roots.wellFormed, fun _ hFalse => hFalse.elim, fun _ hFalse => hFalse.elim, fun _ _ => Or.inl rfl⟩
  have hIssues : ∀ issue ∈ orphanIssues env (knownPaths host.database) host.tree, ∃ area names leaf,
      issue.storageArea = some area ∧ issue.relativePath = joinSlash names ∧
        (contents area).file? names = some leaf := by
    intro issue hIssue
    obtain ⟨area, names, leaf, hEntry, hReported⟩ := (mem_orphanIssues h.roots).mp hIssue
    obtain ⟨hArea, hPath, -⟩ := of_entryIssue hReported
    exact ⟨area, names, leaf, hArea, hPath, hEntry⟩
  obtain ⟨done, tree, hRun, hCleaned⟩ := cleanupIssues_run h hStaging hRemoval hDevice _ 0 hIssues hStart
  refine ⟨tree, ?_, hCleaned.congr fun path => (iff_of_eq (false_or _)).symm⟩
  rw [cleanupOrphans_state, hRun]

/-- Without failing calls the areas lose exactly their unreferenced files. -/
theorem exists_swept (h : Layout env.paths host.tree contents) (hCalls : NoCallFails env contents host.database)
    {tree : Directory} (hCleaned : Cleaned env.paths
      (DeletedBy env.paths contents (orphanIssues env (knownPaths host.database) host.tree)) host.tree tree) :
    ∃ swept, Roots env.paths tree swept ∧ Swept (Unreferenced contents host.database) contents swept := by
  choose swept hSwept using fun area => Forest.kind?_eq_dir_iff.mp (hCleaned.root h area)
  have hUnreferenced (area : StorageArea) (names : List PyStr) :
      Unreferenced contents host.database area names ↔ DeletedBy env.paths contents
        (orphanIssues env (knownPaths host.database) host.tree) (env.paths.root area ++ names) := by
    rw [deletedBy_orphanIssues h]
    constructor
    · rintro ⟨⟨content, hFile⟩, hUnknown⟩
      exact ⟨content, hFile, hCalls.resolve area names content hFile hUnknown, Or.inr hUnknown⟩
    · rintro ⟨content, hFile, -, hReason⟩
      rcases hReason with hStat | hUnknown
      · exact (hStat (hCalls.scan area names)).elim
      · exact ⟨⟨content, hFile⟩, hUnknown⟩
  refine ⟨swept, ⟨hCleaned.wellFormed, hSwept⟩, fun _ _ hRemoved => hRemoved.1, ?_, ?_⟩
  · intro area names hRemoved
    rw [← Forest.kind?_append (hSwept area)]
    exact hCleaned.gone _ ((hUnreferenced area names).mp hRemoved)
  · intro area names hKept
    rw [← Forest.kind?_append (hSwept area), ← Forest.kind?_append (h.roots.root area)]
    exact hCleaned.kind?_area h area names fun hDeleted => hKept ((hUnreferenced area names).mpr hDeleted)

end Cleanup

/-- Whatever fails in the removal, no referenced file is lost if the scan can
read the status of each; and where nothing else fails, the call does what it
promises exactly under this condition and the one on the spelling of paths. -/
theorem cleanup_deletes_unreferenced_iff (env : ScanEnvironment) (device : List PyStr → Nat) (host : Host)
    (contents : StorageArea → Directory) (h : Layout env.paths host.tree contents) (hText : StorableText host.database)
    (hIds : (host.database.files.map (·.id)).Nodup) :
    (ReferencedScanned env contents host.database → ∀ removal,
      OnlyUnreferenced env.paths contents host (cleanupOrphans env device removal false host).2) ∧
    ∀ removal, (∀ index, (removal index).Unfailing) → (∀ first second, device first = device second) →
      StagingReady env.paths host.tree →
        (OnlyUnreferenced env.paths contents host (cleanupOrphans env device removal false host).2 ∧
          (NoCallFails env contents host.database →
            OrphansGone env.paths host (cleanupOrphans env device removal false host).2) ↔
        ReferencedScanned env contents host.database ∧
          (NoCallFails env contents host.database → OwnSpelling contents host.database)) := by
  refine ⟨fun hScanned removal => onlyUnreferenced_of_scanned h hScanned, ?_⟩
  intro removal hRemoval hDevice hStaging
  obtain ⟨tree, hState, hCleaned⟩ := cleanupOrphans_run h hStaging hRemoval hDevice
  have hScanned : OnlyUnreferenced env.paths contents host (cleanupOrphans env device removal false host).2 ↔
      ReferencedScanned env contents host.database := by
    refine ⟨?_, fun hScanned => onlyUnreferenced_of_scanned h hScanned⟩
    intro hOnly area names content hFile hKnown hBackslash
    by_contra hStat
    have hKept := hOnly.referenced area names content hFile hKnown
    rw [hState] at hKept
    have hGone := hCleaned.gone _ ((deletedBy_orphanIssues h).mpr ⟨content, hFile, hBackslash, Or.inl hStat⟩)
    rw [Forest.kind?_eq_leaf_iff.mpr hKept] at hGone
    cases hGone
  have hSpelling (hCalls : NoCallFails env contents host.database) :
      OrphansGone env.paths host (cleanupOrphans env device removal false host).2 ↔
        OwnSpelling contents host.database := by
    obtain ⟨swept, hRoots, hSwept⟩ := exists_swept h hCalls hCleaned
    rw [hState]
    exact orphansGone_iff h.roots hRoots hSwept hText hIds host.commits
  rw [hScanned]
  constructor
  · rintro ⟨hRead, hGone⟩
    exact ⟨hRead, fun hCalls => (hSpelling hCalls).mp (hGone hCalls)⟩
  · rintro ⟨hRead, hOwn⟩
    exact ⟨hRead, fun hCalls => (hSpelling hCalls).mpr (hOwn hCalls)⟩

/-- The status of the file cannot be read, once. -/
def transientScan : ScanEnvironment :=
  { sampleScan with
    lstat := fun area path => if area = .quarantine ∧ path = [py "ab", py "setup"] then some .other else none }

def sampleRemoval (_ : Nat) : RemovalEnvironment where
  uuid := 5
  resolveRoot := none
  resolve := none
  lstat := none
  move _ := none
  unlink _ := none

theorem sampleLayout : Layout sampleScan.paths sampleHost.tree (sampleContents storedDirectory .nil) where
  roots := sampleRoots (by decide +kernel)
  areas := by
    intro first second hNe
    cases first <;> cases second
    · exact (hNe rfl).elim
    · decide
    · decide
    · exact (hNe rfl).elim
  temporary := by
    intro area
    cases area with
    | quarantine => decide
    | software => decide

theorem transient_status_deletes_referenced : ¬OnlyUnreferenced transientScan.paths (sampleContents storedDirectory .nil)
    sampleHost (cleanupOrphans transientScan (fun _ => 0) sampleRemoval false sampleHost).2 := by
  intro hOnly
  have hKept := hOnly.referenced .quarantine [py "ab", py "setup"] [1, 2] (by decide +kernel) (by decide +kernel)
  have hGone : (cleanupOrphans transientScan (fun _ => 0) sampleRemoval false sampleHost).2.tree.file?
      (transientScan.paths.root .quarantine ++ [py "ab", py "setup"]) = none := by
    decide +kernel
  rw [hGone] at hKept
  cases hKept

theorem cleanup_deletes_unreferenced_iff_sample :
    OnlyUnreferenced sampleScan.paths (sampleContents storedDirectory .nil) sampleHost
        (cleanupOrphans sampleScan (fun _ => 0) sampleRemoval false sampleHost).2 ∧
      (NoCallFails sampleScan (sampleContents storedDirectory .nil) sampleHost.database →
        OrphansGone sampleScan.paths sampleHost
          (cleanupOrphans sampleScan (fun _ => 0) sampleRemoval false sampleHost).2) := by
  have hIff := (cleanup_deletes_unreferenced_iff sampleScan (fun _ => 0) sampleHost (sampleContents storedDirectory .nil)
    sampleLayout (by unfold StorableText; decide +kernel) (by decide)).2 sampleRemoval
    (fun _ => ⟨rfl, rfl, rfl, fun _ => rfl, fun _ => rfl⟩) (fun _ _ => rfl) ?_
  · apply hIff.mpr
    refine ⟨fun _ _ _ _ _ _ => rfl, ?_⟩
    intro _ row hRow hUnknown
    obtain rfl := List.mem_singleton.mp hRow
    exact absurd (by decide +kernel) hUnknown
  · refine ⟨by decide +kernel, by decide, by decide, ?_⟩
    intro uuid
    rfl

end SoftwareHub.Reconciliation
