import SoftwareHub.Storage.AllOrNothing
import SoftwareHub.Tree.Kind

/-! Moves in which no call fails: from a regular file to a free place below real
directories they succeed, and change nothing else but directories on the way. -/
namespace SoftwareHub.Storage

open SoftwareHub.Python SoftwareHub.Tree SoftwareHub.Semantics Program
open SoftwareHub.Backup (Leaf Directory Entry isDir isSymlink pathExists)

/-- Above a directory there are directories only. -/
theorem kind?_above_dir {tree : Directory} {path above : List PyStr} (h : tree.kind? path = some none)
    (hAbove : above <+: path) : tree.kind? above = some none := by
  obtain ⟨tail, rfl⟩ := hAbove
  by_cases hTail : tail = []
  · rw [hTail, List.append_nil] at h
    exact h
  · exact Forest.kind?_above h hTail

/-- Above a file there are directories only, so that its path is real. -/
theorem kind?_above_leaf {tree : Directory} {path above : List PyStr} {leaf : Leaf}
    (h : tree.kind? path = some (some leaf)) (hAbove : above <+: path) (hProper : above ≠ path) :
    tree.kind? above = some none := by
  obtain ⟨tail, rfl⟩ := hAbove
  have hTail : tail ≠ [] := by
    rintro rfl
    exact hProper (List.append_nil above).symm
  exact Forest.kind?_above h hTail

theorem isSymlink_of_kind? {tree : Directory} {path : List PyStr} (h : tree.kind? path = none ∨ tree.kind? path = some none) :
    isSymlink (tree.node? path) = false := by
  rcases h with h | h
  · rw [Forest.kind?_eq_none_iff.mp h]
    rfl
  · obtain ⟨sub, hSub⟩ := Forest.kind?_eq_dir_iff.mp h
    rw [hSub]
    rfl

section Unfailing

variable {env : MoveEnvironment} (hCalls : ∀ call, env.signal call = none)

include hCalls in
theorem storageCall_run (call : MoveCall) (message : String) (tree : Directory) :
    storageCall env call message tree = (.ok (), tree) := by
  unfold storageCall
  rw [hCalls]
  rfl

include hCalls in
theorem plainCall_run (call : MoveCall) (tree : Directory) : plainCall env call tree = (.ok (), tree) := by
  unfold plainCall
  rw [hCalls]
  rfl

/-- Resolving a path without links succeeds, and gives the path itself. -/
theorem safeResolve_run {links : Links} {tree : Directory} {root names : List PyStr} {relativePath : PyStr}
    {requireExists rejectSymlinks : Bool} (hRoot : tree.kind? root = some none)
    (hNames : rejectUnsafeRelativePath relativePath = .ok names)
    (hLinks : ∀ above, above <+: names → above ≠ [] → isSymlink (tree.node? (root ++ above)) = false)
    (hExists : requireExists = true → tree.kind? (root ++ names) ≠ none) :
    safeResolve links none none root relativePath requireExists rejectSymlinks tree = .ok (root ++ names) := by
  obtain ⟨content, hContent⟩ := Forest.kind?_eq_dir_iff.mp hRoot
  have hNil := names_ne_nil hNames
  unfold safeResolve
  rw [except_bind_ok (resolveRoot_of_dir hContent), except_bind_ok hNames]
  unfold resolveBelow
  dsimp only
  rw [realPathFrom_eq links hLinks, if_neg, if_neg, if_neg]
  · simp [hNil]
  · rintro (hNone | ⟨hRequired, hMissing⟩)
    · exact hNone rfl
    · exact hExists hRequired (Forest.kind?_eq_none_iff.mpr hMissing)
  · rintro ⟨-, above, hAbove, hProper, hLink⟩
    rw [hLinks above ((List.mem_inits _ _).mp hAbove) hProper] at hLink
    cases hLink

include hCalls in
/-- One directory below a directory is made, or is there already. -/
theorem ensureDirectory_run {tree : Directory} (hTree : tree.WellFormed IsFileName) {root above : List PyStr} {name : PyStr}
    (hName : IsFileName name) (hAbove : tree.kind? (root ++ above) = some none)
    (hNext : tree.kind? (root ++ (above ++ [name])) = none ∨ tree.kind? (root ++ (above ++ [name])) = some none) (depth : Nat) :
    ∃ after, ensureDirectory env depth root (above ++ [name]) tree = (.ok (root ++ (above ++ [name])), after) ∧
      after.WellFormed IsFileName ∧ ∀ path, after.kind? path =
        if path <+: root ++ (above ++ [name]) then some none else tree.kind? path := by
  obtain ⟨content, hContent⟩ := Forest.kind?_eq_dir_iff.mp (kind?_above_dir hAbove (List.prefix_append _ _))
  have hLinks : ∀ path, path <+: above ++ [name] → path ≠ [] → isSymlink (tree.node? (root ++ path)) = false := by
    intro path hPath _
    apply isSymlink_of_kind?
    rcases List.prefix_concat_iff.mp hPath with rfl | hPath
    · exact hNext
    · exact Or.inr (kind?_above_dir hAbove ((List.prefix_append_right_inj root).mpr hPath))
  have hBelow : resolveBelow env.links none root (above ++ [name]) false true tree = .ok (root ++ (above ++ [name])) := by
    rw [resolveBelow_of_ne_nil (by simp), if_neg, if_neg]
    · simp
    · rintro ⟨path, hPath, hNil, hLink⟩
      rw [hLinks path ((List.mem_inits _ _).mp hPath) hNil] at hLink
      cases hLink
  have hMade : ∃ made, makeDirectory (root ++ (above ++ [name])) tree = .ok made ∧ made.WellFormed IsFileName ∧
      ∀ path, made.kind? path = if path <+: root ++ (above ++ [name]) then some none else tree.kind? path := by
    unfold makeDirectory
    rcases hNext with hNone | hDir
    · rw [Forest.kind?_eq_none_iff.mp hNone]
      obtain ⟨parent, hParent⟩ := Forest.kind?_eq_dir_iff.mp hAbove
      rw [← List.append_assoc, List.dropLast_concat, hParent, List.append_assoc]
      dsimp only
      have hFree : ∀ path, path <+: root ++ (above ++ [name]) → tree.file? path = none := by
        intro path hPath
        rw [← List.append_assoc] at hPath
        rcases List.prefix_concat_iff.mp hPath with rfl | hPath
        · rw [Forest.file?, List.append_assoc, Forest.kind?_eq_none_iff.mp hNone]
        · obtain ⟨sub, hSub⟩ := Forest.kind?_eq_dir_iff.mp (kind?_above_dir hAbove hPath)
          rw [Forest.file?, hSub]
      obtain ⟨made, hMkdirs⟩ := Forest.exists_mkdirs_iff.mpr hFree
      rw [hMkdirs]
      have hValid : ∀ part ∈ root ++ (above ++ [name]), IsFileName part := by
        intro part hPart
        rw [← List.append_assoc, List.mem_append] at hPart
        rcases hPart with hPart | hPart
        · exact (hTree.node? hParent).1 part hPart
        · rw [List.mem_singleton.mp hPart]
          exact hName
      exact ⟨made, rfl, hTree.mkdirs hValid hMkdirs, Forest.kind?_mkdirs hTree hMkdirs⟩
    · obtain ⟨sub, hSub⟩ := Forest.kind?_eq_dir_iff.mp hDir
      rw [hSub]
      refine ⟨tree, rfl, hTree, ?_⟩
      intro path
      by_cases hPath : path <+: root ++ (above ++ [name])
      · rw [if_pos hPath, kind?_above_dir hDir hPath]
      · rw [if_neg hPath]
  obtain ⟨made, hMade, hWellFormed, hKinds⟩ := hMade
  refine ⟨made, ?_, hWellFormed, hKinds⟩
  unfold ensureDirectory
  rw [read_bind, id, hCalls, hCalls,
    bind_ok (show lift (resolveRoot env.links none root tree) tree = (.ok root, tree) by
      rw [resolveRoot_of_dir hContent]; rfl),
    bind_ok (show lift (resolveBelow env.links none root (above ++ [name]) false true tree) tree = (.ok _, tree) by
      rw [hBelow]; rfl), bind_ok (storageCall_run hCalls _ _ _), hMade]
  dsimp only
  rw [write_bind, bind_ok (storageCall_run hCalls _ _ _)]
  rfl

include hCalls in
/-- All directories above the destination are made. The induction is on the names
still to be made. -/
theorem ensureDirectories_run {root : List PyStr} (rest : List PyStr) {tree : Directory} {current above : List PyStr}
    (hTree : tree.WellFormed IsFileName) (hRest : ∀ name ∈ rest, IsFileName name)
    (hAbove : tree.kind? (root ++ above) = some none)
    (hFolders : ∀ path, path <+: above ++ rest → tree.kind? (root ++ path) = none ∨ tree.kind? (root ++ path) = some none)
    (hCurrent : current = root ++ above) :
    ∃ after, ensureDirectories env root current above rest tree = (.ok (root ++ (above ++ rest)), after) ∧
      after.WellFormed IsFileName ∧ ∀ path, after.kind? path =
        if path <+: root ++ (above ++ rest) then some none else tree.kind? path := by
  induction rest generalizing tree current above with
  | nil =>
      rw [List.append_nil, hCurrent]
      refine ⟨tree, rfl, hTree, ?_⟩
      intro path
      by_cases hPath : path <+: root ++ above
      · rw [if_pos hPath, kind?_above_dir hAbove hPath]
      · rw [if_neg hPath]
  | cons name rest ih =>
      have hShift : above ++ name :: rest = (above ++ [name]) ++ rest := by simp
      have hNext := hFolders (above ++ [name]) (by rw [hShift]; exact List.prefix_append _ _)
      obtain ⟨mid, hFirst, hMid, hKinds⟩ :=
        ensureDirectory_run hCalls hTree (hRest name List.mem_cons_self) hAbove hNext above.length
      have hMidAbove : mid.kind? (root ++ (above ++ [name])) = some none := by
        rw [hKinds, if_pos (List.prefix_refl _)]
      have hMidFolders : ∀ path, path <+: (above ++ [name]) ++ rest →
          mid.kind? (root ++ path) = none ∨ mid.kind? (root ++ path) = some none := by
        intro path hPath
        rw [hKinds]
        by_cases hBelow : root ++ path <+: root ++ (above ++ [name])
        · rw [if_pos hBelow]
          exact Or.inr rfl
        · rw [if_neg hBelow]
          exact hFolders path (hShift ▸ hPath)
      obtain ⟨after, hRun, hAfter, hFinal⟩ :=
        ih hMid (fun other hOther => hRest other (List.mem_cons_of_mem _ hOther)) hMidAbove hMidFolders rfl
      refine ⟨after, ?_, hAfter, ?_⟩
      · unfold ensureDirectories
        rw [bind_ok hFirst, hRun, ← hShift]
      · intro path
        rw [hFinal, hKinds, hShift]
        by_cases hPath : path <+: root ++ (above ++ [name] ++ rest)
        · rw [if_pos hPath, if_pos hPath]
        · have hNot : ¬path <+: root ++ (above ++ [name]) := by
            intro hShort
            apply hPath
            rw [← List.append_assoc]
            exact hShort.trans (List.prefix_append _ _)
          rw [if_neg hPath, if_neg hPath, if_neg hNot]

include hCalls in
theorem ensurePrivateParent_run {tree : Directory} (hTree : tree.WellFormed IsFileName) {root names : List PyStr}
    {relativePath : PyStr} (hNames : rejectUnsafeRelativePath relativePath = .ok names)
    (hFileNames : ∀ name ∈ names, IsFileName name) (hRoot : tree.kind? root = some none)
    (hFolders : ∀ path, path <+: names.dropLast →
      tree.kind? (root ++ path) = none ∨ tree.kind? (root ++ path) = some none) :
    ∃ after, ensurePrivateParent env root relativePath tree = (.ok (root ++ names.dropLast), after) ∧
      after.WellFormed IsFileName ∧ ∀ path, after.kind? path =
        if path <+: root ++ names.dropLast then some none else tree.kind? path := by
  obtain ⟨content, hContent⟩ := Forest.kind?_eq_dir_iff.mp hRoot
  have hReal : realPathFrom env.links tree [] root = root := realPathFrom_of_dir hContent
  obtain ⟨after, hRun, hAfter, hKinds⟩ := @ensureDirectories_run env hCalls root names.dropLast tree root [] hTree
    (fun name hName => hFileNames name (List.dropLast_subset _ hName)) (by rwa [List.append_nil])
    (by rwa [List.nil_append]) (List.append_nil root).symm
  refine ⟨after, ?_, hAfter, hKinds⟩
  unfold ensurePrivateParent
  rw [bind_ok (show lift (rejectUnsafeRelativePath relativePath) tree = (.ok names, tree) by rw [hNames]; rfl),
    bind_ok (plainCall_run hCalls _ _), read_bind, read_bind, hReal, hContent, if_neg (by simp), hRun]
  rfl

include hCalls in
theorem fsyncFile_run (tree : Directory) : fsyncFile env tree = (.ok (), tree) := by
  unfold fsyncFile
  rw [bind_ok (storageCall_run hCalls _ _ _)]
  exact tryFinally_run (storageCall_run hCalls _ _ _) (plainCall_run hCalls _ _)

include hCalls in
theorem hardenFilePermissions_run {tree : Directory} {path : List PyStr} {content : Bytes}
    (h : tree.node? path = some (.leaf (.file content))) : hardenFilePermissions env path tree = (.ok (), tree) := by
  unfold hardenFilePermissions
  rw [bind_ok (storageCall_run hCalls _ _ _), read_bind, h]
  exact storageCall_run hCalls _ _ _

end Unfailing

/-- From where to where a move can go: its source is a regular file, and its
destination is free, with nothing but directories above it. -/
structure Movable (move : MoveRequest) (sourceNames names : List PyStr) (content : Bytes) (tree : Directory) : Prop where
  wellFormed : tree.WellFormed IsFileName
  sourcePath : rejectUnsafeRelativePath move.sourceRelativePath = .ok sourceNames
  destinationPath : rejectUnsafeRelativePath move.destinationRelativePath = .ok names
  fileNames : ∀ name ∈ names, IsFileName name
  sourceRoot : tree.kind? move.sourceRoot = some none
  source : tree.kind? (move.sourceRoot ++ sourceNames) = some (some (.file content))
  destinationRoot : tree.kind? move.destinationRoot = some none
  folders : ∀ path, path <+: names.dropLast →
    tree.kind? (move.destinationRoot ++ path) = none ∨ tree.kind? (move.destinationRoot ++ path) = some none
  free : tree.kind? (move.destinationRoot ++ names) = none

section Move

variable {env : MoveEnvironment} {move : MoveRequest} {sourceNames names : List PyStr} {content : Bytes} {tree : Directory}

theorem prepareMove_run (hCalls : ∀ call, env.signal call = none) (hDevice : ∀ first second, env.device first = env.device second)
    (h : Movable move sourceNames names content tree) :
    ∃ mid, prepareMove env move tree = (.ok ⟨move.sourceRoot ++ sourceNames, move.destinationRoot ++ names,
        move.destinationRoot ++ names.dropLast, content.length⟩, mid) ∧ mid.WellFormed IsFileName ∧
      mid.kind? (move.sourceRoot ++ sourceNames) = some (some (.file content)) ∧
      mid.kind? (move.destinationRoot ++ names) = none ∧ ∀ path, mid.kind? path = if path <+: move.destinationRoot ++ names.dropLast then some none else tree.kind? path := by
  obtain ⟨mid, hParent, hMid, hKinds⟩ :=
    ensurePrivateParent_run hCalls h.wellFormed h.destinationPath h.fileNames h.destinationRoot h.folders
  have hSourceResolved : safeResolve env.links none none move.sourceRoot move.sourceRelativePath true true tree =
      .ok (move.sourceRoot ++ sourceNames) := by
    apply safeResolve_run h.sourceRoot h.sourcePath
    · intro above hAbove _
      by_cases hWhole : above = sourceNames
      · rw [hWhole, (Forest.file?_eq_some_iff _ _ _).mp (Forest.kind?_eq_leaf_iff.mp h.source)]
        rfl
      · apply isSymlink_of_kind?
        exact Or.inr (kind?_above_leaf h.source ((List.prefix_append_right_inj _).mpr hAbove) (by simpa using hWhole))
    · intro _
      rw [h.source]
      simp
  have hNil := names_ne_nil h.destinationPath
  have hDestinationResolved : safeResolve env.links none none move.destinationRoot move.destinationRelativePath false false
      tree = .ok (move.destinationRoot ++ names) := by
    apply safeResolve_run h.destinationRoot h.destinationPath
    · intro above hAbove _
      apply isSymlink_of_kind?
      rw [← List.dropLast_append_getLast hNil] at hAbove
      rcases List.prefix_concat_iff.mp hAbove with hWhole | hAbove
      · rw [hWhole, List.dropLast_append_getLast]
        exact Or.inl h.free
      · exact h.folders above hAbove
    · intro hFalse
      cases hFalse
  have hSourceKind : mid.kind? (move.sourceRoot ++ sourceNames) = some (some (.file content)) := by
    rw [hKinds, if_neg, h.source]
    intro hPrefix
    -- A file is no directory on the way to the destination.
    obtain ⟨tail, hTail⟩ := hPrefix
    rcases List.prefix_or_prefix_of_prefix ⟨tail, hTail⟩ (List.prefix_append move.destinationRoot names.dropLast) with
      hShort | ⟨rest, hRest⟩
    · have hDir := kind?_above_dir h.destinationRoot hShort
      rw [h.source] at hDir
      cases hDir
    · have hRestPrefix : rest <+: names.dropLast := by
        apply (List.prefix_append_right_inj move.destinationRoot).mp
        rw [hRest]
        exact ⟨tail, hTail⟩
      have hFolder := h.folders rest hRestPrefix
      rw [hRest, h.source] at hFolder
      rcases hFolder with hFolder | hFolder <;> cases hFolder
  have hFreeKind : mid.kind? (move.destinationRoot ++ names) = none := by
    rw [hKinds, if_neg, h.free]
    intro hPrefix
    have hLength := ((List.prefix_append_right_inj _).mp hPrefix).length_le
    have hPos := List.length_pos_of_ne_nil hNil
    rw [List.length_dropLast] at hLength
    omega
  have hSource : mid.node? (move.sourceRoot ++ sourceNames) = some (.leaf (.file content)) :=
    (Forest.file?_eq_some_iff _ _ _).mp (Forest.kind?_eq_leaf_iff.mp hSourceKind)
  have hFree : mid.node? (move.destinationRoot ++ names) = none := Forest.kind?_eq_none_iff.mp hFreeKind
  refine ⟨mid, ?_, hMid, hSourceKind, hFreeKind, hKinds⟩
  unfold prepareMove
  rw [read_bind, id, hCalls, hCalls, hCalls, hCalls,
    bind_ok (show lift (safeResolve env.links none none move.sourceRoot move.sourceRelativePath true true tree) tree =
      (.ok _, tree) by rw [hSourceResolved]; rfl),
    bind_ok (show lift (safeResolve env.links none none move.destinationRoot move.destinationRelativePath false false tree)
      tree = (.ok _, tree) by rw [hDestinationResolved]; rfl),
    bind_ok hParent, bind_ok (storageCall_run hCalls _ _ _), read_bind, hSource]
  dsimp only
  rw [read_bind, hFree, if_neg (by simp [pathExists, isSymlink]), bind_ok (storageCall_run hCalls _ _ _),
    if_neg (not_not.mpr (hDevice _ _)), bind_ok (hardenFilePermissions_run hCalls hSource), bind_ok (fsyncFile_run hCalls _)]
  rfl

/-- The move succeeds, the file is at its destination, and nothing else has changed
but directories on the way. -/
theorem atomicMove_run (hCalls : ∀ call, env.signal call = none) (hDevice : ∀ first second, env.device first = env.device second)
    (h : Movable move sourceNames names content tree) :
    ∃ after, atomicMove env move tree = (.ok ⟨move.destinationRoot ++ names, content.length⟩, after) ∧
      after.WellFormed IsFileName ∧ ∀ path, after.kind? path =
        if path = move.destinationRoot ++ names then some (some (.file content))
        else if path = move.sourceRoot ++ sourceNames then none
        else if path <+: move.destinationRoot ++ names.dropLast then some none else tree.kind? path := by
  obtain ⟨mid, hPrepare, hMid, hSource, hFree, hKinds⟩ := prepareMove_run hCalls hDevice h
  have hNil := names_ne_nil h.destinationPath
  have hParentPath : (move.destinationRoot ++ names).dropLast = move.destinationRoot ++ names.dropLast :=
    List.dropLast_append_of_ne_nil hNil
  have hParent : mid.kind? (move.destinationRoot ++ names).dropLast = some none := by
    rw [hParentPath, hKinds, if_pos (List.prefix_refl _)]
  have hErased := Forest.kind?_erase hMid hSource
  have hErasedParent : (mid.erase (move.sourceRoot ++ sourceNames)).kind? (move.destinationRoot ++ names).dropLast =
      some none := by
    rw [hErased, if_neg, hParent]
    intro hSame
    rw [hSame, hSource] at hParent
    cases hParent
  have hCreate : ∃ renamed, (mid.erase (move.sourceRoot ++ sourceNames)).create (move.destinationRoot ++ names)
      (.leaf (.file content)) = some renamed := by
    apply Forest.exists_create _ (by simp [hNil])
    · apply Forest.kind?_eq_none_iff.mp
      rw [hErased, hFree, ite_self]
    · intro above hAbove
      rw [← List.dropLast_append_getLast (show move.destinationRoot ++ names ≠ [] by simp [hNil])] at hAbove
      rcases List.prefix_concat_iff.mp hAbove with hWhole | hAbove
      · rw [List.dropLast_append_getLast] at hWhole
        rw [hWhole, Forest.file?, Forest.kind?_eq_none_iff.mp (by rw [hErased, hFree, ite_self])]
      · obtain ⟨sub, hSub⟩ := Forest.kind?_eq_dir_iff.mp (kind?_above_dir hErasedParent hAbove)
        rw [Forest.file?, hSub]
  obtain ⟨renamed, hCreate⟩ := hCreate
  have hRename : renameFile (move.sourceRoot ++ sourceNames) (move.destinationRoot ++ names) mid = .ok renamed := by
    obtain ⟨sub, hSub⟩ := Forest.kind?_eq_dir_iff.mp hParent
    unfold renameFile
    rw [Forest.kind?_eq_leaf_iff.mp hSource, hSub]
    dsimp only
    rw [hCreate]
  have hDestinationNames : ∀ name ∈ move.destinationRoot ++ names, IsFileName name := by
    intro name hName
    rcases List.mem_append.mp hName with hName | hName
    · obtain ⟨sub, hSub⟩ := Forest.kind?_eq_dir_iff.mp h.destinationRoot
      exact (h.wellFormed.node? hSub).1 name hName
    · exact h.fileNames name hName
  refine ⟨renamed, ?_, (hMid.erase _).create hDestinationNames (by exact trivial) hCreate, ?_⟩
  · have hSynchronizes : env.Synchronizes := ⟨hCalls _, hCalls _, hCalls _⟩
    unfold atomicMove
    rw [bind_ok hPrepare]
    rcases finishMove_cases env ⟨move.sourceRoot ++ sourceNames, move.destinationRoot ++ names,
      move.destinationRoot ++ names.dropLast, content.length⟩ mid with
      ⟨e, -, hNot⟩ | ⟨other, -, hOther, ⟨-, hFinish⟩ | ⟨hNot, -⟩⟩
    · exact (hNot ⟨hCalls _, renamed, hRename⟩).elim
    · obtain rfl : other = renamed := Except.ok.inj (hOther.symm.trans hRename)
      exact hFinish
    · exact (hNot hSynchronizes).elim
  · intro path
    rw [Forest.kind?_create (hMid.erase _) hCreate hErasedParent, hErased, hKinds]

end Move
end SoftwareHub.Storage
