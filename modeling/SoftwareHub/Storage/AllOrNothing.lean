import SoftwareHub.Storage.Move

/-! When a move is all-or-nothing. Up to the rename no file changes; what fails
after the rename surfaces as a failed move of a file that has moved. -/
namespace SoftwareHub.Storage

open SoftwareHub.Python SoftwareHub.Tree SoftwareHub.Semantics Program
open SoftwareHub.Backup (Leaf Directory Entry isDir isSymlink pathExists)

/-- The file of a move is at the destination, where nothing was, and gone from the
source. Every other file is as it was. -/
def Moved (source destination : List PyStr) (before after : Directory) : Prop :=
  ∃ content, before.file? source = some (.file content) ∧ before.node? destination = none ∧
    after.node? source = none ∧ ∀ path, after.file? path =
      if path = destination then some (.file content) else if path = source then none else before.file? path

section Requests

variable (env : MoveEnvironment) (move : MoveRequest)

/-- The real path of a relative path below a root, with the links of the tree
resolved. -/
def MoveEnvironment.realPath (tree : Directory) (root names : List PyStr) : List PyStr :=
  realPathFrom env.links tree (realPathFrom env.links tree [] root) names

/-- No file anywhere has changed, and nothing at the destination. Directories on the
way may have been made. -/
def Unmoved (before after : Directory) : Prop :=
  (∀ path, after.file? path = before.file? path) ∧
    ∀ names, rejectUnsafeRelativePath move.destinationRelativePath = .ok names →
      after.node? (env.realPath before move.destinationRoot names) =
        before.node? (env.realPath before move.destinationRoot names)

/-- What the callers of `atomic_move` rely on: a move that returns has moved the
file, and a move that raises has not. -/
def AllOrNothing (before : Directory) : Except PyException MoveResult × Directory → Prop
  | (.ok result, after) => ∃ sourceNames names,
      rejectUnsafeRelativePath move.sourceRelativePath = .ok sourceNames ∧
      rejectUnsafeRelativePath move.destinationRelativePath = .ok names ∧
      result.destination = env.realPath before move.destinationRoot names ∧
      Moved (env.realPath before move.sourceRoot sourceNames) result.destination before after
  | (.error _, after) => Unmoved env move before after

end Requests

/-- Only directories above `root ++ names` were made, and none if a link is on the
way. This holds while the directories above the destination are being made. -/
structure Kept (root names : List PyStr) (before after : Directory) : Prop where
  wellFormed : after.WellFormed fun _ => True
  files : ∀ path, after.file? path = before.file? path
  destination : after.node? (root ++ names) = before.node? (root ++ names)
  links : after = before ∨
    ∀ above, above <+: names → above ≠ [] → isSymlink (before.node? (root ++ above)) = false

theorem Kept.refl {root names : List PyStr} {tree : Directory} (h : tree.WellFormed fun _ => True) :
    Kept root names tree tree :=
  ⟨h, fun _ => rfl, rfl, Or.inl rfl⟩

theorem Kept.isSymlink {root names : List PyStr} {before after : Directory} (h : Kept root names before after)
    (path : List PyStr) : isSymlink (before.node? path) = isSymlink (after.node? path) := by
  rw [isSymlink_eq_file?, ← h.files, ← isSymlink_eq_file?]

/-- Making one more directory above the destination keeps to it. -/
theorem Kept.makeDirectory {root names above : List PyStr} {before after made : Directory}
    (h : Kept root names before after) (hAbove : above <+: names) (hProper : above ≠ names)
    (hLinks : ∀ path, path <+: above → path ≠ [] → Backup.isSymlink (after.node? (root ++ path)) = false)
    (hMade : makeDirectory (root ++ above) after = .ok made) : Kept root names before made := by
  unfold Storage.makeDirectory at hMade
  cases hNode : after.node? (root ++ above) with
  | some entry =>
      rw [hNode] at hMade
      cases entry with
      | leaf value => cases hMade
      | dir sub =>
          cases hMade
          exact h
  | none =>
      rw [hNode] at hMade
      dsimp only at hMade
      split at hMade
      · cases hMkdirs : after.mkdirs (root ++ above) with
        | none =>
            rw [hMkdirs] at hMade
            cases hMade
        | some result =>
            rw [hMkdirs] at hMade
            cases hMade
            obtain ⟨tail, rfl⟩ := hAbove
            have hTail : tail ≠ [] := by
              intro hNil
              exact hProper (by rw [hNil, List.append_nil])
            refine ⟨h.wellFormed.mkdirs (fun _ _ => trivial) hMkdirs, ?_, ?_, Or.inr ?_⟩
            · intro path
              rw [Forest.file?_mkdirs h.wellFormed hMkdirs, h.files]
            · rw [← List.append_assoc, Forest.node?_mkdirs_append h.wellFormed hMkdirs hTail, List.append_assoc,
                h.destination]
            · intro path hPath hNil
              rw [h.isSymlink]
              rcases List.prefix_or_prefix_of_prefix hPath (List.prefix_append above tail) with hShort | ⟨rest, rfl⟩
              · exact hLinks path hShort hNil
              · rw [← List.append_assoc, Forest.node?_below_none hNode]
                rfl
      · cases hMade

section Preparation

variable (env : MoveEnvironment)

theorem storageCall_spec {P : Directory → Prop} (call : MoveCall) (message : String) :
    Triple P (storageCall env call message) (fun _ => P) fun _ => P := by
  apply Triple.guarded
  · exact Triple.pure fun _ hs => hs
  · exact fun _ _ _ hs => hs

theorem plainCall_spec {P : Directory → Prop} (call : MoveCall) :
    Triple P (plainCall env call) (fun _ => P) fun _ => P := by
  apply Triple.guarded
  · exact Triple.pure fun _ hs => hs
  · exact fun _ _ _ hs => hs

/-- One iteration of `ensure_private_parent`, whether it returns or raises. -/
theorem ensureDirectory_spec {before : Directory} {root names above : List PyStr} {destinationRoot : List PyStr}
    (hRoot : root = realPathFrom env.links before [] destinationRoot) (hAbove : above <+: names)
    (hProper : above ≠ names) (depth : Nat) :
    Triple (Kept root names before) (ensureDirectory env depth destinationRoot above)
      (fun _ => Kept root names before) fun _ => Kept root names before := by
  unfold ensureDirectory
  apply Triple.bind (Triple.read (Q := fun tree after => tree = after ∧ Kept root names before after)
    fun _ hs => ⟨rfl, hs⟩)
  intro tree
  apply Triple.bind (Triple.lift
    (Q := fun resolved after => resolved = root ∧ tree = after ∧ Kept root names before after) ?_
    fun _ _ _ hs => hs.2)
  · intro resolvedRoot
    apply Triple.bind (Triple.lift
      (Q := fun current after => (current = root ++ above ∧
        ∀ path, path <+: above → path ≠ [] → isSymlink (tree.node? (root ++ path)) = false) ∧
        tree = after ∧ Kept root names before after) ?_ fun _ _ _ hs => hs.2.2)
    · intro current
      apply Triple.bind (storageCall_spec env _ _ |>.mono (fun _ hs => hs) (fun _ _ hs => hs) fun _ _ hs => hs.2.2)
      intro _
      cases hMade : makeDirectory current tree with
      | error e => exact Triple.raise fun _ hs => hs.2.2
      | ok made =>
          apply Triple.bind (Triple.write (Q := fun _ => Kept root names before) ?_)
          · intro _
            exact (storageCall_spec env _ _).bind fun _ => Triple.pure fun _ hs => hs
          · rintro after ⟨⟨rfl, hLinks⟩, rfl, hKept⟩
            exact hKept.makeDirectory hAbove hProper hLinks hMade
    · rintro current hCurrent after ⟨rfl, hTree, hKept⟩
      exact ⟨resolveBelow_eq_ok hCurrent, hTree, hKept⟩
  · rintro resolved hResolved after ⟨rfl, hKept⟩
    refine ⟨?_, rfl, hKept⟩
    unfold resolveRoot at hResolved
    dsimp only at hResolved
    split_ifs at hResolved
    cases hResolved
    rw [realPathFrom_congr env.links fun path => (hKept.isSymlink path).symm, hRoot]

/-- All directories above the destination. The induction is on the names still to be
made. -/
theorem ensureDirectories_spec {before : Directory} {root names : List PyStr} {destinationRoot : List PyStr}
    (hRoot : root = realPathFrom env.links before [] destinationRoot) (rest : List PyStr) :
    ∀ current above : List PyStr, above ++ rest <+: names → above ++ rest ≠ names →
      Triple (Kept root names before) (ensureDirectories env destinationRoot current above rest)
        (fun _ => Kept root names before) fun _ => Kept root names before := by
  induction rest with
  | nil => exact fun _ _ _ _ => Triple.pure fun _ hs => hs
  | cons name rest ih =>
      intro current above hAbove hProper
      rw [List.append_cons] at hAbove hProper
      have hPrefix : above ++ [name] <+: names := (List.prefix_append _ rest).trans hAbove
      apply Triple.bind (ensureDirectory_spec env hRoot hPrefix ?_ _)
      · exact fun current => ih current _ hAbove hProper
      · intro hEq
        apply hProper
        apply hAbove.eq_of_length_le
        rw [← hEq]
        simp only [List.length_append]
        omega

variable (move : MoveRequest)

theorem Unmoved.refl (tree : Directory) : Unmoved env move tree tree := ⟨fun _ => rfl, fun _ _ => rfl⟩

theorem Kept.unmoved {before after : Directory} {names : List PyStr}
    (hNames : rejectUnsafeRelativePath move.destinationRelativePath = .ok names)
    (h : Kept (realPathFrom env.links before [] move.destinationRoot) names before after) :
    Unmoved env move before after := by
  refine ⟨h.files, ?_⟩
  intro other hOther
  obtain rfl : names = other := Except.ok.inj (hNames.symm.trans hOther)
  rcases h.links with rfl | hLinks
  · rfl
  · rw [MoveEnvironment.realPath, realPathFrom_eq env.links hLinks, h.destination]

theorem names_ne_nil {relativePath : PyStr} {names : List PyStr} (h : rejectUnsafeRelativePath relativePath = .ok names) :
    names ≠ [] := by
  unfold rejectUnsafeRelativePath at h
  split_ifs at h
  obtain ⟨first, parts, hParts⟩ := List.exists_cons_of_ne_nil (List.splitOn_ne_nil slash relativePath)
  rw [hParts] at h
  split at h
  · cases h
  · rename_i names' hNames
    cases h
    rw [List.mapM_cons, Option.bind_eq_bind, Option.bind_eq_some_iff] at hNames
    obtain ⟨name, -, hNames⟩ := hNames
    rw [Option.bind_eq_bind, Option.bind_eq_some_iff] at hNames
    obtain ⟨rest, -, hNames⟩ := hNames
    cases hNames
    exact List.cons_ne_nil _ _

/-- The tree is well formed and no file has changed: the state in which a refused
move leaves it. -/
def Steady (before after : Directory) : Prop := after.WellFormed (fun _ => True) ∧ Unmoved env move before after

theorem Steady.refl {before : Directory} (hBefore : before.WellFormed fun _ => True) :
    ∀ after, after = before → Steady env move before after := by
  rintro after rfl
  exact ⟨hBefore, Unmoved.refl env move after⟩

/-- Preparing the directories of the destination moves no file. -/
theorem ensurePrivateParent_spec {before : Directory} (hBefore : before.WellFormed fun _ => True) :
    Triple (fun after => after = before)
      (ensurePrivateParent env move.destinationRoot move.destinationRelativePath)
      (fun _ => Steady env move before) fun _ => Steady env move before := by
  have hRefl := Steady.refl env move hBefore
  unfold ensurePrivateParent
  apply Triple.bind (Triple.lift (Q := fun names after =>
    rejectUnsafeRelativePath move.destinationRelativePath = .ok names ∧ after = before)
    (fun names hNames after h => ⟨hNames, h⟩) fun _ _ => hRefl)
  intro names
  apply Triple.bind ((plainCall_spec env _).mono (fun _ hs => hs) (fun _ _ hs => hs) fun _ after h => hRefl after h.2)
  intro _
  apply Triple.bind (Triple.read (Q := fun root after =>
    root = realPathFrom env.links before [] move.destinationRoot ∧
      rejectUnsafeRelativePath move.destinationRelativePath = .ok names ∧ after = before) ?_)
  · intro root
    apply Triple.bind (Triple.read (Q := fun _ after => root = realPathFrom env.links before [] move.destinationRoot ∧
      rejectUnsafeRelativePath move.destinationRelativePath = .ok names ∧ after = before) fun _ hs => hs)
    intro node
    apply Triple.ite
    · exact fun _ => Triple.raise fun after h => hRefl after h.2.2
    · rintro - after ⟨hRoot, hNames, rfl⟩
      have hProper : ([] : List PyStr) ++ names.dropLast ≠ names := by
        intro hEq
        have hLength := congrArg List.length hEq
        rw [List.nil_append, List.length_dropLast] at hLength
        have hPos := List.length_pos_of_ne_nil (names_ne_nil hNames)
        omega
      subst hRoot
      exact (ensureDirectories_spec env rfl names.dropLast _ [] (List.dropLast_prefix names) hProper).mono
        (fun _ hs => hs) (fun _ _ hKept => ⟨hKept.wellFormed, hKept.unmoved env move hNames⟩)
        (fun _ _ hKept => ⟨hKept.wellFormed, hKept.unmoved env move hNames⟩) after (Kept.refl hBefore)
  · rintro after ⟨hNames, rfl⟩
    exact ⟨rfl, hNames, rfl⟩

/-- The checks before the rename have passed: the source is a regular file and
nothing is at the destination. -/
structure Ready (before : Directory) (prepared : PreparedMove) (after : Directory) : Prop where
  steady : Steady env move before after
  source : ∃ names, rejectUnsafeRelativePath move.sourceRelativePath = .ok names ∧
    prepared.source = env.realPath before move.sourceRoot names
  destination : ∃ names, rejectUnsafeRelativePath move.destinationRelativePath = .ok names ∧
    prepared.destination = env.realPath before move.destinationRoot names
  regular : ∃ content, after.file? prepared.source = some (.file content)
  free : after.node? prepared.destination = none

theorem safeResolve_eq_ok {links : Links} {rootFault fault : Option OSError} {root : List PyStr} {relativePath : PyStr}
    {requireExists rejectSymlinks : Bool} {tree : Directory} {resolved : List PyStr}
    (h : safeResolve links rootFault fault root relativePath requireExists rejectSymlinks tree = .ok resolved) :
    ∃ names, rejectUnsafeRelativePath relativePath = .ok names ∧
      resolved = realPathFrom links tree (realPathFrom links tree [] root) names := by
  obtain ⟨resolvedRoot, hRoot, h⟩ := except_bind_eq_ok h
  obtain ⟨names, hNames, h⟩ := except_bind_eq_ok h
  unfold resolveRoot at hRoot
  dsimp only at hRoot
  split_ifs at hRoot
  cases hRoot
  unfold resolveBelow at h
  dsimp only at h
  split_ifs at h
  cases h
  exact ⟨names, hNames, rfl⟩

/-- Where links are rejected, the resolved path is the path itself below the real
root. -/
theorem safeResolve_rejecting {links : Links} {rootFault fault : Option OSError} {root : List PyStr} {relativePath : PyStr}
    {requireExists : Bool} {tree : Directory} {resolved : List PyStr}
    (h : safeResolve links rootFault fault root relativePath requireExists true tree = .ok resolved) :
    ∃ names, rejectUnsafeRelativePath relativePath = .ok names ∧ resolved = realPathFrom links tree [] root ++ names ∧
      realPathFrom links tree (realPathFrom links tree [] root) names = realPathFrom links tree [] root ++ names := by
  obtain ⟨resolvedRoot, hRoot, h⟩ := except_bind_eq_ok h
  obtain ⟨names, hNames, h⟩ := except_bind_eq_ok h
  unfold resolveRoot at hRoot
  dsimp only at hRoot
  split_ifs at hRoot
  cases hRoot
  obtain ⟨hResolved, hLinks⟩ := resolveBelow_eq_ok h
  exact ⟨names, hNames, hResolved, realPathFrom_eq links hLinks⟩

theorem hardenFilePermissions_spec {P : Directory → Prop} (path : List PyStr) :
    Triple P (hardenFilePermissions env path) (fun _ => P) fun _ => P := by
  unfold hardenFilePermissions
  apply (storageCall_spec env _ _).bind
  intro _
  apply Triple.bind (Triple.read (Q := fun _ => P) fun _ hs => hs)
  intro node
  split
  · exact Triple.raise fun _ hs => hs
  · exact storageCall_spec env _ _
  · exact Triple.raise fun _ hs => hs

theorem fsyncFile_spec {P : Directory → Prop} : Triple P (fsyncFile env) (fun _ => P) fun _ => P := by
  unfold fsyncFile
  apply (storageCall_spec env _ _).bind
  intro _
  exact (storageCall_spec env _ _).tryFinally (fun _ => plainCall_spec env _) fun _ => plainCall_spec env _

/-- Before the rename no file moves, and the checks find a file to move and a free
place for it. -/
theorem prepareMove_spec {before : Directory} (hBefore : before.WellFormed fun _ => True) :
    Triple (fun after => after = before) (prepareMove env move) (Ready env move before)
      fun _ => Steady env move before := by
  have hRefl := Steady.refl env move hBefore
  unfold prepareMove
  apply Triple.bind (Triple.read (Q := fun tree after => tree = before ∧ after = before) fun _ hs => ⟨hs, hs⟩)
  intro tree
  apply Triple.bind (Triple.lift (Q := fun source after => (∃ names,
    rejectUnsafeRelativePath move.sourceRelativePath = .ok names ∧ source = env.realPath before move.sourceRoot names) ∧
      tree = before ∧ after = before) ?_ fun _ _ after hs => hRefl after hs.2)
  · intro source
    apply Triple.bind (Triple.lift (Q := fun destination after => ((∃ names,
      rejectUnsafeRelativePath move.destinationRelativePath = .ok names ∧
        destination = env.realPath before move.destinationRoot names) ∧ ∃ names,
      rejectUnsafeRelativePath move.sourceRelativePath = .ok names ∧
        source = env.realPath before move.sourceRoot names) ∧ after = before) ?_
      fun _ _ after hs => hRefl after hs.2.2)
    · intro destination
      by_cases hPaths : (∃ names, rejectUnsafeRelativePath move.destinationRelativePath = .ok names ∧
          destination = env.realPath before move.destinationRoot names) ∧ ∃ names,
          rejectUnsafeRelativePath move.sourceRelativePath = .ok names ∧
            source = env.realPath before move.sourceRoot names
      · apply Triple.mono (P := fun after => after = before) ?_ (fun _ hs => hs.2) (fun _ _ hs => hs) fun _ _ hs => hs
        apply (ensurePrivateParent_spec env move hBefore).bind
        intro parent
        apply (storageCall_spec env _ _).bind
        intro _
        apply Triple.bind (Triple.read (Q := fun node after => node = after.node? source ∧ Steady env move before after)
          fun _ hs => ⟨rfl, hs⟩)
        intro node
        split
        · exact Triple.raise fun _ hs => hs.2
        · rename_i content
          apply Triple.bind (Triple.read (Q := fun target after => target = after.node? destination ∧
            some (.leaf (.file content)) = after.node? source ∧ Steady env move before after) fun _ hs => ⟨rfl, hs⟩)
          intro target
          apply Triple.ite
          · exact fun _ => Triple.raise fun _ hs => hs.2.2
          · intro hFree
            have hTarget : target = none := by
              unfold pathExists isSymlink at hFree
              grind
            apply Triple.bind ((storageCall_spec env _ _).mono (fun _ hs => hs) (fun _ _ hs => hs) fun _ _ hs => hs.2.2)
            intro _
            apply Triple.ite
            · exact fun _ => Triple.raise fun _ hs => hs.2.2
            · intro _
              apply Triple.bind ((hardenFilePermissions_spec env source).mono (fun _ hs => hs) (fun _ _ hs => hs)
                fun _ _ hs => hs.2.2)
              intro _
              apply Triple.bind ((fsyncFile_spec env).mono (fun _ hs => hs) (fun _ _ hs => hs) fun _ _ hs => hs.2.2)
              intro _
              apply Triple.pure
              rintro after ⟨hNode, hSource, hSteady⟩
              exact ⟨hSteady, hPaths.2, hPaths.1, ⟨content, (Forest.file?_eq_some_iff _ _ _).mpr hSource.symm⟩,
                hNode.symm.trans hTarget⟩
        · exact Triple.raise fun _ hs => hs.2
      · exact fun _ hs => absurd hs.1 hPaths
    · rintro destination hDestination after ⟨hSource, rfl, rfl⟩
      exact ⟨⟨safeResolve_eq_ok hDestination, hSource⟩, rfl⟩
  · rintro source hSource after ⟨rfl, rfl⟩
    exact ⟨safeResolve_eq_ok hSource, rfl, rfl⟩

/-- What a rename does to the files: one of them changes its place. -/
theorem renameFile_moved {before after renamed : Directory} {source destination : List PyStr} {content : Bytes}
    (hAfter : after.WellFormed fun _ => True) (hFiles : ∀ path, after.file? path = before.file? path)
    (hSource : after.file? source = some (.file content)) (hFree : after.node? destination = none)
    (hBefore : before.node? destination = none) (h : renameFile source destination after = .ok renamed) :
    Moved source destination before renamed := by
  unfold renameFile at h
  rw [hSource] at h
  dsimp only at h
  split at h
  · rename_i above hAbove
    cases hCreate : (after.erase source).create destination (.leaf (.file content)) with
    | none =>
        rw [hCreate] at h
        cases h
    | some result =>
        rw [hCreate] at h
        cases h
        have hErased := hAfter.erase source
        have hNil : source ≠ [] := by
          rintro rfl
          rw [Forest.file?_nil] at hSource
          cases hSource
        have hPrefix : ¬source <+: destination := by
          intro hPrefix
          obtain ⟨tail, rfl⟩ := hPrefix
          have hNode := (Forest.file?_eq_some_iff _ _ _).mp hSource
          cases tail using List.reverseRecOn with
          | nil =>
              rw [List.append_nil, hNode] at hFree
              cases hFree
          | append_singleton tail name =>
              rw [← List.append_assoc, List.dropLast_concat] at hAbove
              cases tail with
              | nil =>
                  rw [List.append_nil, hNode] at hAbove
                  cases hAbove
              | cons first tail =>
                  rw [Forest.node?_below_leaf hNode (List.cons_ne_nil _ _)] at hAbove
                  cases hAbove
        refine ⟨content, (hFiles source).symm.trans hSource, hBefore, ?_, ?_⟩
        · exact Forest.node?_create_eq_none hErased hCreate (Forest.node?_erase_self hAfter hNil) hPrefix
        · intro path
          rw [Forest.file?_create hErased hCreate, Forest.file?_erase hAfter hSource, hFiles]
  · cases h

theorem Ready.moved {before after renamed : Directory} {prepared : PreparedMove}
    (h : Ready env move before prepared after)
    (hRename : renameFile prepared.source prepared.destination after = .ok renamed) :
    Moved prepared.source prepared.destination before renamed := by
  obtain ⟨content, hContent⟩ := h.regular
  obtain ⟨names, hNames, hDestination⟩ := h.destination
  have hBefore : before.node? prepared.destination = none := by
    rw [hDestination, ← h.steady.2.2 names hNames, ← hDestination, h.free]
  exact renameFile_moved h.steady.1 h.steady.2.1 hContent h.free hBefore hRename

/-- No call after the rename fails, that is, the destination directory can be
synchronized. -/
def MoveEnvironment.Synchronizes : Prop :=
  env.signal .openParent = none ∧ env.signal .syncParent = none ∧ env.signal .closeParent = none

theorem fsyncDirectory_run (tree : Directory) :
    ∃ outcome, fsyncDirectory env tree = (outcome, tree) ∧ (outcome = .ok () ↔ env.Synchronizes) := by
  unfold fsyncDirectory MoveEnvironment.Synchronizes storageCall plainCall
  cases hOpen : env.signal .openParent with
  | some e => exact ⟨_, rfl, by simp⟩
  | none => cases env.signal .syncParent <;> cases env.signal .closeParent <;> exact ⟨_, rfl, by simp⟩

/-- Whatever fails from the rename on is raised, even when the file has moved by
then. -/
theorem finishMove_error {prepared : PreparedMove} {tree after : Directory} {e : PyException}
    (h : (replace env prepared.source prepared.destination >>= fun _ => fsyncDirectory env) tree = (.error e, after)) :
    ∃ other, finishMove env prepared tree = (.error other, after) := by
  have hHandler : ∃ other, (if e.isOSError = true then
      raise (.storageError "The file could not be moved atomically.") else raise e : TreeProgram Unit) after =
      (.error other, after) := by
    by_cases hOS : e.isOSError = true
    · exact ⟨_, by rw [if_pos hOS]; rfl⟩
    · exact ⟨_, by rw [if_neg hOS]; rfl⟩
  obtain ⟨other, hOther⟩ := hHandler
  exact ⟨other, bind_error ((tryExcept_error h).trans hOther) _⟩

/-- The rename fails and nothing happens, or it succeeds and the file has moved,
whatever is raised afterwards. -/
theorem finishMove_cases (prepared : PreparedMove) (tree : Directory) :
    (∃ e, finishMove env prepared tree = (.error e, tree) ∧ ¬(env.signal .rename = none ∧
      ∃ renamed, renameFile prepared.source prepared.destination tree = .ok renamed)) ∨
    ∃ renamed, env.signal .rename = none ∧ renameFile prepared.source prepared.destination tree = .ok renamed ∧
      (env.Synchronizes ∧ finishMove env prepared tree = (.ok ⟨prepared.destination, prepared.sizeBytes⟩, renamed) ∨
        ¬env.Synchronizes ∧ ∃ e, finishMove env prepared tree = (.error e, renamed)) := by
  cases hSignal : env.signal .rename with
  | some e =>
      have hReplace : replace env prepared.source prepared.destination tree = (.error (.os e), tree) := by
        unfold replace plainCall
        rw [hSignal]
        rfl
      obtain ⟨other, hFinish⟩ := finishMove_error env (bind_error hReplace _)
      exact Or.inl ⟨other, hFinish, by simp⟩
  | none =>
      cases hRename : renameFile prepared.source prepared.destination tree with
      | error kind =>
          have hReplace : replace env prepared.source prepared.destination tree = (.error (.os kind), tree) := by
            unfold replace plainCall
            rw [hSignal, Option.map_none, guarded_none, bind_ok (pure_apply () tree), read_bind, hRename]
            rfl
          obtain ⟨other, hFinish⟩ := finishMove_error env (bind_error hReplace _)
          exact Or.inl ⟨other, hFinish, by simp⟩
      | ok renamed =>
          have hReplace : replace env prepared.source prepared.destination tree = (.ok (), renamed) := by
            unfold replace plainCall
            rw [hSignal, Option.map_none, guarded_none, bind_ok (pure_apply () tree), read_bind, hRename]
            rfl
          refine Or.inr ⟨renamed, rfl, rfl, ?_⟩
          obtain ⟨outcome, hSync, hOk⟩ := fsyncDirectory_run env renamed
          cases outcome with
          | ok u =>
              refine Or.inl ⟨hOk.mp rfl, ?_⟩
              unfold finishMove
              rw [bind_ok (tryExcept_ok ((bind_ok hReplace _).trans hSync))]
              rfl
          | error e =>
              refine Or.inr ⟨fun h => by (cases hOk.mpr h), ?_⟩
              exact finishMove_error env ((bind_ok hReplace _).trans hSync)

end Preparation

/-- Without a failing call after the rename every move is all-or-nothing. -/
theorem allOrNothing_of_synchronizes {env : MoveEnvironment} (hSync : env.Synchronizes) (move : MoveRequest)
    {before : Directory} (hBefore : before.WellFormed fun _ => True) :
    AllOrNothing env move before (atomicMove env move before) := by
  have hPrepare := prepareMove_spec env move hBefore
  unfold atomicMove
  rcases hRun : prepareMove env move before with ⟨outcome, after⟩
  cases outcome with
  | error e =>
      rw [bind_error hRun]
      exact (hPrepare.of_error rfl hRun).2
  | ok prepared =>
      have hReady := hPrepare.of_ok rfl hRun
      rw [bind_ok hRun]
      rcases finishMove_cases env prepared after with ⟨e, hFinish, -⟩ | ⟨renamed, -, hRename, ⟨-, hFinish⟩ | ⟨hFails, -⟩⟩
      · rw [hFinish]
        exact hReady.steady.2
      · rw [hFinish]
        obtain ⟨sourceNames, hSourceNames, hSource⟩ := hReady.source
        obtain ⟨names, hNames, hDestination⟩ := hReady.destination
        exact ⟨sourceNames, names, hSourceNames, hNames, hDestination, hSource ▸ hReady.moved env move hRename⟩
      · exact (hFails hSync).elim

/-- A move that returns has moved the file, whatever may fail. -/
theorem allOrNothing_of_ok {env : MoveEnvironment} {move : MoveRequest} {before after : Directory} {result : MoveResult}
    (hBefore : before.WellFormed fun _ => True) (h : atomicMove env move before = (.ok result, after)) :
    AllOrNothing env move before (.ok result, after) := by
  have hSync : env.Synchronizes := by
    unfold atomicMove at h
    obtain ⟨prepared, mid, -, hFinish⟩ := bind_eq_ok h
    rcases finishMove_cases env prepared mid with ⟨e, hError, -⟩ | ⟨renamed, -, -, ⟨hSync, -⟩ | ⟨-, e, hError⟩⟩
    · rw [hError] at hFinish
      cases hFinish
    · exact hSync
    · rw [hError] at hFinish
      cases hFinish
  rw [← h]
  exact allOrNothing_of_synchronizes hSync move hBefore

/-- The move back, as the compensations of the services ask for it. -/
def MoveRequest.reverse (move : MoveRequest) : MoveRequest :=
  ⟨move.destinationRoot, move.destinationRelativePath, move.sourceRoot, move.sourceRelativePath⟩

/-- A move does not touch symbolic links, so that paths resolve as before. -/
theorem Moved.isSymlink {source destination : List PyStr} {before after : Directory}
    (h : Moved source destination before after) (path : List PyStr) :
    isSymlink (after.node? path) = isSymlink (before.node? path) := by
  obtain ⟨content, hSource, hFree, -, hFiles⟩ := h
  have hDestination : before.file? destination = none := by
    rw [Forest.file?, hFree]
  rw [isSymlink_eq_file?, isSymlink_eq_file? before, hFiles]
  split_ifs with hPath hPath
  · rw [hPath, hDestination]
    rfl
  · rw [hPath, hSource]
    rfl
  · rfl

/-- After the way there and the way back every file is where it was. -/
theorem AllOrNothing.reverse {env back : MoveEnvironment} (hLinks : back.links = env.links) {move : MoveRequest}
    {before moved after : Directory} {out result : MoveResult} (hOut : AllOrNothing env move before (.ok out, moved))
    (hBack : AllOrNothing back move.reverse moved (.ok result, after)) (path : List PyStr) :
    after.file? path = before.file? path := by
  obtain ⟨sourceNames, names, hSourceNames, hNames, hDestination, hMoved⟩ := hOut
  obtain ⟨backNames, backSourceNames, hBackNames, hBackSourceNames, hBackDestination, hReturned⟩ := hBack
  obtain rfl : names = backNames := Except.ok.inj (hNames.symm.trans hBackNames)
  obtain rfl : sourceNames = backSourceNames := Except.ok.inj (hSourceNames.symm.trans hBackSourceNames)
  have hReal : ∀ root names, back.realPath moved root names = env.realPath before root names := by
    intro root names
    rw [MoveEnvironment.realPath, MoveEnvironment.realPath, hLinks, realPathFrom_congr env.links hMoved.isSymlink,
      realPathFrom_congr env.links hMoved.isSymlink]
  rw [hBackDestination] at hReturned
  rw [hReal, hReal] at hReturned
  rw [hDestination] at hMoved
  obtain ⟨content, hSource, hFree, -, hFiles⟩ := hMoved
  obtain ⟨returned, hReturnedSource, -, -, hReturnedFiles⟩ := hReturned
  change moved.file? (env.realPath before move.destinationRoot names) = some (.file returned) at hReturnedSource
  rw [hFiles, if_pos rfl] at hReturnedSource
  cases hReturnedSource
  rw [hReturnedFiles]
  change (if path = env.realPath before move.sourceRoot sourceNames then _ else
    if path = env.realPath before move.destinationRoot names then _ else _) = _
  split_ifs with hBackPath hPath
  · rw [hBackPath, hSource]
  · rw [hPath, Forest.file?, hFree]
  · rw [hFiles, if_neg hPath, if_neg hBackPath]

theorem wellFormed_of_renameFile {source destination : List PyStr} {tree renamed : Directory}
    (hTree : tree.WellFormed fun _ => True) (h : renameFile source destination tree = .ok renamed) :
    renamed.WellFormed fun _ => True := by
  unfold renameFile at h
  split at h
  · cases h
  · split at h
    · split at h
      · rename_i hCreate
        cases h
        exact (hTree.erase source).create (fun _ _ => trivial) (by exact trivial) hCreate
      · cases h
    · cases h

/-- A move keeps the tree well formed, whether it returns or raises. -/
theorem wellFormed_of_atomicMove (env : MoveEnvironment) {move : MoveRequest} {before after : Directory}
    {outcome : Except PyException MoveResult} (hBefore : before.WellFormed fun _ => True)
    (h : atomicMove env move before = (outcome, after)) : after.WellFormed fun _ => True := by
  have hPrepare := prepareMove_spec env move hBefore
  unfold atomicMove at h
  rcases hRun : prepareMove env move before with ⟨prepared, mid⟩
  cases prepared with
  | error e =>
      rw [bind_error hRun] at h
      cases h
      exact (hPrepare.of_error rfl hRun).1
  | ok prepared =>
      have hMid := (hPrepare.of_ok rfl hRun).steady.1
      rw [bind_ok hRun] at h
      rcases finishMove_cases env prepared mid with ⟨e, hFinish, -⟩ | ⟨renamed, -, hRename, hSync⟩
      · rw [hFinish] at h
        cases h
        exact hMid
      · have hRenamed := wellFormed_of_renameFile hMid hRename
        rcases hSync with ⟨-, hFinish⟩ | ⟨-, e, hFinish⟩
        · rw [hFinish] at h
          cases h
          exact hRenamed
        · rw [hFinish] at h
          cases h
          exact hRenamed

/-- A move from the upload area to the quarantine. -/
def sampleMove : MoveRequest where
  sourceRoot := [py "temporary"]
  sourceRelativePath := py "uploads/a"
  destinationRoot := [py "quarantine"]
  destinationRelativePath := py "ab/a"

def sampleBefore : Directory :=
  .dir (py "temporary") (.dir (py "uploads") (.leaf (py "a") (.file [1, 2]) .nil) .nil)
    (.dir (py "quarantine") .nil .nil)

/-- The file system around the sample move, in which one call fails, or none. -/
def sampleEnvironment (failing : Option MoveCall) : MoveEnvironment where
  links := id
  device _ := 0
  signal call := if some call = failing then some .other else none

end SoftwareHub.Storage
