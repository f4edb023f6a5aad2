import SoftwareHub.Semantics.View
import SoftwareHub.Storage.AllOrNothing
import SoftwareHub.Tree.Kind

/-! What may appear in the file system while storage works on it: directories stay,
links neither come nor go, and new entries are where they were announced. -/
namespace SoftwareHub.Storage

open SoftwareHub.Python SoftwareHub.Tree SoftwareHub.Semantics Program
open SoftwareHub.Backup (Leaf Directory isSymlink pathExists)

/-- Nothing new but directories at some paths and regular files at others;
directories stay and links stay what they are. -/
structure Grown (directories files : List PyStr → Prop) (before after : Directory) : Prop where
  wellFormed : after.WellFormed IsFileName
  kept : ∀ path, before.kind? path = some none → after.kind? path = some none
  made : ∀ path, after.kind? path = some none → before.kind? path = some none ∨ directories path
  stored : ∀ path leaf, after.kind? path = some (some leaf) → before.kind? path = some (some leaf) ∨
    files path ∧ ∃ content, leaf = .file content
  links : ∀ path, isSymlink (after.node? path) = isSymlink (before.node? path)

section Grown

variable {directories files : List PyStr → Prop} {before mid after tree : Directory}

theorem Grown.refl (h : tree.WellFormed IsFileName) : Grown directories files tree tree :=
  ⟨h, fun _ hDir => hDir, fun _ hDir => Or.inl hDir, fun _ _ hLeaf => Or.inl hLeaf, fun _ => rfl⟩

theorem Grown.mono {more others : List PyStr → Prop} (h : Grown directories files before after)
    (hMore : ∀ path, directories path → more path) (hOthers : ∀ path, files path → others path) :
    Grown more others before after := by
  refine ⟨h.wellFormed, h.kept, ?_, ?_, h.links⟩
  · intro path hDir
    exact (h.made path hDir).imp_right (hMore path)
  · intro path leaf hLeaf
    exact (h.stored path leaf hLeaf).imp_right fun hNew => ⟨hOthers path hNew.1, hNew.2⟩

/-- What two steps announce together covers both. -/
theorem Grown.trans (first : Grown directories files before mid) (second : Grown directories files mid after) :
    Grown directories files before after := by
  refine ⟨second.wellFormed, fun path hDir => second.kept path (first.kept path hDir), ?_, ?_, ?_⟩
  · intro path hDir
    rcases second.made path hDir with hMid | hNew
    · exact first.made path hMid
    · exact Or.inr hNew
  · intro path leaf hLeaf
    rcases second.stored path leaf hLeaf with hMid | hNew
    · exact first.stored path leaf hMid
    · exact Or.inr hNew
  · intro path
    rw [second.links, first.links]

/-- Where nothing was there is still nothing, unless it was announced. -/
theorem Grown.absent (h : Grown directories files before after) {path : List PyStr} (hNone : before.kind? path = none)
    (hDirectory : ¬directories path) (hFile : ¬files path) : after.kind? path = none := by
  cases hAfter : after.kind? path with
  | none => rfl
  | some found =>
      cases found with
      | none =>
          rcases h.made path hAfter with hOld | hNew
          · rw [hNone] at hOld
            cases hOld
          · exact (hDirectory hNew).elim
      | some leaf =>
          rcases h.stored path leaf hAfter with hOld | ⟨hNew, -⟩
          · rw [hNone] at hOld
            cases hOld
          · exact (hFile hNew).elim

/-- A link is a leaf, so that what is at the path decides. -/
theorem isSymlink_eq_kind? (tree : Directory) (path : List PyStr) :
    isSymlink (tree.node? path) = isSymlink (((tree.kind? path).join).map .leaf) := by
  unfold Forest.kind?
  cases tree.node? path with
  | none => rfl
  | some entry => cases entry <;> rfl

theorem fileNames_of_kind? (hTree : tree.WellFormed IsFileName) {path : List PyStr} {found : Option Leaf}
    (h : tree.kind? path = some found) : ∀ name ∈ path, IsFileName name := by
  unfold Forest.kind? at h
  obtain ⟨entry, hEntry, -⟩ := Option.map_eq_some_iff.mp h
  exact (hTree.node? hEntry).1

theorem grown_of_mkdirs (hTree : tree.WellFormed IsFileName) {path : List PyStr} (hPath : ∀ name ∈ path, IsFileName name)
    (hParent : tree.kind? path.dropLast = some none) (hFree : tree.kind? path = none)
    (h : tree.mkdirs path = some after) : Grown (· = path) files tree after := by
  have hKinds := Forest.kind?_mkdirs hTree h
  have hAbove {other : List PyStr} (hOther : other <+: path) (hNe : other ≠ path) : tree.kind? other = some none := by
    obtain ⟨tail, rfl⟩ := hOther
    have hNil : tail ≠ [] := by
      rintro rfl
      exact hNe (List.append_nil other).symm
    rw [List.dropLast_append_of_ne_nil hNil] at hParent
    by_cases hShort : tail.dropLast = []
    · rw [hShort, List.append_nil] at hParent
      exact hParent
    · exact Forest.kind?_above hParent hShort
  refine ⟨hTree.mkdirs hPath h, ?_, ?_, ?_, ?_⟩
  · intro other hOther
    rw [hKinds]
    split_ifs
    · rfl
    · exact hOther
  · intro other hOther
    rw [hKinds] at hOther
    split_ifs at hOther with hPrefix
    · by_cases hEq : other = path
      · exact Or.inr hEq
      · exact Or.inl (hAbove hPrefix hEq)
    · exact Or.inl hOther
  · intro other leaf hOther
    rw [hKinds] at hOther
    split_ifs at hOther
    · cases hOther
    · exact Or.inl hOther
  · intro other
    rw [isSymlink_eq_kind?, isSymlink_eq_kind?, hKinds]
    split_ifs with hPrefix
    · by_cases hEq : other = path
      · rw [hEq, hFree]
        rfl
      · rw [hAbove hPrefix hEq]
    · rfl

/-- Creating a regular file in a directory adds that file. -/
theorem grown_of_create (hTree : tree.WellFormed IsFileName) {path : List PyStr} (hPath : ∀ name ∈ path, IsFileName name)
    {content : Bytes} (hParent : tree.kind? path.dropLast = some none)
    (h : tree.create path (.leaf (.file content)) = some after) : Grown directories (· = path) tree after := by
  have hKinds := Forest.kind?_create hTree h hParent
  have hFree : tree.kind? path = none := Forest.kind?_eq_none_iff.mpr (Forest.node?_of_create h)
  refine ⟨hTree.create hPath (by exact trivial) h, ?_, ?_, ?_, ?_⟩
  · intro other hOther
    rw [hKinds, if_neg]
    · exact hOther
    · rintro rfl
      rw [hFree] at hOther
      cases hOther
  · intro other hOther
    rw [hKinds] at hOther
    split_ifs at hOther
    · cases hOther
    · exact Or.inl hOther
  · intro other leaf hOther
    rw [hKinds] at hOther
    split_ifs at hOther with hEq
    · exact Or.inr ⟨hEq, content, (Option.some.inj (Option.some.inj hOther)).symm⟩
    · exact Or.inl hOther
  · intro other
    rw [isSymlink_eq_kind?, isSymlink_eq_kind?, hKinds]
    split_ifs with hEq
    · rw [hEq, hFree]
      rfl
    · rfl

/-- Removing a file that is no link adds nothing. -/
theorem grown_of_erase (hTree : tree.WellFormed IsFileName) {path : List PyStr} {leaf : Leaf}
    (hLeaf : tree.kind? path = some (some leaf)) (hLink : isSymlink (tree.node? path) = false) :
    Grown directories files tree (tree.erase path) := by
  have hKinds := Forest.kind?_erase hTree hLeaf
  refine ⟨hTree.erase path, ?_, ?_, ?_, ?_⟩
  · intro other hOther
    rw [hKinds, if_neg]
    · exact hOther
    · rintro rfl
      rw [hLeaf] at hOther
      cases hOther
  · intro other hOther
    rw [hKinds] at hOther
    split_ifs at hOther
    exact Or.inl hOther
  · intro other found hOther
    rw [hKinds] at hOther
    split_ifs at hOther
    exact Or.inl hOther
  · intro other
    rw [isSymlink_eq_kind?, hKinds]
    split_ifs with hEq
    · rw [hEq, hLink]
      rfl
    · rw [← isSymlink_eq_kind?]

end Grown

/-- Where a move goes: below a directory, by file names, and past no link. -/
structure Destined (env : MoveEnvironment) (move : MoveRequest) (names : List PyStr) (tree : Directory) : Prop where
  wellFormed : tree.WellFormed IsFileName
  root : tree.kind? move.destinationRoot = some none
  accepted : rejectUnsafeRelativePath move.destinationRelativePath = .ok names
  fileNames : ∀ name ∈ names, IsFileName name
  real : env.realPath tree move.destinationRoot names = move.destinationRoot ++ names

/-- What a move may add: directories above its destination, and the file there. -/
abbrev GrownFor (root names : List PyStr) (before after : Directory) : Prop :=
  Grown (fun path => path <+: root ++ names ∧ path ≠ root ++ names) (· = root ++ names) before after

section Move

variable {env : MoveEnvironment} {move : MoveRequest} {names : List PyStr} {before tree after : Directory}

theorem realPathFrom_of_kind? {root : List PyStr} (h : tree.kind? root = some none) (links : Links) :
    realPathFrom links tree [] root = root := by
  obtain ⟨content, hNode⟩ := Forest.kind?_eq_dir_iff.mp h
  exact realPathFrom_of_dir hNode

theorem grownFor_of_makeDirectory {root above : List PyStr} (hBefore : before.kind? root = some none)
    (h : GrownFor root names before tree) (hNames : ∀ name ∈ names, IsFileName name) (hAbove : above <+: names)
    (hProper : above ≠ names) (hMade : makeDirectory (root ++ above) tree = .ok after) : GrownFor root names before after := by
  unfold makeDirectory at hMade
  split at hMade
  · cases hMade
    exact h
  · cases hMade
  · rename_i hFree
    split at hMade
    · rename_i parent hParent
      cases hMkdirs : tree.mkdirs (root ++ above) with
      | none =>
          rw [hMkdirs] at hMade
          cases hMade
      | some made =>
          rw [hMkdirs] at hMade
          obtain rfl := Except.ok.inj hMade
          have hPath : ∀ name ∈ root ++ above, IsFileName name := by
            intro name hName
            rcases List.mem_append.mp hName with hRoot | hBelow
            · exact fileNames_of_kind? h.wellFormed (h.kept root hBefore) name hRoot
            · exact hNames name (hAbove.subset hBelow)
          apply h.trans
          apply (grown_of_mkdirs h.wellFormed hPath (Forest.kind?_eq_dir_iff.mpr ⟨parent, hParent⟩)
            (Forest.kind?_eq_none_iff.mpr hFree) hMkdirs).mono _ fun _ hFile => hFile
          rintro path rfl
          exact ⟨(List.prefix_append_right_inj root).mpr hAbove, fun hSame => hProper (List.append_cancel_left hSame)⟩
    · cases hMade

theorem ensureDirectory_grown {root above : List PyStr} (hBefore : before.kind? root = some none)
    (hNames : ∀ name ∈ names, IsFileName name) (hAbove : above <+: names) (hProper : above ≠ names) (depth : Nat) :
    Triple (GrownFor root names before) (ensureDirectory env depth root above)
      (fun _ => GrownFor root names before) fun _ => GrownFor root names before := by
  unfold ensureDirectory
  apply Triple.bind (Triple.read (Q := fun tree after => tree = after ∧ GrownFor root names before after)
    fun _ h => ⟨rfl, h⟩)
  intro tree
  apply Triple.bind (Triple.lift (Q := fun resolved after => resolved = root ∧ tree = after ∧
    GrownFor root names before after) ?_ fun _ _ _ h => h.2)
  · intro resolved
    apply Triple.bind (Triple.lift (Q := fun current after => current = root ++ above ∧ tree = after ∧
      GrownFor root names before after) ?_ fun _ _ _ h => h.2.2)
    · intro current
      apply Triple.bind (storageCall_spec env _ _ |>.mono (fun _ h => h) (fun _ _ h => h) fun _ _ h => h.2.2)
      intro _
      cases hMade : makeDirectory current tree with
      | error e => exact Triple.raise fun _ h => h.2.2
      | ok made =>
          apply Triple.bind (Triple.write (Q := fun _ => GrownFor root names before) ?_)
          · intro _
            exact (storageCall_spec env _ _).bind fun _ => Triple.pure fun _ h => h
          · rintro after ⟨rfl, rfl, h⟩
            exact grownFor_of_makeDirectory hBefore h hNames hAbove hProper hMade
    · rintro current hCurrent after ⟨rfl, hTree, h⟩
      exact ⟨(resolveBelow_eq_ok hCurrent).1, hTree, h⟩
  · rintro resolved hResolved after ⟨rfl, h⟩
    refine ⟨?_, rfl, h⟩
    unfold resolveRoot at hResolved
    rw [realPathFrom_of_kind? (h.kept root hBefore)] at hResolved
    dsimp only at hResolved
    split_ifs at hResolved
    exact (Except.ok.inj hResolved).symm

theorem ensureDirectories_grown {root : List PyStr} (hBefore : before.kind? root = some none)
    (hNames : ∀ name ∈ names, IsFileName name) (rest : List PyStr) : ∀ current above : List PyStr, above ++ rest <+: names →
      above ++ rest ≠ names → Triple (GrownFor root names before) (ensureDirectories env root current above rest)
        (fun _ => GrownFor root names before) fun _ => GrownFor root names before := by
  induction rest with
  | nil => exact fun _ _ _ _ => Triple.pure fun _ h => h
  | cons name rest ih =>
      intro current above hAbove hProper
      rw [List.append_cons] at hAbove hProper
      have hPrefix : above ++ [name] <+: names := (List.prefix_append _ rest).trans hAbove
      apply Triple.bind (ensureDirectory_grown hBefore hNames hPrefix ?_ _)
      · exact fun current => ih current _ hAbove hProper
      · intro hSame
        apply hProper
        apply hAbove.eq_of_length_le
        rw [← hSame]
        simp only [List.length_append]
        omega

theorem ensurePrivateParent_grown (h : Destined env move names before) :
    Triple (GrownFor move.destinationRoot names before)
      (ensurePrivateParent env move.destinationRoot move.destinationRelativePath)
      (fun _ => GrownFor move.destinationRoot names before) fun _ => GrownFor move.destinationRoot names before := by
  unfold ensurePrivateParent
  rw [h.accepted]
  apply Triple.bind (Triple.lift (Q := fun found after => found = names ∧ GrownFor move.destinationRoot names before after)
    (fun found hFound _ hs => ⟨(Except.ok.inj hFound).symm, hs⟩) fun _ _ _ hs => hs)
  intro found
  apply Triple.bind ((plainCall_spec env _).mono (fun _ hs => hs) (fun _ _ hs => hs) fun _ _ hs => hs.2)
  intro _
  apply Triple.bind (Triple.read (Q := fun _ after => found = names ∧ GrownFor move.destinationRoot names before after)
    fun _ hs => hs)
  intro root
  apply Triple.bind (Triple.read (Q := fun _ after => found = names ∧ GrownFor move.destinationRoot names before after)
    fun _ hs => hs)
  intro node
  apply Triple.ite
  · exact fun _ => Triple.raise fun _ hs => hs.2
  · rintro - after ⟨rfl, hs⟩
    have hProper : ([] : List PyStr) ++ found.dropLast ≠ found := by
      intro hSame
      have hLength := congrArg List.length hSame
      rw [List.nil_append, List.length_dropLast] at hLength
      have hPos := List.length_pos_of_ne_nil (names_ne_nil h.accepted)
      omega
    exact ensureDirectories_grown h.root h.fileNames _ _ [] (List.dropLast_prefix found) hProper after hs

theorem Destined.path (h : Destined env move names before) : ∀ name ∈ move.destinationRoot ++ names, IsFileName name := by
  intro name hName
  rcases List.mem_append.mp hName with hRoot | hBelow
  · exact fileNames_of_kind? h.wellFormed h.root name hRoot
  · exact h.fileNames name hBelow

/-- The checks before the rename may make directories above the destination. -/
theorem prepareMove_grown (h : Destined env move names before) :
    Triple (GrownFor move.destinationRoot names before) (prepareMove env move)
      (fun _ => GrownFor move.destinationRoot names before) fun _ => GrownFor move.destinationRoot names before := by
  unfold prepareMove
  apply Triple.bind (Triple.read (Q := fun _ => GrownFor move.destinationRoot names before) fun _ hs => hs)
  intro tree
  apply Triple.bind (Triple.lift (Q := fun _ => GrownFor move.destinationRoot names before) (fun _ _ _ hs => hs)
    fun _ _ _ hs => hs)
  intro source
  apply Triple.bind (Triple.lift (Q := fun _ => GrownFor move.destinationRoot names before) (fun _ _ _ hs => hs)
    fun _ _ _ hs => hs)
  intro destination
  apply (ensurePrivateParent_grown h).bind
  intro parent
  apply (storageCall_spec env _ _).bind
  intro _
  apply Triple.bind (Triple.read (Q := fun _ => GrownFor move.destinationRoot names before) fun _ hs => hs)
  intro node
  split
  · exact Triple.raise fun _ hs => hs
  · apply Triple.bind (Triple.read (Q := fun _ => GrownFor move.destinationRoot names before) fun _ hs => hs)
    intro target
    apply Triple.ite
    · exact fun _ => Triple.raise fun _ hs => hs
    · intro _
      apply (storageCall_spec env _ _).bind
      intro _
      apply Triple.ite
      · exact fun _ => Triple.raise fun _ hs => hs
      · intro _
        apply (hardenFilePermissions_spec env source).bind
        intro _
        apply (fsyncFile_spec env).bind
        exact fun _ => Triple.pure fun _ hs => hs
  · exact Triple.raise fun _ hs => hs

theorem grown_of_renameFile {source destination : List PyStr} (hTree : tree.WellFormed IsFileName)
    (hPath : ∀ name ∈ destination, IsFileName name) {content : Bytes} (hSource : tree.file? source = some (.file content))
    (h : renameFile source destination tree = .ok after) : Grown directories (· = destination) tree after := by
  unfold renameFile at h
  rw [hSource] at h
  dsimp only at h
  split at h
  · rename_i parent hParent
    split at h
    · rename_i renamed hCreate
      obtain rfl := Except.ok.inj h
      have hLink : isSymlink (tree.node? source) = false := by
        rw [isSymlink_eq_file?, hSource]
        rfl
      have hErased : Grown directories (· = destination) tree (tree.erase source) :=
        grown_of_erase hTree (Forest.kind?_eq_leaf_iff.mpr hSource) hLink
      apply hErased.trans
      exact grown_of_create hErased.wellFormed hPath
        (hErased.kept _ (Forest.kind?_eq_dir_iff.mpr ⟨parent, hParent⟩)) hCreate
    · cases h
  · cases h

/-- A move adds nothing else, whatever fails. -/
theorem atomicMove_grown (h : Destined env move names before) :
    GrownFor move.destinationRoot names before (atomicMove env move before).2 := by
  have hReady := prepareMove_spec env move (h.wellFormed.mono fun _ _ => trivial)
  have hPrepare := prepareMove_grown h before (Grown.refl h.wellFormed)
  unfold atomicMove
  rcases hRun : prepareMove env move before with ⟨outcome, mid⟩
  rw [hRun] at hPrepare
  cases outcome with
  | error e =>
      rw [bind_error hRun]
      exact hPrepare
  | ok prepared =>
      rw [bind_ok hRun]
      have hPrepared := hReady.of_ok rfl hRun
      obtain ⟨content, hSource⟩ := hPrepared.regular
      obtain ⟨found, hFound, hDestination⟩ := hPrepared.destination
      obtain rfl : names = found := Except.ok.inj (h.accepted.symm.trans hFound)
      rw [h.real] at hDestination
      rcases finishMove_cases env prepared mid with ⟨e, hFinish, -⟩ | ⟨renamed, -, hRename, hSync⟩
      · rw [hFinish]
        exact hPrepare
      · have hGrown : GrownFor move.destinationRoot names before renamed := by
          apply Grown.trans hPrepare
          rw [hDestination] at hRename
          exact grown_of_renameFile hPrepare.wellFormed h.path hSource hRename
        rcases hSync with ⟨-, hFinish⟩ | ⟨-, e, hFinish⟩
        · rw [hFinish]
          exact hGrown
        · rw [hFinish]
          exact hGrown

end Move
end SoftwareHub.Storage
