import SoftwareHub.Tree.Path
import Mathlib.Data.List.Nodup

/-! Top-down traversal, one visit for a directory, with pruning of directories
before they are entered. A traversal shows every path once, and misses what is below
a directory it cannot list. -/
namespace SoftwareHub.Tree

/-- One directory reached by a traversal: where it is, the names of its
subdirectories and its leaves. -/
structure Visit (ν β : Type) where
  current : List ν
  directoryNames : List ν
  fileNames : List (ν × β)

namespace Forest

variable {ν β : Type}

/-- The names of the subdirectories, in listing order. -/
def directoryNames : Forest ν β → List ν
  | nil => []
  | leaf _ _ rest => rest.directoryNames
  | dir name _ rest => name :: rest.directoryNames

/-- The subdirectories with their content, in listing order. -/
def subdirectories : Forest ν β → List (ν × Forest ν β)
  | nil => []
  | leaf _ _ rest => rest.subdirectories
  | dir name sub rest => (name, sub) :: rest.subdirectories

/-- The leaves of one directory, in listing order. -/
def leaves : Forest ν β → List (ν × β)
  | nil => []
  | leaf name value rest => (name, value) :: rest.leaves
  | dir _ _ rest => rest.leaves

/-- All entries of one directory, in listing order. -/
def entries : Forest ν β → List (ν × Node ν β)
  | nil => []
  | leaf name value rest => (name, .leaf value) :: rest.entries
  | dir name sub rest => (name, .dir sub) :: rest.entries

/-- The visits below a directory, entering the subdirectories that `keep` admits. -/
def visitsBelow (keep : List ν → Bool) (current : List ν) : Forest ν β → List (Visit ν β)
  | nil => []
  | leaf _ _ rest => rest.visitsBelow keep current
  | dir name sub rest =>
      (if keep (current ++ [name]) then
        ⟨current ++ [name], sub.directoryNames, sub.leaves⟩ ::
          sub.visitsBelow keep (current ++ [name])
      else []) ++ rest.visitsBelow keep current

/-- The traversal in the order of `os.walk` with `topdown=True`. -/
def walk (keep : List ν → Bool) (f : Forest ν β) : List (Visit ν β) :=
  ⟨[], f.directoryNames, f.leaves⟩ :: f.visitsBelow keep []

/-- The leaves that a list of visits shows, with their full relative paths. -/
def visitedFiles (visits : List (Visit ν β)) : List (List ν × β) :=
  visits.flatMap fun visit => visit.fileNames.map fun file => (visit.current ++ [file.1], file.2)

/-- All leaves that the traversal reaches. -/
def walkFiles (keep : List ν → Bool) (f : Forest ν β) : List (List ν × β) :=
  visitedFiles (f.walk keep)

/-- The leaves a traversal reaches that passes over the directories it cannot list, with all that is below them. -/
def listedFiles (listable keep : List ν → Bool) (f : Forest ν β) : List (List ν × β) :=
  if listable [] then f.walkFiles fun path => keep path && listable path else []

/-- Every directory above a path can be listed, the top one included. -/
def Listed (listable : List ν → Bool) (path : List ν) : Prop :=
  ∀ above, above <+: path → above ≠ path → listable above = true

theorem listed_of_forall {listable : List ν → Bool} (h : ∀ path, listable path = true) (path : List ν) :
    Listed listable path := fun above _ _ => h above

@[simp] theorem visitedFiles_nil : visitedFiles ([] : List (Visit ν β)) = [] := rfl

@[simp] theorem visitedFiles_cons (visit : Visit ν β) (visits : List (Visit ν β)) :
    visitedFiles (visit :: visits) =
      (visit.fileNames.map fun file => (visit.current ++ [file.1], file.2)) ++
        visitedFiles visits := rfl

@[simp] theorem visitedFiles_append (first second : List (Visit ν β)) :
    visitedFiles (first ++ second) = visitedFiles first ++ visitedFiles second := by
  simp [visitedFiles]

variable [DecidableEq ν]

omit [DecidableEq ν] in
theorem subdirectories_mapDirectories (change : ν → Forest ν β → Forest ν β) (f : Forest ν β) :
    (f.mapDirectories change).subdirectories = f.subdirectories.map fun entry => (entry.1, change entry.1 entry.2) := by
  induction f with
  | nil => rfl
  | leaf name value rest ih => exact ih
  | dir name sub rest _ ih => simp [mapDirectories, subdirectories, ih]

omit [DecidableEq ν] in
theorem mem_names_of_mem_subdirectories {f : Forest ν β} {entry : ν × Forest ν β} (h : entry ∈ f.subdirectories) :
    entry.1 ∈ f.names := by
  induction f with
  | nil => cases h
  | leaf name value rest ih => exact List.mem_cons_of_mem _ (ih h)
  | dir name sub rest _ ih =>
      rcases List.mem_cons.mp h with rfl | h
      · exact List.mem_cons_self
      · exact List.mem_cons_of_mem _ (ih h)

theorem subdirectories_put_leaf {f : Forest ν β} {name : ν} (h : f.find name = none) (value : β) :
    (f.put name (some (.leaf value))).subdirectories = f.subdirectories := by
  induction f with
  | nil => rfl
  | leaf head stored rest ih =>
      have hNe : head ≠ name := fun hEq => by simp [find, hEq] at h
      simp only [find, if_neg hNe] at h
      simp only [put, if_neg hNe, subdirectories, ih h]
  | dir head sub rest _ ih =>
      have hNe : head ≠ name := fun hEq => by simp [find, hEq] at h
      simp only [find, if_neg hNe] at h
      simp only [put, if_neg hNe, subdirectories, ih h]

/-- Removing a name keeps the other subdirectories, in their order. -/
theorem subdirectories_put_none {Valid : ν → Prop} {f : Forest ν β} (hf : f.WellFormed Valid) (name : ν) :
    (f.put name none).subdirectories = f.subdirectories.filter fun entry => entry.1 ≠ name := by
  have hOthers (rest : Forest ν β) (hName : name ∉ rest.names) :
      rest.subdirectories.filter (fun entry => entry.1 ≠ name) = rest.subdirectories := by
    rw [List.filter_eq_self]
    intro entry hEntry
    have hNe : entry.1 ≠ name := fun hEq => hName (hEq ▸ mem_names_of_mem_subdirectories hEntry)
    simpa using hNe
  induction f with
  | nil => rfl
  | leaf head stored rest ih =>
      obtain ⟨-, hHead, hRest⟩ := hf
      by_cases hEq : head = name
      · rw [put, if_pos hEq, subdirectories, hOthers rest (hEq ▸ hHead)]
      · rw [put, if_neg hEq, subdirectories, subdirectories, ih hRest]
  | dir head sub rest _ ih =>
      obtain ⟨-, hHead, -, hRest⟩ := hf
      by_cases hEq : head = name
      · rw [put, if_pos hEq, subdirectories, List.filter_cons_of_neg (by simp [hEq]), hOthers rest (hEq ▸ hHead)]
      · rw [put, if_neg hEq, subdirectories, subdirectories, List.filter_cons_of_pos (by simp [hEq]), ih hRest]

theorem mem_entries_iff {Valid : ν → Prop} {f : Forest ν β} (hf : f.WellFormed Valid) (name : ν) (entry : Node ν β) :
    (name, entry) ∈ f.entries ↔ f.find name = some entry := by
  have absent (rest : Forest ν β) : (name, entry) ∈ rest.entries → name ∈ rest.names := by
    induction rest with
    | nil => simp [entries]
    | leaf head stored rest ih =>
        rintro (_ | ⟨_, hMem⟩)
        · exact List.mem_cons_self
        · exact List.mem_cons_of_mem _ (ih hMem)
    | dir head sub rest _ ih =>
        rintro (_ | ⟨_, hMem⟩)
        · exact List.mem_cons_self
        · exact List.mem_cons_of_mem _ (ih hMem)
  induction f with
  | nil => simp [entries, find]
  | leaf head stored rest ih =>
      by_cases hHead : head = name
      · subst hHead
        have hNot : (head, entry) ∉ rest.entries := fun hMem => hf.2.1 (absent rest hMem)
        simp [entries, find, hNot, eq_comm]
      · simp [entries, find, hHead, ih hf.2.2, Ne.symm hHead]
  | dir head sub rest _ ih =>
      by_cases hHead : head = name
      · subst hHead
        have hNot : (head, entry) ∉ rest.entries := fun hMem => hf.2.1 (absent rest hMem)
        simp [entries, find, hNot, eq_comm]
      · simp [entries, find, hHead, ih hf.2.2.2, Ne.symm hHead]

theorem mem_subdirectories_iff {Valid : ν → Prop} {f : Forest ν β} (hf : f.WellFormed Valid)
    (name : ν) (sub : Forest ν β) : (name, sub) ∈ f.subdirectories ↔ f.find name = some (.dir sub) := by
  induction f with
  | nil => simp [subdirectories, find]
  | leaf head stored rest ih =>
      by_cases hHead : head = name
      · subst hHead
        have hRest : (head, sub) ∉ rest.subdirectories := hf.2.1 ∘ mem_names_of_mem_subdirectories
        simpa [subdirectories, find] using hRest
      · simp [subdirectories, find, hHead, ih hf.2.2]
  | dir head child rest _ ih =>
      by_cases hHead : head = name
      · subst hHead
        have hRest : (head, sub) ∉ rest.subdirectories := hf.2.1 ∘ mem_names_of_mem_subdirectories
        simp [subdirectories, find, hRest, eq_comm]
      · simp [subdirectories, find, hHead, Ne.symm hHead, ih hf.2.2.2]

omit [DecidableEq ν] in
theorem nodup_subdirectories {Valid : ν → Prop} {f : Forest ν β} (hf : f.WellFormed Valid) :
    (f.subdirectories.map (·.1)).Nodup := by
  have absent (rest : Forest ν β) : ∀ name ∈ rest.subdirectories.map (·.1), name ∈ rest.names := by
    induction rest with
    | nil => simp [subdirectories]
    | leaf head stored rest ih => exact fun name hMem => List.mem_cons_of_mem _ (ih name hMem)
    | dir head child rest _ ih =>
        intro name hMem
        rcases List.mem_cons.mp hMem with rfl | hMem
        · exact List.mem_cons_self
        · exact List.mem_cons_of_mem _ (ih name hMem)
  induction f with
  | nil => simp [subdirectories]
  | leaf head stored rest ih => exact ih hf.2.2
  | dir head child rest _ ih =>
      exact List.nodup_cons.mpr ⟨fun hMem => hf.2.1 (absent rest _ hMem), ih hf.2.2.2⟩

theorem mem_leaves_iff {Valid : ν → Prop} {f : Forest ν β} (hf : f.WellFormed Valid) (name : ν)
    (value : β) : (name, value) ∈ f.leaves ↔ f.find name = some (.leaf value) := by
  have absent (rest : Forest ν β) : (name, value) ∈ rest.leaves → name ∈ rest.names := by
    induction rest with
    | nil => simp [leaves]
    | leaf head stored rest ih =>
        simp only [leaves, names, List.mem_cons, Prod.mk.injEq]
        rintro (⟨rfl, -⟩ | hMem)
        · exact Or.inl rfl
        · exact Or.inr (ih hMem)
    | dir head sub rest _ ih => exact fun hMem => List.mem_cons_of_mem _ (ih hMem)
  induction f with
  | nil => simp [leaves, find]
  | leaf head stored rest ih =>
      by_cases hHead : head = name
      · subst hHead
        have hNot : (head, value) ∉ rest.leaves := fun hMem => hf.2.1 (absent rest hMem)
        simp [leaves, find, hNot, eq_comm]
      · simp [leaves, find, hHead, ih hf.2.2, Ne.symm hHead]
  | dir head sub rest _ ih =>
      by_cases hHead : head = name
      · subst hHead
        have hNot : (head, value) ∉ rest.leaves := fun hMem => hf.2.1 (absent rest hMem)
        simp [leaves, find, hNot]
      · simp [leaves, find, hHead, ih hf.2.2.2]

/-- Every directory on the way to a path is one that the traversal enters. -/
def Entered (keep : List ν → Bool) (current path : List ν) : Prop :=
  ∀ above, above <+: path → above ≠ [] → above ≠ path → keep (current ++ above) = true

omit [DecidableEq ν] in
theorem entered_cons {keep : List ν → Bool} {current : List ν} {name next : ν} {path : List ν} :
    Entered keep current (name :: next :: path) ↔
      keep (current ++ [name]) = true ∧ Entered keep (current ++ [name]) (next :: path) := by
  constructor
  · intro h
    refine ⟨h [name] ⟨next :: path, rfl⟩ (by simp) (by simp), fun above hPrefix hNil hPath => ?_⟩
    have := h (name :: above) (by simpa using hPrefix) (by simp) (by simpa using hPath)
    simpa using this
  · rintro ⟨hName, hBelow⟩ above hPrefix hNil hPath
    cases above with
    | nil => exact (hNil rfl).elim
    | cons head above =>
        obtain ⟨rfl, hRest⟩ := List.cons_prefix_cons.mp hPrefix
        by_cases hAbove : above = []
        · simpa [hAbove] using hName
        · have := hBelow above hRest hAbove (by simpa using hPath)
          simpa using this

theorem mem_visitsBelow_iff {Valid : ν → Prop} {f : Forest ν β} (hf : f.WellFormed Valid)
    (keep : List ν → Bool) (current path : List ν) (value : β) :
    (path, value) ∈ visitedFiles (f.visitsBelow keep current) ↔
      ∃ name next tail, path = current ++ name :: next :: tail ∧
        f.file? (name :: next :: tail) = some value ∧
        Entered keep current (name :: next :: tail) := by
  induction f generalizing current with
  | nil => simp [visitsBelow]
  | leaf head stored rest ih =>
      rw [visitsBelow, ih hf.2.2]
      have hFile (name next : ν) (tail : List ν) :
          (leaf head stored rest).file? (name :: next :: tail) = rest.file? (name :: next :: tail) := by
        rw [file?_cons, file?_cons, find]
        by_cases hHead : head = name
        · subst hHead
          simp [(find_eq_none_iff rest head).mpr hf.2.1]
        · simp [hHead]
      simp only [hFile]
  | dir head sub rest ihSub ihRest =>
      obtain ⟨-, hFresh, hSub, hRest⟩ := hf
      have hFile (name next : ν) (tail : List ν) :
          (dir head sub rest).file? (name :: next :: tail) =
            if name = head then sub.file? (next :: tail) else rest.file? (name :: next :: tail) := by
        rw [file?_cons, find]
        by_cases hHead : head = name
        · simp [hHead]
        · simp [hHead, Ne.symm hHead, file?_cons rest]
      have hNone (next : ν) (tail : List ν) : rest.file? (head :: next :: tail) = none := by
        simp [file?_cons, (find_eq_none_iff rest head).mpr hFresh]
      rw [visitsBelow, visitedFiles_append, List.mem_append, ihRest hRest]
      constructor
      · rintro (hHere | ⟨name, next, tail, hPath, hStored, hEntered⟩)
        · by_cases hKeep : keep (current ++ [head]) = true
          · simp only [hKeep, if_true, visitedFiles_cons, List.mem_append, List.mem_map,
              ihSub hSub] at hHere
            rcases hHere with ⟨⟨name, stored⟩, hMem, hEq⟩ | ⟨name, next, tail, hPath, hStored, hEntered⟩
            · simp only [Prod.mk.injEq] at hEq
              obtain ⟨rfl, rfl⟩ := hEq
              rw [mem_leaves_iff hSub] at hMem
              refine ⟨head, name, [], by simp, by simp [hFile, file?_cons, hMem], ?_⟩
              refine entered_cons.mpr ⟨hKeep, fun above hPrefix hNil hNe => ?_⟩
              rcases List.prefix_cons_iff.mp hPrefix with hEq | ⟨rest', hEq, hTail⟩
              · exact (hNil hEq).elim
              · simp only [List.prefix_nil] at hTail
                exact (hNe (by simp [hEq, hTail])).elim
            · exact ⟨head, name, next :: tail, by simp [hPath], by simpa [hFile] using hStored,
                entered_cons.mpr ⟨hKeep, hEntered⟩⟩
          · simp [hKeep] at hHere
        · refine ⟨name, next, tail, hPath, ?_, hEntered⟩
          rw [hFile]
          by_cases hName : name = head
          · subst hName
            rw [hNone] at hStored
            cases hStored
          · simpa [hName] using hStored
      · rintro ⟨name, next, tail, hPath, hStored, hEntered⟩
        rw [hFile] at hStored
        by_cases hName : name = head
        · subst hName
          simp only [if_true] at hStored
          obtain ⟨hKeep, hBelow⟩ := entered_cons.mp hEntered
          refine Or.inl ?_
          simp only [hKeep, if_true, visitedFiles_cons, List.mem_append, List.mem_map, ihSub hSub]
          cases tail with
          | nil =>
              refine Or.inl ⟨(next, value), ?_, by simp [hPath]⟩
              rw [mem_leaves_iff hSub]
              rw [file?_cons] at hStored
              cases hFind : sub.find next with
              | none => simp [hFind] at hStored
              | some entry => cases entry <;> simp_all
          | cons last tail =>
              exact Or.inr ⟨next, last, tail, by simp [hPath], hStored, hBelow⟩
        · simp only [hName, if_false] at hStored
          exact Or.inr ⟨name, next, tail, hPath, hStored, hEntered⟩

/-- The traversal reaches exactly the leaves below admitted directories. -/
theorem mem_walkFiles_iff {Valid : ν → Prop} {f : Forest ν β} (hf : f.WellFormed Valid)
    (keep : List ν → Bool) (path : List ν) (value : β) :
    (path, value) ∈ f.walkFiles keep ↔ f.file? path = some value ∧ Entered keep [] path := by
  rw [walkFiles, walk, visitedFiles_cons, List.mem_append, mem_visitsBelow_iff hf]
  constructor
  · rintro (hHere | ⟨name, next, tail, hPath, hStored, hEntered⟩)
    · obtain ⟨⟨name, stored⟩, hMem, hEq⟩ := List.mem_map.mp hHere
      simp only [List.nil_append, Prod.mk.injEq] at hEq
      obtain ⟨rfl, rfl⟩ := hEq
      rw [mem_leaves_iff hf] at hMem
      refine ⟨by simp [file?_cons, hMem], fun above hPrefix hNil hNe => ?_⟩
      rcases List.prefix_cons_iff.mp hPrefix with hEq | ⟨rest, hEq, hTail⟩
      · exact (hNil hEq).elim
      · simp only [List.prefix_nil] at hTail
        exact (hNe (by simp [hEq, hTail])).elim
    · subst hPath
      exact ⟨hStored, hEntered⟩
  · rintro ⟨hStored, hEntered⟩
    cases path with
    | nil => simp at hStored
    | cons name path =>
        cases path with
        | nil =>
            refine Or.inl (List.mem_map.mpr ⟨(name, value), ?_, rfl⟩)
            rw [mem_leaves_iff hf]
            rw [file?_cons] at hStored
            cases hFind : f.find name with
            | none => simp [hFind] at hStored
            | some entry => cases entry <;> simp_all
        | cons next tail => exact Or.inr ⟨name, next, tail, rfl, hStored, hEntered⟩

/-- The traversal reaches exactly the leaves below admitted directories that can be
listed. -/
theorem mem_listedFiles_iff {Valid : ν → Prop} {f : Forest ν β} (hf : f.WellFormed Valid)
    (listable keep : List ν → Bool) (path : List ν) (value : β) :
    (path, value) ∈ f.listedFiles listable keep ↔
      f.file? path = some value ∧ Entered keep [] path ∧ Listed listable path := by
  have hTop : f.file? path = some value → path ≠ [] := by
    rintro hFile rfl
    simp at hFile
  unfold listedFiles
  by_cases hListable : listable [] = true
  · rw [if_pos hListable, mem_walkFiles_iff hf]
    refine and_congr_right fun _ => ?_
    simp only [Entered, Listed, List.nil_append, Bool.and_eq_true]
    constructor
    · refine fun h => ⟨fun above hPrefix hNil hNe => (h above hPrefix hNil hNe).1, fun above hPrefix hNe => ?_⟩
      by_cases hNil : above = []
      · rw [hNil, hListable]
      · exact (h above hPrefix hNil hNe).2
    · exact fun h above hPrefix hNil hNe => ⟨h.1 above hPrefix hNil hNe, h.2 above hPrefix hNe⟩
  · rw [if_neg hListable]
    refine iff_of_false List.not_mem_nil fun h => hListable ?_
    exact h.2.2 [] List.nil_prefix (Ne.symm (hTop h.1))

omit [DecidableEq ν] in
theorem nodup_leaves {Valid : ν → Prop} {f : Forest ν β} (hf : f.WellFormed Valid) :
    (f.leaves.map (·.1)).Nodup := by
  have absent (rest : Forest ν β) : ∀ name ∈ rest.leaves.map (·.1), name ∈ rest.names := by
    induction rest with
    | nil => simp [leaves]
    | leaf head value rest ih =>
        intro name h
        rcases List.mem_cons.mp h with h | h
        · exact List.mem_cons.mpr (Or.inl h)
        · exact List.mem_cons.mpr (Or.inr (ih name h))
    | dir head sub rest _ ih => exact fun name h => List.mem_cons.mpr (Or.inr (ih name h))
  induction f with
  | nil => simp [leaves]
  | leaf head value rest ih =>
      exact List.nodup_cons.mpr ⟨fun h => hf.2.1 (absent rest head h), ih hf.2.2⟩
  | dir head sub rest _ ih => exact ih hf.2.2.2

omit [DecidableEq ν] in
theorem visitedFiles_paths (current : List ν) (files : List (ν × β)) :
    (files.map fun file => (current ++ [file.1], file.2)).map (·.1) =
      (files.map (·.1)).map fun name => current ++ [name] := by
  simp

/-- No path is shown twice: the names of one directory are distinct, and different
subdirectories share no path. -/
theorem nodup_visitsBelow {Valid : ν → Prop} {f : Forest ν β} (hf : f.WellFormed Valid)
    (keep : List ν → Bool) (current : List ν) :
    ((visitedFiles (f.visitsBelow keep current)).map (·.1)).Nodup := by
  induction f generalizing current with
  | nil => simp [visitsBelow]
  | leaf head value rest ih => exact ih hf.2.2 current
  | dir head sub rest ihSub ihRest =>
      obtain ⟨-, hFresh, hSub, hRest⟩ := hf
      rw [visitsBelow, visitedFiles_append, List.map_append, List.nodup_append]
      refine ⟨?_, ihRest hRest current, fun path hPath other hOther hEq => ?_⟩
      · by_cases hKeep : keep (current ++ [head]) = true
        · simp only [hKeep, if_true, visitedFiles_cons, List.map_append, visitedFiles_paths, List.nodup_append]
          refine ⟨(nodup_leaves hSub).map fun a b h => by simpa using h, ihSub hSub _, ?_⟩
          -- the leaves of a directory have shorter paths than everything further down
          rintro path hPath other hOther rfl
          obtain ⟨name, -, rfl⟩ := List.mem_map.mp hPath
          obtain ⟨⟨_, value⟩, hMem, rfl⟩ := List.mem_map.mp hOther
          obtain ⟨first, next, tail, hLong, -⟩ := (mem_visitsBelow_iff hSub keep _ _ value).mp hMem
          simpa using congrArg List.length hLong
        · simp [hKeep]
      · subst hEq
        obtain ⟨⟨_, value⟩, hMem, hEq⟩ := List.mem_map.mp hOther
        obtain ⟨name, next, tail, hBelow, hStored, -⟩ := (mem_visitsBelow_iff hRest keep _ _ value).mp hMem
        have hHead : ∃ tail, path = current ++ head :: tail := by
          obtain ⟨⟨_, found⟩, hFound, rfl⟩ := List.mem_map.mp hPath
          by_cases hKeep : keep (current ++ [head]) = true
          · simp only [hKeep, if_true, visitedFiles_cons, List.mem_append, List.mem_map,
              mem_visitsBelow_iff hSub] at hFound
            rcases hFound with ⟨leaf, -, hEq⟩ | ⟨first, second, rest, hEq, -⟩
            · exact ⟨[leaf.1], by simpa using (congrArg Prod.fst hEq).symm⟩
            · exact ⟨first :: second :: rest, by simpa using hEq⟩
          · simp [hKeep] at hFound
        obtain ⟨rest', hPath'⟩ := hHead
        rw [← hEq, hBelow, List.append_cancel_left_eq, List.cons.injEq] at hPath'
        rw [hPath'.1, file?_cons, (find_eq_none_iff rest head).mpr hFresh] at hStored
        cases hStored

/-- A whole traversal shows every path once. -/
theorem nodup_walkFiles {Valid : ν → Prop} {f : Forest ν β} (hf : f.WellFormed Valid)
    (keep : List ν → Bool) : ((f.walkFiles keep).map (·.1)).Nodup := by
  rw [walkFiles, walk, visitedFiles_cons, List.map_append, visitedFiles_paths, List.nodup_append]
  refine ⟨(nodup_leaves hf).map fun a b h => by simpa using h, nodup_visitsBelow hf keep [], ?_⟩
  rintro path hPath other hOther rfl
  obtain ⟨name, -, rfl⟩ := List.mem_map.mp hPath
  obtain ⟨⟨_, value⟩, hMem, hEq⟩ := List.mem_map.mp hOther
  obtain ⟨first, next, tail, hLong, -⟩ := (mem_visitsBelow_iff hf keep _ _ value).mp hMem
  simpa [hLong] using congrArg List.length hEq

theorem nodup_listedFiles {Valid : ν → Prop} {f : Forest ν β} (hf : f.WellFormed Valid)
    (listable keep : List ν → Bool) : ((f.listedFiles listable keep).map (·.1)).Nodup := by
  unfold listedFiles
  split
  · exact nodup_walkFiles hf _
  · exact List.nodup_nil

end Forest
end SoftwareHub.Tree
