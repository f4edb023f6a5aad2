import SoftwareHub.Tree.Forest
import Mathlib.Data.List.Infix

/-! What creating, removing and moving entries does to the files of a tree. Most
callers only look at files, so that each operation has one equation for `file?` and
one statement about well-formedness. -/
namespace SoftwareHub.Tree.Forest

variable {ν β : Type} [DecidableEq ν]

@[simp] theorem node?_nil (f : Forest ν β) : f.node? [] = some (.dir f) := by
  cases f <;> rfl

theorem node?_cons (f : Forest ν β) (name : ν) (path : List ν) :
    f.node? (name :: path) = match f.find name with
      | none => none
      | some (.leaf value) => if path = [] then some (.leaf value) else none
      | some (.dir sub) => sub.node? path := by
  cases f <;> rfl

@[simp] theorem file?_nil (f : Forest ν β) : f.file? [] = none := by
  simp [file?]

theorem file?_cons (f : Forest ν β) (name : ν) (path : List ν) :
    f.file? (name :: path) = match f.find name with
      | none => none
      | some (.leaf value) => if path = [] then some value else none
      | some (.dir sub) => sub.file? path := by
  simp only [file?, node?_cons]
  cases f.find name with
  | none => rfl
  | some entry =>
      cases entry with
      | leaf value => by_cases h : path = [] <;> simp [h]
      | dir sub => rfl

@[simp] theorem node?_empty (name : ν) (path : List ν) :
    (nil : Forest ν β).node? (name :: path) = none := by
  simp [node?_cons, find]

@[simp] theorem file?_empty (path : List ν) : (nil : Forest ν β).file? path = none := by
  cases path <;> simp [file?]

theorem file?_eq_some_iff (f : Forest ν β) (path : List ν) (value : β) :
    f.file? path = some value ↔ f.node? path = some (.leaf value) := by
  unfold file?
  cases f.node? path with
  | none => simp
  | some entry => cases entry <;> simp

def Node.AllLeaves (P : β → Prop) : Node ν β → Prop
  | .leaf value => P value
  | .dir sub => sub.AllLeaves P

/-- The leaves of one entry are leaves of the tree. -/
theorem AllLeaves.find {P : β → Prop} {f : Forest ν β} (hf : f.AllLeaves P) {name : ν} {entry : Node ν β}
    (h : f.find name = some entry) : Node.AllLeaves P entry := by
  induction f with
  | nil => cases h
  | leaf other value rest ih =>
      unfold Forest.find at h
      split at h
      · cases h
        exact hf.1
      · exact ih hf.2 h
  | dir other sub rest _ ih =>
      unfold Forest.find at h
      split at h
      · cases h
        exact hf.1
      · exact ih hf.2 h

/-- What holds of every leaf holds of the file at a path. -/
theorem AllLeaves.file? {P : β → Prop} {f : Forest ν β} (hf : f.AllLeaves P) {path : List ν} {value : β}
    (h : f.file? path = some value) : P value := by
  induction path generalizing f with
  | nil => simp at h
  | cons name path ih =>
      rw [file?_cons] at h
      cases hFind : f.find name with
      | none =>
          rw [hFind] at h
          cases h
      | some entry =>
          rw [hFind] at h
          cases entry with
          | leaf stored =>
              dsimp only at h
              split at h
              · cases h
                exact hf.find hFind
              · cases h
          | dir sub => exact ih (hf.find hFind) h

/-- Without two entries of one name, every leaf of the tree is the file at some
path. -/
theorem allLeaves_of_file? {Valid : ν → Prop} {P : β → Prop} {f : Forest ν β} (hf : f.WellFormed Valid)
    (h : ∀ path value, f.file? path = some value → P value) : f.AllLeaves P := by
  induction f with
  | nil => trivial
  | leaf name value rest ih =>
      obtain ⟨-, hNew, hRest⟩ := hf
      refine ⟨h [name] value (by simp [file?_cons, Forest.find]), ih hRest ?_⟩
      intro path stored hFile
      apply h path stored
      cases path with
      | nil => simp at hFile
      | cons head tail =>
          rw [file?_cons] at hFile ⊢
          have hHead : name ≠ head := by
            rintro rfl
            rw [(find_eq_none_iff rest name).mpr hNew] at hFile
            cases hFile
          rw [Forest.find, if_neg hHead]
          exact hFile
  | dir name sub rest ihSub ihRest =>
      obtain ⟨-, hNew, hSub, hRest⟩ := hf
      refine ⟨ihSub hSub ?_, ihRest hRest ?_⟩
      · intro path stored hFile
        apply h (name :: path) stored
        rw [file?_cons, Forest.find, if_pos rfl]
        exact hFile
      · intro path stored hFile
        apply h path stored
        cases path with
        | nil => simp at hFile
        | cons head tail =>
            rw [file?_cons] at hFile ⊢
            have hHead : name ≠ head := by
              rintro rfl
              rw [(find_eq_none_iff rest name).mpr hNew] at hFile
              cases hFile
            rw [Forest.find, if_neg hHead]
            exact hFile

theorem node?_append {f sub : Forest ν β} {path : List ν} (h : f.node? path = some (.dir sub))
    (tail : List ν) : f.node? (path ++ tail) = sub.node? tail := by
  induction path generalizing f with
  | nil =>
      simp only [node?_nil, Option.some.injEq, Node.dir.injEq] at h
      simp [h]
  | cons name path ih =>
      rw [node?_cons] at h
      rw [List.cons_append, node?_cons]
      cases hFind : f.find name with
      | none => simp [hFind] at h
      | some entry =>
          cases entry with
          | leaf value => by_cases hPath : path = [] <;> simp [hFind, hPath] at h
          | dir child => exact ih (by simpa [hFind] using h)

theorem file?_append {f sub : Forest ν β} {path : List ν} (h : f.node? path = some (.dir sub))
    (tail : List ν) : f.file? (path ++ tail) = sub.file? tail := by
  simp [file?, node?_append h]

theorem node?_below_leaf {f : Forest ν β} {path : List ν} {value : β}
    (h : f.node? path = some (.leaf value)) {tail : List ν} (hTail : tail ≠ []) :
    f.node? (path ++ tail) = none := by
  induction path generalizing f with
  | nil => simp at h
  | cons name path ih =>
      rw [node?_cons] at h
      rw [List.cons_append, node?_cons]
      cases hFind : f.find name with
      | none => rfl
      | some entry =>
          cases entry with
          | leaf stored => simp [hTail]
          | dir child => exact ih (by simpa [hFind] using h)

/-- Below a path at which there is nothing, there is nothing. -/
theorem node?_below_none {f : Forest ν β} {path : List ν} (h : f.node? path = none) (tail : List ν) :
    f.node? (path ++ tail) = none := by
  induction path generalizing f with
  | nil => simp at h
  | cons name path ih =>
      rw [node?_cons] at h
      rw [List.cons_append, node?_cons]
      cases hFind : f.find name with
      | none => rfl
      | some entry =>
          cases entry with
          | leaf stored =>
              have hPath : path ≠ [] := by
                rintro rfl
                simp [hFind] at h
              simp [hPath]
          | dir child => exact ih (by simpa [hFind] using h)

/-- Two files are never on top of each other: a path that goes on behind a file
leads nowhere. -/
theorem eq_of_nested_files {f : Forest ν β} {first second : List ν} {a b : β}
    (hFirst : f.file? first = some a) (hSecond : f.file? second = some b)
    (hPrefix : first <+: second) : first = second := by
  obtain ⟨tail, rfl⟩ := hPrefix
  by_cases hTail : tail = []
  · simp [hTail]
  · rw [file?_eq_some_iff] at hFirst hSecond
    rw [node?_below_leaf hFirst hTail] at hSecond
    cases hSecond

/-- Every path that leads somewhere consists of admissible names. -/
theorem WellFormed.node? {Valid : ν → Prop} {f : Forest ν β} (hf : f.WellFormed Valid)
    {path : List ν} {entry : Node ν β} (h : f.node? path = some entry) :
    (∀ name ∈ path, Valid name) ∧ Node.WellFormed Valid entry := by
  induction path generalizing f with
  | nil =>
      simp only [node?_nil, Option.some.injEq] at h
      subst h
      exact ⟨by simp, hf⟩
  | cons name path ih =>
      rw [node?_cons] at h
      cases hFind : f.find name with
      | none => simp [hFind] at h
      | some child =>
          cases child with
          | leaf value =>
              by_cases hPath : path = []
              · simp only [hFind, hPath, if_true, Option.some.injEq] at h
                subst h
                exact ⟨by simpa [hPath] using (hf.find hFind).1, trivial⟩
              · simp [hFind, hPath] at h
          | dir sub =>
              obtain ⟨hNames, hEntry⟩ := ih (hf.find_dir hFind) (by simpa [hFind] using h)
              exact ⟨by simpa [(hf.find hFind).1] using hNames, hEntry⟩

/-- A new leaf is the file of its name, and the other files are as they were. -/
theorem file?_put_leaf {Valid : ν → Prop} {f : Forest ν β} (hf : f.WellFormed Valid) {name : ν}
    (hFresh : f.find name = none) (value : β) (path : List ν) :
    (f.put name (some (.leaf value))).file? path =
      if path = [name] then some value else f.file? path := by
  cases path with
  | nil => simp
  | cons head tail =>
      by_cases hHead : head = name
      · subst hHead
        simp [file?_cons, find_put_self hf, hFresh]
      · simp [file?_cons, find_put_of_ne f _ hHead, hHead]

/-- A replaced subdirectory shows its own files, and the other files are as they
were. -/
theorem file?_put_dir {Valid : ν → Prop} {f : Forest ν β} (hf : f.WellFormed Valid) (name : ν)
    (sub : Forest ν β) (path : List ν) :
    (f.put name (some (.dir sub))).file? path = match path with
      | [] => none
      | head :: tail => if head = name then sub.file? tail else f.file? (head :: tail) := by
  cases path with
  | nil => simp
  | cons head tail =>
      by_cases hHead : head = name
      · subst hHead
        simp [file?_cons, find_put_self hf]
      · simp [file?_cons, find_put_of_ne f _ hHead, hHead]

theorem create_cons_cons (f : Forest ν β) (name next : ν) (path : List ν) (entry : Node ν β) :
    f.create (name :: next :: path) entry = match f.find name with
      | none => ((nil : Forest ν β).create (next :: path) entry).map fun sub =>
          f.put name (some (.dir sub))
      | some (.leaf _) => none
      | some (.dir sub) => (sub.create (next :: path) entry).map fun sub =>
          f.put name (some (.dir sub)) := by
  cases hFind : f.find name with
  | none => simp only [create, hFind]
  | some other => cases other <;> simp only [create, hFind]

theorem WellFormed.create {Valid : ν → Prop} {f result : Forest ν β} (hf : f.WellFormed Valid)
    {path : List ν} {entry : Node ν β} (hPath : ∀ name ∈ path, Valid name)
    (hEntry : Node.WellFormed Valid entry) (h : f.create path entry = some result) :
    result.WellFormed Valid := by
  induction path generalizing f result with
  | nil => simp [Forest.create] at h
  | cons name path ih =>
      have hName : Valid name := hPath name (by simp)
      have hTail : ∀ other ∈ path, Valid other := fun other hm => hPath other (by simp [hm])
      cases path with
      | nil =>
          cases hFind : f.find name with
          | none =>
              simp only [Forest.create, hFind, Option.some.injEq] at h
              subst h
              exact hf.put hName (by simpa using hEntry)
          | some other => simp [Forest.create, hFind] at h
      | cons next path =>
          rw [create_cons_cons] at h
          cases hFind : f.find name with
          | none =>
              simp only [hFind, Option.map_eq_some_iff] at h
              obtain ⟨sub, hSub, rfl⟩ := h
              have hNil : (nil : Forest ν β).WellFormed Valid := trivial
              exact hf.put hName (by simpa [Node.WellFormed] using ih hNil hTail hSub)
          | some other =>
              cases other with
              | leaf value => simp [hFind] at h
              | dir child =>
                  simp only [hFind, Option.map_eq_some_iff] at h
                  obtain ⟨sub, hSub, rfl⟩ := h
                  exact hf.put hName
                    (by simpa [Node.WellFormed] using ih (hf.find_dir hFind) hTail hSub)

theorem create_singleton {f result : Forest ν β} {name : ν} {entry : Node ν β}
    (h : f.create [name] entry = some result) : f.find name = none ∧ result = f.put name (some entry) := by
  cases hFind : f.find name with
  | some found => simp [create, hFind] at h
  | none =>
      simp only [create, hFind, Option.some.injEq] at h
      exact ⟨rfl, h.symm⟩

/-- A created file is there, and no other file has changed. -/
theorem file?_create {Valid : ν → Prop} {f result : Forest ν β} (hf : f.WellFormed Valid)
    {path : List ν} {value : β} (h : f.create path (.leaf value) = some result) (other : List ν) :
    result.file? other = if other = path then some value else f.file? other := by
  induction path generalizing f result other with
  | nil => simp [create] at h
  | cons name path ih =>
      cases path with
      | nil =>
          cases hFind : f.find name with
          | none =>
              simp only [create, hFind, Option.some.injEq] at h
              subst h
              exact file?_put_leaf hf hFind value other
          | some entry => simp [create, hFind] at h
      | cons next path =>
          rw [create_cons_cons] at h
          have hStep : ∃ child sub : Forest ν β, child.WellFormed Valid ∧
              (∀ tail, f.file? (name :: tail) = child.file? tail) ∧
              child.create (next :: path) (.leaf value) = some sub ∧
              result = f.put name (some (.dir sub)) := by
            cases hFind : f.find name with
            | none =>
                simp only [hFind, Option.map_eq_some_iff] at h
                obtain ⟨sub, hSub, rfl⟩ := h
                exact ⟨nil, sub, trivial, fun tail => by simp [file?_cons, hFind], hSub, rfl⟩
            | some entry =>
                cases entry with
                | leaf stored => simp [hFind] at h
                | dir child =>
                    simp only [hFind, Option.map_eq_some_iff] at h
                    obtain ⟨sub, hSub, rfl⟩ := h
                    exact ⟨child, sub, hf.find_dir hFind, fun tail => by simp [file?_cons, hFind],
                      hSub, rfl⟩
          obtain ⟨child, sub, hChild, hOld, hSub, rfl⟩ := hStep
          rw [file?_put_dir hf]
          cases other with
          | nil => simp
          | cons head tail =>
              by_cases hHead : head = name
              · subst hHead
                simp [ih hChild hSub, hOld]
              · simp [hHead]

/-- Creation is possible when nothing exists at the path and no file stands above
it. -/
theorem exists_create {f : Forest ν β} {path : List ν} (entry : Node ν β) (hPath : path ≠ [])
    (hFree : f.node? path = none) (hAbove : ∀ above, above <+: path → f.file? above = none) :
    ∃ result, f.create path entry = some result := by
  induction path generalizing f with
  | nil => exact (hPath rfl).elim
  | cons name path ih =>
      cases path with
      | nil =>
          cases hFind : f.find name with
          | none => exact ⟨_, by simp [create, hFind]; rfl⟩
          | some other =>
              rw [node?_cons, hFind] at hFree
              cases other <;> simp at hFree
      | cons next path =>
          rw [create_cons_cons]
          rw [node?_cons] at hFree
          cases hFind : f.find name with
          | none =>
              obtain ⟨sub, hSub⟩ := ih (f := (nil : Forest ν β)) (by simp) (by simp) (by simp)
              exact ⟨_, by simp [hSub]; rfl⟩
          | some other =>
              cases other with
              | leaf value =>
                  have hLeaf := hAbove [name] ⟨next :: path, rfl⟩
                  simp [file?_cons, hFind] at hLeaf
              | dir child =>
                  simp only [hFind] at hFree
                  obtain ⟨sub, hSub⟩ := ih (by simp) hFree (fun above hPrefix => by
                    have := hAbove (name :: above) (by simpa using hPrefix)
                    simpa [file?_cons, hFind] using this)
                  exact ⟨_, by simp [hSub]; rfl⟩

theorem node?_of_create {f result : Forest ν β} {path : List ν} {entry : Node ν β}
    (h : f.create path entry = some result) : f.node? path = none := by
  induction path generalizing f result with
  | nil => simp [create] at h
  | cons name path ih =>
      rw [node?_cons]
      cases path with
      | nil => cases hFind : f.find name <;> simp [create, hFind] at h ⊢
      | cons next path =>
          rw [create_cons_cons] at h
          cases hFind : f.find name with
          | none => rfl
          | some other =>
              cases other with
              | leaf value => simp
              | dir child =>
                  simp only [hFind, Option.map_eq_some_iff] at h
                  obtain ⟨sub, hSub, -⟩ := h
                  exact ih hSub

/-- A new empty directory holds no files, and hides none. -/
theorem file?_create_empty {Valid : ν → Prop} {f result : Forest ν β} (hf : f.WellFormed Valid)
    {name : ν} (h : f.create [name] (.dir .nil) = some result) (other : List ν) :
    result.file? other = f.file? other := by
  obtain ⟨hFind, rfl⟩ := create_singleton h
  rw [file?_put_dir hf]
  cases other with
  | nil => simp
  | cons head tail =>
      by_cases hHead : head = name
      · subst hHead
        have hEmpty : (nil : Forest ν β).file? tail = none := by
          cases tail <;> simp [file?_cons, find]
        simp [file?_cons, hFind, hEmpty]
      · simp [hHead]

/-- Creating an entry touches one name of the directory only. -/
theorem find_create_of_ne {f result : Forest ν β} {name : ν} {path : List ν} {entry : Node ν β}
    (h : f.create (name :: path) entry = some result) {other : ν} (hOther : other ≠ name) :
    result.find other = f.find other := by
  cases path with
  | nil =>
      cases hFind : f.find name with
      | none =>
          simp only [create, hFind, Option.some.injEq] at h
          exact h ▸ find_put_of_ne f _ hOther
      | some found => simp [create, hFind] at h
  | cons next path =>
      rw [create_cons_cons] at h
      cases hFind : f.find name with
      | none =>
          simp only [hFind, Option.map_eq_some_iff] at h
          obtain ⟨sub, -, rfl⟩ := h
          exact find_put_of_ne f _ hOther
      | some found =>
          cases found with
          | leaf value => simp [hFind] at h
          | dir child =>
              simp only [hFind, Option.map_eq_some_iff] at h
              obtain ⟨sub, -, rfl⟩ := h
              exact find_put_of_ne f _ hOther

/-- Creating an entry brings nothing to a path that does not lead to it. -/
theorem node?_create_eq_none {Valid : ν → Prop} {f result : Forest ν β} (hf : f.WellFormed Valid)
    {path : List ν} {value : β} (h : f.create path (.leaf value) = some result) {other : List ν}
    (hOther : f.node? other = none) (hPrefix : ¬other <+: path) : result.node? other = none := by
  induction path generalizing f result other with
  | nil => simp [create] at h
  | cons name path ih =>
      obtain ⟨head, tail, rfl⟩ := List.exists_cons_of_ne_nil (l := other)
        fun hNil => hPrefix (hNil ▸ List.nil_prefix)
      by_cases hHead : head = name
      · subst hHead
        have hTail : ¬tail <+: path := fun hTail => hPrefix (List.cons_prefix_cons.mpr ⟨rfl, hTail⟩)
        rw [node?_cons] at hOther ⊢
        cases path with
        | nil =>
            obtain ⟨-, rfl⟩ := create_singleton h
            have hNil : tail ≠ [] := fun hNil => hTail (hNil ▸ List.nil_prefix)
            simp [find_put_self hf, hNil]
        | cons next path =>
            rw [create_cons_cons] at h
            cases hFind : f.find head with
            | none =>
                simp only [hFind, Option.map_eq_some_iff] at h
                obtain ⟨sub, hSub, rfl⟩ := h
                have hNil : tail ≠ [] := fun hNil => hTail (hNil ▸ List.nil_prefix)
                have hEmpty : (nil : Forest ν β).WellFormed Valid := trivial
                obtain ⟨first, rest, rfl⟩ := List.exists_cons_of_ne_nil hNil
                simpa [find_put_self hf] using ih hEmpty hSub (by simp [node?_cons, find]) hTail
            | some found =>
                cases found with
                | leaf stored => simp [hFind] at h
                | dir child =>
                    simp only [hFind, Option.map_eq_some_iff] at h hOther
                    obtain ⟨sub, hSub, rfl⟩ := h
                    simpa [find_put_self hf] using ih (hf.find_dir hFind) hSub hOther hTail
      · rw [node?_cons] at hOther ⊢
        rwa [find_create_of_ne h hHead]

/-- The directory above a created entry exists afterwards. -/
theorem find_create_above {Valid : ν → Prop} {f result : Forest ν β} (hf : f.WellFormed Valid)
    {name next : ν} {path : List ν} {entry : Node ν β}
    (h : f.create (name :: next :: path) entry = some result) :
    ∃ sub, result.find name = some (.dir sub) := by
  rw [create_cons_cons] at h
  cases hFind : f.find name with
  | none =>
      simp only [hFind, Option.map_eq_some_iff] at h
      obtain ⟨sub, -, rfl⟩ := h
      exact ⟨sub, find_put_self hf name _⟩
  | some found =>
      cases found with
      | leaf value => simp [hFind] at h
      | dir child =>
          simp only [hFind, Option.map_eq_some_iff] at h
          obtain ⟨sub, -, rfl⟩ := h
          exact ⟨sub, find_put_self hf name _⟩

theorem erase_cons_cons (f : Forest ν β) (name next : ν) (path : List ν) :
    f.erase (name :: next :: path) = match f.find name with
      | some (.dir sub) => f.put name (some (.dir (sub.erase (next :: path))))
      | _ => f := by
  cases hFind : f.find name with
  | none => simp only [erase, hFind]
  | some other => cases other <;> simp only [erase, hFind]

theorem WellFormed.erase {Valid : ν → Prop} {f : Forest ν β} (hf : f.WellFormed Valid)
    (path : List ν) : (f.erase path).WellFormed Valid := by
  induction path generalizing f with
  | nil => simpa [Forest.erase] using hf
  | cons name path ih =>
      cases path with
      | nil =>
          cases hFind : f.find name with
          | none => simpa [Forest.erase, put_none_of_find_none hFind] using hf
          | some entry => exact hf.put (hf.find hFind).1 (by simp)
      | cons next path =>
          rw [erase_cons_cons]
          split
          · rename_i sub hFind
            exact hf.put (hf.find hFind).1
              (by simpa [Node.WellFormed] using ih (hf.find_dir hFind))
          · exact hf

/-- After the removal nothing is at the path. -/
theorem node?_erase_self {Valid : ν → Prop} {f : Forest ν β} (hf : f.WellFormed Valid)
    {path : List ν} (hPath : path ≠ []) : (f.erase path).node? path = none := by
  induction path generalizing f with
  | nil => exact (hPath rfl).elim
  | cons name path ih =>
      cases path with
      | nil => simp [erase, node?_cons, find_put_self hf]
      | cons next path =>
          rw [erase_cons_cons]
          cases hFind : f.find name with
          | none => simp [node?_cons, hFind]
          | some entry =>
              cases entry with
              | leaf value => simp [node?_cons, hFind]
              | dir sub =>
                  simpa [node?_cons, find_put_self hf] using ih (hf.find_dir hFind) (by simp)

/-- Removing a file removes that file and no other. -/
theorem file?_erase {Valid : ν → Prop} {f : Forest ν β} (hf : f.WellFormed Valid)
    {path : List ν} {value : β} (h : f.file? path = some value) (other : List ν) :
    (f.erase path).file? other = if other = path then none else f.file? other := by
  induction path generalizing f other with
  | nil => simp at h
  | cons name path ih =>
      rw [file?_cons] at h
      cases other with
      | nil => simp
      | cons head tail =>
          cases path with
          | nil =>
              by_cases hHead : head = name
              · subst hHead
                cases hFind : f.find head with
                | none => simp [hFind] at h
                | some entry =>
                    cases entry with
                    | leaf stored =>
                        by_cases hTail : tail = [] <;>
                          simp [erase, file?_cons, find_put_self hf, hFind, hTail]
                    | dir sub => simp [hFind] at h
              · simp [erase, file?_cons, find_put_of_ne f _ hHead, hHead]
          | cons next path =>
              rw [erase_cons_cons]
              cases hFind : f.find name with
              | none => simp [hFind] at h
              | some entry =>
                  cases entry with
                  | leaf stored => simp [hFind] at h
                  | dir sub =>
                      by_cases hHead : head = name
                      · subst hHead
                        simp only [hFind] at h
                        simp [file?_cons, find_put_self hf, hFind, ih (hf.find_dir hFind) h]
                      · simp [file?_cons, find_put_of_ne f _ hHead, hHead]

theorem WellFormed.mkdirs {Valid : ν → Prop} {f result : Forest ν β} (hf : f.WellFormed Valid)
    {path : List ν} (hPath : ∀ name ∈ path, Valid name) (h : f.mkdirs path = some result) :
    result.WellFormed Valid := by
  induction path generalizing f result with
  | nil =>
      simp only [Forest.mkdirs, Option.some.injEq] at h
      exact h ▸ hf
  | cons name path ih =>
      have hTail : ∀ other ∈ path, Valid other := fun other hm => hPath other (by simp [hm])
      have hNil : (nil : Forest ν β).WellFormed Valid := trivial
      rw [Forest.mkdirs] at h
      cases hFind : f.find name with
      | none =>
          simp only [hFind, Option.map_eq_some_iff] at h
          obtain ⟨sub, hSub, rfl⟩ := h
          exact hf.put (hPath name (by simp)) (by simpa [Node.WellFormed] using ih hNil hTail hSub)
      | some other =>
          cases other with
          | leaf value => simp [hFind] at h
          | dir child =>
              simp only [hFind, Option.map_eq_some_iff] at h
              obtain ⟨sub, hSub, rfl⟩ := h
              exact hf.put (hPath name (by simp))
                (by simpa [Node.WellFormed] using ih (hf.find_dir hFind) hTail hSub)

/-- New directories contain no files, and the old files stay. -/
theorem file?_mkdirs {Valid : ν → Prop} {f result : Forest ν β} (hf : f.WellFormed Valid)
    {path : List ν} (h : f.mkdirs path = some result) (other : List ν) :
    result.file? other = f.file? other := by
  induction path generalizing f result other with
  | nil =>
      simp only [mkdirs, Option.some.injEq] at h
      rw [h]
  | cons name path ih =>
      have hNil : (nil : Forest ν β).WellFormed Valid := trivial
      rw [mkdirs] at h
      cases hFind : f.find name with
      | none =>
          simp only [hFind, Option.map_eq_some_iff] at h
          obtain ⟨sub, hSub, rfl⟩ := h
          rw [file?_put_dir hf]
          cases other with
          | nil => simp
          | cons head tail =>
              by_cases hHead : head = name
              · subst hHead
                simp [ih hNil hSub, file?_cons, hFind]
              · simp [hHead]
      | some entry =>
          cases entry with
          | leaf value => simp [hFind] at h
          | dir child =>
              simp only [hFind, Option.map_eq_some_iff] at h
              obtain ⟨sub, hSub, rfl⟩ := h
              rw [file?_put_dir hf]
              cases other with
              | nil => simp
              | cons head tail =>
                  by_cases hHead : head = name
                  · subst hHead
                    simp [ih (hf.find_dir hFind) hSub, file?_cons, hFind]
                  · simp [hHead]

/-- Below the directory that was made nothing changes. -/
theorem node?_mkdirs_append {Valid : ν → Prop} {f result : Forest ν β} (hf : f.WellFormed Valid) {path tail : List ν}
    (h : f.mkdirs path = some result) (hTail : tail ≠ []) : result.node? (path ++ tail) = f.node? (path ++ tail) := by
  induction path generalizing f result with
  | nil =>
      cases h
      rfl
  | cons name path ih =>
      rw [mkdirs] at h
      cases hFind : f.find name with
      | none =>
          rw [hFind] at h
          obtain ⟨sub, hSub, rfl⟩ := Option.map_eq_some_iff.mp h
          have hBelow := ih (f := nil) trivial hSub
          rw [List.cons_append, node?_cons, node?_cons, find_put_self hf, hFind]
          refine hBelow.trans ?_
          cases hPath : path ++ tail with
          | nil => exact (hTail (List.append_eq_nil_iff.mp hPath).2).elim
          | cons next rest => rfl
      | some entry =>
          cases entry with
          | leaf value => simp [hFind] at h
          | dir sub =>
              rw [hFind] at h
              obtain ⟨made, hMade, rfl⟩ := Option.map_eq_some_iff.mp h
              have hBelow := ih (hf.find_dir hFind) hMade
              rw [List.cons_append, node?_cons, node?_cons, find_put_self hf, hFind]
              exact hBelow

/-- The only obstacle to making a directory is a file on the way. -/
theorem exists_mkdirs_iff {f : Forest ν β} {path : List ν} :
    (∃ result, f.mkdirs path = some result) ↔ ∀ above, above <+: path → f.file? above = none := by
  induction path generalizing f with
  | nil => simp [mkdirs]
  | cons name path ih =>
      rw [mkdirs]
      constructor
      · rintro ⟨result, h⟩ above hPrefix
        cases above with
        | nil => simp
        | cons head above =>
            obtain ⟨rfl, hRest⟩ := List.cons_prefix_cons.mp hPrefix
            rw [file?_cons]
            cases hFind : f.find head with
            | none => rfl
            | some entry =>
                cases entry with
                | leaf value => simp [hFind] at h
                | dir sub =>
                    simp only [hFind, Option.map_eq_some_iff] at h
                    obtain ⟨child, hChild, -⟩ := h
                    exact ih.mp ⟨child, hChild⟩ above hRest
      · intro h
        cases hFind : f.find name with
        | none =>
            obtain ⟨sub, hSub⟩ := (ih (f := (nil : Forest ν β))).mpr (by simp)
            exact ⟨_, by simp [hSub]; rfl⟩
        | some entry =>
            cases entry with
            | leaf value =>
                have hLeaf := h [name] ⟨path, rfl⟩
                simp [file?_cons, hFind] at hLeaf
            | dir sub =>
                obtain ⟨child, hChild⟩ := ih.mpr (fun above hPrefix => by
                  have := h (name :: above) (by simpa using hPrefix)
                  simpa [file?_cons, hFind] using this)
                exact ⟨_, by simp [hChild]; rfl⟩

end SoftwareHub.Tree.Forest
