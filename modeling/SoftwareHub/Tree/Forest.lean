import Mathlib.Data.List.Basic

/-! Directory trees. A directory is the list of its entries in listing order; an
entry is a leaf with a payload or a subdirectory. Paths are lists of names, and
nothing here fixes what a name or a payload is. -/
namespace SoftwareHub.Tree

/-- The entries of one directory, as first child and remaining siblings. -/
inductive Forest (ν β : Type) where
  | nil
  | leaf (name : ν) (value : β) (rest : Forest ν β)
  | dir (name : ν) (sub : Forest ν β) (rest : Forest ν β)
  deriving DecidableEq, Repr

/-- What one name of a directory stands for: a leaf or a subdirectory. -/
inductive Node (ν β : Type) where
  | leaf (value : β)
  | dir (sub : Forest ν β)
  deriving DecidableEq, Repr

namespace Forest

variable {ν β : Type}

/-- All names of one directory, in listing order. -/
def names : Forest ν β → List ν
  | nil => []
  | leaf name _ rest => name :: rest.names
  | dir name _ rest => name :: rest.names

/-- Siblings have different names and every name is admissible, at every level. -/
def WellFormed (Valid : ν → Prop) : Forest ν β → Prop
  | nil => True
  | leaf name _ rest => Valid name ∧ name ∉ rest.names ∧ rest.WellFormed Valid
  | dir name sub rest =>
      Valid name ∧ name ∉ rest.names ∧ sub.WellFormed Valid ∧ rest.WellFormed Valid

instance decidableWellFormed [DecidableEq ν] (Valid : ν → Prop) [DecidablePred Valid] :
    (f : Forest ν β) → Decidable (f.WellFormed Valid)
  | nil => .isTrue trivial
  | leaf _ _ rest =>
      have := decidableWellFormed Valid rest
      inferInstanceAs (Decidable (_ ∧ _ ∧ _))
  | dir _ sub rest =>
      have := decidableWellFormed Valid rest
      have := decidableWellFormed Valid sub
      inferInstanceAs (Decidable (_ ∧ _ ∧ _ ∧ _))

/-- Every payload of the tree satisfies `P`, at every level. -/
def AllLeaves (P : β → Prop) : Forest ν β → Prop
  | nil => True
  | leaf _ value rest => P value ∧ rest.AllLeaves P
  | dir _ sub rest => sub.AllLeaves P ∧ rest.AllLeaves P

instance decidableAllLeaves (P : β → Prop) [DecidablePred P] : (f : Forest ν β) → Decidable (f.AllLeaves P)
  | nil => .isTrue trivial
  | leaf _ _ rest =>
      have := decidableAllLeaves P rest
      inferInstanceAs (Decidable (_ ∧ _))
  | dir _ sub rest =>
      have := decidableAllLeaves P rest
      have := decidableAllLeaves P sub
      inferInstanceAs (Decidable (_ ∧ _))

/-- Change the content of the subdirectories, each in its place. -/
def mapDirectories (change : ν → Forest ν β → Forest ν β) : Forest ν β → Forest ν β
  | nil => nil
  | leaf name value rest => leaf name value (rest.mapDirectories change)
  | dir name sub rest => dir name (change name sub) (rest.mapDirectories change)

variable [DecidableEq ν]

/-- The entry of this name, if there is one; the first, should there be several. -/
def find : Forest ν β → ν → Option (Node ν β)
  | nil, _ => none
  | leaf name value rest, target => if name = target then some (.leaf value) else rest.find target
  | dir name sub rest, target => if name = target then some (.dir sub) else rest.find target

/-- Replace the entry of one name by `entry`: remove it, overwrite it in
place, or append it when the name is new. -/
def put (target : ν) (entry : Option (Node ν β)) : Forest ν β → Forest ν β
  | nil => match entry with
    | none => nil
    | some (.leaf value) => leaf target value nil
    | some (.dir sub) => dir target sub nil
  | leaf name value rest =>
      if name = target then
        match entry with
        | none => rest
        | some (.leaf value) => leaf target value rest
        | some (.dir sub) => dir target sub rest
      else leaf name value (rest.put target entry)
  | dir name sub rest =>
      if name = target then
        match entry with
        | none => rest
        | some (.leaf value) => leaf target value rest
        | some (.dir sub) => dir target sub rest
      else dir name sub (rest.put target entry)

/-- Follow a path. The empty path leads to the directory itself. -/
def node? : Forest ν β → List ν → Option (Node ν β)
  | f, [] => some (.dir f)
  | f, name :: path => match f.find name with
    | none => none
    | some (.leaf value) => if path = [] then some (.leaf value) else none
    | some (.dir sub) => sub.node? path

/-- The payload stored at a path, or nothing when the path leads to a directory or
nowhere. -/
def file? (f : Forest ν β) (path : List ν) : Option β :=
  match f.node? path with
  | some (.leaf value) => some value
  | _ => none

/-- Create an entry at a path, with all missing directories above it. There
is no result when the path exists or a leaf stands in its way. -/
def create : Forest ν β → List ν → Node ν β → Option (Forest ν β)
  | _, [], _ => none
  | f, [name], entry => match f.find name with
    | none => some (f.put name (some entry))
    | some _ => none
  | f, name :: next :: path, entry => match f.find name with
    | none => ((nil : Forest ν β).create (next :: path) entry).map fun sub => f.put name (some (.dir sub))
    | some (.leaf _) => none
    | some (.dir sub) => (sub.create (next :: path) entry).map fun sub => f.put name (some (.dir sub))

/-- Make a directory and the directories above it, like `mkdir -p`. -/
def mkdirs : Forest ν β → List ν → Option (Forest ν β)
  | f, [] => some f
  | f, name :: path => match f.find name with
    | none => ((nil : Forest ν β).mkdirs path).map fun sub => f.put name (some (.dir sub))
    | some (.leaf _) => none
    | some (.dir sub) => (sub.mkdirs path).map fun sub => f.put name (some (.dir sub))

/-- Remove whatever a path leads to, a directory with all that is below it. -/
def erase : Forest ν β → List ν → Forest ν β
  | f, [] => f
  | f, [name] => f.put name none
  | f, name :: next :: path => match f.find name with
    | some (.dir sub) => f.put name (some (.dir (sub.erase (next :: path))))
    | _ => f

section

-- The equations are made here, once for all the lemmas below.
attribute [local simp] names find put node? create mkdirs erase

end

theorem find_eq_none_iff (f : Forest ν β) (name : ν) : f.find name = none ↔ name ∉ f.names := by
  induction f with
  | nil => simp [find, names]
  | leaf head value rest ih =>
      by_cases h : head = name
      · simp [find, names, h]
      · simp [find, names, h, ih, Ne.symm h]
  | dir head sub rest _ ih =>
      by_cases h : head = name
      · simp [find, names, h]
      · simp [find, names, h, ih, Ne.symm h]

theorem find_of_mem_names {f : Forest ν β} {name : ν} (h : name ∈ f.names) :
    ∃ entry, f.find name = some entry := by
  cases hf : f.find name with
  | none => exact ((find_eq_none_iff f name).mp hf h).elim
  | some entry => exact ⟨entry, rfl⟩

theorem mem_names_put {f : Forest ν β} {name target : ν} {entry : Option (Node ν β)}
    (h : name ∈ (f.put target entry).names) : name = target ∨ name ∈ f.names := by
  induction f with
  | nil =>
      rcases entry with _ | (value | sub) <;> simp_all [put, names]
  | leaf head value rest ih =>
      by_cases hHead : head = target
      · rcases entry with _ | (value | sub) <;> simp_all [put, names]
      · simp only [put, hHead, if_false, names, List.mem_cons] at h ⊢
        rcases h with h | h
        · exact Or.inr (Or.inl h)
        · exact (ih h).imp_right Or.inr
  | dir head sub rest _ ih =>
      by_cases hHead : head = target
      · rcases entry with _ | (value | sub) <;> simp_all [put, names]
      · simp only [put, hHead, if_false, names, List.mem_cons] at h ⊢
        rcases h with h | h
        · exact Or.inr (Or.inl h)
        · exact (ih h).imp_right Or.inr

/-- Replacing the entry of one name touches no other name. -/
theorem find_put_of_ne (f : Forest ν β) {name target : ν} (entry : Option (Node ν β))
    (h : name ≠ target) : (f.put target entry).find name = f.find name := by
  induction f with
  | nil => rcases entry with _ | (value | sub) <;> simp [put, find, Ne.symm h]
  | leaf head value rest ih =>
      by_cases hHead : head = target
      · subst hHead
        rcases entry with _ | (value | sub) <;> simp [put, find, Ne.symm h]
      · simp [put, find, hHead, ih]
  | dir head sub rest _ ih =>
      by_cases hHead : head = target
      · subst hHead
        rcases entry with _ | (value | sub) <;> simp [put, find, Ne.symm h]
      · simp [put, find, hHead, ih]

/-- Reading back the replaced name. Removal needs distinct siblings, or an
older entry of the same name would come to light. -/
theorem find_put_self {Valid : ν → Prop} {f : Forest ν β} (hf : f.WellFormed Valid) (target : ν)
    (entry : Option (Node ν β)) : (f.put target entry).find target = entry := by
  induction f with
  | nil => rcases entry with _ | (value | sub) <;> simp [put, find]
  | leaf head value rest ih =>
      by_cases hHead : head = target
      · subst hHead
        have hRest := (find_eq_none_iff rest head).mpr hf.2.1
        rcases entry with _ | (value | sub) <;> simp [put, find, hRest]
      · simp [put, find, hHead, ih hf.2.2]
  | dir head sub rest _ ih =>
      by_cases hHead : head = target
      · subst hHead
        have hRest := (find_eq_none_iff rest head).mpr hf.2.1
        rcases entry with _ | (value | sub) <;> simp [put, find, hRest]
      · simp [put, find, hHead, ih hf.2.2.2]

theorem put_none_of_find_none {f : Forest ν β} {name : ν} (h : f.find name = none) :
    f.put name none = f := by
  induction f with
  | nil => rfl
  | leaf head value rest ih =>
      by_cases hHead : head = name
      · simp [find, hHead] at h
      · simp [put, hHead, ih (by simpa [find, hHead] using h)]
  | dir head sub rest _ ih =>
      by_cases hHead : head = name
      · simp [find, hHead] at h
      · simp [put, hHead, ih (by simpa [find, hHead] using h)]

/-- What a well-formed directory may take up under a name. -/
def Node.WellFormed (Valid : ν → Prop) : Node ν β → Prop
  | .leaf _ => True
  | .dir sub => sub.WellFormed Valid

/-- Well-formed directories stay so when a name is replaced by something
well-formed. -/
theorem WellFormed.put {Valid : ν → Prop} {f : Forest ν β} (hf : f.WellFormed Valid) {target : ν}
    {entry : Option (Node ν β)} (hName : Valid target)
    (hEntry : ∀ node, entry = some node → Node.WellFormed Valid node) :
    (f.put target entry).WellFormed Valid := by
  induction f with
  | nil =>
      rcases entry with _ | (value | sub)
      · trivial
      · exact ⟨hName, by simp [names], trivial⟩
      · exact ⟨hName, by simp [names], hEntry _ rfl, trivial⟩
  | leaf head value rest ih =>
      obtain ⟨hHead, hFresh, hRest⟩ := hf
      by_cases h : head = target
      · subst h
        rcases entry with _ | (value | sub)
        · simpa [Forest.put] using hRest
        · simp only [Forest.put, if_true]
          exact ⟨hName, hFresh, hRest⟩
        · simp only [Forest.put, if_true]
          exact ⟨hName, hFresh, hEntry _ rfl, hRest⟩
      · simp only [Forest.put, h, if_false]
        refine ⟨hHead, fun hm => ?_, ih hRest⟩
        rcases mem_names_put hm with hm | hm
        · exact h hm
        · exact hFresh hm
  | dir head sub rest _ ih =>
      obtain ⟨hHead, hFresh, hSub, hRest⟩ := hf
      by_cases h : head = target
      · subst h
        rcases entry with _ | (value | sub)
        · simpa [Forest.put] using hRest
        · simp only [Forest.put, if_true]
          exact ⟨hName, hFresh, hRest⟩
        · simp only [Forest.put, if_true]
          exact ⟨hName, hFresh, hEntry _ rfl, hRest⟩
      · simp only [Forest.put, h, if_false]
        refine ⟨hHead, fun hm => ?_, hSub, ih hRest⟩
        rcases mem_names_put hm with hm | hm
        · exact h hm
        · exact hFresh hm

omit [DecidableEq ν] in
/-- Names that satisfy a rule satisfy a weaker one. -/
theorem WellFormed.mono {Valid More : ν → Prop} (hMore : ∀ name, Valid name → More name) {f : Forest ν β}
    (hf : f.WellFormed Valid) : f.WellFormed More := by
  induction f with
  | nil => trivial
  | leaf name value rest ih =>
      obtain ⟨hName, hFresh, hRest⟩ := hf
      exact ⟨hMore name hName, hFresh, ih hRest⟩
  | dir name sub rest ihSub ihRest =>
      obtain ⟨hName, hFresh, hSub, hRest⟩ := hf
      exact ⟨hMore name hName, hFresh, ihSub hSub, ihRest hRest⟩

theorem WellFormed.find {Valid : ν → Prop} {f : Forest ν β} (hf : f.WellFormed Valid) {name : ν}
    {entry : Node ν β} (h : f.find name = some entry) : Valid name ∧ Node.WellFormed Valid entry := by
  induction f with
  | nil => simp [Forest.find] at h
  | leaf head value rest ih =>
      by_cases hHead : head = name
      · subst hHead
        simp only [Forest.find, if_true, Option.some.injEq] at h
        subst h
        exact ⟨hf.1, trivial⟩
      · simp only [Forest.find, hHead, if_false] at h
        exact ih hf.2.2 h
  | dir head sub rest _ ih =>
      by_cases hHead : head = name
      · subst hHead
        simp only [Forest.find, if_true, Option.some.injEq] at h
        subst h
        exact ⟨hf.1, hf.2.2.1⟩
      · simp only [Forest.find, hHead, if_false] at h
        exact ih hf.2.2.2 h

omit [DecidableEq ν] in
@[simp] theorem names_mapDirectories (change : ν → Forest ν β → Forest ν β) (f : Forest ν β) :
    (f.mapDirectories change).names = f.names := by
  induction f with
  | nil => rfl
  | leaf name value rest ih => simp [mapDirectories, names, ih]
  | dir name sub rest _ ih => simp [mapDirectories, names, ih]

/-- Each name stands for what it stood for, a subdirectory with its content changed. -/
theorem find_mapDirectories (change : ν → Forest ν β → Forest ν β) (f : Forest ν β) (name : ν) :
    (f.mapDirectories change).find name = match f.find name with
      | some (.dir sub) => some (.dir (change name sub))
      | other => other := by
  induction f with
  | nil => rfl
  | leaf head value rest ih =>
      by_cases hHead : head = name
      · simp [mapDirectories, find, hHead]
      · simp [mapDirectories, find, hHead, ih]
  | dir head sub rest _ ih =>
      by_cases hHead : head = name
      · simp [mapDirectories, find, hHead]
      · simp [mapDirectories, find, hHead, ih]

omit [DecidableEq ν] in
theorem WellFormed.mapDirectories {Valid : ν → Prop} {change : ν → Forest ν β → Forest ν β} {f : Forest ν β}
    (hf : f.WellFormed Valid) (hChange : ∀ name sub, sub.WellFormed Valid → (change name sub).WellFormed Valid) :
    (f.mapDirectories change).WellFormed Valid := by
  induction f with
  | nil => trivial
  | leaf name value rest ih =>
      obtain ⟨hName, hFresh, hRest⟩ := hf
      exact ⟨hName, by simpa using hFresh, ih hRest⟩
  | dir name sub rest _ ih =>
      obtain ⟨hName, hFresh, hSub, hRest⟩ := hf
      exact ⟨hName, by simpa using hFresh, hChange name sub hSub, ih hRest⟩

theorem WellFormed.find_dir {Valid : ν → Prop} {f sub : Forest ν β} (hf : f.WellFormed Valid)
    {name : ν} (h : f.find name = some (.dir sub)) : sub.WellFormed Valid :=
  (hf.find h).2

end Forest
end SoftwareHub.Tree
