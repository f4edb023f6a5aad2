import SoftwareHub.Tree.Path

/-! What is at a path, without what is below it. This determines how a tree answers
every question about single paths, and each edit changes it at few of them. -/
namespace SoftwareHub.Tree

variable {ν β : Type} [DecidableEq ν]

/-- The payload of a leaf, and nothing for a directory. -/
def Node.payload? : Node ν β → Option β
  | .leaf value => some value
  | .dir _ => none

namespace Forest

/-- `none` if nothing is at the path, `some none` for a directory, and the payload of a leaf. -/
def kind? (f : Forest ν β) (path : List ν) : Option (Option β) := (f.node? path).map Node.payload?

theorem kind?_nil (f : Forest ν β) : f.kind? [] = some none := by
  unfold kind?
  rw [node?_nil]
  rfl

theorem kind?_cons (f : Forest ν β) (name : ν) (path : List ν) : f.kind? (name :: path) = match f.find name with
    | none => none
    | some (.leaf value) => if path = [] then some (some value) else none
    | some (.dir sub) => sub.kind? path := by
  unfold kind?
  rw [node?_cons]
  cases f.find name with
  | none => rfl
  | some entry =>
      cases entry with
      | dir sub => rfl
      | leaf value =>
          dsimp only
          by_cases hPath : path = []
          · rw [if_pos hPath, if_pos hPath]
            rfl
          · rw [if_neg hPath, if_neg hPath]
            rfl

theorem kind?_eq_none_iff {f : Forest ν β} {path : List ν} : f.kind? path = none ↔ f.node? path = none :=
  Option.map_eq_none_iff

theorem kind?_eq_dir_iff {f : Forest ν β} {path : List ν} :
    f.kind? path = some none ↔ ∃ sub, f.node? path = some (.dir sub) := by
  unfold kind?
  rw [Option.map_eq_some_iff]
  constructor
  · rintro ⟨entry, hEntry, hPayload⟩
    cases entry with
    | leaf value => cases hPayload
    | dir sub => exact ⟨sub, hEntry⟩
  · rintro ⟨sub, hSub⟩
    exact ⟨_, hSub, rfl⟩

theorem kind?_eq_leaf_iff {f : Forest ν β} {path : List ν} {value : β} :
    f.kind? path = some (some value) ↔ f.file? path = some value := by
  rw [file?_eq_some_iff]
  unfold kind?
  rw [Option.map_eq_some_iff]
  constructor
  · rintro ⟨entry, hEntry, hPayload⟩
    cases entry with
    | leaf other =>
        cases hPayload
        exact hEntry
    | dir sub => cases hPayload
  · intro hNode
    exact ⟨_, hNode, rfl⟩

theorem kind?_append {f sub : Forest ν β} {path : List ν} (h : f.node? path = some (.dir sub)) (tail : List ν) :
    f.kind? (path ++ tail) = sub.kind? tail := by
  unfold kind?
  rw [node?_append h]

/-- Above anything that exists there is a directory. -/
theorem kind?_above {f : Forest ν β} {path tail : List ν} {payload : Option β} (h : f.kind? (path ++ tail) = some payload)
    (hTail : tail ≠ []) : f.kind? path = some none := by
  have hNode : f.node? (path ++ tail) ≠ none := by
    intro hNone
    rw [kind?_eq_none_iff.mpr hNone] at h
    cases h
  cases hPath : f.node? path with
  | none => exact (hNode (node?_below_none hPath tail)).elim
  | some entry =>
      cases entry with
      | leaf value => exact (hNode (node?_below_leaf hPath hTail)).elim
      | dir sub => exact kind?_eq_dir_iff.mpr ⟨sub, hPath⟩

/-- What is at a path depends on the entry of its first name alone. -/
theorem kind?_put {Valid : ν → Prop} {f : Forest ν β} (hf : f.WellFormed Valid) (name : ν) (entry : Option (Node ν β))
    (head : ν) (tail : List ν) : (f.put name entry).kind? (head :: tail) = if head = name then match entry with
        | none => none
        | some (.leaf value) => if tail = [] then some (some value) else none
        | some (.dir sub) => sub.kind? tail
      else f.kind? (head :: tail) := by
  rw [kind?_cons, kind?_cons]
  by_cases hHead : head = name
  · subst hHead
    rw [find_put_self hf, if_pos rfl]
  · rw [find_put_of_ne f entry hHead, if_neg hHead]

/-- Erasing a leaf changes what is at its own path only. -/
theorem kind?_erase {Valid : ν → Prop} {f : Forest ν β} (hf : f.WellFormed Valid) {path : List ν} {value : β}
    (h : f.kind? path = some (some value)) (other : List ν) :
    (f.erase path).kind? other = if other = path then none else f.kind? other := by
  induction path generalizing f other with
  | nil =>
      rw [kind?_nil] at h
      cases h
  | cons name path ih =>
      cases other with
      | nil => rw [kind?_nil, kind?_nil, if_neg (List.cons_ne_nil _ _).symm]
      | cons head tail =>
          rw [kind?_cons] at h
          cases path with
          | nil =>
              rw [erase, kind?_put hf]
              by_cases hHead : head = name
              · subst hHead
                rw [if_pos rfl]
                by_cases hTail : tail = []
                · rw [if_pos (by rw [hTail])]
                · rw [if_neg (by simpa using hTail), kind?_cons]
                  split at h
                  · cases h
                  · exact (if_neg hTail).symm
                  · rw [kind?_nil] at h
                    cases h
              · rw [if_neg hHead, if_neg (by simp [hHead])]
          | cons next path =>
              rw [erase_cons_cons]
              split at h
              · cases h
              · rw [if_neg (List.cons_ne_nil _ _)] at h
                cases h
              · rename_i sub hFind
                rw [hFind]
                dsimp only
                rw [kind?_put hf]
                by_cases hHead : head = name
                · subst hHead
                  rw [if_pos rfl, kind?_cons, hFind]
                  dsimp only
                  rw [ih (hf.find_dir hFind) h]
                  simp only [List.cons.injEq, true_and]
                · rw [if_neg hHead, if_neg (by simp [hHead])]

/-- Erasing a path removes what is there and below, and nothing else. -/
theorem kind?_erase_below {Valid : ν → Prop} {f : Forest ν β} (hf : f.WellFormed Valid) {path : List ν}
    (hPath : path ≠ []) (other : List ν) :
    (f.erase path).kind? other = if path <+: other then none else f.kind? other := by
  induction path generalizing f other with
  | nil => exact (hPath rfl).elim
  | cons name path ih =>
      cases other with
      | nil => rw [kind?_nil, kind?_nil, if_neg (by simp)]
      | cons head tail =>
          have hPrefix : name :: path <+: head :: tail ↔ name = head ∧ path <+: tail := List.cons_prefix_cons
          cases path with
          | nil =>
              rw [erase, kind?_put hf]
              by_cases hHead : head = name
              · rw [if_pos hHead, if_pos (hPrefix.mpr ⟨hHead.symm, List.nil_prefix⟩)]
              · rw [if_neg hHead, if_neg (fun hBoth => hHead (hPrefix.mp hBoth).1.symm)]
          | cons next path =>
              -- below nothing and below a leaf there is nothing to erase
              have hNothing (hBelow : ∀ sub, f.find name ≠ some (.dir sub)) : f.kind? (head :: tail) =
                  if name :: next :: path <+: head :: tail then none else f.kind? (head :: tail) := by
                by_cases hBoth : name :: next :: path <+: head :: tail
                · rw [if_pos hBoth, kind?_cons]
                  obtain ⟨rfl, hTail⟩ := hPrefix.mp hBoth
                  split
                  · rfl
                  · rw [if_neg (fun hNil => by simp [hNil] at hTail)]
                  · rename_i sub hFind
                    exact (hBelow sub hFind).elim
                · rw [if_neg hBoth]
              rw [erase_cons_cons]
              split
              · rename_i sub hFind
                rw [kind?_put hf]
                by_cases hHead : head = name
                · subst hHead
                  rw [if_pos rfl, kind?_cons, hFind]
                  dsimp only
                  rw [ih (hf.find_dir hFind) (List.cons_ne_nil _ _)]
                  by_cases hTail : next :: path <+: tail
                  · rw [if_pos hTail, if_pos (hPrefix.mpr ⟨rfl, hTail⟩)]
                  · rw [if_neg hTail, if_neg (fun hBoth => hTail (hPrefix.mp hBoth).2)]
                · rw [if_neg hHead, if_neg (fun hBoth => hHead (hPrefix.mp hBoth).1.symm)]
              · rename_i hOther
                exact hNothing fun sub hFind => hOther sub hFind

/-- Creating a leaf in an existing directory changes what is at its own path only. -/
theorem kind?_create {Valid : ν → Prop} {f result : Forest ν β} (hf : f.WellFormed Valid) {path : List ν} {value : β}
    (h : f.create path (.leaf value) = some result) (hParent : f.kind? path.dropLast = some none) (other : List ν) :
    result.kind? other = if other = path then some (some value) else f.kind? other := by
  induction path generalizing f result other with
  | nil => cases h
  | cons name path ih =>
      cases other with
      | nil => rw [kind?_nil, kind?_nil, if_neg (List.cons_ne_nil _ _).symm]
      | cons head tail =>
          cases path with
          | nil =>
              obtain ⟨hFind, rfl⟩ := create_singleton h
              rw [kind?_put hf]
              by_cases hHead : head = name
              · subst hHead
                rw [if_pos rfl]
                dsimp only
                by_cases hTail : tail = []
                · rw [if_pos hTail, if_pos (by rw [hTail])]
                · rw [if_neg hTail, if_neg (by simpa using hTail), kind?_cons, hFind]
              · rw [if_neg hHead, if_neg (by simp [hHead])]
          | cons next path =>
              rw [List.dropLast_cons_cons, kind?_cons] at hParent
              rw [create_cons_cons] at h
              split at hParent
              · cases hParent
              · split_ifs at hParent
                cases hParent
              · rename_i sub hFind
                rw [hFind] at h
                obtain ⟨made, hMade, rfl⟩ := Option.map_eq_some_iff.mp h
                rw [kind?_put hf]
                by_cases hHead : head = name
                · subst hHead
                  rw [if_pos rfl]
                  dsimp only
                  rw [ih (hf.find_dir hFind) hMade hParent, kind?_cons, hFind]
                  simp only [List.cons.injEq, true_and]
                · rw [if_neg hHead, if_neg (by simp [hHead])]

/-- Making directories changes what is at the paths above the new directory, and at
no other path. -/
theorem kind?_mkdirs {Valid : ν → Prop} {f result : Forest ν β} (hf : f.WellFormed Valid) {path : List ν}
    (h : f.mkdirs path = some result) (other : List ν) :
    result.kind? other = if other <+: path then some none else f.kind? other := by
  induction path generalizing f result other with
  | nil =>
      cases h
      cases other with
      | nil => rw [kind?_nil, if_pos (List.prefix_refl _)]
      | cons head tail => rw [if_neg (by simp)]
  | cons name path ih =>
      cases other with
      | nil => rw [kind?_nil, if_pos (List.nil_prefix)]
      | cons head tail =>
          rw [mkdirs] at h
          have hPrefix : head :: tail <+: name :: path ↔ head = name ∧ tail <+: path := List.cons_prefix_cons
          have hNil : (nil : Forest ν β).WellFormed Valid := trivial
          cases hFind : f.find name with
          | none =>
              rw [hFind] at h
              obtain ⟨sub, hSub, rfl⟩ := Option.map_eq_some_iff.mp h
              rw [kind?_put hf]
              by_cases hHead : head = name
              · subst hHead
                rw [if_pos rfl]
                dsimp only
                rw [ih hNil hSub]
                by_cases hTail : tail <+: path
                · rw [if_pos hTail, if_pos (hPrefix.mpr ⟨rfl, hTail⟩)]
                · rw [if_neg hTail, if_neg (fun hBoth => hTail (hPrefix.mp hBoth).2), kind?_cons, hFind]
                  cases tail with
                  | nil => exact (hTail List.nil_prefix).elim
                  | cons next tail => rw [kind?_cons, find]
              · rw [if_neg hHead, if_neg (fun hBoth => hHead (hPrefix.mp hBoth).1)]
          | some entry =>
              rw [hFind] at h
              cases entry with
              | leaf value => cases h
              | dir sub =>
                  obtain ⟨made, hMade, rfl⟩ := Option.map_eq_some_iff.mp h
                  rw [kind?_put hf]
                  by_cases hHead : head = name
                  · subst hHead
                    rw [if_pos rfl]
                    dsimp only
                    rw [ih (hf.find_dir hFind) hMade, kind?_cons, hFind]
                    simp only [hPrefix, true_and]
                  · rw [if_neg hHead, if_neg (fun hBoth => hHead (hPrefix.mp hBoth).1)]

end Forest
end SoftwareHub.Tree
