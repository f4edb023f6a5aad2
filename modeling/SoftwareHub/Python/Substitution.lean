import SoftwareHub.Python.Text
import Mathlib.Data.List.Chain

/-! Replacing runs of characters by one joint, and groups that single joints
separate: the two forms in which a slug is described. -/
namespace SoftwareHub.Python

/-- `re.sub("[…]+", joint, text)`: each longest run of the class becomes one joint. -/
def subRuns (p : Nat → Bool) (joint : Nat) : PyStr → PyStr
  | [] => []
  | c :: s =>
      if p c then (if s.head?.any p then subRuns p joint s else joint :: subRuns p joint s)
      else c :: subRuns p joint s

/-- No two joints stand next to each other. -/
def Single (joint : Nat) (s : PyStr) : Prop := s.IsChain fun a b => ¬(a = joint ∧ b = joint)

section Runs

variable {p : Nat → Bool} {joint : Nat}

/-- A replaced text has characters outside the class and joints, nothing else. -/
theorem mem_subRuns {s : PyStr} {c : Nat} (h : c ∈ subRuns p joint s) : (c ∈ s ∧ p c = false) ∨ c = joint := by
  induction s with
  | nil => cases h
  | cons first s ih =>
      have hRest (h : c ∈ subRuns p joint s) : (c ∈ first :: s ∧ p c = false) ∨ c = joint :=
        (ih h).imp_left fun hKept => ⟨List.mem_cons_of_mem first hKept.1, hKept.2⟩
      rw [subRuns] at h
      split_ifs at h with hFirst hRun
      · exact hRest h
      · rcases List.mem_cons.mp h with rfl | h
        · exact Or.inr rfl
        · exact hRest h
      · rcases List.mem_cons.mp h with rfl | h
        · exact Or.inl ⟨List.mem_cons_self, Bool.eq_false_iff.mpr hFirst⟩
        · exact hRest h

/-- A text that does not start with a run keeps its first character. -/
theorem head?_subRuns {s : PyStr} (h : s.head?.any p = false) : (subRuns p joint s).head? = s.head? := by
  cases s with
  | nil => rfl
  | cons c s =>
      have hc : p c = false := h
      rw [subRuns, if_neg (by simp [hc])]
      rfl

/-- When the joint is in the class itself, none is next to another afterwards. -/
theorem single_subRuns (hJoint : p joint = true) (s : PyStr) : Single joint (subRuns p joint s) := by
  induction s with
  | nil => exact List.IsChain.nil
  | cons c s ih =>
      rw [subRuns]
      split_ifs with hc hRun
      · exact ih
      · refine List.isChain_cons.mpr ⟨fun next hNext hBoth => ?_, ih⟩
        rw [head?_subRuns (Bool.eq_false_iff.mpr hRun)] at hNext
        rw [hNext] at hRun
        exact hRun (hBoth.2 ▸ hJoint)
      · refine List.isChain_cons.mpr ⟨fun next _ hBoth => ?_, ih⟩
        exact hc (hBoth.1 ▸ hJoint)

/-- Single joints are runs of length one: replacing them by themselves changes
nothing. -/
theorem subRuns_of_single {s : PyStr} (h : Single joint s) : subRuns (· == joint) joint s = s := by
  induction s with
  | nil => rfl
  | cons c s ih =>
      obtain ⟨hNext, hRest⟩ := List.isChain_cons.mp h
      rw [subRuns, ih hRest]
      split_ifs with hc hRun
      · cases s with
        | nil => cases hRun
        | cons next s => exact (hNext next rfl ⟨beq_iff_eq.mp hc, beq_iff_eq.mp hRun⟩).elim
      · rw [beq_iff_eq.mp hc]
      · rfl

end Runs

section Groups

variable {joint : Nat}

theorem single_cons {c : Nat} {s : PyStr} :
    Single joint (c :: s) ↔ (c = joint → s.head? ≠ some joint) ∧ Single joint s := by
  rw [Single, List.isChain_cons]
  constructor
  · rintro ⟨hNext, hRest⟩
    exact ⟨fun hc hHead => hNext joint hHead ⟨hc, rfl⟩, hRest⟩
  · rintro ⟨hNext, hRest⟩
    exact ⟨fun next hHead hBoth => hNext hBoth.1 (hBoth.2 ▸ hHead), hRest⟩

theorem getLast?_cons_ne {c : Nat} {s : PyStr} (hc : c ≠ joint) :
    (c :: s).getLast? ≠ some joint ↔ s.getLast? ≠ some joint := by
  cases s with
  | nil => simp [hc]
  | cons next s => rw [List.getLast?_cons_cons]

/-- The groups after the first joint are not empty exactly when the text does not
end in a joint and no two are adjacent. -/
theorem tail_groups_iff {s : PyStr} :
    (∀ group ∈ (s.splitOn joint).tail, group ≠ []) ↔ s.getLast? ≠ some joint ∧ Single joint s := by
  induction s with
  | nil => simp [Single]
  | cons c s ih =>
      rw [List.splitOn_cons_eq_if_modifyHead, single_cons]
      by_cases hc : c = joint
      · rw [if_pos (beq_iff_eq.mpr hc), List.tail_cons]
        cases s with
        | nil => simp [hc]
        | cons next s =>
            obtain ⟨first, rest, hSplit⟩ := List.exists_cons_of_ne_nil (List.splitOn_ne_nil joint (next :: s))
            have hFirst : first ≠ [] ↔ next ≠ joint := by
              rw [List.splitOn_cons_eq_if_modifyHead] at hSplit
              split_ifs at hSplit with hNext
              · rw [← (List.cons.inj hSplit).1]
                simpa using beq_iff_eq.mp hNext
              · obtain ⟨head, tail, hTail⟩ := List.exists_cons_of_ne_nil (List.splitOn_ne_nil joint s)
                rw [hTail, List.modifyHead_cons] at hSplit
                rw [← (List.cons.inj hSplit).1]
                simpa using hNext
            rw [hSplit] at ih ⊢
            rw [List.tail_cons] at ih
            rw [List.forall_mem_cons, ih, hFirst, List.getLast?_cons_cons]
            simp only [hc, true_implies, List.head?_cons, ne_eq, Option.some.injEq]
            tauto
      · rw [if_neg (by simpa using hc), getLast?_cons_ne hc]
        obtain ⟨first, rest, hSplit⟩ := List.exists_cons_of_ne_nil (List.splitOn_ne_nil joint s)
        rw [hSplit] at ih ⊢
        rw [List.modifyHead_cons, List.tail_cons]
        rw [List.tail_cons] at ih
        rw [ih]
        simp [hc]

/-- No group is empty exactly when neither end is a joint and no two are adjacent. -/
theorem groups_iff {s : PyStr} :
    (∀ group ∈ s.splitOn joint, group ≠ []) ↔
      s ≠ [] ∧ s.head? ≠ some joint ∧ s.getLast? ≠ some joint ∧ Single joint s := by
  rw [← tail_groups_iff]
  cases s with
  | nil => simp
  | cons c s =>
      rw [List.splitOn_cons_eq_if_modifyHead]
      obtain ⟨first, rest, hSplit⟩ := List.exists_cons_of_ne_nil (List.splitOn_ne_nil joint s)
      by_cases hc : c = joint
      · simp [hc]
      · rw [if_neg (by simpa using hc), hSplit, List.modifyHead_cons, List.tail_cons, List.forall_mem_cons]
        simp [hc]

/-- The groups hold every character of the text but the joints. -/
theorem exists_mem_group_iff {s : PyStr} {c : Nat} :
    (∃ group ∈ s.splitOn joint, c ∈ group) ↔ c ∈ s ∧ c ≠ joint := by
  induction s with
  | nil => simp
  | cons first s ih =>
      rw [List.splitOn_cons_eq_if_modifyHead]
      by_cases hFirst : first = joint
      · rw [if_pos (beq_iff_eq.mpr hFirst), List.exists_mem_cons_iff, ih, List.mem_cons, hFirst]
        simp only [List.not_mem_nil, false_or]
        tauto
      · obtain ⟨head, tail, hSplit⟩ := List.exists_cons_of_ne_nil (List.splitOn_ne_nil joint s)
        rw [hSplit, List.exists_mem_cons_iff] at ih
        rw [if_neg (by simpa using hFirst), hSplit, List.modifyHead_cons, List.exists_mem_cons_iff, List.mem_cons,
          List.mem_cons, or_assoc, ih]
        constructor
        · rintro (rfl | ⟨hMem, hNe⟩)
          · exact ⟨Or.inl rfl, hFirst⟩
          · exact ⟨Or.inr hMem, hNe⟩
        · rintro ⟨rfl | hMem, hNe⟩
          · exact Or.inl rfl
          · exact Or.inr ⟨hMem, hNe⟩

end Groups
end SoftwareHub.Python
