import Mathlib.Data.List.Nodup
import Mathlib.Data.List.Sort

/-! Places in a stable sort. An element stands behind exactly those that come
before it in the order, or tie with it and were listed earlier. -/
namespace SoftwareHub.Semantics

section Ranking

variable {α : Type} (r : α → α → Prop)

/-- `first` stands before `second` in the stable sort of a list. -/
def Before (l : List α) (first second : α) : Prop := r first second ∧ (r second first → [first, second].Sublist l)

instance [DecidableEq α] [DecidableRel r] (l : List α) : DecidableRel (Before r l) :=
  fun first second => inferInstanceAs (Decidable (r first second ∧ (r second first → [first, second].Sublist l)))

variable {r}

/-- Two elements are listed in one order only, when nothing is listed twice. -/
theorem not_sublist_swap {l : List α} (h : l.Nodup) {first second : α} (hPair : [first, second].Sublist l) :
    ¬[second, first].Sublist l := by
  induction l with
  | nil => cases hPair
  | cons head l ih =>
      obtain ⟨hHead, hRest⟩ := List.nodup_cons.mp h
      intro hSwap
      cases hPair with
      | cons _ hPair =>
          cases hSwap with
          | cons _ hSwap => exact ih hRest hPair hSwap
          | cons_cons _ _ => exact hHead (hPair.mem (by simp))
      | cons_cons _ hSecond =>
          cases hSwap with
          | cons _ hSwap => exact hHead (hSwap.mem (by simp))
          | cons_cons _ _ => exact hHead (hSecond.mem (by simp))

theorem sublist_or_swap {l : List α} {first second : α} (hFirst : first ∈ l) (hSecond : second ∈ l)
    (hNe : first ≠ second) : [first, second].Sublist l ∨ [second, first].Sublist l := by
  induction l with
  | nil => cases hFirst
  | cons head l ih =>
      rcases List.mem_cons.mp hFirst with rfl | hLater
      · have hTail := (List.mem_cons.mp hSecond).resolve_left hNe.symm
        exact .inl (.cons_cons first (List.singleton_sublist.mpr hTail))
      · rcases List.mem_cons.mp hSecond with rfl | hSecond
        · exact .inr (.cons_cons second (List.singleton_sublist.mpr hLater))
        · exact (ih hLater hSecond).imp (List.Sublist.cons _) (List.Sublist.cons _)

theorem Before.asymm {l : List α} (h : l.Nodup) {first second : α} (hBefore : Before r l first second) :
    ¬Before r l second first :=
  fun hAfter => not_sublist_swap h (hBefore.2 hAfter.1) (hAfter.2 hBefore.1)

/-- What comes before in a part of a list comes before in the whole list. -/
theorem Before.of_sublist {l l' : List α} (h : l'.Sublist l) {first second : α} (hBefore : Before r l' first second) :
    Before r l first second := ⟨hBefore.1, fun hTie => (hBefore.2 hTie).trans h⟩

variable [DecidableRel r] [Std.Total r] [IsTrans α r]

/-- The stable sort lists its elements in the order that `Before` describes. -/
theorem pairwise_before {l : List α} (h : l.Nodup) : (l.insertionSort r).Pairwise (Before r l) := by
  have hSorted := List.pairwise_insertionSort r l
  have hNodup : (l.insertionSort r).Nodup := (List.perm_insertionSort r l).nodup_iff.mpr h
  rw [List.pairwise_iff_forall_sublist] at hSorted ⊢
  intro first second hPair
  refine ⟨hSorted hPair, fun hTie => ?_⟩
  have hNe : first ≠ second := by
    rintro rfl
    exact absurd (hPair.nodup hNodup) (by simp)
  have hFirst : first ∈ l := (List.mem_insertionSort r).mp (hPair.mem (by simp))
  have hSecond : second ∈ l := (List.mem_insertionSort r).mp (hPair.mem (by simp))
  -- listed the other way round, the tie would have kept that order
  rcases sublist_or_swap hFirst hSecond hNe with hListed | hListed
  · exact hListed
  · exact (not_sublist_swap hNodup hPair (List.pair_sublist_insertionSort hTie hListed)).elim

/-- Dropping `k` elements of the sort leaves those with at least `k` before them. -/
theorem mem_drop_insertionSort [DecidableEq α] {l : List α} (h : l.Nodup) {x : α} (hx : x ∈ l) (k : Nat) :
    x ∈ (l.insertionSort r).drop k ↔ k ≤ l.countP fun other => Before r l other x := by
  have hPairwise := pairwise_before (r := r) h
  have hPerm := List.perm_insertionSort r l
  have hNodup : (l.insertionSort r).Nodup := hPerm.nodup_iff.mpr h
  rw [← hPerm.countP_eq]
  obtain ⟨front, back, hSplit⟩ := List.append_of_mem ((List.mem_insertionSort r).mpr hx)
  rw [hSplit] at hPairwise hNodup ⊢
  obtain ⟨-, hBack, hFront⟩ := List.pairwise_append.mp hPairwise
  have hCount : (front ++ x :: back).countP (fun other => Before r l other x) = front.length := by
    have hAll : front.countP (fun other => Before r l other x) = front.length := by
      rw [List.countP_eq_length]
      intro other hOther
      exact decide_eq_true (hFront other hOther x (by simp))
    have hNone : (x :: back).countP (fun other => Before r l other x) = 0 := by
      rw [List.countP_eq_zero]
      intro other hOther hBefore
      have hBefore := of_decide_eq_true hBefore
      rcases List.mem_cons.mp hOther with rfl | hOther
      · exact hBefore.asymm h hBefore
      · exact hBefore.asymm h ((List.pairwise_cons.mp hBack).1 other hOther)
    rw [List.countP_append, hAll, hNone, Nat.add_zero]
  rw [hCount]
  by_cases hk : k ≤ front.length
  · rw [List.drop_append_of_le_length hk]
    simp [hk]
  · obtain ⟨-, hRest, hDisjoint⟩ := List.nodup_append.mp hNodup
    obtain ⟨more, rfl⟩ := Nat.exists_eq_add_of_lt (Nat.lt_of_not_le hk)
    have hDrop : (front ++ x :: back).drop (front.length + more + 1) = back.drop more := by
      rw [Nat.add_assoc, List.drop_length_add_append, List.drop_succ_cons]
    rw [hDrop]
    refine iff_of_false (fun hMem => ?_) (by omega)
    exact (List.nodup_cons.mp hRest).1 (List.mem_of_mem_drop hMem)

end Ranking
end SoftwareHub.Semantics
