import Mathlib.Algebra.Ring.Nat
import Mathlib.Algebra.BigOperators.Group.Multiset.Basic
import Mathlib.Data.List.Dedup
import Mathlib.Data.List.Sort

/-! Parts of a `SELECT`: the rows of an outer join, counts of distinct values by
group, sums over joined rows, and what `ORDER BY` promises about the order of a
result. -/
namespace SoftwareHub.Semantics

variable {α β : Type}

/-- The rows an outer join puts beside one row: the matching ones, or `NULL`. -/
def outerMatches (on : β → Bool) (rows : List β) : List (Option β) :=
  if rows.any on then (rows.filter on).map some else [none]

theorem mem_outerMatches_some {on : β → Bool} {rows : List β} {row : β} :
    some row ∈ outerMatches on rows ↔ row ∈ rows ∧ on row = true := by
  unfold outerMatches
  split_ifs with h
  · simp
  · simp only [List.any_eq_true, not_exists, not_and] at h
    simpa using h row

theorem mem_outerMatches_none {on : β → Bool} {rows : List β} :
    none ∈ outerMatches on rows ↔ ∀ row ∈ rows, on row = false := by
  unfold outerMatches
  split_ifs with h
  · obtain ⟨row, hRow, hOn⟩ := List.any_eq_true.mp h
    simp only [List.mem_map, reduceCtorEq, and_false, exists_false, false_iff]
    exact fun hNone => Bool.false_ne_true ((hNone row hRow).symm.trans hOn)
  · simpa using h

/-- An outer join drops no row of its left side. -/
theorem exists_mem_outerMatches (on : β → Bool) (rows : List β) : ∃ row, row ∈ outerMatches on rows := by
  by_cases h : ∃ row ∈ rows, on row = true
  · obtain ⟨row, hRow⟩ := h
    exact ⟨some row, mem_outerMatches_some.mpr hRow⟩
  · exact ⟨none, mem_outerMatches_none.mpr fun row hRow => by simpa using fun hOn => h ⟨row, hRow, hOn⟩⟩

/-- `SELECT key, COUNT(DISTINCT value) … GROUP BY key`. -/
def countDistinct {κ ν : Type} [DecidableEq κ] [DecidableEq ν] (key : α → κ) (value : α → ν) (rows : List α) : List (κ × Nat) :=
  (rows.map key).dedup.map fun k => (k, ((rows.filter fun row => key row = k).map value).dedup.length)

/-- One pair for every key that occurs, with the number of its different values. -/
theorem mem_countDistinct {κ ν : Type} [DecidableEq κ] [DecidableEq ν] {key : α → κ} {value : α → ν} {rows : List α}
    {pair : κ × Nat} : pair ∈ countDistinct key value rows ↔ (∃ row ∈ rows, key row = pair.1) ∧
      pair.2 = ((rows.filter fun row => key row = pair.1).map value).dedup.length := by
  rw [countDistinct, List.mem_map]
  constructor
  · intro h
    obtain ⟨k, hKey, rfl⟩ := h
    exact ⟨List.mem_map.mp (List.mem_dedup.mp hKey), rfl⟩
  · intro h
    obtain ⟨hRow, hCount⟩ := h
    exact ⟨pair.1, List.mem_dedup.mpr (List.mem_map.mpr hRow), Prod.ext rfl hCount.symm⟩

theorem map_fst_countDistinct {κ ν : Type} [DecidableEq κ] [DecidableEq ν] (key : α → κ) (value : α → ν) (rows : List α) :
    (countDistinct key value rows).map (·.1) = (rows.map key).dedup := by
  rw [countDistinct, List.map_map]
  exact List.map_id _

/-- Rows chosen by their key leave the counts of the other keys alone. -/
theorem mem_countDistinct_filter {κ ν : Type} [DecidableEq κ] [DecidableEq ν] {key : α → κ} {value : α → ν} {rows : List α}
    {chosen : κ → Bool} {pair : κ × Nat} : pair ∈ countDistinct key value (rows.filter fun row => chosen (key row)) ↔
      chosen pair.1 = true ∧ pair ∈ countDistinct key value rows := by
  rw [mem_countDistinct, mem_countDistinct]
  by_cases hChosen : chosen pair.1 = true
  · have hSame : (rows.filter fun row => chosen (key row)).filter (fun row => key row = pair.1) =
        rows.filter fun row => key row = pair.1 := by
      rw [List.filter_filter]
      apply List.filter_congr
      intro row _
      by_cases hKey : key row = pair.1 <;> simp [hKey, hChosen]
    rw [hSame]
    constructor
    · intro h
      obtain ⟨⟨row, hRow, hKey⟩, hCount⟩ := h
      exact ⟨hChosen, ⟨row, List.mem_of_mem_filter hRow, hKey⟩, hCount⟩
    · intro h
      obtain ⟨-, ⟨row, hRow, hKey⟩, hCount⟩ := h
      exact ⟨⟨row, List.mem_filter.mpr ⟨hRow, (congrArg chosen hKey).trans hChosen⟩, hKey⟩, hCount⟩
  · constructor
    · intro h
      obtain ⟨⟨row, hRow, hKey⟩, -⟩ := h
      exact absurd (hKey ▸ (List.mem_filter.mp hRow).2) hChosen
    · intro h
      exact absurd h.1 hChosen

/-- The first of rows that are all the same is that row. -/
theorem head?_eq_some_iff_of_subsingleton {rows : List α} (h : ∀ row ∈ rows, ∀ other ∈ rows, row = other) {row : α} :
    rows.head? = some row ↔ row ∈ rows := by
  cases rows with
  | nil => simp
  | cons first rows =>
      constructor
      · intro hFirst
        exact List.mem_of_mem_head? hFirst
      · intro hRow
        exact congrArg some (h first List.mem_cons_self row hRow)

/-- Distinct values are counted by any list that names each of them once. -/
theorem length_dedup_eq [DecidableEq α] {values named : List α} (hNamed : named.Nodup)
    (h : ∀ value, value ∈ values ↔ value ∈ named) : values.dedup.length = named.length := by
  apply List.Perm.length_eq
  apply (List.perm_ext_iff_of_nodup (List.nodup_dedup values) hNamed).mpr
  intro value
  rw [List.mem_dedup, h]

/-- Rows whose other columns have changed are counted alike. -/
theorem countDistinct_map {κ ν : Type} [DecidableEq κ] [DecidableEq ν] {key : β → κ} {value : β → ν} (f : α → β)
    (rows : List α) : countDistinct key value (rows.map f) = countDistinct (key ∘ f) (value ∘ f) rows := by
  simp only [countDistinct, List.map_map, List.filter_map]
  rfl

theorem sum_map_filter (p : α → Bool) (value : α → Nat) (rows : List α) :
    ((rows.filter p).map value).sum = (rows.map fun row => if p row then value row else 0).sum := by
  induction rows with
  | nil => rfl
  | cons row rows ih => cases hp : p row <;> simp [hp, ih]

theorem sum_flatMap (f : α → List Nat) (rows : List α) :
    (rows.flatMap f).sum = (rows.map fun row => (f row).sum).sum := by
  induction rows with
  | nil => rfl
  | cons row rows ih => rw [List.flatMap_cons, List.sum_append, ih, List.map_cons, List.sum_cons]

/-- A sum over a join may be taken from either side. -/
theorem sum_join (on : α → β → Bool) (value : α → Nat) (left : List α) (right : List β) :
    (left.flatMap fun a => (right.filter (on a)).map fun _ => value a).sum =
      (right.map fun b => ((left.filter (on · b)).map value).sum).sum := by
  simp only [sum_flatMap, sum_map_filter]
  have h := Multiset.sum_map_sum_map (left : Multiset α) (right : Multiset β) (f := fun a b => if on a b then value a else 0)
  simpa only [Multiset.map_coe, Multiset.sum_coe] using h

/-- Rows may be dropped when the join had nothing to put beside them. -/
theorem flatMap_filter_of {p : α → Bool} {f g : α → List β} {rows : List α}
    (hKept : ∀ row ∈ rows, p row = true → f row = g row) (hDropped : ∀ row ∈ rows, p row = false → g row = []) :
    (rows.filter p).flatMap f = rows.flatMap g := by
  induction rows with
  | nil => rfl
  | cons row rows ih =>
      have hRest := ih (fun other hOther => hKept other (List.mem_cons_of_mem _ hOther))
        (fun other hOther => hDropped other (List.mem_cons_of_mem _ hOther))
      cases hp : p row with
      | true => rw [List.filter_cons_of_pos hp, List.flatMap_cons, List.flatMap_cons, hRest, hKept row List.mem_cons_self hp]
      | false => rw [List.filter_cons_of_neg (by simp [hp]), hRest, List.flatMap_cons, hDropped row List.mem_cons_self hp, List.nil_append]

/-- A way to put rows in an order that `ORDER BY` allows. Nothing is said about tied
rows. -/
structure Arrangement (r : α → α → Prop) where
  arrange : List α → List α
  perm : ∀ rows, (arrange rows).Perm rows
  ordered : ∀ rows, (arrange rows).Pairwise r

namespace Arrangement

variable {r s : α → α → Prop}

/-- The stable sort, which is one such way. -/
def sort (r : α → α → Prop) [DecidableRel r] [Std.Total r] [IsTrans α r] : Arrangement r where
  arrange := List.insertionSort r
  perm := List.perm_insertionSort r
  ordered := List.pairwise_insertionSort r

/-- An order by more keys is one by fewer. -/
def imp (h : ∀ a b, s a b → r a b) (arrangement : Arrangement s) : Arrangement r where
  arrange := arrangement.arrange
  perm := arrangement.perm
  ordered rows := (arrangement.ordered rows).imp (h _ _)

/-- The arrangement that orders one table in a given way and any other by the first
one. -/
def forRows [DecidableEq α] (arrangement : Arrangement r) {rows sorted : List α} (hPerm : sorted.Perm rows)
    (hSorted : sorted.Pairwise r) : Arrangement r where
  arrange l := if l = rows then sorted else arrangement.arrange l
  perm l := by
    split_ifs with h
    · exact h ▸ hPerm
    · exact arrangement.perm l
  ordered l := by
    split_ifs
    · exact hSorted
    · exact arrangement.ordered l

@[simp] theorem forRows_arrange [DecidableEq α] (arrangement : Arrangement r) {rows sorted : List α}
    (hPerm : sorted.Perm rows) (hSorted : sorted.Pairwise r) :
    (arrangement.forRows hPerm hSorted).arrange rows = sorted := if_pos rfl

theorem mem_arrange (arrangement : Arrangement r) {rows : List α} {row : α} :
    row ∈ arrangement.arrange rows ↔ row ∈ rows := (arrangement.perm rows).mem_iff

theorem nodup_arrange (arrangement : Arrangement r) {rows : List α} (h : rows.Nodup) :
    (arrangement.arrange rows).Nodup := (arrangement.perm rows).nodup_iff.mpr h

/-- Rows that the keys tell apart have one order only. -/
theorem arrange_eq {arrangement : Arrangement r} {rows sorted : List α}
    (hTies : ∀ a ∈ rows, ∀ b ∈ rows, r a b → r b a → a = b) (hPerm : sorted.Perm rows) (hSorted : sorted.Pairwise r) :
    arrangement.arrange rows = sorted := by
  apply ((arrangement.perm rows).trans hPerm.symm).eq_of_pairwise _ (arrangement.ordered rows) hSorted
  intro a b ha hb
  exact hTies a (arrangement.mem_arrange.mp ha) b (hPerm.mem_iff.mp hb)

end Arrangement

/-- The first row that qualifies stands before all the others that do. -/
theorem find?_of_pairwise {r : α → α → Prop} {p : α → Bool} {sorted : List α} {row : α} (hSorted : sorted.Pairwise r)
    (h : sorted.find? p = some row) {other : α} (hOther : other ∈ sorted) (hp : p other = true) :
    other = row ∨ r row other := by
  obtain ⟨-, front, back, rfl, hFront⟩ := List.find?_eq_some_iff_append.mp h
  rcases List.mem_append.mp hOther with hBefore | hAfter
  · have hNot := hFront other hBefore
    rw [hp] at hNot
    exact absurd hNot (by decide)
  · rcases List.mem_cons.mp hAfter with rfl | hBehind
    · exact Or.inl rfl
    · exact Or.inr (List.rel_of_pairwise_cons (List.pairwise_append.mp hSorted).2.1 hBehind)

/-- The first row that qualifies is the least one, in whatever order the rows came. -/
theorem find?_insertionSort_eq_some_iff {κ : Type} [LinearOrder κ] {key : α → κ} {p : α → Bool} {rows : List α}
    (hKey : ∀ row ∈ rows, ∀ other ∈ rows, key row = key other → row = other) {row : α} :
    (rows.insertionSort fun a b => key a ≤ key b).find? p = some row ↔
      row ∈ rows ∧ p row = true ∧ ∀ other ∈ rows, p other = true → key row ≤ key other := by
  have : Std.Total fun a b : α => key a ≤ key b := ⟨fun a b => le_total (key a) (key b)⟩
  have : IsTrans α fun a b : α => key a ≤ key b := ⟨fun _ _ _ => le_trans⟩
  have hLeast {found : α} (h : (rows.insertionSort fun a b => key a ≤ key b).find? p = some found) :
      ∀ other ∈ rows, p other = true → key found ≤ key other := by
    intro other hOther hp
    rcases find?_of_pairwise (List.pairwise_insertionSort _ rows) h ((List.mem_insertionSort _).mpr hOther) hp with
      rfl | hLe
    · exact le_refl _
    · exact hLe
  constructor
  · intro h
    exact ⟨(List.mem_insertionSort _).mp (List.mem_of_find?_eq_some h), List.find?_some h, hLeast h⟩
  · intro h
    obtain ⟨hRow, hp, hMin⟩ := h
    cases hFound : (rows.insertionSort fun a b => key a ≤ key b).find? p with
    | none => exact absurd hp (List.find?_eq_none.mp hFound row ((List.mem_insertionSort _).mpr hRow))
    | some found =>
        have hMem := (List.mem_insertionSort _).mp (List.mem_of_find?_eq_some hFound)
        have hSame : key found = key row := le_antisymm (hLeast hFound row hRow hp) (hMin found hMem (List.find?_some hFound))
        exact congrArg some (hKey found hMem row hRow hSame)

section ThenBy

variable (r : α → α → Prop) (key : α → Nat)

/-- The order, and among tied rows that of a further key. -/
def ThenBy (a b : α) : Prop := r a b ∧ (r b a → key a ≤ key b)

instance [DecidableRel r] : DecidableRel (ThenBy r key) := fun a b => inferInstanceAs (Decidable (r a b ∧ (r b a → key a ≤ key b)))

variable {r key}

theorem ThenBy.key_eq {a b : α} (h : ThenBy r key a b) (h' : ThenBy r key b a) : key a = key b :=
  Nat.le_antisymm (h.2 h'.1) (h'.2 h.1)

instance [Std.Total r] : Std.Total (ThenBy r key) where
  total a b := by
    by_cases hab : r a b
    · by_cases hba : r b a
      · exact (Nat.le_total (key a) (key b)).imp (fun h => ⟨hab, fun _ => h⟩) (fun h => ⟨hba, fun _ => h⟩)
      · exact .inl ⟨hab, fun h => (hba h).elim⟩
    · exact .inr ⟨(Std.Total.total a b).resolve_left hab, fun h => (hab h).elim⟩

instance [IsTrans α r] : IsTrans α (ThenBy r key) where
  trans a b c hab hbc := by
    constructor
    · exact IsTrans.trans a b c hab.1 hbc.1
    · intro hca
      have hba : r b a := IsTrans.trans b c a hbc.1 hca
      have hcb : r c b := IsTrans.trans c a b hca hab.1
      exact Nat.le_trans (hab.2 hba) (hbc.2 hcb)

end ThenBy
end SoftwareHub.Semantics
