import Mathlib.Algebra.Ring.Nat
import Mathlib.Algebra.BigOperators.Group.List.Basic
import Mathlib.Data.List.Basic
import Mathlib.Data.List.Nodup
import Mathlib.Data.List.Pairwise
import Mathlib.Data.List.Sort

/-! Tables as lists of rows: the rows that an `UPDATE` or a `DELETE` leaves, the
primary key that an `INSERT` chooses, changes that name the row they are for, and
partial unique indexes. -/
namespace SoftwareHub.Semantics

variable {ρ κ : Type}

/-- `UPDATE … WHERE p`: the rows keep their places. -/
def updateRows (p : ρ → Prop) [DecidablePred p] (f : ρ → ρ) (rows : List ρ) : List ρ :=
  rows.map fun row => if p row then f row else row

/-- `DELETE … WHERE p`: the other rows keep their places. -/
def deleteRows (p : ρ → Prop) [DecidablePred p] (rows : List ρ) : List ρ :=
  rows.filter fun row => ¬p row

/-- The rowid that SQLite gives to a new row, one above the greatest. -/
def nextId (key : ρ → Nat) (rows : List ρ) : Nat := (rows.map key).foldr max 0 + 1

section Update

variable {p : ρ → Prop} [DecidablePred p] {f : ρ → ρ}

theorem mem_updateRows {rows : List ρ} {row : ρ} :
    row ∈ updateRows p f rows ↔ ∃ old ∈ rows, row = if p old then f old else old := by
  simp [updateRows, eq_comm]

/-- An update that keeps a column of the rows it changes keeps it for the whole
table. -/
theorem map_updateRows {column : ρ → κ} {rows : List ρ} (h : ∀ row ∈ rows, p row → column (f row) = column row) :
    (updateRows p f rows).map column = rows.map column := by
  rw [updateRows, List.map_map]
  refine List.map_congr_left fun row hRow => ?_
  by_cases hp : p row
  · simp [hp, h row hRow hp]
  · simp [hp]

/-- Looking up by a column that the update keeps finds the updated row. -/
theorem find?_updateRows {q : ρ → Bool} (h : ∀ row, p row → q (f row) = q row) (rows : List ρ) :
    (updateRows p f rows).find? q = (rows.find? q).map fun row => if p row then f row else row := by
  induction rows with
  | nil => rfl
  | cons row rows ih =>
      have hSame : q (if p row then f row else row) = q row := by
        by_cases hp : p row
        · simp [hp, h row hp]
        · simp [hp]
      by_cases hq : q row
      · simp [updateRows, hSame, hq]
      · simpa [updateRows, hSame, hq] using ih

/-- Updating rows that do not contribute to a sum leaves the sum. -/
theorem sum_updateRows_of_eq {value : ρ → Nat} {rows : List ρ} (h : ∀ row ∈ rows, p row → value (f row) = value row) :
    ((updateRows p f rows).map value).sum = (rows.map value).sum := by
  rw [map_updateRows h]

/-- Updating the one row of a key changes a sum by the difference of its summand. -/
theorem sum_updateRows_of_key [DecidableEq κ] {key : ρ → κ} {value : ρ → Nat} {rows : List ρ}
    (h : (rows.map key).Nodup) {row : ρ} (hRow : row ∈ rows) :
    ((updateRows (fun other => key other = key row) f rows).map value).sum + value row =
      (rows.map value).sum + value (f row) := by
  induction rows with
  | nil => cases hRow
  | cons head rows ih =>
      obtain ⟨hHead, hRest⟩ := List.nodup_cons.mp h
      rcases List.mem_cons.mp hRow with rfl | hRow
      · have hOthers : ((updateRows (fun other => key other = key row) f rows).map value).sum = (rows.map value).sum := by
          apply sum_updateRows_of_eq
          intro other hOther hKey
          exact (hHead (hKey ▸ List.mem_map_of_mem hOther)).elim
        simp only [updateRows, List.map_cons, List.sum_cons, if_true] at hOthers ⊢
        omega
      · have hNe : key head ≠ key row := fun hKey => hHead (hKey ▸ List.mem_map_of_mem hRow)
        have hOthers := ih hRest hRow
        simp only [updateRows, List.map_cons, List.sum_cons, if_neg hNe] at hOthers ⊢
        omega

end Update

theorem mem_deleteRows {p : ρ → Prop} [DecidablePred p] {rows : List ρ} {row : ρ} :
    row ∈ deleteRows p rows ↔ row ∈ rows ∧ ¬p row := by
  simp [deleteRows]

theorem lt_nextId {key : ρ → Nat} {rows : List ρ} {row : ρ} (h : row ∈ rows) : key row < nextId key rows := by
  have hMax (keys : List Nat) (n : Nat) (hn : n ∈ keys) : n ≤ keys.foldr max 0 := by
    induction keys with
    | nil => cases hn
    | cons head keys ih =>
        rcases List.mem_cons.mp hn with rfl | hn
        · exact Nat.le_max_left _ _
        · exact Nat.le_trans (ih hn) (Nat.le_max_right _ _)
  exact Nat.lt_succ_of_le (hMax _ _ (List.mem_map.mpr ⟨row, h, rfl⟩))

/-- A row under the next key has a key of its own. -/
theorem nodup_append_nextId {key : ρ → Nat} {rows : List ρ} {row : ρ} (h : (rows.map key).Nodup)
    (hKey : key row = nextId key rows) : ((rows ++ [row]).map key).Nodup := by
  rw [List.map_append, List.nodup_append]
  refine ⟨h, by simp, fun stored hStored other hOther => ?_⟩
  obtain ⟨old, hOld, rfl⟩ := List.mem_map.mp hStored
  have hLt := @lt_nextId _ key _ _ hOld
  simp only [List.map_cons, List.map_nil, List.mem_singleton] at hOther
  omega

/-- A table in the order of its key stays so with a row under the next key. -/
theorem pairwise_append_nextId {key : ρ → Nat} {rows : List ρ} {row : ρ} (h : (rows.map key).Pairwise (· < ·))
    (hKey : key row = nextId key rows) : ((rows ++ [row]).map key).Pairwise (· < ·) := by
  rw [List.map_append, List.pairwise_append]
  refine ⟨h, List.pairwise_singleton _ _, fun stored hStored other hOther => ?_⟩
  obtain ⟨old, hOld, rfl⟩ := List.mem_map.mp hStored
  obtain rfl := List.mem_singleton.mp hOther
  rw [hKey]
  exact lt_nextId hOld

theorem deleteRows_sublist (p : ρ → Prop) [DecidablePred p] (rows : List ρ) : (deleteRows p rows).Sublist rows :=
  List.filter_sublist

/-- The values of a column stay distinct when the saved row has the value of no
other row. -/
theorem nodup_saved {ι : Type} [DecidableEq ι] {key : ρ → ι} {column : ρ → κ} {rows : List ρ} {saved : ρ}
    (hKeys : (rows.map key).Nodup) (h : (rows.map column).Nodup)
    (hFree : ∀ other ∈ rows, column other = column saved → key other = key saved) :
    ((updateRows (fun row => key row = key saved) (fun _ => saved) rows).map column).Nodup := by
  rw [updateRows, List.Nodup, List.pairwise_map, List.pairwise_map]
  rw [List.Nodup, List.pairwise_map] at hKeys h
  refine (hKeys.and h).imp_of_mem fun {row other} hRow hOther hBoth => ?_
  obtain ⟨hKey, hColumn⟩ := hBoth
  by_cases hFirst : key row = key saved
  · rw [if_pos hFirst, if_neg fun hSecond => hKey (hFirst.trans hSecond.symm)]
    exact fun hSame => hKey (hFirst.trans (hFree other hOther hSame.symm).symm)
  · rw [if_neg hFirst]
    by_cases hSecond : key other = key saved
    · rw [if_pos hSecond]
      exact fun hSame => hFirst (hFree row hRow hSame)
    · rw [if_neg hSecond]
      exact hColumn

/-- Rows with distinct keys, sorted by them, are in strict order. -/
theorem pairwise_sorted_lt [LinearOrder κ] {key : ρ → κ} {rows : List ρ} (h : (rows.map key).Nodup) :
    ((rows.insertionSort fun first second => key first ≤ key second).map key).Pairwise (· < ·) := by
  have hTotal : Std.Total fun first second : ρ => key first ≤ key second := ⟨fun first second => le_total _ _⟩
  have hTrans : IsTrans ρ fun first second => key first ≤ key second := ⟨fun _ _ _ => le_trans⟩
  have hSorted := List.pairwise_insertionSort (fun first second : ρ => key first ≤ key second) rows
  have hDistinct : ((rows.insertionSort fun first second => key first ≤ key second).map key).Nodup :=
    ((List.perm_insertionSort _ rows).map key).nodup_iff.mpr h
  rw [List.Nodup, List.pairwise_map] at hDistinct
  rw [List.pairwise_map]
  exact (hSorted.and hDistinct).imp fun hBoth => lt_of_le_of_ne hBoth.1 hBoth.2

/-- In a table with distinct keys the key finds exactly its row. -/
theorem find?_eq_some_iff_of_nodup [DecidableEq κ] {key : ρ → κ} {rows : List ρ} (h : (rows.map key).Nodup)
    {k : κ} {row : ρ} : rows.find? (fun r => key r = k) = some row ↔ row ∈ rows ∧ key row = k := by
  constructor
  · intro hFind
    exact ⟨List.mem_of_find?_eq_some hFind, by simpa using List.find?_some hFind⟩
  · rintro ⟨hMem, rfl⟩
    induction rows with
    | nil => cases hMem
    | cons head rows ih =>
        obtain ⟨hHead, hRest⟩ := List.nodup_cons.mp h
        rcases List.mem_cons.mp hMem with rfl | hMem
        · simp
        · have hNe : key head ≠ key row := fun hEq => hHead (hEq ▸ List.mem_map.mpr ⟨row, hMem, rfl⟩)
          simpa [hNe] using ih hRest hMem

section Rewrite

variable {χ : Type} [DecidableEq κ] (key : ρ → κ) (target : χ → κ) (set : χ → ρ → ρ)

/-- A row after a list of changes, each of which is for the rows of one key. -/
def rewriteRow (changes : List χ) (row : ρ) : ρ :=
  changes.foldl (fun row change => if key row = target change then set change row else row) row

theorem rewriteRow_cons (change : χ) (changes : List χ) (row : ρ) : rewriteRow key target set (change :: changes) row =
    rewriteRow key target set changes (if key row = target change then set change row else row) := rfl

variable {key target set}

theorem rewriteRow_of_not_mem {changes : List χ} {row : ρ} (h : ∀ change ∈ changes, key row ≠ target change) :
    rewriteRow key target set changes row = row := by
  induction changes with
  | nil => rfl
  | cons change changes ih =>
      rw [rewriteRow_cons, if_neg (h change List.mem_cons_self)]
      exact ih fun other hOther => h other (List.mem_cons_of_mem _ hOther)

/-- A column that no change sets is kept. -/
theorem column_rewriteRow {ι : Type} {column : ρ → ι} (h : ∀ change row, column (set change row) = column row)
    (changes : List χ) (row : ρ) : column (rewriteRow key target set changes row) = column row := by
  induction changes generalizing row with
  | nil => rfl
  | cons change changes ih =>
      rw [rewriteRow_cons, ih]
      by_cases hRow : key row = target change
      · rw [if_pos hRow, h]
      · rw [if_neg hRow]

/-- Of changes for distinct keys only the row's own one applies. -/
theorem rewriteRow_of_mem (hKey : ∀ change row, key (set change row) = key row) {changes : List χ}
    (h : (changes.map target).Nodup) {change : χ} (hChange : change ∈ changes) {row : ρ} (hRow : key row = target change) :
    rewriteRow key target set changes row = set change row := by
  induction changes with
  | nil => cases hChange
  | cons first changes ih =>
      obtain ⟨hFirst, hRest⟩ := List.nodup_cons.mp h
      rw [rewriteRow_cons]
      rcases List.mem_cons.mp hChange with rfl | hChange
      · rw [if_pos hRow]
        apply rewriteRow_of_not_mem
        intro other hOther hSame
        rw [hKey, hRow] at hSame
        exact hFirst (hSame ▸ List.mem_map.mpr ⟨other, hOther, rfl⟩)
      · rw [if_neg]
        · exact ih hRest hChange
        · intro hSame
          exact hFirst (List.mem_map.mpr ⟨change, hChange, hRow.symm.trans hSame⟩)

end Rewrite

/-- `UNIQUE (key) WHERE p`: the rows in `p` have different keys. -/
def UniqueWhere (p : ρ → Prop) (key : ρ → κ) (rows : List ρ) : Prop :=
  rows.Pairwise fun row other => p row → p other → key row ≠ key other

instance [DecidableEq κ] (p : ρ → Prop) [DecidablePred p] (key : ρ → κ) (rows : List ρ) :
    Decidable (UniqueWhere p key rows) := inferInstanceAs (Decidable (List.Pairwise _ rows))

namespace UniqueWhere

variable {p q : ρ → Prop} {key : ρ → κ} {rows : List ρ}

theorem imp (h : UniqueWhere p key rows) (hImp : ∀ row ∈ rows, q row → p row) : UniqueWhere q key rows :=
  h.imp_of_mem fun hRow hOther hNe hq hq' => hNe (hImp _ hRow hq) (hImp _ hOther hq')

/-- Two rows of the index with one key are the same row. -/
theorem eq_of_key_eq (h : UniqueWhere p key rows) {row other : ρ} (hRow : row ∈ rows) (hOther : other ∈ rows)
    (hp : p row) (hp' : p other) (hKey : key row = key other) : row = other := by
  have : Std.Symm fun row other => p row → p other → key row ≠ key other :=
    ⟨fun _ _ hNe hp hp' => (hNe hp' hp).symm⟩
  by_contra hNe
  exact List.Pairwise.forall h hRow hOther hNe hp hp' hKey

/-- A new row must not collide with a row of the index. -/
theorem append {row : ρ} (h : UniqueWhere p key rows) (hRow : p row → ∀ old ∈ rows, p old → key old ≠ key row) :
    UniqueWhere p key (rows ++ [row]) := by
  rw [UniqueWhere, List.pairwise_append]
  refine ⟨h, List.pairwise_singleton _ _, fun old hOld other hOther hp hp' => ?_⟩
  obtain rfl := List.mem_singleton.mp hOther
  exact hRow hp' old hOld hp

/-- An update keeps an index if it lets no changed row collide with another one. -/
theorem updateRows {ι : Type} {id : ρ → ι} {c : ρ → Prop} [DecidablePred c] {f : ρ → ρ} (h : UniqueWhere p key rows)
    (hIds : (rows.map id).Nodup)
    (hUpdate : ∀ row ∈ rows, ∀ other ∈ rows, id row ≠ id other → c row →
      p (f row) → p (if c other then f other else other) →
      key (f row) ≠ key (if c other then f other else other)) : UniqueWhere p key (updateRows c f rows) := by
  rw [UniqueWhere, Semantics.updateRows, List.pairwise_map]
  refine (h.and (List.pairwise_map.mp hIds)).imp_of_mem fun {row other} hRow hOther hBoth hp hp' => ?_
  obtain ⟨hNe, hId⟩ := hBoth
  by_cases hc : c row
  · rw [if_pos hc] at hp ⊢
    exact hUpdate row hRow other hOther hId hc hp hp'
  · rw [if_neg hc] at hp ⊢
    by_cases hc' : c other
    · rw [if_pos hc'] at hp' ⊢
      have hReverse := hUpdate other hOther row hRow hId.symm hc' hp'
      rw [if_neg hc] at hReverse
      exact (hReverse hp).symm
    · rw [if_neg hc'] at hp' ⊢
      exact hNe hp hp'

/-- At most one row of the index has a given key. -/
theorem countP_le_one [DecidableEq κ] [DecidablePred p] (h : UniqueWhere p key rows) (k : κ) :
    rows.countP (fun row => p row ∧ key row = k) ≤ 1 := by
  induction rows with
  | nil => simp
  | cons row rows ih =>
      obtain ⟨hHead, hRest⟩ := List.pairwise_cons.mp h
      by_cases hRow : p row ∧ key row = k
      · have hNone : rows.countP (fun other => p other ∧ key other = k) = 0 := by
          rw [List.countP_eq_zero]
          intro other hOther
          simp only [decide_eq_true_eq]
          rintro ⟨hp, rfl⟩
          exact hHead other hOther hRow.1 hp hRow.2
        rw [List.countP_cons, hNone]
        split_ifs <;> simp
      · simpa [List.countP_cons, hRow] using ih hRest

end UniqueWhere

end SoftwareHub.Semantics
