import SoftwareHub.Semantics.Select
import Mathlib.Data.List.Nodup
import Mathlib.Data.List.ProdSigma

/-! Pages of an ordered result. When every page is cut from an order of its own, the
pages fit together exactly if no page ends between tied rows. -/
namespace SoftwareHub.Semantics

variable {α : Type}

/-- `LIMIT size OFFSET number * size`, with the pages counted from zero. -/
def slice (size number : Nat) (rows : List α) : List α := (rows.drop (number * size)).take size

/-- The number of pages, rounded up to the last one that is not full. -/
def pageCount (total size : Nat) : Nat := (total + size - 1) / size

theorem length_slice (size number : Nat) (rows : List α) :
    (slice size number rows).length = min size (rows.length - number * size) := by
  simp [slice]

/-- A page exists when its first row does. -/
theorem lt_pageCount_iff {total size number : Nat} (hSize : 0 < size) :
    number < pageCount total size ↔ number * size < total := by
  rw [pageCount, ← Nat.succ_le_iff, Nat.le_div_iff_mul_le hSize, Nat.succ_mul]
  omega

/-- A page with another one behind it is full. -/
theorem length_slice_of_lt {size number : Nat} (hSize : 0 < size) {rows : List α}
    (h : number + 1 < pageCount rows.length size) : (slice size number rows).length = size := by
  rw [length_slice]
  have := (lt_pageCount_iff hSize).mp h
  rw [Nat.succ_mul] at this
  omega

theorem slice_sublist (size number : Nat) (rows : List α) : (slice size number rows).Sublist rows :=
  (List.take_sublist _ _).trans (List.drop_sublist _ _)

/-- A row is on the page that its place in the order falls on. -/
theorem mem_slice_iff {size number : Nat} {front back : List α} {row : α} (h : (front ++ row :: back).Nodup) :
    row ∈ slice size number (front ++ row :: back) ↔ number * size ≤ front.length ∧ front.length < number * size + size := by
  have hOnce {i : Nat} (hi : i < (front ++ row :: back).length) (hRow : (front ++ row :: back)[i] = row) :
      i = front.length := by
    have hPlace : front.length < (front ++ row :: back).length := by simp
    have hSame : (front ++ row :: back)[i] = (front ++ row :: back)[front.length] := by rw [hRow]; simp
    exact (List.Nodup.getElem_inj_iff h).mp hSame
  rw [slice, List.mem_take_iff_getElem]
  constructor
  · rintro ⟨i, hi, hRow⟩
    rw [List.getElem_drop] at hRow
    have := hOnce _ hRow
    omega
  · rintro ⟨hLow, hHigh⟩
    refine ⟨front.length - number * size, ?_, ?_⟩
    · simp
      omega
    · rw [List.getElem_drop]
      have hIndex : number * size + (front.length - number * size) = front.length := by omega
      simp [hIndex]

section Ties

variable (r : α → α → Prop) [DecidableRel r]

/-- The number of rows that come strictly before a row in every order. -/
def below (rows : List α) (row : α) : Nat := rows.countP fun other => r other row ∧ ¬r row other

/-- The number of rows tied with a row, itself included. -/
def tied (rows : List α) (row : α) : Nat := rows.countP fun other => r other row ∧ r row other

/-- No page ends between tied rows: all of them fall on one page, in whatever order
they come. -/
def TiesTogether (size : Nat) (rows : List α) : Prop :=
  ∀ row ∈ rows, ∀ number, below r rows row < number * size → below r rows row + tied r rows row ≤ number * size

variable {r} {rows : List α}

theorem TiesTogether.congr {s : α → α → Prop} [DecidableRel s] (hIff : ∀ a b, r a b ↔ s a b) {size : Nat}
    (h : TiesTogether r size rows) : TiesTogether s size rows := by
  obtain rfl : r = s := by
    funext a b
    exact propext (hIff a b)
  intro row hRow number hBelow
  have := h row hRow number
  simp only [below, tied] at this hBelow ⊢
  convert this (by convert hBelow)

/-- In every order the rows before a row are those strictly before it and some of
those tied with it. -/
theorem below_le_length {sorted : List α} (hPerm : sorted.Perm rows) (hSorted : sorted.Pairwise r) {front back : List α}
    {row : α} (h : sorted = front ++ row :: back) (hRefl : r row row) :
    below r rows row ≤ front.length ∧ front.length < below r rows row + tied r rows row := by
  subst h
  obtain ⟨-, hRest, hFront⟩ := List.pairwise_append.mp hSorted
  have hBack := (List.pairwise_cons.mp hRest).1
  have hBelow : below r rows row = front.countP fun other => r other row ∧ ¬r row other := by
    have hNone : (row :: back).countP (fun other => r other row ∧ ¬r row other) = 0 := by
      rw [List.countP_eq_zero]
      intro other hOther
      rcases List.mem_cons.mp hOther with rfl | hOther
      · simp [hRefl]
      · simp [hBack other hOther]
    rw [below, ← hPerm.countP_eq, List.countP_append, hNone, Nat.add_zero]
  have hTied : front.countP (fun other => r other row ∧ r row other) + 1 ≤ tied r rows row := by
    rw [tied, ← hPerm.countP_eq, List.countP_append, List.countP_cons_of_pos (by simp [hRefl])]
    omega
  have hSplit : front.length = front.countP (fun other => r other row ∧ ¬r row other) +
      front.countP fun other => r other row ∧ r row other := by
    rw [List.length_eq_countP_add_countP (fun other => decide (r row other)), Nat.add_comm]
    congr 1
    · apply List.countP_congr
      intro other hOther
      simp [hFront other hOther row (by simp)]
    · apply List.countP_congr
      intro other hOther
      simp [hFront other hOther row (by simp)]
  omega

/-- Where ties stay together, the page of a row depends on no choice of the
database. -/
theorem TiesTogether.mem_slice {size : Nat} (hTies : TiesTogether r size rows) (hRows : rows.Nodup) {sorted : List α}
    (hPerm : sorted.Perm rows) (hSorted : sorted.Pairwise r) {row : α} (hRow : row ∈ rows) (hRefl : r row row) {number : Nat} :
    row ∈ slice size number sorted ↔ number * size ≤ below r rows row ∧ below r rows row < number * size + size := by
  obtain ⟨front, back, hSplit⟩ := List.append_of_mem (hPerm.mem_iff.mpr hRow)
  obtain ⟨hLow, hHigh⟩ := below_le_length hPerm hSorted hSplit hRefl
  have hEarly := hTies row hRow number
  have hLate := hTies row hRow (number + 1)
  rw [Nat.succ_mul] at hLate
  have hNodup : (front ++ row :: back).Nodup := hSplit ▸ hPerm.nodup_iff.mpr hRows
  rw [hSplit, mem_slice_iff hNodup]
  omega

theorem below_lt_length {row : α} (hRow : row ∈ rows) (hRefl : r row row) : below r rows row < rows.length := by
  apply Nat.lt_of_le_of_ne List.countP_le_length
  intro hAll
  have := List.countP_eq_length.mp hAll row hRow
  simp [hRefl] at this

/-- Pages cut from orders of their own list every row once, if no page ends between
tied rows. -/
theorem TiesTogether.perm_pages {size : Nat} (hTies : TiesTogether r size rows) (hSize : 0 < size) (hRows : rows.Nodup)
    (hRefl : ∀ row ∈ rows, r row row) {sorted : Nat → List α} (hPerm : ∀ number, (sorted number).Perm rows)
    (hSorted : ∀ number, (sorted number).Pairwise r) :
    ((List.range (pageCount rows.length size)).flatMap fun number => slice size number (sorted number)).Perm rows := by
  have hMem {row : α} (hRow : row ∈ rows) (number : Nat) : row ∈ slice size number (sorted number) ↔
      number * size ≤ below r rows row ∧ below r rows row < number * size + size :=
    hTies.mem_slice hRows (hPerm number) (hSorted number) hRow (hRefl row hRow)
  have hOf {row : α} {number : Nat} (h : row ∈ slice size number (sorted number)) : row ∈ rows :=
    (hPerm number).mem_iff.mp ((slice_sublist _ _ _).mem h)
  have hNodup : ((List.range (pageCount rows.length size)).flatMap fun number => slice size number (sorted number)).Nodup := by
    rw [List.nodup_flatMap]
    constructor
    · intro number _
      exact ((hPerm number).nodup_iff.mpr hRows).sublist (slice_sublist _ _ _)
    · apply List.nodup_range.imp
      intro number other hNe row hFirst hSecond
      have hRow := hOf hFirst
      obtain ⟨hLow, hHigh⟩ := (hMem hRow number).mp hFirst
      obtain ⟨hLow', hHigh'⟩ := (hMem hRow other).mp hSecond
      apply hNe
      apply Nat.le_antisymm
      · by_contra hLt
        have := Nat.mul_le_mul_right size (Nat.lt_of_not_le hLt)
        rw [Nat.succ_mul] at this
        omega
      · by_contra hLt
        have := Nat.mul_le_mul_right size (Nat.lt_of_not_le hLt)
        rw [Nat.succ_mul] at this
        omega
  rw [List.perm_ext_iff_of_nodup hNodup hRows]
  intro row
  rw [List.mem_flatMap]
  constructor
  · rintro ⟨number, -, hRow⟩
    exact hOf hRow
  · intro hRow
    have hPlace := Nat.div_mul_le_self (below r rows row) size
    refine ⟨below r rows row / size, ?_, (hMem hRow _).mpr ⟨hPlace, Nat.lt_div_mul_add hSize⟩⟩
    rw [List.mem_range, lt_pageCount_iff hSize]
    exact Nat.lt_of_le_of_lt hPlace (below_lt_length hRow (hRefl row hRow))

variable [IsTrans α r]

/-- The rows around a row: those strictly before it, those tied with it in any order, the others. -/
theorem around_spec (hTotal : ∀ a b, r a b ∨ r b a) {sorted : List α} (hPerm : sorted.Perm rows) (hSorted : sorted.Pairwise r)
    (row : α) {group : List α} (hGroup : group.Perm (sorted.filter fun other => r other row ∧ r row other)) :
    ((sorted.filter fun other => r other row ∧ ¬r row other) ++ (group ++ sorted.filter fun other => ¬r other row)).Perm rows ∧
      ((sorted.filter fun other => r other row ∧ ¬r row other) ++
        (group ++ sorted.filter fun other => ¬r other row)).Pairwise r := by
  have hTrans {a b : α} (ha : r a row) (hb : r row b) : r a b := IsTrans.trans a row b ha hb
  have hAfter {other : α} (h : ¬r other row) : r row other := (hTotal other row).resolve_left h
  constructor
  · have hInner := List.filter_append_perm (fun other => decide (¬r row other)) (sorted.filter fun other => decide (r other row))
    have hOuter := List.filter_append_perm (fun other => decide (r other row)) sorted
    simp only [List.filter_filter, decide_not, Bool.not_not] at hInner hOuter
    simp only [Bool.decide_and, decide_not, Bool.and_comm] at hGroup ⊢
    rw [← List.append_assoc]
    exact (((hGroup.append_left _).trans hInner).append_right _).trans (hOuter.trans hPerm)
  · rw [List.pairwise_append, List.pairwise_append]
    refine ⟨hSorted.filter _, ⟨?_, hSorted.filter _, ?_⟩, ?_⟩
    · apply List.pairwise_of_forall_mem_list
      intro a ha b hb
      have ha := List.of_mem_filter (hGroup.mem_iff.mp ha)
      have hb := List.of_mem_filter (hGroup.mem_iff.mp hb)
      simp only [decide_eq_true_eq] at ha hb
      exact hTrans ha.1 hb.2
    · intro a ha b hb
      have ha := List.of_mem_filter (hGroup.mem_iff.mp ha)
      have hb := List.of_mem_filter hb
      simp only [decide_eq_true_eq] at ha hb
      exact hTrans ha.1 (hAfter hb)
    · intro a ha b hb
      have ha := List.of_mem_filter ha
      simp only [decide_eq_true_eq] at ha
      rcases List.mem_append.mp hb with hb | hb
      · have hb := List.of_mem_filter (hGroup.mem_iff.mp hb)
        simp only [decide_eq_true_eq] at hb
        exact hTrans ha.1 hb.2
      · have hb := List.of_mem_filter hb
        simp only [decide_eq_true_eq] at hb
        exact hTrans ha.1 (hAfter hb)

/-- A page that ends between tied rows can be cut so that a row is listed twice.
This is the other direction: without it the pages do not fit together. -/
theorem tiesTogether_of_nodup_pages (hTotal : ∀ a b, r a b ∨ r b a) {size : Nat} (hSize : 0 < size) (hRows : rows.Nodup)
    (h : ∀ sorted : Nat → List α, (∀ number, (sorted number).Perm rows) → (∀ number, (sorted number).Pairwise r) →
      ((List.range (pageCount rows.length size)).flatMap fun number => slice size number (sorted number)).Nodup) :
    TiesTogether r size rows := by
  intro row hRow number hBelow
  by_contra hSplit
  have hTotal' : Std.Total r := ⟨hTotal⟩
  let base := rows.insertionSort r
  have hBase : base.Perm rows := List.perm_insertionSort r rows
  let front := base.filter fun other => r other row ∧ ¬r row other
  let group := base.filter fun other => r other row ∧ r row other
  let back := base.filter fun other => ¬r other row
  have hFront : front.length = below r rows row := by
    rw [below, ← hBase.countP_eq, List.countP_eq_length_filter]
  have hGroup : group.length = tied r rows row := by
    rw [tied, ← hBase.countP_eq, List.countP_eq_length_filter]
  have hAround {other : List α} (hOther : other.Perm group) :=
    around_spec hTotal hBase (List.pairwise_insertionSort r rows) row hOther
  -- the two rows of the group on either side of the end of the page
  obtain ⟨before, a, b, after, hEq, hLength⟩ : ∃ before a b after, group = before ++ a :: b :: after ∧
      front.length + before.length + 1 = number * size := by
    let place := number * size - front.length - 1
    have hPlace : place + 1 < group.length := by omega
    refine ⟨group.take place, group[place], group[place + 1], group.drop (place + 2), ?_, ?_⟩
    · rw [← List.drop_eq_getElem_cons, ← List.drop_eq_getElem_cons, List.take_append_drop]
    · rw [List.length_take]
      omega
  have hSwap : (before ++ b :: a :: after).Perm group := by
    rw [hEq]
    exact (List.Perm.swap a b after).append_left before
  let sorted (page : Nat) := if page < number then front ++ (group ++ back) else front ++ ((before ++ b :: a :: after) ++ back)
  have hNodup := h sorted
    (fun page => by
      by_cases hPage : page < number
      · simpa only [sorted, if_pos hPage] using (hAround (List.Perm.refl _)).1
      · simpa only [sorted, if_neg hPage] using (hAround hSwap).1)
    (fun page => by
      by_cases hPage : page < number
      · simpa only [sorted, if_pos hPage] using (hAround (List.Perm.refl _)).2
      · simpa only [sorted, if_neg hPage] using (hAround hSwap).2)
  have hPos : 0 < number := Nat.pos_of_ne_zero fun hZero => by simp [hZero] at hBelow
  have hCount : number < pageCount rows.length size := by
    rw [lt_pageCount_iff hSize]
    have : (front ++ (group ++ back)).length = rows.length := (hAround (List.Perm.refl group)).1.length_eq
    simp only [List.length_append] at this
    omega
  have hLast : a ∈ slice size (number - 1) (sorted (number - 1)) := by
    have hList : sorted (number - 1) = (front ++ before) ++ a :: (b :: after ++ back) := by
      simp only [sorted, if_pos (Nat.sub_lt hPos Nat.one_pos), hEq]
      simp
    have hSorted : (sorted (number - 1)).Nodup := by
      simp only [sorted, if_pos (Nat.sub_lt hPos Nat.one_pos)]
      exact (hAround (List.Perm.refl _)).1.nodup_iff.mpr hRows
    rw [hList] at hSorted ⊢
    rw [mem_slice_iff hSorted, List.length_append, Nat.sub_mul, Nat.one_mul]
    have := Nat.le_mul_of_pos_left size hPos
    omega
  have hFirst : a ∈ slice size number (sorted number) := by
    have hList : sorted number = (front ++ before ++ [b]) ++ a :: (after ++ back) := by
      simp [sorted]
    have hSorted : (sorted number).Nodup := by
      simp only [sorted, if_neg (Nat.lt_irrefl number)]
      exact (hAround hSwap).1.nodup_iff.mpr hRows
    rw [hList] at hSorted ⊢
    rw [mem_slice_iff hSorted]
    simp only [List.length_append, List.length_singleton]
    omega
  have hDisjoint := List.pairwise_iff_getElem.mp (List.nodup_flatMap.mp hNodup).2 (number - 1) number
    (by rw [List.length_range]; omega) (by rw [List.length_range]; omega) (by omega)
  simp only [List.getElem_range] at hDisjoint
  exact hDisjoint hLast hFirst

end Ties
end SoftwareHub.Semantics
