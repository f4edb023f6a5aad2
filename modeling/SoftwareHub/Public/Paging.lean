import SoftwareHub.Public.Selection

/-! Paging through a search. Two of the sort modes end in the id and tell all rows
apart; popularity does not. -/
namespace SoftwareHub.Public

open SoftwareHub.Python SoftwareHub.Catalog SoftwareHub.Semantics

section Ordered

variable (database : Database) (filters : SoftwareFilters)

instance : DecidableRel (Ordered database filters) := fun first second => by
  unfold Ordered
  split <;> infer_instance

/-- Any two rows can be compared by the keys of a sort mode. -/
theorem ordered_total (first second : Software) :
    Ordered database filters first second ∨ Ordered database filters second first := by
  unfold Ordered
  split
  · exact le_total _ _
  · exact le_total _ _
  · exact le_total _ _

/-- The keys of a sort mode order the rows. -/
theorem ordered_trans {first second third : Software} (h : Ordered database filters first second)
    (h' : Ordered database filters second third) : Ordered database filters first third := by
  cases hSort : filters.sort with
  | name =>
      simp only [Ordered, hSort] at h h' ⊢
      exact le_trans h h'
  | popularity =>
      simp only [Ordered, hSort] at h h' ⊢
      exact le_trans h h'
  | updated =>
      simp only [Ordered, hSort] at h h' ⊢
      exact le_trans h' h

instance : Std.Total (Ordered database filters) := ⟨ordered_total database filters⟩

instance : IsTrans Software (Ordered database filters) := ⟨fun _ _ _ => ordered_trans database filters⟩

theorem ordered_refl (software : Software) : Ordered database filters software software :=
  (ordered_total database filters software software).elim id id

end Ordered

variable (unicode : Unicode)

/-- Fetching every page, the number of pages being read off the first. -/
def fetchPages (database : Database) (filters : SoftwareFilters) (engines : Nat → Engine database filters)
    (pagination : Pagination) : Except PyException (List (Page Software)) := do
  let first ← listPage unicode database filters (engines 0) (pagination.turnTo 0)
  (List.range first.pages).mapM fun number =>
    listPage unicode database filters (engines number) (pagination.turnTo number)

/-- The pages list every row once, all but the last are full, and `has_next` tells
the last. -/
structure ListsEveryRow (rows : List Software) (pages : List (Page Software)) : Prop where
  once : (pages.flatMap (·.items)).Perm rows
  full : ∀ page ∈ pages.dropLast, page.items.length = page.perPage
  hasNext : ∀ number (h : number < pages.length), pages[number].hasNext = true ↔ number + 1 < pages.length

/-- The pages list every row, however each page query orders the rows that its keys
leave open. -/
def PagingComplete (database : Database) (filters : SoftwareFilters) (normalizedQuery : Option PyStr)
    (pagination : Pagination) : Prop :=
  ∀ engines pages, fetchPages unicode database filters engines pagination = .ok pages →
    ListsEveryRow (selection unicode database filters normalizedQuery) pages

variable {unicode} {database : Database} {filters : SoftwareFilters} {normalizedQuery : Option PyStr}

/-- The page at a place, cut from the order of its own query. -/
theorem items_paginateScalars {rows : List Software} (hRows : rows.Nodup) (engine : Engine database filters)
    (pagination : Pagination) (number : Nat) :
    (paginateScalars engine.arrange rows (pagination.turnTo number)).items =
      slice pagination.perPage number (engine.arrange rows) := by
  have hNodup := (engine.nodup_arrange hRows).sublist (slice_sublist pagination.perPage number (engine.arrange rows))
  exact List.dedup_eq_self.mpr hNodup

theorem fetchPages_eq (hQuery : normalizeSearchQuery filters.query = .ok normalizedQuery)
    (engines : Nat → Engine database filters) (pagination : Pagination) :
    fetchPages unicode database filters engines pagination =
      .ok ((List.range (pageCount (selection unicode database filters normalizedQuery).length pagination.perPage)).map
        fun number => paginateScalars (engines number).arrange (selection unicode database filters normalizedQuery)
          (pagination.turnTo number)) := by
  have hPages : (paginateScalars (engines 0).arrange (selection unicode database filters normalizedQuery)
      (pagination.turnTo 0)).pages =
        pageCount (selection unicode database filters normalizedQuery).length pagination.perPage :=
    Page.pages_eq _ pagination.perPage_pos
  rw [fetchPages, except_bind_ok (listPage_eq_ok unicode hQuery _ _), hPages]
  exact except_mapM_ok fun number _ => listPage_eq_ok unicode hQuery (engines number) (pagination.turnTo number)

/-- The sizes and the ends of the pages fit together for every order of the rows. -/
theorem full_and_hasNext {rows : List Software} (hRows : rows.Nodup) (engines : Nat → Engine database filters)
    (pagination : Pagination) {pages : List (Page Software)}
    (hPages : pages = (List.range (pageCount rows.length pagination.perPage)).map fun number =>
      paginateScalars (engines number).arrange rows (pagination.turnTo number)) :
    (∀ page ∈ pages.dropLast, page.items.length = page.perPage) ∧
      ∀ number (h : number < pages.length), pages[number].hasNext = true ↔ number + 1 < pages.length := by
  have hLength : pages.length = pageCount rows.length pagination.perPage := by simp [hPages]
  constructor
  · intro page hPage
    obtain ⟨number, hNumber, rfl⟩ := List.getElem_of_mem hPage
    rw [List.length_dropLast] at hNumber
    rw [List.getElem_dropLast]
    simp only [hPages, List.getElem_map, List.getElem_range]
    rw [items_paginateScalars hRows]
    have hRest : ((engines number).arrange rows).length = rows.length := ((engines number).perm rows).length_eq
    apply length_slice_of_lt pagination.perPage_pos
    rw [hRest]
    omega
  · intro number hNumber
    rw [hLength] at hNumber ⊢
    simp only [hPages, List.getElem_map, List.getElem_range, Page.hasNext, decide_eq_true_eq]
    rw [Page.pages_eq _ pagination.perPage_pos]
    rfl

/-- Where ties stay together the pages list every row, whatever each engine does. -/
theorem PagingComplete.of_tiesTogether (hQuery : normalizeSearchQuery filters.query = .ok normalizedQuery)
    {pagination : Pagination} (h : TiesTogether (Ordered database filters) pagination.perPage
      (selection unicode database filters normalizedQuery)) :
    PagingComplete unicode database filters normalizedQuery pagination := by
  intro engines pages hPages
  have hRows := nodup_selection unicode database filters normalizedQuery
  rw [fetchPages_eq hQuery] at hPages
  have hPages := (Except.ok.inj hPages).symm
  obtain ⟨hFull, hHasNext⟩ := full_and_hasNext hRows engines pagination hPages
  refine ⟨?_, hFull, hHasNext⟩
  have hItems (number : Nat) := items_paginateScalars hRows (engines number) pagination number
  rw [hPages, List.flatMap_map]
  simp only [hItems]
  exact h.perm_pages pagination.perPage_pos hRows (fun row _ => ordered_refl database filters row)
    (fun number => (engines number).perm _) (fun number => (engines number).ordered _)

/-- Where ties are cut apart, engines that differ between two pages list a row
twice. -/
theorem PagingComplete.tiesTogether (hQuery : normalizeSearchQuery filters.query = .ok normalizedQuery)
    {pagination : Pagination} (h : PagingComplete unicode database filters normalizedQuery pagination) :
    TiesTogether (Ordered database filters) pagination.perPage (selection unicode database filters normalizedQuery) := by
  have hRows := nodup_selection unicode database filters normalizedQuery
  apply tiesTogether_of_nodup_pages (ordered_total database filters) pagination.perPage_pos hRows
  intro sorted hPerm hSorted
  let engines (number : Nat) : Engine database filters :=
    (Arrangement.sort (Ordered database filters)).forRows (hPerm number) (hSorted number)
  have hOnce := (h engines _ (fetchPages_eq hQuery engines pagination)).once
  have hItems (number : Nat) : (paginateScalars (engines number).arrange (selection unicode database filters normalizedQuery)
      (pagination.turnTo number)).items = slice pagination.perPage number (sorted number) := by
    rw [items_paginateScalars hRows]
    exact congrArg (slice pagination.perPage number) (Arrangement.forRows_arrange _ (hPerm number) (hSorted number))
  rw [List.flatMap_map] at hOnce
  simp only [hItems] at hOnce
  exact hOnce.nodup_iff.mpr hRows

/-- Keys that end in the id tie no two rows. -/
theorem tiesTogether_of_ids {rows : List Software} (hRows : rows.Nodup) (hMem : ∀ row ∈ rows, row ∈ database.software)
    (h : ∀ first second, Ordered database filters first second → Ordered database filters second first →
      first.id = second.id) (size : Nat) : TiesTogether (Ordered database filters) size rows := by
  intro row hRow number hBelow
  have hTied : tied (Ordered database filters) rows row ≤ rows.count row := by
    apply List.countP_mono_left
    intro other hOther hBoth
    obtain ⟨hBefore, hAfter⟩ := of_decide_eq_true hBoth
    exact beq_iff_eq.mpr (database.software_eq_of_id (hMem other hOther) (hMem row hRow) (h other row hBefore hAfter))
  have := List.nodup_iff_count_le_one.mp hRows row
  omega

theorem id_eq_of_ordered (hSort : filters.sort ≠ .popularity) {first second : Software}
    (h : Ordered database filters first second) (h' : Ordered database filters second first) : first.id = second.id := by
  cases hMode : filters.sort with
  | name =>
      simp only [Ordered, hMode] at h h'
      have hKey := le_antisymm h h'
      exact congrArg (fun key : Lex (PyStr × Nat) => (ofLex key).2) hKey
  | popularity => exact (hSort hMode).elim
  | updated =>
      simp only [Ordered, hMode] at h h'
      have hKey := le_antisymm h' h
      exact congrArg (fun key : Lex (Nat × Nat) => (ofLex key).2) hKey

/-- Paging lists every row once exactly if, in popularity order, no page ends between rows of one
popularity and one lower-case name. -/
theorem paging_complete_iff (hQuery : normalizeSearchQuery filters.query = .ok normalizedQuery) (pagination : Pagination) :
    PagingComplete unicode database filters normalizedQuery pagination ↔
      (filters.sort = .popularity →
        TiesTogether (fun first second => popularityKey database filters.publicFacetsOnly first ≤
          popularityKey database filters.publicFacetsOnly second) pagination.perPage
          (selection unicode database filters normalizedQuery)) := by
  have hOrder (hSort : filters.sort = .popularity) (first second : Software) : Ordered database filters first second ↔
      popularityKey database filters.publicFacetsOnly first ≤ popularityKey database filters.publicFacetsOnly second := by
    simp only [Ordered, hSort]
  constructor
  · intro h hSort
    exact (h.tiesTogether hQuery).congr (hOrder hSort)
  · intro h
    apply PagingComplete.of_tiesTogether hQuery
    by_cases hSort : filters.sort = .popularity
    · exact (h hSort).congr fun first second => (hOrder hSort first second).symm
    · exact tiesTogether_of_ids (nodup_selection unicode database filters normalizedQuery)
        (fun row hRow => ((mem_selection unicode).mp hRow).1) (fun _ _ => id_eq_of_ordered hSort) _

/-- Two entries of one name that nobody has downloaded. -/
def twinDatabase : Database where
  software := [sampleSoftware, { sampleSoftware with id := 2, slug := py "notepad-2" }]
  categories := []
  tags := []
  softwareTags := []
  releases := []
  files := []
  software_keys := by decide
  category_keys := Database.empty.category_keys
  tag_keys := Database.empty.tag_keys
  softwareTag_keys := Database.empty.softwareTag_keys
  release_keys := Database.empty.release_keys
  file_keys := Database.empty.file_keys
  software_slugs := by decide
  category_slugs := Database.empty.category_slugs
  tag_slugs := Database.empty.tag_slugs
  file_text := Database.empty.file_text

def twinFilters : SoftwareFilters := { sort := .popularity }

theorem selection_twins : selection Unicode.ascii twinDatabase twinFilters none = twinDatabase.software := by decide

/-- On pages of one row the first twin may end one page and start the next. -/
theorem twins_paged_twice :
    ¬PagingComplete Unicode.ascii twinDatabase twinFilters none (Pagination.first 1 (by decide)) := by
  intro h
  have hTies := h.tiesTogether rfl sampleSoftware (by rw [selection_twins]; decide) 1
  rw [selection_twins] at hTies
  exact absurd (hTies (by decide)) (by decide)

/-- On a page of two rows the twins stay together. -/
theorem paging_complete_iff_sample :
    PagingComplete Unicode.ascii twinDatabase twinFilters none (Pagination.first 2 (by decide)) := by
  apply (paging_complete_iff rfl _).mpr
  intro _ row hRow number hBelow
  rw [selection_twins] at hRow hBelow ⊢
  -- both rows come first in a group of two
  rcases List.mem_pair.mp hRow with rfl | rfl
  · change 0 < number * 2 at hBelow
    change 0 + 2 ≤ number * 2
    omega
  · change 0 < number * 2 at hBelow
    change 0 + 2 ≤ number * 2
    omega

end SoftwareHub.Public
