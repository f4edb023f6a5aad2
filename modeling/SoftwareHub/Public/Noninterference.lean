import SoftwareHub.Public.Projection

/-! What anonymous visitors see depends on the public projection alone: every page
is the same for a catalog and for its projection. -/
namespace SoftwareHub.Public

open SoftwareHub.Python SoftwareHub.Catalog SoftwareHub.Semantics

/-- The filters of a public listing: published and public entries, and facets that
are shown. -/
structure PublicFilters (filters : SoftwareFilters) : Prop where
  statuses : filters.statuses = [.published]
  visibilities : filters.visibilities = [.isPublic]
  publicFacetsOnly : filters.publicFacetsOnly = true

/-- An engine that breaks ties by the row id. -/
def byRowId : Engines := fun database filters =>
  (Arrangement.sort (ThenBy (Ordered database filters) (·.id))).imp fun _ _ h => h.1

section Search

variable {unicode : Unicode} {database : Database} {filters : SoftwareFilters} {normalizedQuery : Option PyStr}
  {software : Software}

/-- Entries that a public listing finds are published and public. -/
theorem MatchesColumns.listed (hFilters : PublicFilters filters) (h : MatchesColumns unicode database filters software) :
    software.status = .published ∧ software.visibility = .isPublic := by
  have hStatus := h.status
  have hVisibility := h.visibility
  rw [hFilters.statuses] at hStatus
  rw [hFilters.visibilities] at hVisibility
  exact ⟨List.mem_singleton.mp (hStatus (List.cons_ne_nil _ _)),
    List.mem_singleton.mp (hVisibility (List.cons_ne_nil _ _))⟩

theorem isViewable_of_listed (h : software.status = .published ∧ software.visibility = .isPublic) :
    isViewable software = true := by
  simp [isViewable, canViewSoftware, h]

theorem mem_category_projection {category : Category} :
    category ∈ database.publicProjection.category (database.hideCategory software) ↔
      category ∈ database.category software ∧ category.isVisible = true := by
  rw [category_projection, Option.mem_def, Option.filter_eq_some_iff]
  rfl

/-- The columns of an entry are searched alike in the projection, because a hidden
category is not searched in either. -/
theorem matchesColumns_projection (hFilters : PublicFilters filters) :
    MatchesColumns unicode database.publicProjection filters (database.hideCategory software) ↔
      MatchesColumns unicode database filters software := by
  constructor
  · rintro ⟨hCategory, hStatus, hVisibility, hFeatured⟩
    refine ⟨fun slug hSlug => ?_, hStatus, hVisibility, hFeatured⟩
    obtain ⟨category, hMem, hSame, hVisible⟩ := hCategory slug hSlug
    exact ⟨category, (mem_category_projection.mp hMem).1, hSame, hVisible⟩
  · rintro ⟨hCategory, hStatus, hVisibility, hFeatured⟩
    refine ⟨fun slug hSlug => ?_, hStatus, hVisibility, hFeatured⟩
    obtain ⟨category, hMem, hSame, hVisible⟩ := hCategory slug hSlug
    exact ⟨category, mem_category_projection.mpr ⟨hMem, hVisible hFilters.publicFacetsOnly⟩, hSame, hVisible⟩

theorem ownText_projection (hFilters : PublicFilters filters) (P : PyStr → Prop) :
    OwnText P database.publicProjection filters (database.hideCategory software) ↔ OwnText P database filters software := by
  apply or_congr Iff.rfl
  apply or_congr Iff.rfl
  apply or_congr Iff.rfl
  constructor
  · rintro ⟨category, hMem, hVisible, hOccurs⟩
    exact ⟨category, (mem_category_projection.mp hMem).1, hVisible, hOccurs⟩
  · rintro ⟨category, hMem, hVisible, hOccurs⟩
    exact ⟨category, mem_category_projection.mpr ⟨hMem, hVisible hFilters.publicFacetsOnly⟩, hVisible, hOccurs⟩

theorem selectsTag_projection (hFilters : PublicFilters filters) (tag : Option Tag) :
    SelectsTag unicode database.publicProjection filters normalizedQuery (database.hideCategory software) tag ↔
      SelectsTag unicode database filters normalizedQuery software tag := by
  constructor
  · rintro ⟨hText, hSlug⟩
    exact ⟨fun query hQuery => (hText query hQuery).imp_left (ownText_projection hFilters _).mp, hSlug⟩
  · rintro ⟨hText, hSlug⟩
    exact ⟨fun query hQuery => (hText query hQuery).imp_left (ownText_projection hFilters _).mpr, hSlug⟩

/-- A search of the projection finds the same software. -/
theorem hideCategory_mem_selection (hFilters : PublicFilters filters) (h : software ∈ database.software)
    (hViewable : isViewable software = true) :
    database.hideCategory software ∈ selection unicode database.publicProjection filters normalizedQuery ↔
      software ∈ selection unicode database filters normalizedQuery := by
  have hMem : database.hideCategory software ∈ database.publicProjection.software :=
    List.mem_map_of_mem (List.mem_filter.mpr ⟨h, hViewable⟩)
  rw [mem_selection, mem_selection, matchesColumns_projection hFilters, tagsOf_projection h hViewable]
  simp only [selectsTag_projection hFilters, hMem, h, true_and]

theorem viewable_of_mem_selection (hFilters : PublicFilters filters)
    (h : software ∈ selection unicode database filters normalizedQuery) :
    software ∈ database.software ∧ isViewable software = true := by
  obtain ⟨hMem, hColumns, -⟩ := (mem_selection unicode).mp h
  exact ⟨hMem, isViewable_of_listed (hColumns.listed hFilters)⟩

/-- The rows of a search are those of the search of the projection, in some order. -/
theorem selection_projection (hFilters : PublicFilters filters) :
    (selection unicode database.publicProjection filters normalizedQuery).Perm
      ((selection unicode database filters normalizedQuery).map database.hideCategory) := by
  have hNodup : ((selection unicode database filters normalizedQuery).map database.hideCategory).Nodup := by
    apply List.Nodup.map_on _ (nodup_selection unicode database filters normalizedQuery)
    intro first hFirst second hSecond hSame
    exact database.software_eq_of_id (viewable_of_mem_selection hFilters hFirst).1
      (viewable_of_mem_selection hFilters hSecond).1 (congrArg (·.id) hSame)
  rw [List.perm_ext_iff_of_nodup (nodup_selection _ _ _ _) hNodup]
  intro row
  rw [List.mem_map]
  constructor
  · intro hRow
    obtain ⟨software, hSoftware, rfl⟩ := List.mem_map.mp ((mem_selection unicode).mp hRow).1
    obtain ⟨hMem, hViewable⟩ := List.mem_filter.mp hSoftware
    exact ⟨software, (hideCategory_mem_selection hFilters hMem hViewable).mp hRow, rfl⟩
  · rintro ⟨software, hSoftware, rfl⟩
    obtain ⟨hMem, hViewable⟩ := viewable_of_mem_selection hFilters hSoftware
    exact (hideCategory_mem_selection hFilters hMem hViewable).mpr hSoftware

theorem ordered_projection (hFilters : PublicFilters filters) {first second : Software}
    (hFirst : first ∈ database.software ∧ isViewable first = true)
    (hSecond : second ∈ database.software ∧ isViewable second = true) :
    Ordered database.publicProjection filters (database.hideCategory first) (database.hideCategory second) ↔
      Ordered database filters first second := by
  cases hSort : filters.sort with
  | name =>
      simp only [Ordered, hSort]
      exact Iff.rfl
  | popularity =>
      simp only [Ordered, hSort, hFilters.publicFacetsOnly, popularityKey, popularity_projection hFirst.1 hFirst.2,
        popularity_projection hSecond.1 hSecond.2]
      exact Iff.rfl
  | updated =>
      simp only [Ordered, hSort]
      exact Iff.rfl

/-- The rows of the projection come in the same order. -/
theorem arrange_projection (hFilters : PublicFilters filters) :
    (byRowId database.publicProjection filters).arrange (selection unicode database.publicProjection filters normalizedQuery) =
      ((byRowId database filters).arrange (selection unicode database filters normalizedQuery)).map database.hideCategory := by
  have hPerm := (byRowId database filters).perm (selection unicode database filters normalizedQuery)
  have hRows {software : Software}
      (h : software ∈ (byRowId database filters).arrange (selection unicode database filters normalizedQuery)) :=
    viewable_of_mem_selection hFilters (hPerm.mem_iff.mp h)
  change (Arrangement.sort (ThenBy (Ordered database.publicProjection filters) (·.id))).arrange _ = _
  apply Arrangement.arrange_eq
  · intro first hFirst second hSecond hLe hGe
    exact database.publicProjection.software_eq_of_id ((mem_selection unicode).mp hFirst).1
      ((mem_selection unicode).mp hSecond).1 (hLe.key_eq hGe)
  · exact (hPerm.map _).trans (selection_projection hFilters).symm
  · rw [List.pairwise_map]
    have hSorted := List.pairwise_insertionSort (ThenBy (Ordered database filters) (·.id))
      (selection unicode database filters normalizedQuery)
    apply hSorted.imp_of_mem
    intro first second hFirst hSecond hBefore
    constructor
    · exact (ordered_projection hFilters (hRows hFirst) (hRows hSecond)).mpr hBefore.1
    · intro hTie
      exact hBefore.2 ((ordered_projection hFilters (hRows hSecond) (hRows hFirst)).mp hTie)

theorem paginateScalars_projection (hFilters : PublicFilters filters) (pagination : Pagination) :
    paginateScalars (byRowId database.publicProjection filters).arrange
        (selection unicode database.publicProjection filters normalizedQuery) pagination =
      { paginateScalars (byRowId database filters).arrange (selection unicode database filters normalizedQuery) pagination with
        items := (paginateScalars (byRowId database filters).arrange
          (selection unicode database filters normalizedQuery) pagination).items.map database.hideCategory } := by
  have hItems : (((((byRowId database filters).arrange (selection unicode database filters normalizedQuery)).map
      database.hideCategory).drop pagination.offset).take pagination.perPage).dedup =
      (((((byRowId database filters).arrange (selection unicode database filters normalizedQuery)).drop
        pagination.offset).take pagination.perPage).dedup).map database.hideCategory := by
    have hRows := (byRowId database filters).nodup_arrange (nodup_selection unicode database filters normalizedQuery)
    have hOther := (byRowId database.publicProjection filters).nodup_arrange
      (nodup_selection unicode database.publicProjection filters normalizedQuery)
    rw [arrange_projection hFilters] at hOther
    have hCut (rows : List Software) : ((rows.drop pagination.offset).take pagination.perPage).Sublist rows :=
      (List.take_sublist _ _).trans (List.drop_sublist _ _)
    rw [List.dedup_eq_self.mpr (hOther.sublist (hCut _)), List.dedup_eq_self.mpr (hRows.sublist (hCut _)),
      ← List.map_drop, ← List.map_take]
  have hTotal : (selection unicode database.publicProjection filters normalizedQuery).length =
      (selection unicode database filters normalizedQuery).length := by
    rw [(selection_projection hFilters).length_eq, List.length_map]
  simp only [paginateScalars, arrange_projection hFilters, hItems, hTotal]

/-- The cards of a page read nothing else. -/
theorem cards_projection (unicode : Unicode) (upper : PyStr → PyStr) (database : Database) {filters : SoftwareFilters}
    (hFilters : PublicFilters filters) (normalizedQuery : Option PyStr) (pagination : Pagination) :
    (paginateScalars (byRowId database.publicProjection filters).arrange
        (selection unicode database.publicProjection filters normalizedQuery) pagination).items.mapM
          (softwareCard unicode upper database.publicProjection) =
      (paginateScalars (byRowId database filters).arrange
        (selection unicode database filters normalizedQuery) pagination).items.mapM (softwareCard unicode upper database) := by
  rw [paginateScalars_projection hFilters, List.mapM_map]
  apply except_mapM_congr
  intro software hItem
  have hCut := List.mem_of_mem_drop (List.mem_of_mem_take (List.mem_dedup.mp hItem))
  obtain ⟨hMem, hViewable⟩ := viewable_of_mem_selection hFilters ((byRowId database filters).mem_arrange.mp hCut)
  exact softwareCard_projection unicode upper hMem hViewable

end Search

section Facets

variable (unicode : Unicode) (database : Database)

theorem viewable_of_isListed {software : Software} (h : isListed software = true) : isViewable software = true := by
  apply isViewable_of_listed
  simpa [isListed] using h

/-- Listed software of a visible category is found under the same category. -/
theorem inCategory_projection {category : Category} (hCategory : category ∈ database.categories)
    (hVisible : category.isVisible = true) (software : Software) :
    ((database.hideCategory software).categoryId = some category.id ↔ software.categoryId = some category.id) := by
  simp only [Database.hideCategory, Option.map_eq_some_iff, Option.filter_eq_some_iff]
  constructor
  · rintro ⟨found, ⟨hFound, -⟩, hId⟩
    rw [(category_eq_some_iff.mp hFound).2, hId]
  · intro hId
    exact ⟨category, ⟨category_eq_some_iff.mpr ⟨hCategory, hId⟩, hVisible⟩, rfl⟩

/-- A query of listed software reads the same off the projection. -/
theorem listed_projection (p q : Software → Bool) (h : ∀ software, p (database.hideCategory software) = q software) :
    (database.publicProjection.software.filter fun software => p software && isListed software) =
      (database.software.filter fun software => q software && isListed software).map database.hideCategory := by
  rw [Database.publicProjection, List.filter_map, List.filter_filter]
  congr 1
  apply List.filter_congr
  intro software _
  simp only [Function.comp_apply, h, Database.isListed_hideCategory]
  by_cases hListed : isListed software = true
  · simp [hListed, viewable_of_isListed hListed]
  · simp [hListed]

theorem categoryRows_projection : categoryRows database.publicProjection =
    (categoryRows database).map fun (category, software) => (category, database.hideCategory software) := by
  have hCategories : database.publicProjection.categories.filter (·.isVisible) = database.categories.filter (·.isVisible) := by
    simp [Database.publicProjection, List.filter_filter]
  rw [categoryRows, categoryRows, hCategories, List.map_flatMap]
  apply List.flatMap_congr
  intro category hCategory
  obtain ⟨hMem, hVisible⟩ := List.mem_filter.mp hCategory
  simp only [Bool.decide_and, Bool.decide_eq_true]
  rw [listed_projection database _ (fun software => decide (software.categoryId = some category.id)), List.map_map, List.map_map]
  · rfl
  · intro software
    exact decide_eq_decide.mpr (inCategory_projection database hMem hVisible software)

theorem countDistinct_categoryRows : countDistinct (·.1) (·.2.id) (categoryRows database.publicProjection) =
    countDistinct (·.1) (·.2.id) (categoryRows database) := by
  rw [categoryRows_projection, countDistinct_map]
  rfl

theorem listCategories_projection (limit : Nat) :
    listCategories database.publicProjection limit = listCategories database limit := by
  rw [listCategories, listCategories, countDistinct_categoryRows]

theorem hasViewable_of_listed {id : Nat} {software : Software} (h : software ∈ database.software)
    (hListed : decide (software.id = id ∧ isListed software = true) = true) : database.hasViewable id = true := by
  obtain ⟨hId, hListed⟩ := of_decide_eq_true hListed
  exact List.any_eq_true.mpr ⟨software, h, decide_eq_true ⟨hId, viewable_of_isListed hListed⟩⟩

theorem listedTagRows_projection : listedTagRows database.publicProjection =
    (listedTagRows database).map fun (tag, software) => (tag, database.hideCategory software) := by
  -- the software an association leads to
  have hSoftware (tag : Tag) (row : SoftwareTag) :
      (database.publicProjection.software.filter fun software => software.id = row.softwareId ∧ isListed software).map (tag, ·) =
        ((database.software.filter fun software => software.id = row.softwareId ∧ isListed software).map (tag, ·)).map
          fun (tag, software) => (tag, database.hideCategory software) := by
    simp only [Bool.decide_and, Bool.decide_eq_true]
    rw [listed_projection database _ (fun software => decide (software.id = row.softwareId)) (fun _ => rfl), List.map_map,
      List.map_map]
    rfl
  have hNone (tag : Tag) {row : SoftwareTag} (hRow : database.hasViewable row.softwareId = false) :
      (database.software.filter fun software => software.id = row.softwareId ∧ isListed software).map (tag, ·) = [] := by
    rw [List.map_eq_nil_iff, List.filter_eq_nil_iff]
    intro software hMem hListed
    exact Bool.false_ne_true (hRow.symm.trans (hasViewable_of_listed database hMem hListed))
  have hRows (tag : Tag) : ((database.publicProjection.softwareTags.filter fun row => row.tagId = tag.id).flatMap fun row =>
      (database.publicProjection.software.filter fun software => software.id = row.softwareId ∧ isListed software).map (tag, ·)) =
        ((database.softwareTags.filter fun row => row.tagId = tag.id).flatMap fun row =>
          (database.software.filter fun software => software.id = row.softwareId ∧ isListed software).map (tag, ·)).map
            fun (tag, software) => (tag, database.hideCategory software) := by
    rw [List.map_flatMap]
    change ((database.softwareTags.filter fun row => database.hasViewable row.softwareId).filter _).flatMap _ = _
    rw [List.filter_comm]
    apply flatMap_filter_of
    · intro row _ _
      exact hSoftware tag row
    · intro row _ hRow
      rw [hNone tag hRow]
      rfl
  rw [listedTagRows, listedTagRows, List.map_flatMap]
  change (database.tags.filter database.hasTagged).flatMap _ = _
  apply flatMap_filter_of
  · intro tag _ _
    exact hRows tag
  · intro tag _ hTagged
    rw [List.map_eq_nil_iff, List.flatMap_eq_nil_iff]
    intro row hRow
    obtain ⟨hMem, hTag⟩ := List.mem_filter.mp hRow
    apply hNone
    by_contra hViewable
    have hHas : database.hasTagged tag = true :=
      List.any_eq_true.mpr ⟨row, hMem, decide_eq_true ⟨of_decide_eq_true hTag, by simpa using hViewable⟩⟩
    exact Bool.false_ne_true (hTagged.symm.trans hHas)

theorem listTags_projection (limit : Nat) : listTags database.publicProjection limit = listTags database limit := by
  have hCounts : countDistinct (·.1) (·.2.id) (listedTagRows database.publicProjection) =
      countDistinct (·.1) (·.2.id) (listedTagRows database) := by
    rw [listedTagRows_projection, countDistinct_map]
    rfl
  rw [listTags, listTags, hCounts]

theorem getTag_projection (slug : PyStr) : getTag unicode database.publicProjection slug = getTag unicode database slug := by
  rw [getTag, getTag, listedTagRows_projection, List.filter_map, countDistinct_map]
  rfl

theorem getCategory_projection (slug : PyStr) :
    getCategory unicode database.publicProjection slug = getCategory unicode database slug := by
  have hFind : (database.publicProjection.categories.find? fun category =>
      category.slug = normalizeSlug unicode slug ∧ category.isVisible) =
        database.categories.find? fun category => category.slug = normalizeSlug unicode slug ∧ category.isVisible := by
    rw [Database.publicProjection, List.find?_filter]
    congr 1
    funext category
    cases hVisible : category.isVisible <;> simp
  rw [getCategory, getCategory, hFind]
  cases hCategory : database.categories.find? fun category =>
    category.slug = normalizeSlug unicode slug ∧ category.isVisible with
  | none => rfl
  | some category =>
      have hMem := List.mem_of_find?_eq_some hCategory
      have hFound := List.find?_some hCategory
      have hVisible : category.isVisible = true := (of_decide_eq_true hFound).2
      have hCount : database.publicProjection.software.countP (fun software =>
          software.categoryId = some category.id ∧ isListed software) =
            database.software.countP fun software => software.categoryId = some category.id ∧ isListed software := by
        simp only [List.countP_eq_length_filter, Bool.decide_and, Bool.decide_eq_true]
        rw [listed_projection database _ (fun software => decide (software.categoryId = some category.id)), List.length_map]
        intro software
        exact decide_eq_decide.mpr (inCategory_projection database hMem hVisible software)
      simp only [Option.map_some, hCount]

theorem sitemapEntries_projection : sitemapEntries database.publicProjection = sitemapEntries database := by
  have hListed : database.publicProjection.software.filter isListed =
      (database.software.filter isListed).map database.hideCategory := by
    simpa only [Bool.true_and] using listed_projection database (fun _ => true) (fun _ => true) (fun _ => rfl)
  have hSorted : ((database.publicProjection.software.filter isListed).insertionSort fun first second =>
      slugKey first ≤ slugKey second) =
        ((database.software.filter isListed).insertionSort fun first second => slugKey first ≤ slugKey second).map
          database.hideCategory := by
    rw [hListed]
    exact (List.map_insertionSort (fun first second => slugKey first ≤ slugKey second)
      (fun first second => slugKey first ≤ slugKey second) database.hideCategory _ fun first _ second _ => Iff.rfl).symm
  rw [sitemapEntries, sitemapEntries, listSitemapEntries, listSitemapEntries, listCategories_projection, hSorted,
    ← List.map_take, List.flatMap_map]
  rfl

end Facets

section Pages

variable (unicode : Unicode) (upper : PyStr → PyStr) (database : Database)

/-- The home page is that of the projection. -/
theorem home_projection : home unicode upper byRowId database.publicProjection = home unicode upper byRowId database := by
  have hPage (filters : SoftwareFilters) (hQuery : filters.query = none) (database : Database) (pagination : Pagination) :
      listPage unicode database filters (byRowId database filters) pagination =
        .ok (paginateScalars (byRowId database filters).arrange (selection unicode database filters none) pagination) :=
    listPage_eq_ok unicode (by rw [hQuery]; rfl) _ _
  have hCards {filters : SoftwareFilters} (hFilters : PublicFilters filters) (pagination : Pagination) :=
    cards_projection unicode upper database hFilters none pagination
  rw [home, home, hPage featuredFilters rfl, hPage listedFilters rfl, hPage popularFilters rfl,
    hPage featuredFilters rfl, hPage listedFilters rfl, hPage popularFilters rfl]
  simp only [except_bind_ok rfl, listCategories_projection]
  rw [hCards ⟨rfl, rfl, rfl⟩, hCards ⟨rfl, rfl, rfl⟩, hCards ⟨rfl, rfl, rfl⟩]

/-- Every page of the catalog is that of the projection. -/
theorem catalog_projection (pagination : Pagination) (query categorySlug tagSlug : Option PyStr) (sort : SoftwareSort) :
    catalog unicode upper byRowId database.publicProjection pagination query categorySlug tagSlug sort =
      catalog unicode upper byRowId database pagination query categorySlug tagSlug sort := by
  have hCategory : getCategory unicode database.publicProjection = getCategory unicode database := by
    funext slug
    exact getCategory_projection unicode database slug
  have hTag : getTag unicode database.publicProjection = getTag unicode database := by
    funext slug
    exact getTag_projection unicode database slug
  rw [catalog, catalog, hCategory, hTag, listCategories_projection, listTags_projection]
  apply except_bind_congr
  intro normalizedQuery _
  apply except_bind_congr
  intro category _
  apply except_bind_congr
  intro tag _
  have hFilters : PublicFilters (catalogFilters normalizedQuery category tag sort) := ⟨rfl, rfl, rfl⟩
  cases hQuery : normalizeSearchQuery (catalogFilters normalizedQuery category tag sort).query with
  | error message => rw [listPage, listPage, hQuery]; rfl
  | ok selected =>
      rw [listPage_eq_ok unicode hQuery, listPage_eq_ok unicode hQuery, except_bind_ok rfl, except_bind_ok rfl,
        cards_projection unicode upper database hFilters]
      apply except_bind_congr
      intro items _
      rw [paginateScalars_projection hFilters]

/-- Looking up the projection finds viewable software only. -/
theorem getBySlug_projection (slug : PyStr) : getBySlug unicode database.publicProjection slug =
    ((getBySlug unicode database slug).filter isViewable).map database.hideCategory := by
  rw [getBySlug, getBySlug, Database.publicProjection, List.find?_map]
  congr 1
  change (database.software.filter isViewable).find? (fun software => software.slug = normalizeSlug unicode slug) = _
  have hSlugs : ((database.software.filter isViewable).map (·.slug)).Nodup :=
    database.software_slugs.sublist (List.filter_sublist.map _)
  apply Option.ext
  intro software
  rw [Option.filter_eq_some_iff, find?_eq_some_iff_of_nodup hSlugs, find?_eq_some_iff_of_nodup database.software_slugs,
    List.mem_filter, and_right_comm]

/-- The page of a slug is that of the projection, also when there is none. -/
theorem software_projection (slug : PyStr) : Public.software unicode upper database.publicProjection slug false =
    Public.software unicode upper database slug false := by
  rw [Public.software, Public.software, getBySlug_projection]
  cases hFound : getBySlug unicode database slug with
  | none => rfl
  | some software =>
      have hMem := List.mem_of_find?_eq_some hFound
      cases hViewable : isViewable software with
      | false =>
          simp only [Option.filter, hViewable]
          have hHidden : canViewSoftware software.toSoftware false = false := hViewable
          simp [hHidden]
      | true =>
          have hShown : canViewSoftware software.toSoftware false = true := hViewable
          have hOther : canViewSoftware (database.hideCategory software).toSoftware false = true := hViewable
          simp only [Option.filter, hViewable, if_true, Option.map_some, hShown, hOther]
          exact softwareDetail_projection unicode upper hMem hViewable

end Pages

/-- Catalogs with one public projection show the same pages to anonymous visitors, errors included. -/
theorem anonymous_noninterference (unicode : Unicode) (upper : PyStr → PyStr) {database other : Database}
    (h : database.publicProjection = other.publicProjection) :
    home unicode upper byRowId database = home unicode upper byRowId other ∧
      (∀ pagination query categorySlug tagSlug sort,
        catalog unicode upper byRowId database pagination query categorySlug tagSlug sort =
          catalog unicode upper byRowId other pagination query categorySlug tagSlug sort) ∧
      sitemapEntries database = sitemapEntries other ∧
      ∀ slug, software unicode upper database slug false = software unicode upper other slug false := by
  constructor
  · rw [← home_projection, h, home_projection]
  · constructor
    · intro pagination query categorySlug tagSlug sort
      rw [← catalog_projection, h, catalog_projection]
    · constructor
      · rw [← sitemapEntries_projection, h, sitemapEntries_projection]
      · intro slug
        rw [← software_projection, h, software_projection]

def sampleRelease : Release where
  id := 1
  softwareId := 1
  version := py "1.0"
  releaseChannel := .stable
  releaseDate := none
  changelog := none
  isCurrent := true
  status := .published
  publishedAt := none

def sampleFile : ReleaseFile where
  id := 1
  publicUuid := 7
  releaseId := 1
  originalFilename := py "setup.exe"
  displayFilename := py "setup.exe"
  storageFilename := py "0123456789abcdef0123456789abcdef.exe"
  relativeStoragePath := py "01/23/0123456789abcdef0123456789abcdef.exe"
  fileExtension := py ".exe"
  detectedMimeType := py "application/vnd.microsoft.portable-executable"
  fileSizeBytes := 2
  sha256 := List.replicate 64 0x30
  architecture := .x64
  packageType := .installer
  platform := py "windows"
  edition := none
  downloadCount := 3
  status := .published
  visibility := .isPublic
  publishedAt := none
  disabledAt := none
  sourceUrl := none
  signatureStatus := .unknown
  scannerStatus := .clean
  scannerDetails := none
  adminNote := none

/-- One entry with a published release and its published file. -/
def publicDatabase : Database where
  software := [sampleSoftware]
  categories := [⟨1, py "Utilities", py "utilities", none, 0, true⟩]
  tags := [⟨1, py "Freeware", py "freeware"⟩, ⟨2, py "Portable", py "portable"⟩]
  softwareTags := [⟨1, 1⟩, ⟨1, 2⟩]
  releases := [sampleRelease]
  files := [sampleFile]
  software_keys := sampleDatabase.software_keys
  category_keys := sampleDatabase.category_keys
  tag_keys := sampleDatabase.tag_keys
  softwareTag_keys := sampleDatabase.softwareTag_keys
  release_keys := by decide
  file_keys := by decide
  software_slugs := sampleDatabase.software_slugs
  category_slugs := sampleDatabase.category_slugs
  tag_slugs := sampleDatabase.tag_slugs
  file_text := by decide

/-- The same with a hidden category, a draft entry of its own tag and release, a
draft of a second release, and three files that are not shown. -/
def draftDatabase : Database where
  software := [sampleSoftware, { sampleSoftware with id := 2, status := .draft, slug := py "draft", categoryId := some 2 }]
  categories := [⟨1, py "Utilities", py "utilities", none, 0, true⟩, ⟨2, py "Internal", py "internal", none, 0, false⟩]
  tags := [⟨1, py "Freeware", py "freeware"⟩, ⟨2, py "Portable", py "portable"⟩, ⟨3, py "Secret", py "secret"⟩]
  softwareTags := [⟨1, 1⟩, ⟨1, 2⟩, ⟨2, 2⟩, ⟨2, 3⟩]
  releases := [sampleRelease, { sampleRelease with id := 2, softwareId := 2 },
    { sampleRelease with id := 3, isCurrent := false, status := .draft }]
  files := [sampleFile, { sampleFile with id := 2, publicUuid := 8, visibility := .isPrivate },
    { sampleFile with id := 3, publicUuid := 9, releaseId := 2 }, { sampleFile with id := 4, publicUuid := 10, releaseId := 3 }]
  software_keys := by decide
  category_keys := by decide
  tag_keys := by decide
  softwareTag_keys := by decide
  release_keys := by decide
  file_keys := by decide
  software_slugs := by decide
  category_slugs := by decide
  tag_slugs := by decide
  file_text := by decide

/-- Both home pages show the entry, and both entry pages its release with the one public file. -/
theorem anonymous_noninterference_sample :
    home Unicode.ascii id byRowId publicDatabase = home Unicode.ascii id byRowId draftDatabase ∧
      software Unicode.ascii id publicDatabase (py "notepad") false =
        software Unicode.ascii id draftDatabase (py "notepad") false ∧
      (home Unicode.ascii id byRowId draftDatabase).toOption.map (fun view => view.latest.length) = some 1 ∧
      (software Unicode.ascii id draftDatabase (py "notepad") false).toOption.map (fun view =>
        view.releases.map fun release => release.files.length) = some [1] := by
  have hProjection : publicDatabase.publicProjection = draftDatabase.publicProjection := by
    rw [Database.mk.injEq]
    decide
  obtain ⟨hHome, -, -, hSoftware⟩ := anonymous_noninterference Unicode.ascii id hProjection
  exact ⟨hHome, hSoftware (py "notepad"), by decide +kernel, by decide +kernel⟩

end SoftwareHub.Public
