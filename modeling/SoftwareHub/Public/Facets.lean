import SoftwareHub.Public.Projection
import SoftwareHub.Public.Popularity

/-! The facets and their counts: each count is the total of the listing that its
slug leads to. -/
namespace SoftwareHub.Public

open SoftwareHub.Python SoftwareHub.Catalog SoftwareHub.Semantics

/-- The facet that a listing of the category shows, with its count. -/
def countedCategory (category : Category) (count : Nat) : CatalogFacet :=
  ⟨category.name, category.slug, category.description, count⟩

/-- Whatever the sort, the page asked for and the order that the engine gives the
rows, the listing has this total. -/
def HasTotal (unicode : Unicode) (database : Database) (category tag : Option CatalogFacet) (total : Nat) : Prop :=
  ∀ sort (engine : Engine database (catalogFilters none category tag sort)) pagination,
    ∃ page, listPage unicode database (catalogFilters none category tag sort) engine pagination = .ok page ∧
      page.total = total

section

variable {unicode : Unicode} {database : Database}

/-- Neither the sort nor the engine decides which rows are counted. -/
theorem hasTotal_iff {category tag : Option CatalogFacet} {total : Nat} : HasTotal unicode database category tag total ↔
    (selection unicode database (catalogFilters none category tag .updated) none).length = total := by
  constructor
  · intro h
    obtain ⟨page, hPage, hTotal⟩ := h .updated (Arrangement.sort _) (Pagination.first 1 (by decide))
    rw [listPage_eq_ok unicode rfl] at hPage
    cases hPage
    exact hTotal
  · intro h sort engine pagination
    exact ⟨_, listPage_eq_ok unicode rfl engine pagination, h⟩

/-- The total is the number of software entries with the property that the filters
ask for. -/
theorem length_selection {filters : SoftwareFilters} {chosen : Software → Bool}
    (h : ∀ software ∈ database.software,
      software ∈ selection unicode database filters none ↔ chosen software = true) :
    (selection unicode database filters none).length = database.software.countP chosen := by
  rw [List.countP_eq_length_filter]
  apply List.Perm.length_eq
  apply (List.perm_ext_iff_of_nodup (nodup_selection unicode database filters none)
    (database.nodup_software.filter chosen)).mpr
  intro software
  rw [List.mem_filter]
  constructor
  · intro hMem
    have hRow := ((mem_selection unicode).mp hMem).1
    exact ⟨hRow, (h software hRow).mp hMem⟩
  · intro hBoth
    exact (h software hBoth.1).mpr hBoth.2

theorem isListed_iff {software : Software} :
    isListed software = true ↔ software.status = .published ∧ software.visibility = .isPublic := decide_eq_true_iff

/-- The columns that a listing of one facet asks for. -/
theorem matchesColumns_catalogFilters {category tag : Option CatalogFacet} {software : Software} :
    MatchesColumns unicode database (catalogFilters none category tag .updated) software ↔
      isListed software = true ∧ ∀ facet ∈ category, ∃ row ∈ database.category software,
        row.slug = normalizeSlug unicode facet.slug ∧ row.isVisible = true := by
  rw [isListed_iff]
  constructor
  · intro h
    refine ⟨⟨List.mem_singleton.mp (h.status nofun), List.mem_singleton.mp (h.visibility nofun)⟩, ?_⟩
    intro facet hFacet
    obtain ⟨row, hRow, hSlug, hVisible⟩ := h.category facet.slug (Option.mem_map_of_mem _ hFacet)
    exact ⟨row, hRow, hSlug, hVisible rfl⟩
  · intro h
    obtain ⟨⟨hStatus, hVisibility⟩, hCategory⟩ := h
    constructor
    · intro slug hSlug
      obtain ⟨facet, hFacet, rfl⟩ := Option.mem_map.mp hSlug
      obtain ⟨row, hRow, hSame, hVisible⟩ := hCategory facet hFacet
      exact ⟨row, hRow, hSame, fun _ => hVisible⟩
    · exact fun _ => List.mem_singleton.mpr hStatus
    · exact fun _ => List.mem_singleton.mpr hVisibility
    · nofun

/-- The listed software of a category. -/
def inCategory (category : Category) (software : Software) : Bool :=
  software.categoryId = some category.id ∧ isListed software

theorem category_eq_of_slug {category other : Category} (h : category ∈ database.categories)
    (hOther : other ∈ database.categories) (hSlug : category.slug = other.slug) : category = other :=
  List.inj_on_of_nodup_map database.category_slugs h hOther hSlug

/-- The total of a listing of a category is the number of its listed entries. -/
theorem hasTotal_category (hFold : unicode.FoldsAscii) {category : Category} (h : category ∈ database.categories)
    (hSlug : isSlug category.slug = true) (hVisible : category.isVisible = true) {count total : Nat} :
    HasTotal unicode database (some (countedCategory category count)) none total ↔
      database.software.countP (inCategory category) = total := by
  rw [hasTotal_iff, length_selection]
  intro software hSoftware
  have hNone : SelectsTag unicode database (catalogFilters none (some (countedCategory category count)) none .updated) none
      software none := (selectsTag_none_iff unicode).mpr ⟨nofun, rfl⟩
  rw [mem_selection, matchesColumns_catalogFilters, inCategory, decide_eq_true_iff]
  constructor
  · intro hSelected
    obtain ⟨-, ⟨hListed, hCategory⟩, -⟩ := hSelected
    obtain ⟨row, hRow, hSame, -⟩ := hCategory _ rfl
    obtain ⟨hMem, hKey⟩ := category_eq_some_iff.mp hRow
    have hNormal : normalizeSlug unicode (countedCategory category count).slug = category.slug := normalizeSlug_of_isSlug hFold hSlug
    rw [category_eq_of_slug hMem h (hSame.trans hNormal)] at hKey
    exact ⟨hKey, hListed⟩
  · intro hBoth
    refine ⟨hSoftware, ⟨hBoth.2, ?_⟩, Or.inl hNone⟩
    intro facet hFacet
    obtain rfl := Option.some.inj hFacet
    exact ⟨category, category_eq_some_iff.mpr ⟨h, hBoth.1⟩, (normalizeSlug_of_isSlug hFold hSlug).symm, hVisible⟩

/-- The rows that the facet query of the categories joins. -/
theorem mem_categoryRows {category : Category} {software : Software} : (category, software) ∈ categoryRows database ↔
    category ∈ database.categories ∧ category.isVisible = true ∧ software ∈ database.software ∧
      inCategory category software = true := by
  simp only [categoryRows, List.mem_flatMap, List.mem_filter, List.mem_map, Prod.mk.injEq]
  constructor
  · intro h
    obtain ⟨row, ⟨hRow, hVisible⟩, other, ⟨hOther, hOn⟩, rfl, rfl⟩ := h
    exact ⟨hRow, hVisible, hOther, hOn⟩
  · intro h
    obtain ⟨hCategory, hVisible, hSoftware, hOn⟩ := h
    exact ⟨category, ⟨hCategory, hVisible⟩, software, ⟨hSoftware, hOn⟩, rfl, rfl⟩

theorem of_getCategory {slug : PyStr} {facet : CatalogFacet} (h : getCategory unicode database slug = some facet) :
    ∃ category ∈ database.categories, category.isVisible = true ∧
      facet = countedCategory category (database.software.countP (inCategory category)) := by
  obtain ⟨category, hFound, rfl⟩ := Option.map_eq_some_iff.mp h
  have hBoth := List.find?_some hFound
  exact ⟨category, List.mem_of_find?_eq_some hFound, (of_decide_eq_true hBoth).2, rfl⟩

/-- The listed software with a tag. -/
def hasTag (database : Database) (tag : Tag) (software : Software) : Bool :=
  tag ∈ database.tagsOf software ∧ isListed software

theorem tag_eq_of_slug {tag other : Tag} (h : tag ∈ database.tags) (hOther : other ∈ database.tags)
    (hSlug : tag.slug = other.slug) : tag = other :=
  List.inj_on_of_nodup_map database.tag_slugs h hOther hSlug

/-- The total of a listing of a tag is the number of listed entries with the tag. -/
theorem hasTotal_tag (hFold : unicode.FoldsAscii) {tag : Tag} (h : tag ∈ database.tags) (hSlug : isSlug tag.slug = true)
    {count total : Nat} : HasTotal unicode database none (some (tagFacet (tag, count))) total ↔
      database.software.countP (hasTag database tag) = total := by
  rw [hasTotal_iff, length_selection]
  intro software hSoftware
  have hNormal : normalizeSlug unicode tag.slug = tag.slug := normalizeSlug_of_isSlug hFold hSlug
  rw [mem_selection, matchesColumns_catalogFilters, hasTag, decide_eq_true_iff]
  constructor
  · intro hSelected
    obtain ⟨-, ⟨hListed, -⟩, hTags⟩ := hSelected
    rcases hTags with hNone | ⟨row, hRow, hSelects⟩
    · exact absurd ((selectsTag_none_iff unicode).mp hNone).2 nofun
    · obtain ⟨found, hFound, hSame⟩ := hSelects.slug nofun
      obtain rfl := Option.some.inj hFound
      have hSlugs : row.slug = normalizeSlug unicode tag.slug := List.mem_singleton.mp hSame
      have hEq : row = tag := tag_eq_of_slug (mem_tagsOf.mp hRow).1 h (hSlugs.trans hNormal)
      exact ⟨hEq ▸ hRow, hListed⟩
  · intro hBoth
    refine ⟨hSoftware, ⟨hBoth.2, nofun⟩, Or.inr ⟨tag, hBoth.1, ?_⟩⟩
    constructor
    · nofun
    · intro _
      exact ⟨tag, rfl, List.mem_singleton.mpr hNormal.symm⟩

/-- The rows that the facet query of the tags joins. -/
theorem mem_listedTagRows {tag : Tag} {software : Software} : (tag, software) ∈ listedTagRows database ↔
    tag ∈ database.tags ∧ software ∈ database.software ∧ hasTag database tag software = true := by
  simp only [listedTagRows, List.mem_flatMap, List.mem_filter, List.mem_map, Prod.mk.injEq, hasTag,
    decide_eq_true_iff, mem_tagsOf]
  constructor
  · intro h
    obtain ⟨found, hTag, row, ⟨hRow, hId⟩, other, ⟨hOther, hSoftware, hListed⟩, rfl, rfl⟩ := h
    exact ⟨hTag, hOther, ⟨hTag, row, hRow, hSoftware.symm, hId⟩, hListed⟩
  · intro h
    obtain ⟨hTag, hSoftware, ⟨-, row, hRow, hId, hTagId⟩, hListed⟩ := h
    exact ⟨tag, hTag, row, ⟨hRow, hTagId⟩, software, ⟨hSoftware, hId.symm, hListed⟩, rfl, rfl⟩

/-- The groups of a join with software, with the number of entries joined to each. -/
theorem mem_countDistinct_software {κ : Type} [DecidableEq κ] {rows : List (κ × Software)} {isKey : κ → Prop}
    {on : κ → Software → Bool} (h : ∀ key software, (key, software) ∈ rows ↔
      isKey key ∧ software ∈ database.software ∧ on key software = true) {pair : κ × Nat} :
    pair ∈ countDistinct (·.1) (·.2.id) rows ↔
      isKey pair.1 ∧ 0 < pair.2 ∧ database.software.countP (on pair.1) = pair.2 := by
  have hCount (hKey : isKey pair.1) : ((rows.filter fun row => row.1 = pair.1).map (·.2.id)).dedup.length =
      database.software.countP (on pair.1) := by
    rw [List.countP_eq_length_filter, ← @List.length_map _ _ _ (fun software : Software => software.id)]
    apply length_dedup_eq
    · exact (database.software_keys.imp Nat.ne_of_lt).sublist (List.filter_sublist.map _)
    · intro id
      simp only [List.mem_map, List.mem_filter, decide_eq_true_iff]
      constructor
      · intro hMem
        obtain ⟨⟨key, software⟩, ⟨hRow, rfl⟩, rfl⟩ := hMem
        exact ⟨software, ((h _ _).mp hRow).2, rfl⟩
      · intro hMem
        obtain ⟨software, hSoftware, rfl⟩ := hMem
        exact ⟨(pair.1, software), ⟨(h _ _).mpr ⟨hKey, hSoftware⟩, rfl⟩, rfl⟩
  rw [mem_countDistinct]
  constructor
  · intro hPair
    obtain ⟨⟨⟨key, software⟩, hRow, rfl⟩, hLength⟩ := hPair
    obtain ⟨hKey, hSoftware, hOn⟩ := (h _ _).mp hRow
    rw [hLength, hCount hKey]
    exact ⟨hKey, List.countP_pos_iff.mpr ⟨software, hSoftware, hOn⟩, rfl⟩
  · intro hPair
    obtain ⟨hKey, hPositive, hLength⟩ := hPair
    rw [← hLength, List.countP_pos_iff] at hPositive
    obtain ⟨software, hSoftware, hOn⟩ := hPositive
    exact ⟨⟨(pair.1, software), (h _ _).mpr ⟨hKey, hSoftware, hOn⟩, rfl⟩, (hLength.symm.trans (hCount hKey).symm)⟩

/-- The groups of the category query are the visible categories with listed
software. -/
theorem mem_categoryCounts {pair : Category × Nat} : pair ∈ countDistinct (·.1) (·.2.id) (categoryRows database) ↔
    (pair.1 ∈ database.categories ∧ pair.1.isVisible = true) ∧ 0 < pair.2 ∧
      database.software.countP (inCategory pair.1) = pair.2 :=
  mem_countDistinct_software fun _ _ => mem_categoryRows.trans and_assoc.symm

/-- The groups of the tag query are the tags with listed software. -/
theorem mem_tagCounts {pair : Tag × Nat} : pair ∈ countDistinct (·.1) (·.2.id) (listedTagRows database) ↔
    pair.1 ∈ database.tags ∧ 0 < pair.2 ∧ database.software.countP (hasTag database pair.1) = pair.2 :=
  mem_countDistinct_software fun _ _ => mem_listedTagRows

/-- The tag that a slug leads to, if listed software has it. -/
theorem getTag_eq_some_iff {slug : PyStr} {facet : CatalogFacet} : getTag unicode database slug = some facet ↔
    ∃ tag ∈ database.tags, tag.slug = normalizeSlug unicode slug ∧ ∃ count, 0 < count ∧
      database.software.countP (hasTag database tag) = count ∧ facet = tagFacet (tag, count) := by
  have hPair {pair : Tag × Nat} : pair ∈ countDistinct (·.1) (·.2.id)
      ((listedTagRows database).filter fun row => row.1.slug = normalizeSlug unicode slug) ↔
        pair.1.slug = normalizeSlug unicode slug ∧ pair.1 ∈ database.tags ∧ 0 < pair.2 ∧
          database.software.countP (hasTag database pair.1) = pair.2 := by
    rw [@mem_countDistinct_filter (Tag × Software) Tag Nat _ _ (·.1) (·.2.id) (listedTagRows database)
      (fun tag => decide (tag.slug = normalizeSlug unicode slug)) pair, decide_eq_true_iff, mem_tagCounts]
  rw [getTag, Option.map_eq_some_iff]
  have hOne {pair : Tag × Nat} := @head?_eq_some_iff_of_subsingleton _ (countDistinct (·.1) (·.2.id)
      ((listedTagRows database).filter fun row => row.1.slug = normalizeSlug unicode slug)) (by
    intro pair hFirst other hOther
    obtain ⟨hSlug, hTag, -, hCount⟩ := hPair.mp hFirst
    obtain ⟨hOtherSlug, hOtherTag, -, hOtherCount⟩ := hPair.mp hOther
    have hEq : pair.1 = other.1 := tag_eq_of_slug hTag hOtherTag (hSlug.trans hOtherSlug.symm)
    exact Prod.ext hEq (hCount.symm.trans (hEq ▸ hOtherCount))) pair
  constructor
  · intro h
    obtain ⟨pair, hHead, rfl⟩ := h
    obtain ⟨hSlug, hTag, hPositive, hCount⟩ := hPair.mp (hOne.mp hHead)
    exact ⟨pair.1, hTag, hSlug, pair.2, hPositive, hCount, rfl⟩
  · intro h
    obtain ⟨tag, hTag, hSlug, count, hPositive, hCount, rfl⟩ := h
    exact ⟨(tag, count), hOne.mpr (hPair.mpr ⟨hSlug, hTag, hPositive, hCount⟩), rfl⟩

end

/-- Up to its limit the query lists just these facets, and no slug twice. -/
def ListsExactly (list : Nat → List CatalogFacet) (shown : CatalogFacet → Prop) : Prop :=
  ∃ all : List CatalogFacet, (∀ limit, list limit = all.take limit) ∧ (all.map (·.slug)).Nodup ∧ ∀ facet, facet ∈ all ↔ shown facet

theorem listsExactly_counts {κ : Type} {counts : List (κ × Nat)} (r : κ × Nat → κ × Nat → Prop) [DecidableRel r]
    {facet : κ × Nat → CatalogFacet} (hSlugs : (counts.map fun pair => (facet pair).slug).Nodup) :
    ListsExactly (fun limit => ((counts.insertionSort r).take limit).map facet) fun shown =>
      ∃ pair ∈ counts, facet pair = shown := by
  refine ⟨(counts.insertionSort r).map facet, fun limit => List.map_take, ?_, ?_⟩
  · rw [List.map_map]
    exact ((List.perm_insertionSort r counts).map _).nodup_iff.mpr hSlugs
  · intro shown
    rw [List.mem_map]
    simp only [List.mem_insertionSort]

theorem ListsExactly.congr {list : Nat → List CatalogFacet} {shown other : CatalogFacet → Prop}
    (h : ListsExactly list shown) (hShown : ∀ facet, shown facet ↔ other facet) : ListsExactly list other := by
  obtain ⟨all, hLimit, hSlugs, hMem⟩ := h
  exact ⟨all, hLimit, hSlugs, fun facet => (hMem facet).trans (hShown facet)⟩

/-- Grouped rows have one slug for each group. -/
theorem nodup_slugs_countDistinct {κ : Type} [DecidableEq κ] {rows : List (κ × Software)} {slug : κ → PyStr}
    (h : ∀ row ∈ rows, ∀ other ∈ rows, slug row.1 = slug other.1 → row.1 = other.1) :
    ((countDistinct (·.1) (·.2.id) rows).map fun pair => slug pair.1).Nodup := by
  have hKeys : ((countDistinct (·.1) (·.2.id) rows).map (·.1)).map slug =
      (countDistinct (·.1) (·.2.id) rows).map fun pair => slug pair.1 := List.map_map
  rw [← hKeys, map_fst_countDistinct]
  apply List.Nodup.map_on _ (List.nodup_dedup _)
  intro key hKey other hOther hSlug
  obtain ⟨row, hRow, rfl⟩ := List.mem_map.mp (List.mem_dedup.mp hKey)
  obtain ⟨second, hSecond, rfl⟩ := List.mem_map.mp (List.mem_dedup.mp hOther)
  exact h row hRow second hSecond hSlug

/-- A facet of the category, shown with the total of its listing when that is not
empty. -/
def ShowsCategory (unicode : Unicode) (database : Database) (category : Category) (facet : CatalogFacet) : Prop :=
  ∃ count, 0 < count ∧ HasTotal unicode database (some (countedCategory category count)) none count ∧
    facet = countedCategory category count

/-- A facet of the tag, shown with the total of its listing when that is not empty. -/
def ShowsTag (unicode : Unicode) (database : Database) (tag : Tag) (facet : CatalogFacet) : Prop :=
  ∃ count, 0 < count ∧ HasTotal unicode database none (some (tagFacet (tag, count))) count ∧ facet = tagFacet (tag, count)

section

variable {unicode : Unicode} (hFold : unicode.FoldsAscii) {database : Database}

include hFold

theorem listCategories_exactly (hSlugs : ∀ category ∈ database.categories, isSlug category.slug = true) :
    ListsExactly (listCategories database) fun facet => ∃ category ∈ database.categories, category.isVisible = true ∧
      ShowsCategory unicode database category facet := by
  have hNodup : ((countDistinct (·.1) (·.2.id) (categoryRows database)).map fun pair => pair.1.slug).Nodup := by
    apply nodup_slugs_countDistinct
    intro row hRow other hOther hSlug
    exact category_eq_of_slug (mem_categoryRows.mp hRow).1 (mem_categoryRows.mp hOther).1 hSlug
  have hLists : ListsExactly (listCategories database) _ :=
    @listsExactly_counts _ _ (fun first second => categoryKey first ≤ categoryKey second) _
      (fun pair => countedCategory pair.1 pair.2) hNodup
  apply hLists.congr
  intro facet
  constructor
  · intro h
    obtain ⟨pair, hPair, rfl⟩ := h
    obtain ⟨⟨hCategory, hVisible⟩, hPositive, hCount⟩ := mem_categoryCounts.mp hPair
    exact ⟨pair.1, hCategory, hVisible, pair.2, hPositive,
      (hasTotal_category hFold hCategory (hSlugs _ hCategory) hVisible).mpr hCount, rfl⟩
  · intro h
    obtain ⟨category, hCategory, hVisible, count, hPositive, hTotal, rfl⟩ := h
    exact ⟨(category, count), mem_categoryCounts.mpr ⟨⟨hCategory, hVisible⟩, hPositive,
      (hasTotal_category hFold hCategory (hSlugs _ hCategory) hVisible).mp hTotal⟩, rfl⟩

theorem listTags_exactly (hSlugs : ∀ tag ∈ database.tags, isSlug tag.slug = true) :
    ListsExactly (listTags database) fun facet => ∃ tag ∈ database.tags, ShowsTag unicode database tag facet := by
  have hNodup : ((countDistinct (·.1) (·.2.id) (listedTagRows database)).map fun pair => pair.1.slug).Nodup := by
    apply nodup_slugs_countDistinct
    intro row hRow other hOther hSlug
    exact tag_eq_of_slug (mem_listedTagRows.mp hRow).1 (mem_listedTagRows.mp hOther).1 hSlug
  have hLists : ListsExactly (listTags database) _ :=
    @listsExactly_counts _ _ (fun first second => tagKey first ≤ tagKey second) _ tagFacet hNodup
  apply hLists.congr
  intro facet
  constructor
  · intro h
    obtain ⟨pair, hPair, rfl⟩ := h
    obtain ⟨hTag, hPositive, hCount⟩ := mem_tagCounts.mp hPair
    exact ⟨pair.1, hTag, pair.2, hPositive, (hasTotal_tag hFold hTag (hSlugs _ hTag)).mpr hCount, rfl⟩
  · intro h
    obtain ⟨tag, hTag, count, hPositive, hTotal, rfl⟩ := h
    exact ⟨(tag, count), mem_tagCounts.mpr ⟨hTag, hPositive, (hasTotal_tag hFold hTag (hSlugs _ hTag)).mp hTotal⟩, rfl⟩

theorem getTag_exactly (hSlugs : ∀ tag ∈ database.tags, isSlug tag.slug = true) (slug : PyStr) (facet : CatalogFacet) :
    getTag unicode database slug = some facet ↔
      ∃ tag ∈ database.tags, tag.slug = normalizeSlug unicode slug ∧ ShowsTag unicode database tag facet := by
  rw [getTag_eq_some_iff]
  constructor
  · intro h
    obtain ⟨tag, hTag, hSlug, count, hPositive, hCount, hFacet⟩ := h
    exact ⟨tag, hTag, hSlug, count, hPositive, (hasTotal_tag hFold hTag (hSlugs _ hTag)).mpr hCount, hFacet⟩
  · intro h
    obtain ⟨tag, hTag, hSlug, count, hPositive, hTotal, hFacet⟩ := h
    exact ⟨tag, hTag, hSlug, count, hPositive, (hasTotal_tag hFold hTag (hSlugs _ hTag)).mp hTotal, hFacet⟩

/-- The count of every facet is the total of the listing its slug leads to. The lists show, up to their
limit, the visible categories and the tags whose listing is not empty, and a slug leads to its tag just then. -/
theorem facets_agree_with_listings (hCategories : ∀ category ∈ database.categories, isSlug category.slug = true)
    (hTags : ∀ tag ∈ database.tags, isSlug tag.slug = true) :
    (∀ facet, (∃ limit, facet ∈ listCategories database limit) ∨ (∃ slug, getCategory unicode database slug = some facet) →
      HasTotal unicode database (some facet) none facet.softwareCount) ∧
    (∀ facet, (∃ limit, facet ∈ listTags database limit) ∨ (∃ slug, getTag unicode database slug = some facet) →
      HasTotal unicode database none (some facet) facet.softwareCount) ∧
    (ListsExactly (listCategories database) fun facet => ∃ category ∈ database.categories, category.isVisible = true ∧
      ShowsCategory unicode database category facet) ∧
    (ListsExactly (listTags database) fun facet => ∃ tag ∈ database.tags, ShowsTag unicode database tag facet) ∧
    ∀ slug facet, getTag unicode database slug = some facet ↔
      ∃ tag ∈ database.tags, tag.slug = normalizeSlug unicode slug ∧ ShowsTag unicode database tag facet := by
  have hCategoryList := listCategories_exactly hFold hCategories
  have hTagList := listTags_exactly hFold hTags
  have hGetTag := getTag_exactly hFold hTags
  refine ⟨?_, ?_, hCategoryList, hTagList, hGetTag⟩
  · intro facet h
    rcases h with ⟨limit, hFacet⟩ | ⟨slug, hFacet⟩
    · obtain ⟨all, hLimit, -, hMem⟩ := hCategoryList
      rw [hLimit] at hFacet
      obtain ⟨category, -, -, count, -, hTotal, rfl⟩ := (hMem facet).mp (List.mem_of_mem_take hFacet)
      exact hTotal
    · obtain ⟨category, hCategory, hVisible, rfl⟩ := of_getCategory hFacet
      exact (hasTotal_category hFold hCategory (hCategories _ hCategory) hVisible).mpr rfl
  · intro facet h
    rcases h with ⟨limit, hFacet⟩ | ⟨slug, hFacet⟩
    · obtain ⟨all, hLimit, -, hMem⟩ := hTagList
      rw [hLimit] at hFacet
      obtain ⟨tag, -, count, -, hTotal, rfl⟩ := (hMem facet).mp (List.mem_of_mem_take hFacet)
      exact hTotal
    · obtain ⟨tag, -, -, count, -, hTotal, rfl⟩ := (hGetTag slug facet).mp hFacet
      exact hTotal

end

/-- One entry with two tags in a visible category, whose tag counts one. -/
theorem facets_agree_with_listings_sample :
    HasTotal Unicode.ascii sampleDatabase none (some ⟨py "Portable", py "portable", none, 1⟩) 1 := by
  have hAgree := @facets_agree_with_listings Unicode.ascii Unicode.ascii_foldsAscii sampleDatabase (by decide) (by decide)
  exact hAgree.2.1 ⟨py "Portable", py "portable", none, 1⟩ (Or.inl ⟨100, by decide⟩)

end SoftwareHub.Public
