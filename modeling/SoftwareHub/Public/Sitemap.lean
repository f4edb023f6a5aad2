import SoftwareHub.Public.Facets

/-! The sitemap: no path stands in it twice, and a page is behind every path. -/
namespace SoftwareHub.Public

open SoftwareHub.Python SoftwareHub.Catalog SoftwareHub.Semantics

/-- The page that an entry of the sitemap leads a visitor to. -/
inductive LeadsToPage (unicode : Unicode) (database : Database) : SitemapEntry → Prop
  | home : LeadsToPage unicode database { path := py "/" }
  | catalog : LeadsToPage unicode database { path := py "/software" }
  | category {facet : CatalogFacet} (found : getCategory unicode database facet.slug = some facet)
      (shown : 0 < facet.softwareCount) : LeadsToPage unicode database { path := py "/category/" ++ facet.slug }
  | software {software : Software} (found : getBySlug unicode database software.slug = some software)
      (viewable : canViewSoftware software.toSoftware false = true) : LeadsToPage unicode database
        { path := py "/software/" ++ software.slug, lastModified := some software.updatedAt }
  | releases {software : Software} (found : getBySlug unicode database software.slug = some software)
      (viewable : canViewSoftware software.toSoftware false = true) : LeadsToPage unicode database
        { path := py "/software/" ++ software.slug ++ py "/releases", lastModified := some software.updatedAt }

/-- No path twice, a page behind every path, and every listed entry when the limit allows. -/
structure SoundSitemap (unicode : Unicode) (database : Database) (limit : Nat) : Prop where
  paths : ((listSitemapEntries database limit).map (·.path)).Nodup
  pages : ∀ entry ∈ listSitemapEntries database limit, LeadsToPage unicode database entry
  listed : database.software.countP isListed ≤ limit → ∀ software ∈ database.software, isListed software = true →
    ∃ entry ∈ listSitemapEntries database limit, entry.path = py "/software/" ++ software.slug

/-- The entries that the sitemap has room for. -/
def sitemapSoftware (database : Database) (limit : Nat) : List Software :=
  ((database.software.filter isListed).insertionSort fun first second => slugKey first ≤ slugKey second).take limit

def softwarePages (software : Software) : List SitemapEntry :=
  [{ path := py "/software/" ++ software.slug, lastModified := some software.updatedAt },
    { path := py "/software/" ++ software.slug ++ py "/releases", lastModified := some software.updatedAt }]

variable {unicode : Unicode} {database : Database}

theorem listSitemapEntries_eq (limit : Nat) : listSitemapEntries database limit =
    [{ path := py "/" }, { path := py "/software" }] ++
      (listCategories database 1000).map (fun category => { path := py "/category/" ++ category.slug }) ++
      (sitemapSoftware database limit).flatMap softwarePages := rfl

/-- A slug has no slash in it. -/
theorem slash_not_mem {slug : PyStr} (h : isSlug slug = true) : 0x2F ∉ slug := by
  intro hMem
  have hNone : ¬(isLowerAlnum 0x2F = true ∨ (0x2F : Nat) = hyphen) := by decide
  exact hNone ((isSlug_iff.mp h).1 _ hMem)

section Software

theorem sitemapSoftware_mem {limit : Nat} {software : Software} (h : software ∈ sitemapSoftware database limit) :
    software ∈ database.software ∧ isListed software = true :=
  List.mem_filter.mp ((List.mem_insertionSort _).mp (List.mem_of_mem_take h))

/-- The slugs of the entries in the sitemap differ, since the column is unique. -/
theorem sitemapSoftware_slugs (limit : Nat) : ((sitemapSoftware database limit).map (·.slug)).Nodup := by
  have hFiltered : ((database.software.filter isListed).map (·.slug)).Nodup :=
    database.software_slugs.sublist (List.filter_sublist.map _)
  have hSorted := ((List.perm_insertionSort (fun first second => slugKey first ≤ slugKey second)
    (database.software.filter isListed)).map (·.slug)).nodup_iff.mpr hFiltered
  exact hSorted.sublist ((List.take_sublist limit _).map _)

/-- With room for all of them, every listed entry. -/
theorem sitemapSoftware_of_listed {limit : Nat} (hRoom : database.software.countP isListed ≤ limit) {software : Software}
    (h : software ∈ database.software) (hListed : isListed software = true) : software ∈ sitemapSoftware database limit := by
  have hAll : sitemapSoftware database limit =
      (database.software.filter isListed).insertionSort fun first second => slugKey first ≤ slugKey second := by
    apply List.take_of_length_le
    rwa [List.length_insertionSort, ← List.countP_eq_length_filter]
  rw [hAll, List.mem_insertionSort]
  exact List.mem_filter.mpr ⟨h, hListed⟩

theorem nodup_softwarePages (software : Software) : ((softwarePages software).map (·.path)).Nodup := by
  have hLonger : py "/software/" ++ software.slug ≠ py "/software/" ++ software.slug ++ py "/releases" := by
    intro hSame
    have hNil := List.self_eq_append_right.mp hSame
    revert hNil
    decide
  simpa [softwarePages] using hLonger

/-- The pages of one entry are not the pages of another: a slug has no slash in it. -/
theorem disjoint_softwarePages {first second : Software} (hFirst : isSlug first.slug = true) (hSecond : isSlug second.slug = true)
    (hNe : first.slug ≠ second.slug) :
    List.Disjoint ((softwarePages first).map (·.path)) ((softwarePages second).map (·.path)) := by
  have hSlash : (0x2F : Nat) ∈ py "/releases" := by decide
  intro path hInFirst hInSecond
  simp only [softwarePages, List.map_cons, List.map_nil, List.mem_cons, List.not_mem_nil, or_false] at hInFirst hInSecond
  rcases hInFirst with rfl | rfl
  · rcases hInSecond with hSame | hSame
    · exact hNe (List.append_cancel_left hSame)
    · rw [List.append_assoc] at hSame
      apply slash_not_mem hFirst
      rw [List.append_cancel_left hSame]
      exact List.mem_append_right _ hSlash
  · rcases hInSecond with hSame | hSame
    · rw [List.append_assoc] at hSame
      apply slash_not_mem hSecond
      rw [← List.append_cancel_left hSame]
      exact List.mem_append_right _ hSlash
    · exact hNe (List.append_cancel_left (List.append_cancel_right hSame))

theorem nodup_softwarePaths (hSlugs : ∀ software ∈ database.software, isSlug software.slug = true) (limit : Nat) :
    (((sitemapSoftware database limit).flatMap softwarePages).map (·.path)).Nodup := by
  rw [List.map_flatMap, List.nodup_flatMap]
  refine ⟨fun software _ => nodup_softwarePages software, ?_⟩
  have hDistinct := List.pairwise_map.mp (@sitemapSoftware_slugs database limit)
  apply hDistinct.imp_of_mem
  intro first second hFirst hSecond hNe
  exact disjoint_softwarePages (hSlugs first (sitemapSoftware_mem hFirst).1) (hSlugs second (sitemapSoftware_mem hSecond).1) hNe

end Software

section Pages

variable (hFold : unicode.FoldsAscii)

include hFold

/-- A visible category is found under its slug. -/
theorem getCategory_of_mem {category : Category} (h : category ∈ database.categories) (hSlug : isSlug category.slug = true)
    (hVisible : category.isVisible = true) : getCategory unicode database category.slug =
      some (countedCategory category (database.software.countP (inCategory category))) := by
  have hOwn := normalizeSlug_of_isSlug hFold hSlug
  have hSome : (database.categories.find? fun other =>
      other.slug = normalizeSlug unicode category.slug ∧ other.isVisible).isSome = true :=
    List.find?_isSome.mpr ⟨category, h, decide_eq_true ⟨hOwn.symm, hVisible⟩⟩
  obtain ⟨found, hFound⟩ := Option.isSome_iff_exists.mp hSome
  have hBoth := List.find?_some hFound
  obtain rfl : found = category :=
    category_eq_of_slug (List.mem_of_find?_eq_some hFound) h ((of_decide_eq_true hBoth).1.trans hOwn)
  rw [getCategory, hFound]
  rfl

/-- An entry is found under its slug. -/
theorem getBySlug_of_mem {software : Software} (h : software ∈ database.software) (hSlug : isSlug software.slug = true) :
    getBySlug unicode database software.slug = some software := by
  rw [getBySlug, normalizeSlug_of_isSlug hFold hSlug]
  exact (find?_eq_some_iff_of_nodup database.software_slugs).mpr ⟨h, rfl⟩

omit hFold in
/-- A listed entry may be seen by anybody. -/
theorem canView_of_listed {software : Software} (h : isListed software = true) :
    canViewSoftware software.toSoftware false = true := by
  obtain ⟨hStatus, hVisibility⟩ := isListed_iff.mp h
  simp [canViewSoftware, hStatus, hVisibility]

/-- A page is behind each path, group by group. -/
theorem sitemap_pages (hCategories : ∀ category ∈ database.categories, isSlug category.slug = true)
    (hSoftware : ∀ software ∈ database.software, isSlug software.slug = true) (limit : Nat) :
    ∀ entry ∈ listSitemapEntries database limit, LeadsToPage unicode database entry := by
  intro entry hEntry
  rw [listSitemapEntries_eq, List.mem_append, List.mem_append] at hEntry
  rcases hEntry with (hFixed | hFacets) | hPages
  · rcases List.mem_cons.mp hFixed with rfl | hRest
    · exact .home
    · rw [List.mem_singleton.mp hRest]
      exact .catalog
  · obtain ⟨facet, hFacet, rfl⟩ := List.mem_map.mp hFacets
    obtain ⟨all, hLimit, -, hMem⟩ := listCategories_exactly hFold hCategories
    rw [hLimit] at hFacet
    obtain ⟨category, hCategory, hVisible, count, hPositive, hTotal, rfl⟩ := (hMem facet).mp (List.mem_of_mem_take hFacet)
    have hSlug := hCategories category hCategory
    have hFound := getCategory_of_mem hFold hCategory hSlug hVisible
    rw [(hasTotal_category hFold hCategory hSlug hVisible).mp hTotal] at hFound
    exact .category hFound hPositive
  · obtain ⟨software, hListed, hEntry⟩ := List.mem_flatMap.mp hPages
    obtain ⟨hMem, hShown⟩ := sitemapSoftware_mem hListed
    have hFound := getBySlug_of_mem hFold hMem (hSoftware software hMem)
    have hView := canView_of_listed hShown
    rcases List.mem_cons.mp hEntry with rfl | hRest
    · exact .software hFound hView
    · rw [List.mem_singleton.mp hRest]
      exact .releases hFound hView

/-- Each group of paths has a prefix of its own. -/
theorem nodup_sitemap (hCategories : ∀ category ∈ database.categories, isSlug category.slug = true)
    (hSoftware : ∀ software ∈ database.software, isSlug software.slug = true) (limit : Nat) :
    ((listSitemapEntries database limit).map (·.path)).Nodup := by
  have hFixed : ∀ path ∈ [py "/", py "/software"], ¬ py "/category/" <+: path ∧ ¬ py "/software/" <+: path := by decide
  have hApart : ¬ py "/category/" <+: py "/software/" ∧ ¬ py "/software/" <+: py "/category/" := by decide
  have hFacets : ((listCategories database 1000).map fun category => py "/category/" ++ category.slug).Nodup := by
    obtain ⟨all, hLimit, hDistinct, -⟩ := listCategories_exactly hFold hCategories
    have hSlugs : ((listCategories database 1000).map (·.slug)).Nodup := by
      rw [hLimit]
      exact hDistinct.sublist ((List.take_sublist _ _).map _)
    have hPaths := hSlugs.map (List.append_right_injective (py "/category/"))
    rwa [List.map_map] at hPaths
  have hFacetPaths : ∀ path ∈ (listCategories database 1000).map (fun category => py "/category/" ++ category.slug),
      py "/category/" <+: path := by
    intro path hPath
    obtain ⟨category, -, rfl⟩ := List.mem_map.mp hPath
    exact List.prefix_append _ _
  have hSoftwarePaths : ∀ path ∈ ((sitemapSoftware database limit).flatMap softwarePages).map (·.path),
      py "/software/" <+: path := by
    intro path hPath
    obtain ⟨entry, hEntry, rfl⟩ := List.mem_map.mp hPath
    obtain ⟨software, -, hPage⟩ := List.mem_flatMap.mp hEntry
    rcases List.mem_cons.mp hPage with rfl | hRest
    · exact List.prefix_append _ _
    · rw [List.mem_singleton.mp hRest, List.append_assoc]
      exact List.prefix_append _ _
  rw [listSitemapEntries_eq, List.map_append, List.map_append, List.map_map, List.nodup_append, List.nodup_append]
  refine ⟨⟨by decide, hFacets, ?_⟩, nodup_softwarePaths hSoftware limit, ?_⟩
  · rintro path hHere other hThere rfl
    exact (hFixed path hHere).1 (hFacetPaths path hThere)
  · rintro path hHere other hThere rfl
    rcases List.mem_append.mp hHere with hHead | hFacet
    · exact (hFixed path hHead).2 (hSoftwarePaths path hThere)
    · rcases List.prefix_or_prefix_of_prefix (hFacetPaths path hFacet) (hSoftwarePaths path hThere) with h | h
      · exact hApart.1 h
      · exact hApart.2 h

/-- Stored slugs are all that a sound sitemap needs. -/
theorem soundSitemap (hCategories : ∀ category ∈ database.categories, isSlug category.slug = true)
    (hSoftware : ∀ software ∈ database.software, isSlug software.slug = true) (limit : Nat) :
    SoundSitemap unicode database limit where
  paths := nodup_sitemap hFold hCategories hSoftware limit
  pages := sitemap_pages hFold hCategories hSoftware limit
  listed := by
    intro hRoom software hMem hListed
    refine ⟨{ path := py "/software/" ++ software.slug, lastModified := some software.updatedAt }, ?_, rfl⟩
    rw [listSitemapEntries_eq, List.mem_append]
    exact Or.inr (List.mem_flatMap.mpr ⟨software, sitemapSoftware_of_listed hRoom hMem hListed, List.mem_cons_self⟩)

end Pages
end SoftwareHub.Public
