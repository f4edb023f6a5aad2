import SoftwareHub.Public.Popularity

/-! The public projection of a catalog. Each query of the public pages reads the
same off the catalog and off its projection. -/
namespace SoftwareHub.Public

open SoftwareHub.Python SoftwareHub.Catalog SoftwareHub.Semantics

/-- `can_view_software(software, is_admin=False)`. -/
def isViewable (software : Software) : Bool := canViewSoftware software.toSoftware false

namespace Database

variable (database : Database)

/-- The id is that of viewable software. -/
def hasViewable (id : Nat) : Bool := database.software.any fun software => software.id = id ∧ isViewable software

/-- The tag belongs to viewable software. -/
def hasTagged (tag : Tag) : Bool :=
  database.softwareTags.any fun row => row.tagId = tag.id ∧ database.hasViewable row.softwareId

/-- A published or archived release of viewable software. -/
def isPublicRelease (release : Release) : Bool := isEligibleRelease release ∧ database.hasViewable release.softwareId

/-- A published and public file of such a release. -/
def isPublicFile (file : ReleaseFile) : Bool :=
  isListableFile false file ∧ database.releases.any fun release => release.id = file.releaseId ∧ database.isPublicRelease release

/-- A hidden category counts as no category. -/
def hideCategory (software : Software) : Software :=
  { software with categoryId := ((database.category software).filter (·.isVisible)).map (·.id) }

@[simp] theorem hideCategory_id (software : Software) : (database.hideCategory software).id = software.id := rfl

@[simp] theorem hideCategory_slug (software : Software) : (database.hideCategory software).slug = software.slug := rfl

@[simp] theorem isViewable_hideCategory (software : Software) :
    isViewable (database.hideCategory software) = isViewable software := rfl

@[simp] theorem isListed_hideCategory (software : Software) :
    isListed (database.hideCategory software) = isListed software := rfl

/-- What anonymous visitors may learn of the catalog: viewable software with its tags, visible categories,
and the published or archived releases of that software with their published and public files. -/
def publicProjection : Database where
  software := (database.software.filter isViewable).map database.hideCategory
  categories := database.categories.filter (·.isVisible)
  tags := database.tags.filter database.hasTagged
  softwareTags := database.softwareTags.filter fun row => database.hasViewable row.softwareId
  releases := database.releases.filter database.isPublicRelease
  files := database.files.filter database.isPublicFile
  software_keys := by
    rw [List.map_map]
    exact database.software_keys.sublist (List.filter_sublist.map _)
  category_keys := database.category_keys.sublist (List.filter_sublist.map _)
  tag_keys := database.tag_keys.sublist (List.filter_sublist.map _)
  softwareTag_keys := database.softwareTag_keys.sublist (List.filter_sublist.map _)
  release_keys := database.release_keys.sublist (List.filter_sublist.map _)
  file_keys := database.file_keys.sublist (List.filter_sublist.map _)
  software_slugs := by
    rw [List.map_map]
    exact database.software_slugs.sublist (List.filter_sublist.map _)
  category_slugs := database.category_slugs.sublist (List.filter_sublist.map _)
  tag_slugs := database.tag_slugs.sublist (List.filter_sublist.map _)
  file_text file hFile := database.file_text file (List.mem_of_mem_filter hFile)

end Database

section Graph

variable {database : Database} {software : Software}

/-- Viewable software is found by its id. -/
theorem hasViewable_of_mem (h : software ∈ database.software) (hViewable : isViewable software = true) :
    database.hasViewable software.id = true :=
  List.any_eq_true.mpr ⟨software, h, decide_eq_true ⟨rfl, hViewable⟩⟩

/-- The category row an id leads to. -/
theorem category_eq_some_iff {category : Category} : database.category software = some category ↔
    category ∈ database.categories ∧ software.categoryId = some category.id := by
  rw [Database.category]
  cases software.categoryId with
  | none => simp
  | some id =>
      rw [Option.bind_some, find?_eq_some_iff_of_nodup (database.category_keys.imp Nat.ne_of_lt)]
      simp [eq_comm]

/-- The projected entry has its category if that is visible. -/
theorem category_projection : database.publicProjection.category (database.hideCategory software) =
    (database.category software).filter (·.isVisible) := by
  apply Option.ext
  intro category
  rw [category_eq_some_iff]
  simp only [Database.publicProjection, Database.hideCategory, List.mem_filter, Option.map_eq_some_iff,
    Option.filter_eq_some_iff]
  constructor
  · rintro ⟨⟨hCategory, hVisible⟩, found, ⟨hFound, -⟩, hId⟩
    obtain ⟨hMem, hKey⟩ := category_eq_some_iff.mp hFound
    have hSame : database.category software = some category := category_eq_some_iff.mpr ⟨hCategory, by rw [hKey, hId]⟩
    exact ⟨hSame, hVisible⟩
  · rintro ⟨hCategory, hVisible⟩
    exact ⟨⟨(category_eq_some_iff.mp hCategory).1, hVisible⟩, category, ⟨hCategory, hVisible⟩, rfl⟩

/-- Viewable software has its tags in the projection. -/
theorem tagsOf_projection (h : software ∈ database.software) (hViewable : isViewable software = true) :
    database.publicProjection.tagsOf (database.hideCategory software) = database.tagsOf software := by
  have hHas := hasViewable_of_mem h hViewable
  simp only [Database.tagsOf, Database.publicProjection, List.filter_filter, List.any_filter]
  apply List.filter_congr
  intro tag _
  rw [Bool.eq_iff_iff]
  simp only [Bool.and_eq_true, List.any_eq_true, decide_eq_true_eq, Database.hasTagged]
  constructor
  · rintro ⟨⟨row, hRow, -, hBoth⟩, -⟩
    exact ⟨row, hRow, hBoth⟩
  · rintro ⟨row, hRow, hSoftware, hTag⟩
    exact ⟨⟨row, hRow, by rw [hSoftware]; exact hHas, hSoftware, hTag⟩, row, hRow, hTag, by rw [hSoftware]; exact hHas⟩

/-- Viewable software has its published and archived releases in the projection. -/
theorem releasesOf_projection (h : software ∈ database.software) (hViewable : isViewable software = true) :
    database.publicProjection.releasesOf (database.hideCategory software) =
      (database.releasesOf software).filter isEligibleRelease := by
  have hHas := hasViewable_of_mem h hViewable
  simp only [Database.releasesOf, Database.publicProjection, List.filter_filter]
  apply List.filter_congr
  intro release _
  rw [Bool.eq_iff_iff]
  simp only [Bool.and_eq_true, decide_eq_true_eq, Database.isPublicRelease]
  constructor
  · rintro ⟨hSoftware, hEligible, -⟩
    exact ⟨hEligible, hSoftware⟩
  · rintro ⟨hEligible, hSoftware⟩
    exact ⟨hSoftware, hEligible, by rw [hSoftware]; exact hHas⟩

/-- Such a release has its listable files in the projection. -/
theorem filesOf_projection {release : Release} (h : release ∈ database.releases)
    (hPublic : database.isPublicRelease release = true) :
    database.publicProjection.filesOf release = (database.filesOf release).filter (isListableFile false) := by
  simp only [Database.filesOf, Database.publicProjection, List.filter_filter]
  apply List.filter_congr
  intro file _
  rw [Bool.eq_iff_iff]
  simp only [Bool.and_eq_true, decide_eq_true_eq, Database.isPublicFile, List.any_eq_true]
  constructor
  · rintro ⟨hRelease, hListable, -⟩
    exact ⟨hListable, hRelease⟩
  · rintro ⟨hListable, hRelease⟩
    exact ⟨hRelease, hListable, release, h, hRelease.symm, hPublic⟩

end Graph

section Views

variable (unicode : Unicode) (upper : PyStr → PyStr) {database : Database} {software : Software}

theorem shownFiles_projection {release : Release} (h : release ∈ database.releases)
    (hPublic : database.isPublicRelease release = true) :
    shownFiles unicode database.publicProjection false release = shownFiles unicode database false release := by
  have hPerm : (shownFiles unicode database.publicProjection false release).Perm (shownFiles unicode database false release) := by
    apply (shownFiles_perm false release).trans
    rw [filesOf_projection h hPublic, List.filter_filter]
    simp only [Bool.and_self]
    exact (shownFiles_perm false release).symm
  have hSorted (database : Database) : (shownFiles unicode database false release).Pairwise fun first second =>
      fileSortKey unicode first ≤ fileSortKey unicode second := (List.pairwise_insertionSort _ _).filter _
  apply hPerm.eq_of_pairwise _ (hSorted _) (hSorted _)
  intro file other hFile hOther hLe hGe
  have hKey : fileSortKey unicode file = fileSortKey unicode other := le_antisymm hLe hGe
  have hId : file.id = other.id := congrArg (fun key : Lex (Nat × Lex (Nat × Lex (PyStr × Nat))) =>
    (ofLex (ofLex (ofLex key).2).2).2) hKey
  have hMem {file : ReleaseFile} (hShown : file ∈ shownFiles unicode database false release) : file ∈ database.files :=
    List.mem_of_mem_filter (List.mem_of_mem_filter ((shownFiles_perm false release).mem_iff.mp hShown))
  exact List.inj_on_of_nodup_map (database.file_keys.imp Nat.ne_of_lt) (hMem (hPerm.mem_iff.mp hFile)) (hMem hOther) hId

theorem releaseView_projection {release : Release} (h : release ∈ database.releases)
    (hPublic : database.isPublicRelease release = true) :
    releaseView unicode database.publicProjection false release = releaseView unicode database false release := by
  have hFiles := shownFiles_projection unicode h hPublic
  simp only [shownFiles] at hFiles
  rw [releaseView, releaseView, hFiles]

theorem releaseViews_projection (h : software ∈ database.software) (hViewable : isViewable software = true) :
    releaseViews unicode database.publicProjection false (database.hideCategory software) =
      releaseViews unicode database false software := by
  rw [releaseViews, releaseViews, releasesOf_projection h hViewable, List.filter_filter]
  simp only [Bool.and_self]
  apply except_mapM_congr
  intro release hRelease
  obtain ⟨hMem, hEligible⟩ := List.mem_filter.mp ((List.mem_insertionSort _).mp hRelease)
  obtain ⟨hRow, hSoftware⟩ := List.mem_filter.mp hMem
  apply releaseView_projection unicode hRow
  rw [Database.isPublicRelease, of_decide_eq_true hSoftware]
  exact decide_eq_true ⟨hEligible, hasViewable_of_mem h hViewable⟩

theorem categoryFacet_projection : categoryFacet database.publicProjection false (database.hideCategory software) =
    categoryFacet database false software := by
  rw [categoryFacet, categoryFacet, category_projection]
  cases database.category software with
  | none => rfl
  | some category => cases hVisible : category.isVisible <;> simp [Option.filter, hVisible]

/-- The card of viewable software is the same. -/
theorem softwareCard_projection (h : software ∈ database.software) (hViewable : isViewable software = true) :
    softwareCard unicode upper database.publicProjection (database.hideCategory software) =
      softwareCard unicode upper database software := by
  rw [softwareCard, softwareCard, releaseViews_projection unicode h hViewable, categoryFacet_projection,
    tagFacets, tagFacets, tagsOf_projection h hViewable]
  rfl

theorem softwareDetail_projection (h : software ∈ database.software) (hViewable : isViewable software = true) :
    softwareDetail unicode upper database.publicProjection false (database.hideCategory software) =
      softwareDetail unicode upper database false software := by
  rw [softwareDetail, softwareDetail, releaseViews_projection unicode h hViewable, categoryFacet_projection,
    tagFacets, tagFacets, tagsOf_projection h hViewable]
  rfl

/-- Hidden files and releases do not count as downloads. -/
theorem popularity_projection (h : software ∈ database.software) (hViewable : isViewable software = true) :
    popularity database.publicProjection true (database.hideCategory software) = popularity database true software := by
  rw [popularity_eq, popularity_eq, releasesOf_projection h hViewable, List.filter_filter]
  simp only [Bool.and_self]
  congr 1
  apply List.map_congr_left
  intro release hRelease
  obtain ⟨hMem, hEligible⟩ := List.mem_filter.mp hRelease
  obtain ⟨hRow, hSoftware⟩ := List.mem_filter.mp hMem
  have hPublic : database.isPublicRelease release = true := by
    rw [Database.isPublicRelease, of_decide_eq_true hSoftware]
    exact decide_eq_true ⟨hEligible, hasViewable_of_mem h hViewable⟩
  rw [publicDownloads, filesOf_projection hRow hPublic, List.filter_filter]
  simp only [Bool.and_self]
  rfl

end Views
end SoftwareHub.Public
