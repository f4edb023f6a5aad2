import SoftwareHub.Public.Service

/-! The popularity that the database sorts by is the number of downloads that the
cards show. The projection of a catalog never fails on the way. -/
namespace SoftwareHub.Public

open SoftwareHub.Python SoftwareHub.Catalog SoftwareHub.Semantics

variable {unicode : Unicode} {upper : PyStr → PyStr} {database : Database}

/-- Every stored file has a view: its name can be quoted. -/
theorem exists_fileView {file : ReleaseFile} (h : file ∈ database.files) : ∃ view, fileView file = .ok view := by
  obtain ⟨encodedName, hQuote⟩ : ∃ encodedName, quote [] file.displayFilename = .ok encodedName :=
    exists_quote (database.file_text file h)
  rw [fileView, except_bind_ok hQuote]
  exact ⟨_, rfl⟩

/-- The files that a release shows, in their order. -/
def shownFiles (unicode : Unicode) (database : Database) (isAdmin : Bool) (release : Release) : List ReleaseFile :=
  ((database.filesOf release).insertionSort fun first second =>
    fileSortKey unicode first ≤ fileSortKey unicode second).filter (isListableFile isAdmin)

theorem shownFiles_perm (isAdmin : Bool) (release : Release) :
    (shownFiles unicode database isAdmin release).Perm ((database.filesOf release).filter (isListableFile isAdmin)) :=
  (List.perm_insertionSort _ _).filter _

/-- The releases that software shows, in their order. -/
def shownReleases (database : Database) (software : Software) : List Release :=
  ((database.releasesOf software).filter isEligibleRelease).insertionSort fun first second =>
    releaseSortKey second ≤ releaseSortKey first

theorem shownReleases_perm (software : Software) :
    (shownReleases database software).Perm ((database.releasesOf software).filter isEligibleRelease) :=
  List.perm_insertionSort _ _

theorem exists_releaseView (isAdmin : Bool) (release : Release) :
    ∃ view, releaseView unicode database isAdmin release = .ok view := by
  obtain ⟨files, hFiles⟩ : ∃ files, (shownFiles unicode database isAdmin release).mapM fileView = .ok files := by
    apply exists_except_mapM
    intro file hFile
    exact exists_fileView (List.mem_of_mem_filter (List.mem_of_mem_filter ((shownFiles_perm isAdmin release).mem_iff.mp hFile)))
  exact ⟨_, except_bind_ok hFiles _⟩

theorem exists_releaseViews (isAdmin : Bool) (software : Software) :
    ∃ views, releaseViews unicode database isAdmin software = .ok views :=
  exists_except_mapM fun release _ => exists_releaseView isAdmin release

theorem exists_softwareCard (software : Software) : ∃ card, softwareCard unicode upper database software = .ok card := by
  obtain ⟨views, hViews⟩ := @exists_releaseViews unicode database false software
  exact ⟨_, except_bind_ok hViews _⟩

/-- The downloads of the files that a release shows to the public. -/
def publicDownloads (database : Database) (release : Release) : Nat :=
  (((database.filesOf release).filter (isListableFile false)).map (·.downloadCount)).sum

theorem downloads_of_fileView {file : ReleaseFile} {view : PublicFileView} (h : fileView file = .ok view) :
    view.downloadCount = file.downloadCount := by
  obtain ⟨_, -, h⟩ := except_bind_eq_ok h
  cases h
  rfl

/-- The files of a release's view add up to its public downloads. -/
theorem downloads_of_releaseView {release : Release} {view : PublicReleaseView}
    (h : releaseView unicode database false release = .ok view) :
    (view.files.map (·.downloadCount)).sum = publicDownloads database release := by
  obtain ⟨files, hFiles, h⟩ := except_bind_eq_ok h
  cases h
  have hCounts : files.map (·.downloadCount) = (shownFiles unicode database false release).map (·.downloadCount) :=
    map_of_except_mapM hFiles fun file _ view hView => downloads_of_fileView hView
  rw [hCounts]
  exact ((shownFiles_perm false release).map _).sum_eq

/-- So do those of all its releases for a software entry. -/
theorem totalDownloads_releaseViews {software : Software} {views : List PublicReleaseView}
    (h : releaseViews unicode database false software = .ok views) : totalDownloads views =
      (((database.releasesOf software).filter isEligibleRelease).map (publicDownloads database)).sum := by
  have hCounts : (views.map fun view => (view.files.map (·.downloadCount)).sum) =
      (shownReleases database software).map (publicDownloads database) :=
    map_of_except_mapM h fun release _ view hView => downloads_of_releaseView hView
  rw [totalDownloads, sum_flatMap, hCounts]
  exact ((shownReleases_perm software).map _).sum_eq

/-- The sum of the query, release by release. -/
theorem popularity_eq (software : Software) : popularity database true software =
    (((database.releasesOf software).filter isEligibleRelease).map (publicDownloads database)).sum := by
  rw [popularity, sum_join, Database.releasesOf, List.filter_filter, sum_map_filter]
  congr 1
  apply List.map_congr_left
  intro release _
  by_cases hRelease : release.softwareId = software.id ∧ (release.status = .published ∨ release.status = .archived)
  · have hEligible : (isEligibleRelease release && decide (release.softwareId = software.id)) = true := by
      simp [isEligibleRelease, hRelease]
    rw [if_pos hEligible, publicDownloads, Database.filesOf, List.filter_filter]
    congr 2
    apply List.filter_congr
    intro file _
    have hListable : isListableFile false file = decide (file.status = .published ∧ file.visibility = .isPublic) := by
      by_cases hStatus : file.status = .published <;> simp [isListableFile, hStatus]
    simp only [hListable, hRelease, true_and, forall_const, ← Bool.decide_and, @eq_comm Nat release.id]
    congr 1
    exact propext and_comm
  · have hHidden : ¬(isEligibleRelease release && decide (release.softwareId = software.id)) = true := by
      simp only [isEligibleRelease, Bool.and_eq_true, decide_eq_true_eq]
      exact fun hBoth => hRelease ⟨hBoth.2, hBoth.1⟩
    have hNone : database.files.filter (fun file => decide (release.id = file.releaseId ∧ release.softwareId = software.id ∧
        (true = true → (release.status = .published ∨ release.status = .archived) ∧
          file.status = .published ∧ file.visibility = .isPublic))) = [] := by
      rw [List.filter_eq_nil_iff]
      intro file _ hOn
      obtain ⟨-, hSoftware, hPublic⟩ := of_decide_eq_true hOn
      exact hRelease ⟨hSoftware, (hPublic rfl).1⟩
    rw [if_neg hHidden, hNone]
    rfl

/-- The number on a card is the number that the query sorts by. -/
theorem totalDownloads_card {software : Software} {card : SoftwareCardView}
    (h : softwareCard unicode upper database software = .ok card) :
    card.totalDownloads = popularity database true software := by
  obtain ⟨views, hViews, h⟩ := except_bind_eq_ok h
  cases h
  rw [popularity_eq]
  exact totalDownloads_releaseViews hViews

/-- A page in popularity order lists its rows by descending popularity. -/
theorem popularity_of_listPage {filters : SoftwareFilters} (hSort : filters.sort = .popularity)
    (hPublic : filters.publicFacetsOnly = true) {engine : Engine database filters} {pagination : Pagination}
    {page : Page Software} (h : listPage unicode database filters engine pagination = .ok page) :
    page.items.Pairwise fun first second => popularity database true second ≤ popularity database true first := by
  obtain ⟨normalizedQuery, -, h⟩ := except_bind_eq_ok h
  cases h
  apply List.Pairwise.sublist (List.dedup_sublist _)
  apply List.Pairwise.sublist (slice_sublist pagination.perPage (pagination.page - 1) _)
  apply (engine.ordered _).imp
  intro first second hOrdered
  simp only [Ordered, hSort, hPublic, popularityKey, Prod.Lex.toLex_le_toLex] at hOrdered
  rcases hOrdered with hLess | ⟨hSame, -⟩
  · exact Nat.le_of_lt (OrderDual.toDual_lt_toDual.mp hLess)
  · exact Nat.le_of_eq (congrArg OrderDual.ofDual hSame).symm

/-- Cards in the order of their rows show descending numbers. -/
theorem downloads_of_cards {items : List Software} {cards : List SoftwareCardView}
    (hItems : items.Pairwise fun first second => popularity database true second ≤ popularity database true first)
    (hCards : items.mapM (softwareCard unicode upper database) = .ok cards) :
    (cards.map (·.totalDownloads)).Pairwise (· ≥ ·) := by
  have hCounts : cards.map (·.totalDownloads) = items.map (popularity database true) :=
    map_of_except_mapM hCards fun software _ card hCard => totalDownloads_card hCard
  rw [hCounts, List.pairwise_map]
  exact hItems

theorem exists_cards (items : List Software) : ∃ cards, items.mapM (softwareCard unicode upper database) = .ok cards :=
  exists_except_mapM fun software _ => exists_softwareCard software

theorem exists_home (engines : Engines) : ∃ view, home unicode upper engines database = .ok view := by
  have hPage (filters : SoftwareFilters) (hQuery : filters.query = none) (pagination : Pagination) :
      ∃ page, listPage unicode database filters (engines database filters) pagination = .ok page :=
    ⟨_, listPage_eq_ok unicode (by rw [hQuery]; rfl) _ _⟩
  obtain ⟨featuredPage, hFeatured⟩ := hPage featuredFilters rfl (Pagination.first 6 (by decide))
  obtain ⟨latestPage, hLatest⟩ := hPage listedFilters rfl (Pagination.first 8 (by decide))
  obtain ⟨popularPage, hPopular⟩ := hPage popularFilters rfl (Pagination.first 8 (by decide))
  obtain ⟨featured, hFeaturedCards⟩ := @exists_cards unicode upper database featuredPage.items
  obtain ⟨latest, hLatestCards⟩ := @exists_cards unicode upper database latestPage.items
  obtain ⟨popular, hPopularCards⟩ := @exists_cards unicode upper database popularPage.items
  rw [home, except_bind_ok hFeatured, except_bind_ok hLatest, except_bind_ok hPopular, except_bind_ok hFeaturedCards,
    except_bind_ok hLatestCards, except_bind_ok hPopularCards]
  exact ⟨_, rfl⟩

/-- The popular entries of the home page come by descending numbers. -/
theorem popular_of_home {engines : Engines} {view : PublicHomeView} (h : home unicode upper engines database = .ok view) :
    (view.popular.map (·.totalDownloads)).Pairwise (· ≥ ·) := by
  obtain ⟨_, -, h⟩ := except_bind_eq_ok h
  obtain ⟨_, -, h⟩ := except_bind_eq_ok h
  obtain ⟨popularPage, hPopular, h⟩ := except_bind_eq_ok h
  obtain ⟨_, -, h⟩ := except_bind_eq_ok h
  obtain ⟨_, -, h⟩ := except_bind_eq_ok h
  obtain ⟨popular, hCards, h⟩ := except_bind_eq_ok h
  cases h
  exact downloads_of_cards (popularity_of_listPage rfl rfl hPopular) hCards

theorem items_of_catalog {engines : Engines} {pagination : Pagination} {query categorySlug tagSlug : Option PyStr}
    {view : PublicCatalogView}
    (h : catalog unicode upper engines database pagination query categorySlug tagSlug .popularity = .ok view) :
    (view.page.items.map (·.totalDownloads)).Pairwise (· ≥ ·) := by
  obtain ⟨_, -, h⟩ := except_bind_eq_ok h
  obtain ⟨_, -, h⟩ := except_bind_eq_ok h
  obtain ⟨_, -, h⟩ := except_bind_eq_ok h
  obtain ⟨page, hPage, h⟩ := except_bind_eq_ok h
  obtain ⟨items, hCards, h⟩ := except_bind_eq_ok h
  cases h
  exact downloads_of_cards (popularity_of_listPage rfl rfl hPage) hCards

/-- The cards of a popularity listing show a number of downloads that never grows along the list: it is
the number the listing is ordered by, however the engine orders rows of one popularity. -/
theorem popularity_order_shown (unicode : Unicode) (upper : PyStr → PyStr) (engines : Engines) (database : Database) :
    (∀ software, ∃ card, softwareCard unicode upper database software = .ok card ∧
      card.totalDownloads = popularity database true software) ∧
    (∃ view, home unicode upper engines database = .ok view ∧
      (view.popular.map (·.totalDownloads)).Pairwise (· ≥ ·)) ∧
    ∀ pagination query categorySlug tagSlug view,
      catalog unicode upper engines database pagination query categorySlug tagSlug .popularity = .ok view →
        (view.page.items.map (·.totalDownloads)).Pairwise (· ≥ ·) := by
  refine ⟨fun software => ?_, ?_, fun _ _ _ _ view hView => items_of_catalog hView⟩
  · obtain ⟨card, hCard⟩ := @exists_softwareCard unicode upper database software
    exact ⟨card, hCard, totalDownloads_card hCard⟩
  · obtain ⟨view, hView⟩ := @exists_home unicode upper database engines
    exact ⟨view, hView, popular_of_home hView⟩

end SoftwareHub.Public
