import Mathlib.Data.Set.Finite.Lemmas
import SoftwareHub.Catalog.CurrentStable
import SoftwareHub.Public.Popularity

/-! The release that a page puts first, and the file it recommends, in whatever
order the releases are loaded. -/
namespace SoftwareHub.Public

open SoftwareHub.Python SoftwareHub.Catalog SoftwareHub.Semantics

/-- The markers of one software entry, as the release service keeps them. -/
structure CurrentMarkers (releases : List Release) : Prop where
  ids : (releases.map Release.id).Nodup
  one : ∀ first ∈ releases, ∀ second ∈ releases, first.isCurrent = true → second.isCurrent = true → first = second
  stable : ∀ release ∈ releases, release.isCurrent = true → release.releaseChannel = .stable ∧ release.status = .published

/-- The release that an administrator has marked as current. -/
def IsMarked (release : Release) : Prop := release.status = .published ∧ release.isCurrent = true

def IsPublishedStable (release : Release) : Prop := release.status = .published ∧ release.releaseChannel = .stable

/-- The key of the newest release: `date.min` counts for a missing date, and the id
tells releases of one day apart. -/
def newestKey (release : Release) : Lex (Date × Nat) := toLex (release.releaseDate.getD 0, release.id)

/-- The marked release if there is one, else the newest published stable one. -/
def Selected (releases : List Release) (release : Release) : Prop :=
  release ∈ releases ∧ (IsMarked release ∨ (∀ other ∈ releases, ¬IsMarked other) ∧ IsPublishedStable release ∧
    ∀ other ∈ releases, IsPublishedStable other → newestKey other ≤ newestKey release)

/-- A published file; administrators are shown those that are not public too. -/
def IsListed (isAdmin : Bool) (file : ReleaseFile) : Prop :=
  file.status = .published ∧ (isAdmin = false → file.visibility = .isPublic)

/-- The least listed file in the documented order of architectures, package types,
names and ids. -/
def Recommended (unicode : Unicode) (database : Database) (isAdmin : Bool) (release : Release) (file : ReleaseFile) : Prop :=
  file ∈ database.filesOf release ∧ IsListed isAdmin file ∧
    ∀ other ∈ database.filesOf release, IsListed isAdmin other → fileSortKey unicode file ≤ fileSortKey unicode other

/-- The invariant of the service holds of the releases of each entry, in whatever order they are loaded. -/
theorem currentMarkers_of_service {database : Catalog.Database} (h : CurrentReleases database) {softwareId : Nat}
    {releases : List Release} (hPerm : releases.Perm (database.releases.filter fun release => release.softwareId = softwareId)) :
    CurrentMarkers releases := by
  have hMem {release : Release} (hRelease : release ∈ releases) :
      release ∈ database.releases ∧ release.softwareId = softwareId := by
    have hFiltered := List.mem_filter.mp (hPerm.mem_iff.mp hRelease)
    exact ⟨hFiltered.1, of_decide_eq_true hFiltered.2⟩
  constructor
  · exact (hPerm.map _).nodup_iff.mpr (h.ids.sublist (List.filter_sublist.map _))
  · intro first hFirst second hSecond hCurrent hOther
    exact h.one.eq_of_key_eq (hMem hFirst).1 (hMem hSecond).1 hCurrent hOther ((hMem hFirst).2.trans (hMem hSecond).2.symm)
  · intro release hRelease
    exact h.stable release (hMem hRelease).1

theorem CurrentMarkers.eq_of_id {releases : List Release} (h : CurrentMarkers releases) {first second : Release}
    (hFirst : first ∈ releases) (hSecond : second ∈ releases) (hId : first.id = second.id) : first = second :=
  List.inj_on_of_nodup_map h.ids hFirst hSecond hId

/-- At most one release is to be selected. -/
theorem Selected.unique {releases : List Release} (h : CurrentMarkers releases) {first second : Release}
    (hFirst : Selected releases first) (hSecond : Selected releases second) : first = second := by
  obtain ⟨hMem, hFirst⟩ := hFirst
  obtain ⟨hOther, hSecond⟩ := hSecond
  rcases hFirst with hMarked | ⟨hNone, hStable, hNewest⟩
  · rcases hSecond with hAlso | ⟨hNone, -, -⟩
    · exact h.one first hMem second hOther hMarked.2 hAlso.2
    · exact absurd hMarked (hNone first hMem)
  · rcases hSecond with hMarked | ⟨-, hAlso, hGreatest⟩
    · exact absurd hMarked (hNone second hOther)
    · have hKey : newestKey first = newestKey second :=
        le_antisymm (hGreatest first hMem hStable) (hNewest second hOther hAlso)
      exact h.eq_of_id hMem hOther (congrArg (fun key : Lex (Date × Nat) => (ofLex key).2) hKey)

variable {unicode : Unicode} {database : Database} {isAdmin : Bool}

/-- `_release_views` of a release list in any order. -/
def viewsOf (unicode : Unicode) (database : Database) (isAdmin : Bool) (releases : List Release) :
    Except PyException (List PublicReleaseView) :=
  ((releases.filter isEligibleRelease).insertionSort fun first second =>
    releaseSortKey second ≤ releaseSortKey first).mapM (releaseView unicode database isAdmin)

/-- The order in which the releases are loaded is not seen: they are sorted by a key
that ends in the id. -/
theorem viewsOf_perm {releases other : List Release} (hIds : (releases.map Release.id).Nodup) (hPerm : other.Perm releases) :
    viewsOf unicode database isAdmin other = viewsOf unicode database isAdmin releases := by
  have : Std.Total fun first second : Release => releaseSortKey second ≤ releaseSortKey first :=
    ⟨fun first second => le_total (releaseSortKey second) (releaseSortKey first)⟩
  have : IsTrans Release fun first second => releaseSortKey second ≤ releaseSortKey first :=
    ⟨fun _ _ _ hFirst hSecond => le_trans hSecond hFirst⟩
  have hSorted : ((other.filter isEligibleRelease).insertionSort fun first second =>
      releaseSortKey second ≤ releaseSortKey first) = (releases.filter isEligibleRelease).insertionSort fun first second =>
        releaseSortKey second ≤ releaseSortKey first := by
    have hSame := ((List.perm_insertionSort (fun first second : Release => releaseSortKey second ≤ releaseSortKey first)
      (other.filter isEligibleRelease)).trans (hPerm.filter _)).trans (List.perm_insertionSort
        (fun first second => releaseSortKey second ≤ releaseSortKey first) (releases.filter isEligibleRelease)).symm
    apply hSame.eq_of_pairwise _ (List.pairwise_insertionSort _ _) (List.pairwise_insertionSort _ _)
    intro first second hFirst hSecond hLe hGe
    have hKey : releaseSortKey first = releaseSortKey second := le_antisymm hGe hLe
    apply List.inj_on_of_nodup_map hIds
    · exact hPerm.mem_iff.mp (List.mem_of_mem_filter ((List.mem_insertionSort _).mp hFirst))
    · exact List.mem_of_mem_filter ((List.mem_insertionSort _).mp hSecond)
    · exact congrArg (fun key : Lex (Bool × Lex (Date × Nat)) => (ofLex (ofLex key).2).2) hKey
  rw [viewsOf, viewsOf, hSorted]

theorem exists_viewsOf (releases : List Release) : ∃ views, viewsOf unicode database isAdmin releases = .ok views :=
  exists_except_mapM fun release _ => exists_releaseView isAdmin release

/-- The view tells what the selection asks for. -/
theorem releaseView_eq_ok {release : Release} {view : PublicReleaseView}
    (h : releaseView unicode database isAdmin release = .ok view) :
    (shownFiles unicode database isAdmin release).mapM fileView = .ok view.files ∧
      view.channel = release.releaseChannel ∧ view.isCurrent = decide (release.isCurrent = true ∧ release.status = .published) ∧
      view.isArchived = decide (release.status = .archived) := by
  obtain ⟨files, hFiles, h⟩ := except_bind_eq_ok h
  cases h
  exact ⟨hFiles, rfl, rfl, rfl⟩

/-- Looking for a view is looking for its release. -/
theorem find?_viewsOf {releases : List Release} (hIds : (releases.map Release.id).Nodup) {views : List PublicReleaseView}
    (hViews : viewsOf unicode database isAdmin releases = .ok views) {chosen : Release → Bool} {shown : PublicReleaseView → Bool}
    (hShown : ∀ release ∈ releases, isEligibleRelease release = true → ∀ view,
      releaseView unicode database isAdmin release = .ok view → shown view = chosen release) (view : PublicReleaseView) :
    views.find? shown = some view ↔ ∃ release, (release ∈ releases ∧ isEligibleRelease release = true ∧ chosen release = true ∧
      ∀ other ∈ releases, isEligibleRelease other = true → chosen other = true → releaseSortKey other ≤ releaseSortKey release) ∧
        releaseView unicode database isAdmin release = .ok view := by
  have hKey : ∀ first ∈ releases.filter isEligibleRelease, ∀ second ∈ releases.filter isEligibleRelease,
      OrderDual.toDual (releaseSortKey first) = OrderDual.toDual (releaseSortKey second) → first = second := by
    intro first hFirst second hSecond hSame
    apply List.inj_on_of_nodup_map hIds (List.mem_of_mem_filter hFirst) (List.mem_of_mem_filter hSecond)
    exact congrArg (fun key : (Lex (Bool × Lex (Date × Nat)))ᵒᵈ => (ofLex (ofLex (OrderDual.ofDual key)).2).2) hSame
  have hSorted (release : Release) : ((releases.filter isEligibleRelease).insertionSort fun first second =>
      releaseSortKey second ≤ releaseSortKey first).find? chosen = some release ↔
        release ∈ releases.filter isEligibleRelease ∧ chosen release = true ∧
          ∀ other ∈ releases.filter isEligibleRelease, chosen other = true → releaseSortKey other ≤ releaseSortKey release :=
    find?_insertionSort_eq_some_iff hKey
  rw [find?_of_except_mapM hViews (fun release hRelease => hShown release
    (List.mem_of_mem_filter ((List.mem_insertionSort _).mp hRelease))
    (List.mem_filter.mp ((List.mem_insertionSort _).mp hRelease)).2) view]
  simp only [hSorted, List.mem_filter, and_assoc, and_imp]

theorem isEligible_of_published {release : Release} (h : release.status = .published) : isEligibleRelease release = true :=
  decide_eq_true (Or.inl h)

/-- The first marked view is that of the marked release, wherever it stands. -/
theorem find?_marked {releases : List Release} (hMarkers : CurrentMarkers releases) {views : List PublicReleaseView}
    (hViews : viewsOf unicode database isAdmin releases = .ok views) (view : PublicReleaseView) :
    views.find? (·.isCurrent) = some view ↔
      ∃ release ∈ releases, IsMarked release ∧ releaseView unicode database isAdmin release = .ok view := by
  rw [@find?_viewsOf _ _ _ _ hMarkers.ids _ hViews
    (fun release => decide (release.isCurrent = true ∧ release.status = .published)) (·.isCurrent)
    (fun release _ _ view hView => (releaseView_eq_ok hView).2.2.1) view]
  constructor
  · intro h
    obtain ⟨release, ⟨hMem, -, hChosen, -⟩, hView⟩ := h
    obtain ⟨hCurrent, hStatus⟩ := of_decide_eq_true hChosen
    exact ⟨release, hMem, ⟨hStatus, hCurrent⟩, hView⟩
  · intro h
    obtain ⟨release, hMem, ⟨hStatus, hCurrent⟩, hView⟩ := h
    refine ⟨release, ⟨hMem, isEligible_of_published hStatus, decide_eq_true ⟨hCurrent, hStatus⟩, ?_⟩, hView⟩
    intro other hOther _ hChosen
    rw [hMarkers.one other hOther release hMem (of_decide_eq_true hChosen).1 hCurrent]

/-- Among releases without a marker the sort key is the newest one. -/
theorem releaseSortKey_le_iff {first second : Release} (hFirst : first.isCurrent = false) (hSecond : second.isCurrent = false) :
    releaseSortKey first ≤ releaseSortKey second ↔ newestKey first ≤ newestKey second := by
  rw [releaseSortKey, releaseSortKey, hFirst, hSecond, Prod.Lex.toLex_le_toLex]
  simp only [lt_self_iff_false, true_and, false_or]
  rfl

theorem isPublishedStable_iff {release : Release} (h : isEligibleRelease release = true) :
    IsPublishedStable release ↔ release.releaseChannel = .stable ∧ decide (release.status = .archived) = false := by
  have hStatus : release.status = .published ∨ release.status = .archived := of_decide_eq_true h
  constructor
  · intro hBoth
    exact ⟨hBoth.2, decide_eq_false (by rw [hBoth.1]; nofun)⟩
  · intro hBoth
    exact ⟨hStatus.resolve_right (of_decide_eq_false hBoth.2), hBoth.1⟩

/-- Without a marker the first published stable view is that of the newest such
release. -/
theorem find?_newest {releases : List Release} (hIds : (releases.map Release.id).Nodup) {views : List PublicReleaseView}
    (hViews : viewsOf unicode database isAdmin releases = .ok views) (hNone : ∀ other ∈ releases, ¬IsMarked other)
    (view : PublicReleaseView) :
    views.find? (fun release => release.channel = .stable ∧ release.isArchived = false) = some view ↔
      ∃ release, (release ∈ releases ∧ IsPublishedStable release ∧
        ∀ other ∈ releases, IsPublishedStable other → newestKey other ≤ newestKey release) ∧
          releaseView unicode database isAdmin release = .ok view := by
  rw [@find?_viewsOf _ _ _ _ hIds _ hViews
    (fun release => decide (release.releaseChannel = .stable ∧ decide (release.status = .archived) = false))
    (fun release => decide (release.channel = .stable ∧ release.isArchived = false)) (fun release _ _ view hView => by
      obtain ⟨-, hChannel, -, hArchived⟩ := releaseView_eq_ok hView
      rw [hChannel, hArchived]) view]
  have hUnmarked {release : Release} (hMem : release ∈ releases) (hStable : IsPublishedStable release) :
      release.isCurrent = false := eq_false_of_ne_true fun hCurrent => hNone release hMem ⟨hStable.1, hCurrent⟩
  constructor
  · intro h
    obtain ⟨release, ⟨hMem, hEligible, hChosen, hNewest⟩, hView⟩ := h
    have hStable := (isPublishedStable_iff hEligible).mpr (of_decide_eq_true hChosen)
    refine ⟨release, ⟨hMem, hStable, ?_⟩, hView⟩
    intro other hOther hAlso
    have hOtherEligible := isEligible_of_published hAlso.1
    apply (releaseSortKey_le_iff (hUnmarked hOther hAlso) (hUnmarked hMem hStable)).mp
    exact hNewest other hOther hOtherEligible (decide_eq_true ((isPublishedStable_iff hOtherEligible).mp hAlso))
  · intro h
    obtain ⟨release, ⟨hMem, hStable, hNewest⟩, hView⟩ := h
    have hEligible := isEligible_of_published hStable.1
    refine ⟨release, ⟨hMem, hEligible, decide_eq_true ((isPublishedStable_iff hEligible).mp hStable), ?_⟩, hView⟩
    intro other hOther hOtherEligible hChosen
    have hAlso := (isPublishedStable_iff hOtherEligible).mpr (of_decide_eq_true hChosen)
    exact (releaseSortKey_le_iff (hUnmarked hOther hAlso) (hUnmarked hMem hStable)).mpr (hNewest other hOther hAlso)

/-- The release that the page puts first is the one to be selected. -/
theorem currentRelease_eq_some_iff {releases : List Release} (hMarkers : CurrentMarkers releases)
    {views : List PublicReleaseView} (hViews : viewsOf unicode database isAdmin releases = .ok views)
    (view : PublicReleaseView) : currentRelease views = some view ↔
      ∃ release, Selected releases release ∧ releaseView unicode database isAdmin release = .ok view := by
  rw [currentRelease]
  cases hFound : views.find? (·.isCurrent) with
  | some current =>
      obtain ⟨marked, hMem, hMarked, hCurrent⟩ := (find?_marked hMarkers hViews current).mp hFound
      have hSelected : Selected releases marked := ⟨hMem, Or.inl hMarked⟩
      constructor
      · intro h
        obtain rfl := Option.some.inj h
        exact ⟨marked, hSelected, hCurrent⟩
      · intro h
        obtain ⟨release, hRelease, hView⟩ := h
        rw [hSelected.unique hMarkers hRelease] at hCurrent
        rw [hCurrent] at hView
        exact congrArg some (Except.ok.inj hView)
  | none =>
      have hNone : ∀ other ∈ releases, ¬IsMarked other := by
        intro other hOther hMarked
        obtain ⟨shown, hShown⟩ := @exists_releaseView unicode database isAdmin other
        have hSome := (find?_marked hMarkers hViews shown).mpr ⟨other, hOther, hMarked, hShown⟩
        rw [hFound] at hSome
        cases hSome
      change views.find? _ = some view ↔ _
      rw [find?_newest hMarkers.ids hViews hNone]
      constructor
      · intro h
        obtain ⟨release, ⟨hMem, hStable, hNewest⟩, hView⟩ := h
        exact ⟨release, ⟨hMem, Or.inr ⟨hNone, hStable, hNewest⟩⟩, hView⟩
      · intro h
        obtain ⟨release, ⟨hMem, hChoice⟩, hView⟩ := h
        rcases hChoice with hMarked | ⟨-, hStable, hNewest⟩
        · exact absurd hMarked (hNone release hMem)
        · exact ⟨release, ⟨hMem, hStable, hNewest⟩, hView⟩

/-- A selected release is there as soon as a marked or a published stable one is. -/
theorem exists_selected_iff {releases : List Release} (hMarkers : CurrentMarkers releases) :
    (∃ release, Selected releases release) ↔ ∃ release ∈ releases, IsPublishedStable release := by
  constructor
  · intro h
    obtain ⟨release, hMem, hChoice⟩ := h
    rcases hChoice with hMarked | ⟨-, hStable, -⟩
    · exact ⟨release, hMem, hMarked.1, (hMarkers.stable release hMem hMarked.2).1⟩
    · exact ⟨release, hMem, hStable⟩
  · intro h
    obtain ⟨release, hMem, hStable⟩ := h
    by_cases hNone : ∀ other ∈ releases, ¬IsMarked other
    · have hFinite : {other | other ∈ releases ∧ IsPublishedStable other}.Finite :=
        (List.finite_toSet releases).subset fun _ hOther => hOther.1
      obtain ⟨newest, ⟨hNewest, hAlso⟩, hGreatest⟩ :=
        Set.exists_max_image _ newestKey hFinite ⟨release, hMem, hStable⟩
      exact ⟨newest, hNewest, Or.inr ⟨hNone, hAlso, fun other hOther hOtherStable => hGreatest other ⟨hOther, hOtherStable⟩⟩⟩
    · simp only [not_forall, not_not] at hNone
      obtain ⟨marked, hMarkedMem, hMarked⟩ := hNone
      exact ⟨marked, hMarkedMem, Or.inl hMarked⟩

theorem isListableFile_iff {file : ReleaseFile} : isListableFile isAdmin file = true ↔ IsListed isAdmin file := by
  rw [isListableFile, IsListed]
  by_cases hStatus : file.status = .published
  · cases isAdmin <;> simp [hStatus]
  · simp [hStatus]

/-- The first file shown is the recommended one. -/
theorem head?_shownFiles {release : Release} {file : ReleaseFile} :
    (shownFiles unicode database isAdmin release).head? = some file ↔ Recommended unicode database isAdmin release file := by
  have hKey : ∀ first ∈ database.filesOf release, ∀ second ∈ database.filesOf release,
      fileSortKey unicode first = fileSortKey unicode second → first = second := by
    intro first hFirst second hSecond hSame
    apply List.inj_on_of_nodup_map (database.file_keys.imp Nat.ne_of_lt) (List.mem_of_mem_filter hFirst)
      (List.mem_of_mem_filter hSecond)
    exact congrArg (fun key : Lex (Nat × Lex (Nat × Lex (PyStr × Nat))) => (ofLex (ofLex (ofLex key).2).2).2) hSame
  rw [shownFiles, List.head?_filter, find?_insertionSort_eq_some_iff hKey, Recommended]
  simp only [isListableFile_iff]

theorem recommendedFile_eq_some_iff {release : Release} {view : PublicReleaseView}
    (h : releaseView unicode database isAdmin release = .ok view) (file : PublicFileView) :
    recommendedFile (some view) = some file ↔
      ∃ row, Recommended unicode database isAdmin release row ∧ fileView row = .ok file := by
  change view.files.head? = some file ↔ _
  rw [head?_of_except_mapM (releaseView_eq_ok h).1]
  simp only [head?_shownFiles]

/-- In whatever order the releases come, the page puts first the published release that is marked, else the
published stable release of the latest date, a missing date counted as the first day, and none exactly if no
release is published and stable. It recommends the least listed file of that release. -/
theorem current_release_selected {releases : List Release} (hMarkers : CurrentMarkers releases) :
    ∃ views, (∀ other : List Release, other.Perm releases → viewsOf unicode database isAdmin other = .ok views) ∧
      (∀ view, currentRelease views = some view ↔
        ∃ release, Selected releases release ∧ releaseView unicode database isAdmin release = .ok view) ∧
      (∀ first second, Selected releases first → Selected releases second → first = second) ∧
      (∀ release, Selected releases release → release.status = .published) ∧
      (currentRelease views = none ↔ ∀ release ∈ releases, ¬IsPublishedStable release) ∧
      ∀ file, recommendedFile (currentRelease views) = some file ↔ ∃ release row,
        Selected releases release ∧ Recommended unicode database isAdmin release row ∧ fileView row = .ok file := by
  obtain ⟨views, hViews⟩ := @exists_viewsOf unicode database isAdmin releases
  have hCurrent := currentRelease_eq_some_iff hMarkers hViews
  refine ⟨views, fun other hPerm => (viewsOf_perm hMarkers.ids hPerm).trans hViews, hCurrent, fun first second => Selected.unique hMarkers, ?_, ?_, ?_⟩
  · intro release h
    exact h.2.elim (fun hMarked => hMarked.1) fun hNewest => hNewest.2.1.1
  · have hExists := exists_selected_iff hMarkers
    constructor
    · intro hNone release hMem hStable
      obtain ⟨selected, hSelected⟩ := hExists.mpr ⟨release, hMem, hStable⟩
      obtain ⟨view, hView⟩ := @exists_releaseView unicode database isAdmin selected
      have hSome := (hCurrent view).mpr ⟨selected, hSelected, hView⟩
      rw [hNone] at hSome
      cases hSome
    · intro hNone
      cases hFound : currentRelease views with
      | none => rfl
      | some view =>
          obtain ⟨release, hSelected, -⟩ := (hCurrent view).mp hFound
          obtain ⟨stable, hMem, hStable⟩ := hExists.mp ⟨release, hSelected⟩
          exact absurd hStable (hNone stable hMem)
  · intro file
    constructor
    · intro h
      cases hFound : currentRelease views with
      | none =>
          rw [hFound] at h
          cases h
      | some view =>
          obtain ⟨release, hSelected, hView⟩ := (hCurrent view).mp hFound
          rw [hFound] at h
          obtain ⟨row, hRow, hFile⟩ := (recommendedFile_eq_some_iff hView file).mp h
          exact ⟨release, row, hSelected, hRow, hFile⟩
    · intro h
      obtain ⟨release, row, hSelected, hRow, hFile⟩ := h
      obtain ⟨view, hView⟩ := @exists_releaseView unicode database isAdmin release
      rw [(hCurrent view).mpr ⟨release, hSelected, hView⟩]
      exact (recommendedFile_eq_some_iff hView file).mpr ⟨row, hRow, hFile⟩

/-- A stable release without a marker, of a day or of none. -/
def datedRelease (id : Nat) (releaseDate : Option Date) (status : ReleaseStatus) : Release where
  id := id
  softwareId := 1
  version := decimal id
  releaseChannel := .stable
  releaseDate := releaseDate
  changelog := none
  isCurrent := false
  status := status
  publishedAt := none

/-- The archived release is the latest, and one of the published ones has no date. -/
def datedReleases : List Release :=
  [datedRelease 1 (some 5) .published, datedRelease 2 (some 9) .archived, datedRelease 3 none .published]

theorem current_release_selected_sample :
    ∃ views, viewsOf Unicode.ascii sampleDatabase false datedReleases = .ok views ∧ currentRelease views ≠ none := by
  have hMarkers : CurrentMarkers datedReleases := ⟨by decide, by decide, by decide⟩
  obtain ⟨views, hViews, -, -, -, hNone, -⟩ :=
    @current_release_selected Unicode.ascii sampleDatabase false datedReleases hMarkers
  refine ⟨views, hViews datedReleases (List.Perm.refl _), fun hEmpty => ?_⟩
  exact hNone.mp hEmpty (datedRelease 1 (some 5) .published) (by decide) ⟨rfl, rfl⟩

end SoftwareHub.Public
