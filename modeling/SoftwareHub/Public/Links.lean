import SoftwareHub.Downloads.Accounting
import SoftwareHub.Public.Popularity
import SoftwareHub.Python.Unquote

/-! The download links of a software page, and what the download route makes of
them. -/
namespace SoftwareHub.Public

open SoftwareHub.Python SoftwareHub.Catalog SoftwareHub.Semantics SoftwareHub.Downloads Program

/-- `UUID(text)` of the hyphenated form, of 32 hexadecimal digits. -/
def parseUuid (text : PyStr) : Option Nat :=
  match text.splitOn 0x2D with
  | [low, mid, high, clock, node] =>
      if low.length = 8 ∧ mid.length = 4 ∧ high.length = 4 ∧ clock.length = 4 ∧ node.length = 12 then
        hexNumber? (low ++ mid ++ high ++ clock ++ node)
      else none
  | _ => none

/-- The parameters of `/download/{public_uuid}/{safe_filename}`, read off the path
of a link. -/
def downloadTarget (path : PyStr) : Option (Nat × PyStr) :=
  match path.splitOn slash with
  | [[], route, publicUuid, filename] =>
      if route = py "download" then (parseUuid publicUuid).bind fun uuid => (unquote filename).map (uuid, ·) else none
  | _ => none

theorem uuidText_eq (uuid : Nat) : uuidText uuid = List.intercalate [0x2D]
    [(Sha256.hexDigits 32 uuid).take 8, ((Sha256.hexDigits 32 uuid).drop 8).take 4, ((Sha256.hexDigits 32 uuid).drop 12).take 4,
      ((Sha256.hexDigits 32 uuid).drop 16).take 4, (Sha256.hexDigits 32 uuid).drop 20] := by
  have hDash : py "-" = [0x2D] := by decide
  simp only [uuidText, hDash, List.intercalate, List.intersperse_cons_cons, List.intersperse_singleton, List.flatten_cons,
    List.flatten_nil, List.append_nil, List.append_assoc]

theorem not_mem_hexDigits {c : Nat} (h : isLowerHex c = false) (width n : Nat) : c ∉ Sha256.hexDigits width n :=
  fun hMem => Bool.false_ne_true (h.symm.trans (Sha256.isLowerHex_of_mem_hexDigits hMem))

theorem take_append_drop_add (text : PyStr) (front width : Nat) :
    (text.drop front).take width ++ text.drop (front + width) = text.drop front := by
  rw [← List.drop_drop]
  exact List.take_append_drop width (text.drop front)

/-- A written identifier is read back, when it has at most 128 bits. -/
theorem parseUuid_uuidText {uuid : Nat} (h : uuid < 2 ^ 128) : parseUuid (uuidText uuid) = some uuid := by
  have hDash := not_mem_hexDigits (by decide : isLowerHex 0x2D = false) 32 uuid
  have hParts : (uuidText uuid).splitOn 0x2D = [(Sha256.hexDigits 32 uuid).take 8, ((Sha256.hexDigits 32 uuid).drop 8).take 4,
      ((Sha256.hexDigits 32 uuid).drop 12).take 4, ((Sha256.hexDigits 32 uuid).drop 16).take 4,
      (Sha256.hexDigits 32 uuid).drop 20] := by
    rw [uuidText_eq]
    apply List.splitOn_intercalate
    · intro part hPart hMem
      simp only [List.mem_cons, List.not_mem_nil, or_false] at hPart
      rcases hPart with rfl | rfl | rfl | rfl | rfl
      · exact hDash (List.mem_of_mem_take hMem)
      · exact hDash (List.mem_of_mem_drop (List.mem_of_mem_take hMem))
      · exact hDash (List.mem_of_mem_drop (List.mem_of_mem_take hMem))
      · exact hDash (List.mem_of_mem_drop (List.mem_of_mem_take hMem))
      · exact hDash (List.mem_of_mem_drop hMem)
    · exact List.cons_ne_nil _ _
  have hWhole : (Sha256.hexDigits 32 uuid).take 8 ++ ((Sha256.hexDigits 32 uuid).drop 8).take 4 ++
      ((Sha256.hexDigits 32 uuid).drop 12).take 4 ++ ((Sha256.hexDigits 32 uuid).drop 16).take 4 ++
      (Sha256.hexDigits 32 uuid).drop 20 = Sha256.hexDigits 32 uuid := by
    rw [List.append_assoc, take_append_drop_add _ 16 4, List.append_assoc, take_append_drop_add _ 12 4, List.append_assoc,
      take_append_drop_add _ 8 4, List.take_append_drop]
  rw [parseUuid, hParts]
  simp only [List.length_take, List.length_drop, Sha256.length_hexDigits]
  have hBound : uuid < 16 ^ 32 := lt_of_lt_of_eq h (by norm_num)
  rw [if_pos (by decide), hWhole, hexNumber?_hexDigits, Nat.mod_eq_of_lt hBound]

theorem slash_not_mem_uuidText (uuid : Nat) : slash ∉ uuidText uuid := by
  have hSlash := not_mem_hexDigits (by decide : isLowerHex slash = false) 32 uuid
  intro hMem
  simp only [uuidText, List.mem_append] at hMem
  rcases hMem with ((((((((hLow | hDash) | hMid) | hDash) | hHigh) | hDash) | hClock) | hDash) | hNode)
  · exact hSlash (List.mem_of_mem_take hLow)
  · exact absurd hDash (by decide)
  · exact hSlash (List.mem_of_mem_drop (List.mem_of_mem_take hMid))
  · exact absurd hDash (by decide)
  · exact hSlash (List.mem_of_mem_drop (List.mem_of_mem_take hHigh))
  · exact absurd hDash (by decide)
  · exact hSlash (List.mem_of_mem_drop (List.mem_of_mem_take hClock))
  · exact absurd hDash (by decide)
  · exact hSlash (List.mem_of_mem_drop hNode)

/-- The link of a file carries its identifier and its name, percent-encoded and read
back. -/
theorem downloadTarget_fileView {row : ReleaseFile} {file : PublicFileView} (hUuid : row.publicUuid < 2 ^ 128)
    (h : fileView row = .ok file) : downloadTarget file.downloadPath = some (row.publicUuid, row.displayFilename) := by
  obtain ⟨encodedName, hQuote, h⟩ := except_bind_eq_ok h
  cases h
  have hParts : (py "/download/" ++ uuidText row.publicUuid ++ py "/" ++ encodedName).splitOn slash =
      [[], py "download", uuidText row.publicUuid, encodedName] := by
    have hPath : py "/download/" ++ uuidText row.publicUuid ++ py "/" ++ encodedName =
        List.intercalate [slash] [[], py "download", uuidText row.publicUuid, encodedName] := by
      have hRoute : py "/download/" = [slash] ++ py "download" ++ [slash] := by decide
      have hSlash : py "/" = [slash] := by decide
      simp only [hRoute, hSlash, List.intercalate, List.intersperse_cons_cons, List.intersperse_singleton, List.flatten_cons,
        List.flatten_nil, List.append_nil, List.nil_append, List.append_assoc]
    rw [hPath]
    apply List.splitOn_intercalate
    · intro part hPart
      simp only [List.mem_cons, List.not_mem_nil, or_false] at hPart
      rcases hPart with rfl | rfl | rfl | rfl
      · exact List.not_mem_nil
      · decide
      · exact slash_not_mem_uuidText row.publicUuid
      · exact not_mem_quote hQuote List.not_mem_nil (by decide)
    · exact List.cons_ne_nil _ _
  have hName : unquote encodedName = some row.displayFilename := unquote_quote (by simp) hQuote
  simp only [downloadTarget, hParts, if_true, parseUuid_uuidText hUuid, hName, Option.bind_some, Option.map_some]

/-- Every place of the page that shows a file: the releases, the current one and the
recommended file. -/
def SoftwareDetailView.files (view : SoftwareDetailView) : List PublicFileView :=
  view.releases.flatMap (·.files) ++ view.currentRelease.toList.flatMap (·.files) ++ view.recommendedFile.toList

section Page

variable {unicode : Unicode} {upper : PyStr → PyStr} {database : Database} {isAdmin : Bool}

/-- The release put first is one of the list. -/
theorem mem_of_currentRelease {releases : List PublicReleaseView} {view : PublicReleaseView}
    (h : currentRelease releases = some view) : view ∈ releases := by
  rw [currentRelease] at h
  split at h
  · next current hFound =>
      cases h
      exact List.mem_of_find?_eq_some hFound
  · exact List.mem_of_find?_eq_some h

/-- A file shown is a published one of a published or archived release of the
entry. -/
theorem shown_of_softwareDetail {entry : Software} {view : SoftwareDetailView}
    (h : softwareDetail unicode upper database isAdmin entry = .ok view) {file : PublicFileView} (hFile : file ∈ view.files) :
    ∃ release ∈ database.releasesOf entry, isEligibleRelease release = true ∧ ∃ row ∈ database.filesOf release,
      isListableFile isAdmin row = true ∧ fileView row = .ok file := by
  obtain ⟨releases, hReleases, h⟩ := except_bind_eq_ok h
  cases h
  have hListed : ∃ release ∈ releases, file ∈ release.files := by
    simp only [SoftwareDetailView.files, List.mem_append, List.mem_flatMap, Option.mem_toList] at hFile
    rcases hFile with (hAny | ⟨release, hCurrent, hMem⟩) | hRecommended
    · exact hAny
    · exact ⟨release, mem_of_currentRelease hCurrent, hMem⟩
    · obtain ⟨release, hCurrent, hHead⟩ := Option.bind_eq_some_iff.mp hRecommended
      exact ⟨release, mem_of_currentRelease hCurrent, List.mem_of_mem_head? hHead⟩
  obtain ⟨shown, hShown, hMem⟩ := hListed
  obtain ⟨release, hRelease, hView⟩ := exists_of_mem_except_mapM hReleases hShown
  have hEligible := List.mem_filter.mp ((shownReleases_perm entry).mem_iff.mp hRelease)
  obtain ⟨files, hFiles, hView⟩ := except_bind_eq_ok hView
  cases hView
  obtain ⟨row, hRow, hOk⟩ := exists_of_mem_except_mapM hFiles hMem
  have hListable := List.mem_filter.mp ((shownFiles_perm isAdmin release).mem_iff.mp hRow)
  exact ⟨release, hEligible.1, hEligible.2, row, hListable.1, hListable.2, hOk⟩

/-- A page that is shown is that of an entry its reader may see. -/
theorem page_of_software {slug : PyStr} {view : SoftwareDetailView}
    (h : software unicode upper database slug isAdmin = .ok view) : ∃ entry, getBySlug unicode database slug = some entry ∧
      canViewSoftware entry.toSoftware isAdmin = true ∧ softwareDetail unicode upper database isAdmin entry = .ok view := by
  rw [software] at h
  split at h
  · cases h
  · next entry hEntry =>
      split_ifs at h with hView
      exact ⟨entry, hEntry, hView, h⟩

end Page

/-- What the page leaves open is whether the software itself may be downloaded. -/
theorem canDownloadFile_of_shown {isAdmin : Bool} {entry : Catalog.Software} {release : Release} {row : ReleaseFile}
    (hView : canViewSoftware entry isAdmin = true) (hEligible : isEligibleRelease release = true)
    (hListable : isListableFile isAdmin row = true) : canDownloadFile entry release row isAdmin = true ↔
      (isAdmin = true → entry.status = .published ∨ entry.status = .archived) := by
  have hRelease : release.status = .published ∨ release.status = .archived := of_decide_eq_true hEligible
  rw [isListableFile] at hListable
  split_ifs at hListable with hStatus hAdmin
  · rw [not_not] at hStatus
    subst hAdmin
    simp [canDownloadFile, hStatus, hRelease]
  · rw [not_not] at hStatus
    rw [Bool.not_eq_true] at hAdmin
    subst hAdmin
    have hPublic : row.visibility = .isPublic := of_decide_eq_true hListable
    have hViewable : (entry.status = .published ∨ entry.status = .archived) ∧
        (entry.visibility = .isPublic ∨ entry.visibility = .unlisted) := of_decide_eq_true hView
    simp [canDownloadFile, hStatus, hRelease, hPublic, hViewable]

/-- The tables that the download service reads, of one and the same catalog. -/
def Database.rows (database : Database) (downloadStats : List DownloadStat) : Catalog.Database where
  software := database.software.map (·.toSoftware)
  releases := database.releases
  files := database.files
  downloadStats := downloadStats

/-- The identifier of a file leads to its row, its release and its software. -/
theorem getByPublicUuid_rows {database : Database} (hUuids : (database.files.map ReleaseFile.publicUuid).Nodup)
    {entry : Software} {release : Release} {row : ReleaseFile} (hEntry : entry ∈ database.software)
    (hRelease : release ∈ database.releasesOf entry) (hRow : row ∈ database.filesOf release)
    (downloadStats : List DownloadStat) : getByPublicUuid row.publicUuid (database.rows downloadStats) =
      (.ok (some ⟨row, release, entry.toSoftware⟩), database.rows downloadStats) := by
  obtain ⟨hReleaseMem, hSoftwareId⟩ := List.mem_filter.mp hRelease
  obtain ⟨hRowMem, hReleaseId⟩ := List.mem_filter.mp hRow
  have hFile : (database.rows downloadStats).files.find? (fun file => file.publicUuid = row.publicUuid) = some row :=
    (find?_eq_some_iff_of_nodup hUuids).mpr ⟨hRowMem, rfl⟩
  have hFound : (database.rows downloadStats).release? row.releaseId = some release :=
    (find?_eq_some_iff_of_nodup (database.release_keys.imp Nat.ne_of_lt)).mpr
      ⟨hReleaseMem, (of_decide_eq_true hReleaseId).symm⟩
  have hIds : ((database.software.map (·.toSoftware)).map Catalog.Software.id).Nodup := by
    rw [List.map_map]
    exact database.software_keys.imp Nat.ne_of_lt
  have hParent : (database.rows downloadStats).software? release.softwareId = some entry.toSoftware :=
    (find?_eq_some_iff_of_nodup hIds).mpr ⟨List.mem_map_of_mem hEntry, (of_decide_eq_true hSoftwareId).symm⟩
  rw [getByPublicUuid, read_bind, hFile]
  dsimp only
  rw [read_bind, hFound]
  dsimp only
  rw [read_bind, hParent]
  rfl

section Route

variable {unicode : Unicode} {internalDownloadPrefix : PyStr} {request : DownloadRequest} {graph : FileGraph}
  {database : Catalog.Database}

open DownloadService

/-- A file of the right name that may be downloaded is refused for its storage
only. -/
theorem refused_for_storage (hLookup : request.lookupFault = none) (hAccounting : request.accountingFault = none)
    (hFound : getByPublicUuid request.publicUuid database = (.ok (some graph), database))
    (hName : request.requestedFilename = graph.file.displayFilename)
    (hChain : canDownloadFile graph.software graph.release graph.file request.isAdmin = true)
    (hScalar : ∀ c ∈ graph.file.displayFilename, isScalar c = true)
    (hPath : ∀ c ∈ graph.file.relativeStoragePath, isScalar c = true) {e : PyException}
    (h : (authorize unicode internalDownloadPrefix request database).1 = .error e) : locate request graph.file = .error e := by
  have hGuarded : guarded request.lookupFault (getByPublicUuid request.publicUuid) database =
      (.ok (some graph), database) := by
    rw [hLookup]
    exact hFound
  have hSame : authorize unicode internalDownloadPrefix request database = _ := bind_ok hGuarded _
  rw [hSame] at h
  simp only [hName, ne_eq, not_true_eq_false, if_false, hChain] at h
  cases hStored : locate request graph.file with
  | error e' =>
      rw [hStored, lift_error_bind] at h
      exact congrArg Except.error (Except.error.inj h)
  | ok stored =>
      obtain ⟨headers, hHeaders⟩ := exists_grant unicode internalDownloadPrefix hScalar
        (locate_eq_ok hStored ▸ Storage.isScalar_posixText hPath)
      rw [hStored, lift_ok_bind] at h
      split_ifs at h
      · have hStart : recordAuthorizedStart request graph.file.id database =
            (.ok (), authorizedStart graph.file.id request.day database) := by
          rw [recordAuthorizedStart, hAccounting]
          rfl
        rw [bind_ok hStart, lift_apply, hHeaders] at h
        cases h
      · rw [lift_apply, hHeaders] at h
        cases h

/-- A file that may not be downloaded is refused, whatever name is asked for. -/
theorem refused_by_chain (hChain : ¬canDownloadFile graph.software graph.release graph.file request.isAdmin = true)
    (hFound : getByPublicUuid request.publicUuid database = (.ok (some graph), database)) :
    ∃ e, (authorize unicode internalDownloadPrefix request database).1 = .error e := by
  have hRefuse : ∃ e, (refuse request graph.file.id database).1 = .error e := by
    rw [refuse]
    rcases hRun : recordBlocked request graph.file.id database with ⟨outcome, after⟩
    cases outcome with
    | error e => exact ⟨e, congrArg Prod.fst (bind_error hRun _)⟩
    | ok _ => exact ⟨resourceNotFound, congrArg Prod.fst (bind_ok hRun fun _ => raise resourceNotFound)⟩
  cases hLookup : request.lookupFault with
  | some e =>
      have hGuarded : guarded request.lookupFault (getByPublicUuid request.publicUuid) database = (.error e, database) := by
        rw [hLookup]
        rfl
      exact ⟨e, congrArg Prod.fst (bind_error hGuarded _)⟩
  | none =>
      have hGuarded : guarded request.lookupFault (getByPublicUuid request.publicUuid) database =
          (.ok (some graph), database) := by
        rw [hLookup]
        exact hFound
      have hSame : authorize unicode internalDownloadPrefix request database = _ := bind_ok hGuarded _
      rw [hSame]
      dsimp only
      split_ifs
      · exact hRefuse
      · exact hRefuse

end Route

/-- `Path(min_length=1, max_length=255)`, in one segment of the path. -/
structure RouteAccepts (filename : PyStr) : Prop where
  min_length : 1 ≤ filename.length
  max_length : filename.length ≤ 255
  segment : slash ∉ filename

theorem routeAccepts_of_normalizeOriginalFilename {unicode : Unicode} {allowedExtensions : List PyStr} {filename : PyStr}
    {normalized : Storage.NormalizedFilename}
    (h : Storage.normalizeOriginalFilename unicode allowedExtensions filename = .ok normalized) :
    RouteAccepts normalized.value := by
  obtain ⟨_, -, h⟩ := except_bind_eq_ok h
  obtain ⟨_, -, h⟩ := except_bind_eq_ok h
  obtain ⟨_, hGiven, h⟩ := except_bind_eq_ok h
  obtain ⟨_, -, h⟩ := except_bind_eq_ok h
  obtain ⟨_, hSegment, h⟩ := except_bind_eq_ok h
  obtain ⟨_, -, h⟩ := except_bind_eq_ok h
  obtain ⟨_, -, h⟩ := except_bind_eq_ok h
  obtain ⟨_, hLength, h⟩ := except_bind_eq_ok h
  rw [require_eq_ok_iff] at hGiven hSegment hLength
  have hValue : normalized.value = strip (unicode.nfkc filename) := by
    split at h
    · cases h
    · obtain ⟨_, -, h⟩ := except_bind_eq_ok h
      obtain ⟨_, -, h⟩ := except_bind_eq_ok h
      obtain ⟨_, -, h⟩ := except_bind_eq_ok h
      obtain ⟨_, -, h⟩ := except_bind_eq_ok h
      cases h
      rfl
  rw [hValue]
  exact ⟨List.length_pos_iff.mpr hGiven.1, hLength, hSegment.1⟩

/-- The rows behind a file of a page. -/
structure OfferedFile (unicode : Unicode) (database : Database) (slug : PyStr) (file : PublicFileView) (entry : Software)
    (release : Release) (row : ReleaseFile) : Prop where
  page : getBySlug unicode database slug = some entry
  ofEntry : release ∈ database.releasesOf entry
  ofRelease : row ∈ database.filesOf release
  view : fileView row = .ok file

/-- Each file of a page has a link that carries its identifier and its exact name. The same viewer may download
the file, unless it is an administrator looking at software that is neither published nor archived, and the
route then refuses the download for reasons of storage only. -/
theorem page_links_lead_to_files {unicode : Unicode} {upper : PyStr → PyStr} {database : Database}
    (hUuids : (database.files.map ReleaseFile.publicUuid).Nodup) (hBits : ∀ row ∈ database.files, row.publicUuid < 2 ^ 128)
    (hNames : ∀ row ∈ database.files, ∃ allowedExtensions filename normalized,
      Storage.normalizeOriginalFilename unicode allowedExtensions filename = .ok normalized ∧
        row.displayFilename = normalized.value)
    (hPaths : ∀ row ∈ database.files, ∀ c ∈ row.relativeStoragePath, isScalar c = true) {slug : PyStr} {isAdmin : Bool}
    {view : SoftwareDetailView} (hView : software unicode upper database slug isAdmin = .ok view) {file : PublicFileView}
    (hFile : file ∈ view.files) :
    ∃ entry release row, OfferedFile unicode database slug file entry release row ∧
      downloadTarget file.downloadPath = some (row.publicUuid, row.displayFilename) ∧ RouteAccepts row.displayFilename ∧
      (canDownloadFile entry.toSoftware release row isAdmin = true ↔
        (isAdmin = true → entry.status = .published ∨ entry.status = .archived)) ∧
      ∀ internalDownloadPrefix downloadStats (request : DownloadRequest),
        downloadTarget file.downloadPath = some (request.publicUuid, request.requestedFilename) →
        request.isAdmin = isAdmin → request.lookupFault = none → request.accountingFault = none →
          if canDownloadFile entry.toSoftware release row isAdmin = true then
            ∀ e, (DownloadService.authorize unicode internalDownloadPrefix request (database.rows downloadStats)).1 = .error e →
              DownloadService.locate request row = .error e
          else ∃ e, (DownloadService.authorize unicode internalDownloadPrefix request (database.rows downloadStats)).1 = .error e := by
  obtain ⟨entry, hEntry, hViewable, hDetail⟩ := page_of_software hView
  obtain ⟨release, hRelease, hEligible, row, hRow, hListable, hOk⟩ := shown_of_softwareDetail hDetail hFile
  have hMem : row ∈ database.files := List.mem_of_mem_filter hRow
  have hTarget := downloadTarget_fileView (hBits row hMem) hOk
  refine ⟨entry, release, row, ⟨hEntry, hRelease, hRow, hOk⟩, hTarget, ?_, canDownloadFile_of_shown hViewable hEligible hListable, ?_⟩
  · obtain ⟨_, _, normalized, hAccepted, hName⟩ := hNames row hMem
    rw [hName]
    exact routeAccepts_of_normalizeOriginalFilename hAccepted
  · intro internalDownloadPrefix downloadStats request hRequest hViewer hLookup hAccounting
    rw [hTarget] at hRequest
    obtain ⟨hUuid, hName⟩ := Prod.mk.inj (Option.some.inj hRequest)
    have hFound := getByPublicUuid_rows hUuids (List.mem_of_find?_eq_some hEntry) hRelease hRow downloadStats
    rw [hUuid] at hFound
    split_ifs with hChain
    · intro e h
      rw [← hViewer] at hChain
      exact refused_for_storage hLookup hAccounting hFound hName.symm hChain (database.file_text row hMem) (hPaths row hMem) h
    · rw [← hViewer] at hChain
      exact refused_by_chain hChain hFound

/-- A page with one published file. -/
def linkDatabase (status : SoftwareStatus) : Database where
  software := [{ sampleSoftware with status := status }]
  categories := []
  tags := []
  softwareTags := []
  releases := [⟨1, 1, py "1.0", .stable, none, none, true, .published, none⟩]
  files := [DownloadService.sampleFile]
  software_keys := by simp
  category_keys := Database.empty.category_keys
  tag_keys := Database.empty.tag_keys
  softwareTag_keys := Database.empty.softwareTag_keys
  release_keys := by decide
  file_keys := by decide
  software_slugs := by simp
  category_slugs := Database.empty.category_slugs
  tag_slugs := Database.empty.tag_slugs
  file_text := by decide

/-- The one link on the page, for the readers who are shown it. -/
theorem exists_sampleLink : ∀ shown ∈ [(SoftwareStatus.hidden, true), (.published, false)], ∃ view file,
    software Unicode.ascii id (linkDatabase shown.1) (py "notepad") shown.2 = .ok view ∧ file ∈ view.files ∧
      downloadTarget file.downloadPath = some (7, py "setup.exe") := by
  have hPages : ∀ shown ∈ [(SoftwareStatus.hidden, true), (.published, false)],
      ((software Unicode.ascii id (linkDatabase shown.1) (py "notepad") shown.2).toOption.map fun view =>
        view.files.head?.map fun file => downloadTarget file.downloadPath) = some (some (some (7, py "setup.exe"))) := by
    decide +kernel
  intro shown hShown
  obtain ⟨view, hView, hFiles⟩ := Option.map_eq_some_iff.mp (hPages shown hShown)
  obtain ⟨file, hFile, hTarget⟩ := Option.map_eq_some_iff.mp hFiles
  refine ⟨view, file, ?_, List.mem_of_mem_head? hFile, hTarget⟩
  cases hOutcome : software Unicode.ascii id (linkDatabase shown.1) (py "notepad") shown.2 with
  | error e =>
      rw [hOutcome] at hView
      cases hView
  | ok page =>
      rw [hOutcome] at hView
      exact congrArg Except.ok (Option.some.inj hView)

/-- An administrator is shown the file of hidden software with a link, and may not
download it. -/
theorem hidden_link_refused : ∃ view file, software Unicode.ascii id (linkDatabase .hidden) (py "notepad") true = .ok view ∧
    file ∈ view.files ∧ downloadTarget file.downloadPath = some (7, py "setup.exe") ∧
    ∀ release ∈ (linkDatabase .hidden).releases, ∀ entry ∈ (linkDatabase .hidden).software,
      canDownloadFile entry.toSoftware release DownloadService.sampleFile true = false := by
  obtain ⟨view, file, hView, hFile, hTarget⟩ := exists_sampleLink (.hidden, true) (by simp)
  exact ⟨view, file, hView, hFile, hTarget, by decide⟩

theorem page_links_lead_to_files_sample : ∃ view file,
    software Unicode.ascii id (linkDatabase .published) (py "notepad") false = .ok view ∧ file ∈ view.files ∧
      ∃ entry release row, OfferedFile Unicode.ascii (linkDatabase .published) (py "notepad") file entry release row ∧
        canDownloadFile entry.toSoftware release row false = true := by
  obtain ⟨view, file, hOk, hFile, -⟩ := exists_sampleLink (.published, false) (by simp)
  have hNames : ∀ row ∈ (linkDatabase .published).files, ∃ allowedExtensions filename normalized,
      Storage.normalizeOriginalFilename Unicode.ascii allowedExtensions filename = .ok normalized ∧
        row.displayFilename = normalized.value := by
    intro row hRow
    obtain rfl := List.mem_singleton.mp hRow
    exact ⟨[py ".exe"], py "setup.exe", ⟨py "setup.exe", py "setup", py ".exe"⟩, by rfl, rfl⟩
  obtain ⟨entry, release, row, hOffered, -, -, hChain, -⟩ :=
    page_links_lead_to_files (by decide) (by decide) hNames (by decide) hOk hFile
  exact ⟨view, file, hOk, hFile, entry, release, row, hOffered, hChain.mpr nofun⟩

end SoftwareHub.Public
