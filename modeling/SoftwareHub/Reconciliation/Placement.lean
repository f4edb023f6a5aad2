import SoftwareHub.Lifecycle.UploadGrowth
import SoftwareHub.Reconciliation.CallsAlone
import SoftwareHub.Reconciliation.Swept

/-! Where the files of the rows are: each row has exactly one file, in an area its
status allows and with the recorded bytes; then the report on the storage names
nothing but orphans. -/
namespace SoftwareHub.Reconciliation

open SoftwareHub.Python SoftwareHub.Tree SoftwareHub.Semantics SoftwareHub.Catalog SoftwareHub.Lifecycle Program
open SoftwareHub.Backup (Directory Leaf isSymlink)
open SoftwareHub.Storage (Grown GrownFor MoveEnvironment MoveRequest StorageArea TreeProgram atomicMove posixText_joinSlash
  rejectUnsafeRelativePath)

/-- The one file of a row. -/
structure PlacedAt (paths : StoragePaths) (tree : Directory) (row : ReleaseFile) (area : StorageArea) (parts : List PyStr)
    (content : Bytes) : Prop where
  length : parts.length = 3
  names : ∀ part ∈ parts, PlainName part
  path : row.relativeStoragePath = joinSlash parts
  file : tree.file? (paths.root area ++ parts) = some (.file content)
  other : ∀ place, place ≠ area → tree.kind? (paths.root place ++ parts) = none
  allowed : areaAllowed row.status area = true
  size : content.length = row.fileSizeBytes
  digest : Sha256.hexdigest content = row.sha256

/-- Every row has its file. -/
structure Placed (paths : StoragePaths) (tree : Directory) (rows : List ReleaseFile) : Prop where
  storage : StorageTree paths tree
  ids : (rows.map ReleaseFile.id).Nodup
  distinct : (rows.map ReleaseFile.relativeStoragePath).Nodup
  file : ∀ row ∈ rows, ∃ area parts content, PlacedAt paths tree row area parts content

section Facts

variable {paths : StoragePaths} {tree : Directory} {row other : ReleaseFile} {area place : StorageArea}
  {parts others : List PyStr} {content data : Bytes} {rows : List ReleaseFile}

namespace PlacedAt

/-- The components of its path are names of files. -/
theorem fileNames (h : PlacedAt paths tree row area parts content) : ∀ part ∈ parts, IsFileName part :=
  fun part hPart => (h.names part hPart).1

theorem ne_nil (h : PlacedAt paths tree row area parts content) : parts ≠ [] := by
  rintro rfl
  exact absurd h.length (by decide)

/-- The relative path is one that the services accept. -/
theorem accepted (h : PlacedAt paths tree row area parts content) :
    rejectUnsafeRelativePath row.relativeStoragePath = .ok parts := by
  rw [h.path]
  exact rejectUnsafeRelativePath_plain h.ne_nil h.names

/-- It is in the form in which it is stored. -/
theorem posixText_eq (h : PlacedAt paths tree row area parts content) :
    Storage.posixText row.relativeStoragePath = row.relativeStoragePath := by
  rw [h.path, posixText_joinSlash h.ne_nil h.fileNames]

/-- What is at the path of the row in an area is its file. -/
theorem unique (h : PlacedAt paths tree row area parts content) (hFile : tree.file? (paths.root place ++ parts) = some (.file data)) :
    place = area ∧ data = content := by
  have hArea : place = area := by
    by_contra hNe
    have hNone := h.other place hNe
    rw [Forest.kind?_eq_leaf_iff.mpr hFile] at hNone
    cases hNone
  subst hArea
  exact ⟨rfl, Leaf.file.inj (Option.some.inj (hFile.symm.trans h.file))⟩

/-- The text of the path determines its components. -/
theorem parts_eq (h : PlacedAt paths tree row area parts content) (hOthers : ∀ name ∈ others, IsFileName name)
    (hPath : row.relativeStoragePath = joinSlash others) : others = parts :=
  joinSlash_injective hOthers h.fileNames (hPath.symm.trans h.path)

/-- The text of the path can be stored. -/
theorem storable (h : PlacedAt paths tree row area parts content) : ∀ c ∈ row.relativeStoragePath, isScalar c = true := by
  intro c hc
  rw [h.path] at hc
  rcases mem_joinSlash hc with rfl | ⟨part, hPart, hc⟩
  · decide
  · exact (h.names part hPart).2.1 c hc

end PlacedAt

/-- No issue but orphans, and every row verified. -/
structure OnlyOrphans (report : Report) : Prop where
  issues : ∀ issue ∈ report.issues, issue.kind = .orphanFile
  verified : report.verifiedCount = report.metadataCount

theorem exists_roots (h : StorageTree paths tree) : ∃ contents, Roots paths tree contents := by
  have hRoot (area : StorageArea) := Forest.kind?_eq_dir_iff.mp (h.roots _ (isRoot_area paths area))
  choose contents hContents using hRoot
  exact ⟨contents, h.wellFormed, hContents⟩

/-- The files below an area are regular. -/
theorem regular_content (h : StorageTree paths tree) {contents : StorageArea → Directory}
    (hRoots : Roots paths tree contents) {names : List PyStr} {leaf : Leaf} (hFile : (contents area).file? names = some leaf) :
    ∃ content, leaf = .file content := by
  rw [← hRoots.file?] at hFile
  exact h.regular _ (isRoot_area paths area) names leaf (Forest.kind?_eq_leaf_iff.mpr hFile)

theorem PlacedAt.rowState_eq (h : PlacedAt paths tree row area parts content) (hTree : StorageTree paths tree)
    {contents : StorageArea → Directory} (hRoots : Roots paths tree contents) :
    rowState contents row.relativeStoragePath = .single area parts content := by
  apply rowState_eq_single_iff.mpr
  rw [h.posixText_eq]
  refine ⟨h.accepted, by rw [← hRoots.file?, h.file], ?_⟩
  intro other hOther
  have hNone : (contents other).node? parts = none := by
    rw [← hRoots.node?]
    exact Forest.kind?_eq_none_iff.mp (h.other other hOther)
  apply lookUp_eq_absent (fun above leaf hFile => regular_content hTree hRoots hFile)
  · intro sub hDir
    rw [hNone] at hDir
    cases hDir
  · intro data hFile
    rw [Forest.file?, hNone] at hFile
    cases hFile

theorem Placed.report {env : ScanEnvironment} (hEnv : Quiet env) {database : Database}
    (h : Placed env.paths tree database.files) :
    ∃ report, verifyStorage env true database tree = .ok report ∧ OnlyOrphans report := by
  obtain ⟨contents, hRoots⟩ := exists_roots h.storage
  have hText : StorableText database := by
    intro row hRow
    obtain ⟨area, parts, content, hPlaced⟩ := h.file row hRow
    exact hPlaced.storable
  have hRow {item : FileMetadata} (hItem : item ∈ metadataSnapshot database) :
      ∃ area parts content, rowState contents item.relativePath = .single area parts content ∧
        areaAllowed item.status area = true ∧ Measures item content := by
    obtain ⟨row, hRow, rfl⟩ := mem_metadataSnapshot.mp hItem
    obtain ⟨area, parts, content, hPlaced⟩ := h.file row hRow
    exact ⟨area, parts, content, hPlaced.rowState_eq h.storage hRoots, hPlaced.allowed, hPlaced.size, hPlaced.digest⟩
  refine ⟨_, verifyStorage_eq hEnv hRoots hText, ?_, ?_⟩
  · intro issue hIssue
    rcases List.mem_append.mp (mem_sortIssues.mp hIssue) with hRows | hOrphans
    · obtain ⟨item, hItem, hReported⟩ := List.mem_flatMap.mp hRows
      obtain ⟨area, parts, content, hState, hAllowed, hMeasures⟩ := hRow hItem
      have hNone := (issues_reportOf item (rowState contents item.relativePath)).mpr (by
        rw [hState]
        exact ⟨hAllowed, hMeasures⟩)
      rw [hNone] at hReported
      cases hReported
    · obtain ⟨area, names, leaf, hFile, hEntry⟩ := (mem_orphanIssues hRoots).mp hOrphans
      obtain ⟨content, rfl⟩ := regular_content h.storage hRoots hFile
      unfold entryIssue at hEntry
      dsimp only at hEntry
      rw [hEnv.lstat, if_neg (not_not.mpr rfl)] at hEntry
      split_ifs at hEntry
      rw [← Option.some.inj hEntry]
  · apply List.countP_eq_length.mpr
    intro item hItem
    obtain ⟨area, parts, content, hState, -, hMeasures⟩ := hRow hItem
    rw [hState]
    exact decide_eq_true hMeasures

end Facts

/-- No file of a row can be there. -/
def NoPlace (paths : StoragePaths) (path : List PyStr) : Prop :=
  ∀ area parts, parts.length = 3 → path ≠ paths.root area ++ parts

/-- New directories are at no place of a file. -/
abbrev Evolved (paths : StoragePaths) (before after : Directory) : Prop := Grown (NoPlace paths) (fun _ => True) before after

section Changes

variable {paths : StoragePaths} {tree after : Directory} {row : ReleaseFile} {area : StorageArea} {parts : List PyStr}
  {content : Bytes} {rows : List ReleaseFile}

/-- Above the place of a file there is no place of another. -/
theorem noPlace_above (hApart : Apart paths) {names path : List PyStr} (hLength : names.length = 3)
    (hAbove : path <+: paths.root area ++ names) (hProper : path ≠ paths.root area ++ names) : NoPlace paths path := by
  rintro place others hOthers rfl
  have hArea : place = area := by
    by_contra hNe
    rcases List.prefix_or_prefix_of_prefix ((List.prefix_append _ others).trans hAbove) (List.prefix_append _ names) with
      hPrefix | hPrefix
    · exact hApart.areas place area hNe hPrefix
    · exact hApart.areas area place (Ne.symm hNe) hPrefix
  subst hArea
  have hPrefix := (List.prefix_append_right_inj _).mp hAbove
  exact hProper (by rw [hPrefix.eq_of_length (hOthers.trans hLength.symm)])

/-- No place is on the way to a temporary file. -/
theorem noPlace_temporary (hApart : Apart paths) {names path : List PyStr} (hAbove : path <+: paths.temporary ++ names) :
    NoPlace paths path := by
  rintro place others - rfl
  rcases List.prefix_or_prefix_of_prefix ((List.prefix_append _ others).trans hAbove) (List.prefix_append _ names) with
    hPrefix | hPrefix
  · exact (hApart.temporary place).2 hPrefix
  · exact (hApart.temporary place).1 hPrefix

/-- No directory has come where a file may be. -/
theorem kind?_of_evolved (hEvolved : Evolved paths tree after) (hLength : parts.length = 3)
    (hNone : tree.kind? (paths.root area ++ parts) = none) (hFile : after.file? (paths.root area ++ parts) = none) :
    after.kind? (paths.root area ++ parts) = none := by
  cases hKind : after.kind? (paths.root area ++ parts) with
  | none => rfl
  | some found =>
      cases found with
      | none =>
          rcases hEvolved.made _ hKind with hOld | hNew
          · rw [hNone] at hOld
            cases hOld
          · exact (hNew area parts hLength rfl).elim
      | some leaf =>
          rw [Forest.kind?_eq_leaf_iff.mp hKind] at hFile
          cases hFile

/-- A file stays in its place when it is there afterwards and the other area has
none. -/
theorem PlacedAt.frame (h : PlacedAt paths tree row area parts content) (hEvolved : Evolved paths tree after)
    (hFile : after.file? (paths.root area ++ parts) = some (.file content))
    (hOther : ∀ place, place ≠ area → after.file? (paths.root place ++ parts) = none) :
    PlacedAt paths after row area parts content :=
  { h with
    file := hFile
    other := fun place hPlace => kind?_of_evolved hEvolved h.length (h.other place hPlace) (hOther place hPlace) }

/-- Nothing has changed at the places of a row. -/
theorem PlacedAt.of_same (h : PlacedAt paths tree row area parts content) (hEvolved : Evolved paths tree after)
    (hSame : ∀ place, after.file? (paths.root place ++ parts) = tree.file? (paths.root place ++ parts)) :
    PlacedAt paths after row area parts content := by
  apply h.frame hEvolved
  · rw [hSame, h.file]
  · intro place hPlace
    rw [hSame, Forest.file?, Forest.kind?_eq_none_iff.mp (h.other place hPlace)]

/-- Nothing has changed at the places of the rows. -/
theorem Placed.of_same (h : Placed paths tree rows) (hEvolved : Evolved paths tree after)
    (hSame : ∀ row ∈ rows, ∀ parts, parts.length = 3 → (∀ part ∈ parts, IsFileName part) →
      row.relativeStoragePath = joinSlash parts → ∀ place,
        after.file? (paths.root place ++ parts) = tree.file? (paths.root place ++ parts)) : Placed paths after rows := by
  refine ⟨h.storage.of_grown hEvolved, h.ids, h.distinct, ?_⟩
  intro row hRow
  obtain ⟨area, parts, content, hPlaced⟩ := h.file row hRow
  exact ⟨area, parts, content,
    hPlaced.of_same hEvolved (hSame row hRow parts hPlaced.length hPlaced.fileNames hPlaced.path)⟩

end Changes

section Uploads

variable {env : UploadEnvironment} {host after : Host}

/-- The names that an upload will generate are new. -/
def Fresh (env : UploadEnvironment) (tree : Directory) : Prop :=
  ∀ area names, env.Owned names → tree.kind? (env.paths.root area ++ names) = none

/-- The file of a row is not one that the upload will generate. -/
theorem Fresh.not_owned (hFresh : Fresh env host.tree) {row : ReleaseFile} {area : StorageArea} {parts : List PyStr}
    {content : Bytes} (h : PlacedAt env.paths host.tree row area parts content) : ¬env.Owned parts := by
  intro hOwned
  have hNone := hFresh area parts hOwned
  rw [Forest.kind?_eq_leaf_iff.mpr h.file] at hNone
  cases hNone

theorem running_of_fresh (hAlone : env.meanwhile = id) (h : Placed env.paths host.tree host.database.files)
    (hFresh : Fresh env host.tree) (request : UploadRequest) : Upload.Running host ⟨env, request, .requiring⟩ host := by
  refine ⟨hAlone, h.storage, ⟨?_, ?_⟩, ?_, Grown.refl h.storage.wellFormed, Changes.refl h.storage.distinct, Or.inl rfl⟩
  · intro row hRow names hNames hPath hOwned
    obtain ⟨area, parts, content, hPlaced⟩ := h.file row hRow
    rw [hPlaced.parts_eq hNames hPath] at hOwned
    exact hFresh.not_owned hPlaced hOwned
  · intro area names leaf hOwned hFile
    have hNone := hFresh area names hOwned
    rw [Forest.kind?_eq_leaf_iff.mpr hFile] at hNone
    cases hNone
  · intro streamed hStreamed
    cases hStreamed

/-- An upload makes directories at no place of a file. -/
theorem evolved_of_running (hApart : Apart env.paths) {directories files : List PyStr → Prop}
    (hDirectories : ∀ path, directories path → env.MakesDirectory path)
    (h : Grown directories files host.tree after.tree) : Evolved env.paths host.tree after.tree := by
  apply h.mono _ fun _ _ => trivial
  intro path hPath
  obtain ⟨parts, ⟨-, hLength⟩, hAbove, hProper⟩ := hDirectories path hPath
  exact noPlace_above hApart hLength hAbove hProper

/-- An upload leaves alone what is not its own. -/
theorem file?_of_running (hApart : Apart env.paths) {request : UploadRequest} {stage : UploadStage}
    (h : Upload.Running host ⟨env, request, stage⟩ after) {parts : List PyStr} {place : StorageArea}
    (hOwn : env.Owned parts → place ≠ .quarantine) :
    after.tree.file? (env.paths.root place ++ parts) = host.tree.file? (env.paths.root place ++ parts) := by
  have hCreates : ¬(⟨env, request, stage⟩ : Upload).Creates (env.paths.root place ++ parts) := by
    rintro (hTemporary | ⟨names, hOwned, -, hSame⟩)
    · exact hApart.temporary_ne _ _ _ hTemporary.symm
    · obtain ⟨hPlace, rfl⟩ := hApart.place_inj hSame
      exact hOwn hOwned hPlace
  exact h.changes.file?_eq hCreates hCreates

/-- A file that waits for its review may be in the quarantine. -/
theorem areaAllowed_of_waiting {status : FileStatus} (h : status = .quarantine ∨ status = .ready ∨ status = .rejected) :
    areaAllowed status .quarantine = true := by
  rcases h with rfl | rfl | rfl <;> rfl

/-- An upload that is alone leaves every file in its place, and its own one too. -/
theorem Placed.upload (hApart : Apart env.paths) (hAlone : env.meanwhile = id)
    (h : Placed env.paths host.tree host.database.files) (hFresh : Fresh env host.tree) (request : UploadRequest) :
    Placed env.paths (UploadService.uploadReleaseFile env request host).2.tree
      (UploadService.uploadReleaseFile env request host).2.database.files := by
  have hStart := running_of_fresh hAlone h hFresh request
  obtain ⟨hEnd, -⟩ := hStart.final hApart (upload_runsAlone env request host)
  have hEvolved := evolved_of_running hApart (fun _ hPath => hPath) hEnd.grown
  have hOld : Placed env.paths (UploadService.uploadReleaseFile env request host).2.tree host.database.files := by
    apply h.of_same hEvolved
    intro row hRow parts hLength hNames hPath place
    obtain ⟨area, others, content, hPlaced⟩ := h.file row hRow
    obtain rfl := hPlaced.parts_eq hNames hPath
    exact file?_of_running hApart hEnd fun hOwned => (hFresh.not_owned hPlaced hOwned).elim
  rcases hEnd.rows with hSame | ⟨-, row, hDelivered⟩
  · rw [hSame]
    exact hOld
  · rw [hDelivered.added]
    obtain ⟨parts, content, ⟨hOwned, hLength⟩, hNames, hPath, hFile, hSize, hDigest⟩ := hDelivered.file
    refine ⟨hOld.storage, nodup_append_nextId h.ids hDelivered.id, ?_, ?_⟩
    · change ((host.database.files ++ [row]).map ReleaseFile.relativeStoragePath).Nodup
      rw [List.map_append, List.nodup_append]
      refine ⟨h.distinct, List.nodup_singleton _, ?_⟩
      rintro path hPaths other hOther rfl
      obtain ⟨old, hRow, hSame⟩ := List.mem_map.mp hPaths
      rw [List.map_singleton, List.mem_singleton] at hOther
      exact hDelivered.unused old hRow (Or.inr (Or.inr (hOther.symm.trans hSame.symm)))
    · intro other hOther
      rcases List.mem_append.mp hOther with hRow | hNew
      · exact hOld.file other hRow
      · rw [List.mem_singleton.mp hNew]
        refine ⟨.quarantine, parts, content, hLength, hNames, hPath, hFile, ?_, areaAllowed_of_waiting hDelivered.waiting,
          hSize, hDigest⟩
        intro place hPlace
        apply kind?_of_evolved hEvolved hLength (hFresh place parts hOwned)
        rw [file?_of_running hApart hEnd fun _ => hPlace, Forest.file?,
          Forest.kind?_eq_none_iff.mp (hFresh place parts hOwned)]

end Uploads
end SoftwareHub.Reconciliation
