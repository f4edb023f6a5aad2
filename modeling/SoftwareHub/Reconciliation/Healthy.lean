import SoftwareHub.Lifecycle.Compensation
import SoftwareHub.Reconciliation.Lookup

/-! When the storage report is healthy, and which rows it counts as verified. -/
namespace SoftwareHub.Reconciliation

open SoftwareHub.Python SoftwareHub.Tree SoftwareHub.Semantics SoftwareHub.Catalog SoftwareHub.Lifecycle
open SoftwareHub.Backup (Directory Leaf isSymlink)
open SoftwareHub.Storage (StorageArea isScalar_posixText posixText posixText_joinSlash rejectUnsafeRelativePath
  rejectUnsafeRelativePath_joinSlash)

/-- Sorting loses no issue. -/
theorem mem_sortIssues {issue : Issue} {issues : List Issue} : issue ∈ sortIssues issues ↔ issue ∈ issues :=
  (List.perm_insertionSort _ issues).mem_iff

theorem sortIssues_eq_nil {issues : List Issue} : sortIssues issues = [] ↔ issues = [] := by
  simp only [List.eq_nil_iff_forall_not_mem, mem_sortIssues]

/-- The columns of a row that the snapshot holds. -/
theorem mem_metadataSnapshot {database : Database} {item : FileMetadata} : item ∈ metadataSnapshot database ↔
    ∃ row ∈ database.files,
      (⟨row.id, row.relativeStoragePath, row.sha256, row.fileSizeBytes, row.status⟩ : FileMetadata) = item := by
  unfold metadataSnapshot
  rw [List.mem_map]
  simp only [(List.perm_insertionSort _ database.files).mem_iff]

/-- The known paths are those of the rows. -/
theorem mem_knownPaths {database : Database} {path : PyStr} :
    path ∈ knownPaths database ↔ ∃ row ∈ database.files, row.relativeStoragePath = path := by
  unfold knownPaths
  rw [List.mem_map]
  constructor
  · rintro ⟨item, hItem, rfl⟩
    obtain ⟨row, hRow, rfl⟩ := mem_metadataSnapshot.mp hItem
    exact ⟨row, hRow, rfl⟩
  · rintro ⟨row, hRow, rfl⟩
    exact ⟨_, mem_metadataSnapshot.mpr ⟨row, hRow, rfl⟩, rfl⟩

section Report

variable {env : ScanEnvironment} {tree : Directory} {contents : StorageArea → Directory} {database : Database}

/-- The text of every relative path can be stored. -/
def StorableText (database : Database) : Prop := ∀ row ∈ database.files, ∀ c ∈ row.relativeStoragePath, isScalar c = true

/-- The report on rows that find what they find. -/
theorem verifyStorage_eq (hEnv : Quiet env) (h : Roots env.paths tree contents) (hText : StorableText database) :
    verifyStorage env true database tree = .ok {
      metadataCount := (metadataSnapshot database).length
      physicalFileCount := ((metadataSnapshot database).map fun item =>
        (reportOf item (rowState contents item.relativePath)).physicalCount).sum +
          (orphanIssues env (knownPaths database) tree).length
      verifiedCount := (metadataSnapshot database).countP fun item =>
        (reportOf item (rowState contents item.relativePath)).verified
      issues := sortIssues ((metadataSnapshot database).flatMap
        (fun item => (reportOf item (rowState contents item.relativePath)).issues) ++
          orphanIssues env (knownPaths database) tree) } := by
  have hRows : (metadataSnapshot database).mapM (verifyItem env true tree) =
      .ok ((metadataSnapshot database).map fun item => reportOf item (rowState contents item.relativePath)) := by
    apply except_mapM_ok
    intro item hItem
    obtain ⟨row, hRow, rfl⟩ := mem_metadataSnapshot.mp hItem
    exact verifyItem_eq hEnv h (hText row hRow)
  unfold verifyStorage
  dsimp only
  rw [except_bind_ok hRows]
  simp only [List.map_map, List.flatMap_map, List.countP_map]
  rfl

/-- The issues of an area, entry by entry. -/
theorem areaIssues_eq (h : Roots env.paths tree contents) (known : List PyStr) (area : StorageArea) :
    areaIssues env known tree area =
      ((contents area).walkFiles fun _ => true).filterMap (entryIssue env known area) := by
  unfold areaIssues
  rw [h.root area]

/-- The walk meets every entry that is no directory. -/
theorem mem_walkFiles_all {content : Directory} (h : content.WellFormed IsFileName) {names : List PyStr} {leaf : Leaf} :
    (names, leaf) ∈ content.walkFiles (fun _ => true) ↔ content.file? names = some leaf := by
  rw [Forest.mem_walkFiles_iff h]
  exact and_iff_left fun _ _ _ _ => rfl

/-- An entry without an issue is a regular file of a known path. -/
theorem entryIssue_eq_none (hEnv : Quiet env) {known : List PyStr} {area : StorageArea} {names : List PyStr} {leaf : Leaf} :
    entryIssue env known area (names, leaf) = none ↔ (∃ data, leaf = .file data) ∧ joinSlash names ∈ known := by
  unfold entryIssue
  dsimp only
  rw [hEnv.lstat, if_neg (not_not.mpr rfl)]
  cases leaf with
  | file data => by_cases hKnown : joinSlash names ∈ known <;> simp [hKnown]
  | symlink target => simp
  | special => simp

/-- The walk has no issue exactly if it meets nothing but regular files of known paths. -/
theorem orphanIssues_eq_nil (hEnv : Quiet env) (h : Roots env.paths tree contents) (known : List PyStr) :
    orphanIssues env known tree = [] ↔ ∀ area names leaf, (contents area).file? names = some leaf →
      (∃ data, leaf = .file data) ∧ joinSlash names ∈ known := by
  have hArea (area : StorageArea) : areaIssues env known tree area = [] ↔
      ∀ names leaf, (contents area).file? names = some leaf →
        (∃ data, leaf = .file data) ∧ joinSlash names ∈ known := by
    rw [areaIssues_eq h, List.filterMap_eq_nil_iff]
    constructor
    · intro hNone names leaf hFile
      exact (entryIssue_eq_none hEnv).mp (hNone _ ((mem_walkFiles_all (h.content area)).mpr hFile))
    · intro hKnown entry hEntry
      exact (entryIssue_eq_none hEnv).mpr (hKnown _ _ ((mem_walkFiles_all (h.content area)).mp hEntry))
  unfold orphanIssues
  rw [sortIssues_eq_nil, List.append_eq_nil_iff, hArea, hArea]
  constructor
  · rintro ⟨hQuarantine, hSoftware⟩ area
    cases area with
    | quarantine => exact hQuarantine
    | software => exact hSoftware
  · intro hKnown
    exact ⟨hKnown .quarantine, hKnown .software⟩

end Report

/-- A regular file lies at a place. -/
def Holds (contents : StorageArea → Directory) (place : StorageArea × List PyStr) (data : Bytes) : Prop :=
  (contents place.1).file? place.2 = some (.file data)

/-- Rows and regular files correspond one to one by relative path, every file
is as its row says, and there is no other entry but directories. -/
structure Corresponds (contents : StorageArea → Directory) (database : Database) : Prop where
  file : ∀ row ∈ database.files,
    ∃! place, (∃ data, Holds contents place data) ∧ joinSlash place.2 = row.relativeStoragePath
  row : ∀ place data, Holds contents place data →
    ∃! row, row ∈ database.files ∧ row.relativeStoragePath = joinSlash place.2
  placed : ∀ row ∈ database.files, ∀ place data, Holds contents place data →
    joinSlash place.2 = row.relativeStoragePath → areaAllowed row.status place.1 = true ∧
      data.length = row.fileSizeBytes ∧ Sha256.hexdigest data = row.sha256
  regular : ∀ area names leaf, (contents area).file? names = some leaf → ∃ data, leaf = .file data

/-- No relative path has a backslash, or is that of a directory. -/
def PlainPaths (contents : StorageArea → Directory) (database : Database) : Prop :=
  ∀ row ∈ database.files, 0x5C ∉ row.relativeStoragePath ∧
    ∀ area names content, joinSlash names = row.relativeStoragePath → (contents area).node? names ≠ some (.dir content)

section Correspondence

variable {paths : StoragePaths} {tree : Directory} {contents : StorageArea → Directory} {database : Database}

theorem Roots.fileNames (h : Roots paths tree contents) {area : StorageArea} {names : List PyStr} {leaf : Leaf}
    (hFile : (contents area).file? names = some leaf) : names ≠ [] ∧ ∀ name ∈ names, IsFileName name := by
  refine ⟨?_, ((h.content area).node? ((Forest.file?_eq_some_iff _ _ _).mp hFile)).1⟩
  rintro rfl
  rw [Forest.file?_nil] at hFile
  cases hFile

/-- The rows agree with what they find, and the walk meets known regular files only. -/
def Consistent (contents : StorageArea → Directory) (database : Database) : Prop :=
  (∀ item ∈ metadataSnapshot database, Agrees item (rowState contents item.relativePath)) ∧
    ∀ area names leaf, (contents area).file? names = some leaf →
      (∃ data, leaf = .file data) ∧ joinSlash names ∈ knownPaths database

/-- A row of a consistent state has its file at its own relative path. -/
theorem Consistent.located (h : Roots paths tree contents) (hText : StorableText database)
    (hPaths : (database.files.map fun row => posixText row.relativeStoragePath).Nodup)
    (hConsistent : Consistent contents database) {row : ReleaseFile} (hRow : row ∈ database.files) :
    ∃ area names data, joinSlash names = row.relativeStoragePath ∧ Holds contents (area, names) data ∧
      (∀ other, other ≠ area → lookUp (contents other) names = .absent) ∧
      areaAllowed row.status area = true ∧ data.length = row.fileSizeBytes ∧ Sha256.hexdigest data = row.sha256 ∧
      0x5C ∉ row.relativeStoragePath := by
  have hAgrees := hConsistent.1 _ (mem_metadataSnapshot.mpr ⟨row, hRow, rfl⟩)
  dsimp only at hAgrees
  cases hState : rowState contents row.relativeStoragePath with
  | refused =>
      rw [hState] at hAgrees
      exact hAgrees.elim
  | missing =>
      rw [hState] at hAgrees
      exact hAgrees.elim
  | duplicated =>
      rw [hState] at hAgrees
      exact hAgrees.elim
  | single area names data =>
      rw [hState] at hAgrees
      obtain ⟨hArea, hSize, hDigest⟩ := hAgrees
      obtain ⟨hNames, hFile, hOther⟩ := rowState_eq_single_iff.mp hState
      obtain ⟨hNil, hFileNames⟩ := h.fileNames hFile
      rcases rejectUnsafeRelativePath_cases (isScalar_posixText (hText row hRow)) with ⟨message, hRefused⟩ | ⟨hSafe, hPlain⟩
      · rw [hRefused] at hNames
        cases hNames
      · have hSplit : (posixText row.relativeStoragePath).splitOn slash = names := Except.ok.inj (hSafe.symm.trans hNames)
        have hJoin : joinSlash names = posixText row.relativeStoragePath := by
          rw [← hSplit]
          exact List.intercalate_splitOn slash
        -- The walk knows this file under the path of some row, which is this row.
        obtain ⟨known, hKnown, hPath⟩ := mem_knownPaths.mp (hConsistent.2 area names _ hFile).2
        have hSame : posixText known.relativeStoragePath = posixText row.relativeStoragePath := by
          rw [hPath, posixText_joinSlash hNil hFileNames, hJoin]
        obtain rfl := List.inj_on_of_nodup_map hPaths hKnown hRow hSame
        refine ⟨area, names, data, hPath.symm, hFile, hOther, hArea, hSize, hDigest, ?_⟩
        rw [hPath, hJoin]
        exact hPlain

/-- Where everything is a regular file and no directory is in the way, a
path without a file is absent. -/
theorem lookUp_eq_absent {content : Directory} {names : List PyStr}
    (hRegular : ∀ above leaf, content.file? above = some leaf → ∃ data, leaf = .file data)
    (hDirectory : ∀ sub, content.node? names ≠ some (.dir sub))
    (hFile : ∀ data, content.file? names ≠ some (.file data)) : lookUp content names = .absent := by
  have hNoLink (above : List PyStr) : isSymlink (content.node? above) = false := by
    cases hNode : content.node? above with
    | none => rfl
    | some entry =>
        cases entry with
        | dir sub => rfl
        | leaf value =>
            obtain ⟨data, rfl⟩ := hRegular above value ((Forest.file?_eq_some_iff _ _ _).mpr hNode)
            rfl
  have hNode : content.node? names = none := by
    cases hNode : content.node? names with
    | none => rfl
    | some entry =>
        cases entry with
        | dir sub => exact (hDirectory sub hNode).elim
        | leaf value =>
            have hLeaf := (Forest.file?_eq_some_iff _ _ _).mpr hNode
            obtain ⟨data, rfl⟩ := hRegular names value hLeaf
            exact (hFile data hLeaf).elim
  unfold lookUp
  rw [if_neg, hNode]
  rintro ⟨above, -, -, hLink⟩
  rw [hNoLink] at hLink
  cases hLink

theorem Consistent.corresponds (h : Roots paths tree contents) (hText : StorableText database)
    (hPaths : (database.files.map fun row => posixText row.relativeStoragePath).Nodup)
    (hConsistent : Consistent contents database) : Corresponds contents database ∧ PlainPaths contents database := by
  have hUnique {row : ReleaseFile} (hRow : row ∈ database.files) {area : StorageArea} {names : List PyStr} {data : Bytes}
      (hHolds : Holds contents (area, names) data) (hJoin : joinSlash names = row.relativeStoragePath) :
      areaAllowed row.status area = true ∧ data.length = row.fileSizeBytes ∧ Sha256.hexdigest data = row.sha256 ∧
        ∀ other found content, joinSlash found = row.relativeStoragePath →
          (contents other).file? found = some (.file content) → other = area ∧ found = names := by
    obtain ⟨place, path, stored, hPath, hStored, hOther, hArea, hSize, hDigest, -⟩ :=
      hConsistent.located h hText hPaths hRow
    -- Both files have the row's relative path, and only one area holds it.
    have hAt {other : StorageArea} {found : List PyStr} {content : Bytes}
        (hFound : joinSlash found = row.relativeStoragePath)
        (hFile : (contents other).file? found = some (.file content)) : other = place ∧ found = path := by
      have hNames : found = path :=
        joinSlash_injective (h.fileNames hFile).2 (h.fileNames hStored).2 (hFound.trans hPath.symm)
      refine ⟨?_, hNames⟩
      by_contra hNe
      have hAbsent := hOther other hNe
      rw [← hNames, lookUp_of_file hFile] at hAbsent
      cases hAbsent
    obtain ⟨rfl, rfl⟩ := hAt hJoin hHolds
    obtain rfl : stored = data := Leaf.file.inj (Option.some.inj (hStored.symm.trans hHolds))
    exact ⟨hArea, hSize, hDigest, fun other found content hFound hFile => hAt hFound hFile⟩
  refine ⟨⟨?_, ?_, ?_, ?_⟩, ?_⟩
  · intro row hRow
    obtain ⟨area, names, data, hJoin, hHolds, -⟩ := hConsistent.located h hText hPaths hRow
    refine ⟨(area, names), ⟨⟨data, hHolds⟩, hJoin⟩, ?_⟩
    rintro ⟨other, found⟩ ⟨⟨content, hFile⟩, hFound⟩
    obtain ⟨rfl, rfl⟩ := (hUnique hRow hHolds hJoin).2.2.2 other found content hFound hFile
    rfl
  · rintro ⟨area, names⟩ data hHolds
    obtain ⟨row, hRow, hPath⟩ := mem_knownPaths.mp (hConsistent.2 area names _ hHolds).2
    refine ⟨row, ⟨hRow, hPath⟩, ?_⟩
    rintro other ⟨hOther, hSame⟩
    exact List.inj_on_of_nodup_map hPaths hOther hRow (by rw [hSame, hPath])
  · rintro row hRow ⟨area, names⟩ data hHolds hJoin
    obtain ⟨hArea, hSize, hDigest, -⟩ := hUnique hRow hHolds hJoin
    exact ⟨hArea, hSize, hDigest⟩
  · intro area names leaf hFile
    exact (hConsistent.2 area names leaf hFile).1
  · intro row hRow
    obtain ⟨area, names, data, hJoin, hHolds, hOther, -, -, -, hPlain⟩ := hConsistent.located h hText hPaths hRow
    refine ⟨hPlain, ?_⟩
    intro other found content hFound hNode
    have hNames : found = names := by
      have hFoundNames := ((h.content other).node? hNode).1
      exact joinSlash_injective hFoundNames (h.fileNames hHolds).2 (hFound.trans hJoin.symm)
    subst hNames
    by_cases hArea : other = area
    · subst hArea
      have hLeaf := (Forest.file?_eq_some_iff _ _ _).mp hHolds
      rw [hNode] at hLeaf
      cases hLeaf
    · have hAbsent := hOther other hArea
      unfold lookUp at hAbsent
      split_ifs at hAbsent
      rw [hNode] at hAbsent
      cases hAbsent

/-- A correspondence of plain paths is a consistent state. -/
theorem Corresponds.consistent (h : Roots paths tree contents) (hCorresponds : Corresponds contents database)
    (hPlain : PlainPaths contents database) : Consistent contents database := by
  constructor
  · intro item hItem
    obtain ⟨row, hRow, rfl⟩ := mem_metadataSnapshot.mp hItem
    obtain ⟨⟨area, names⟩, ⟨⟨data, hHolds⟩, hJoin⟩, hOnly⟩ := hCorresponds.file row hRow
    obtain ⟨hNil, hNames⟩ := h.fileNames hHolds
    have hSingle : rowState contents row.relativeStoragePath = .single area names data := by
      apply rowState_eq_single_iff.mpr
      rw [← hJoin, posixText_joinSlash hNil hNames]
      refine ⟨rejectUnsafeRelativePath_joinSlash hNil hNames ?_, hHolds, ?_⟩
      · rw [hJoin]
        exact (hPlain row hRow).1
      · intro other hOther
        apply lookUp_eq_absent (hCorresponds.regular other)
        · intro content
          exact (hPlain row hRow).2 other names content hJoin
        · intro content hFile
          exact hOther (congrArg Prod.fst (hOnly (other, names) ⟨⟨content, hFile⟩, hJoin⟩))
    dsimp only
    rw [hSingle]
    exact hCorresponds.placed row hRow (area, names) data hHolds hJoin
  · intro area names leaf hFile
    obtain ⟨data, rfl⟩ := hCorresponds.regular area names leaf hFile
    obtain ⟨row, ⟨hRow, hPath⟩, -⟩ := hCorresponds.row (area, names) data hFile
    exact ⟨⟨data, rfl⟩, mem_knownPaths.mpr ⟨row, hRow, hPath⟩⟩

end Correspondence

/-- A row is unsafe, missing, duplicated, or differs in size or digest. -/
def deviates (contents : StorageArea → Directory) (row : ReleaseFile) : Bool :=
  match rowState contents row.relativeStoragePath with
  | .single _ _ data => ¬(data.length = row.fileSizeBytes ∧ Sha256.hexdigest data = row.sha256)
  | _ => true

/-- The rows that are not verified are those that deviate. -/
theorem verified_reportOf (contents : StorageArea → Directory) (row : ReleaseFile) :
    (!(reportOf ⟨row.id, row.relativeStoragePath, row.sha256, row.fileSizeBytes, row.status⟩
      (rowState contents row.relativeStoragePath)).verified) = deviates contents row := by
  unfold deviates
  cases rowState contents row.relativeStoragePath with
  | refused => rfl
  | missing => rfl
  | duplicated => rfl
  | single area names data => exact (decide_not).symm

/-- The verified rows are counted as those that do not deviate. -/
theorem count_verified (contents : StorageArea → Directory) (database : Database) :
    (metadataSnapshot database).length = ((metadataSnapshot database).countP fun item =>
      (reportOf item (rowState contents item.relativePath)).verified) + database.files.countP (deviates contents) := by
  have hDeviates : database.files.countP (deviates contents) = (metadataSnapshot database).countP fun item =>
      !(reportOf item (rowState contents item.relativePath)).verified := by
    unfold metadataSnapshot
    rw [List.countP_map, (List.perm_insertionSort _ database.files).countP_eq]
    congr 1
    funext row
    exact (verified_reportOf contents row).symm
  rw [hDeviates, List.length_eq_countP_add_countP fun item =>
    (reportOf item (rowState contents item.relativePath)).verified]
  simp only [Bool.not_eq_true, Bool.decide_eq_false]

/-- The report is healthy exactly if rows and regular files correspond one to
one, with no directory or backslash in the way; and it counts as verified all
rows but the deviating ones. -/
theorem verifyStorage_healthy_iff (env : ScanEnvironment) (database : Database) (tree : Directory)
    (contents : StorageArea → Directory) (hEnv : Quiet env) (h : Roots env.paths tree contents)
    (hText : StorableText database) : ∃ report, verifyStorage env true database tree = .ok report ∧
      ((database.files.map fun row => posixText row.relativeStoragePath).Nodup →
        (report.healthy = true ↔ Corresponds contents database ∧ PlainPaths contents database)) ∧
      report.metadataCount = report.verifiedCount + database.files.countP (deviates contents) := by
  refine ⟨_, verifyStorage_eq hEnv h hText, ?_, count_verified contents database⟩
  intro hPaths
  have hConsistent : Consistent contents database ↔ Corresponds contents database ∧ PlainPaths contents database := by
    constructor
    · intro hConsistent
      exact hConsistent.corresponds h hText hPaths
    · rintro ⟨hCorresponds, hPlain⟩
      exact hCorresponds.consistent h hPlain
  rw [← hConsistent]
  unfold Report.healthy Consistent
  rw [List.isEmpty_iff, sortIssues_eq_nil, List.append_eq_nil_iff, orphanIssues_eq_nil hEnv h, List.flatMap_eq_nil_iff]
  simp only [issues_reportOf]

def sampleScan : ScanEnvironment where
  paths := sampleEnvironment.paths
  links := id
  inspect _ := .never
  hash _ := none
  lstat _ _ := none

def sampleTree (quarantine software : Directory) : Directory :=
  .dir (py "quarantine") quarantine (.dir (py "software") software (.dir (py "temporary") .nil .nil))

/-- What is below each of them. -/
def sampleContents (quarantine software : Directory) : StorageArea → Directory
  | .quarantine => quarantine
  | .software => software

theorem sampleRoots {quarantine software : Directory} (h : (sampleTree quarantine software).WellFormed IsFileName) :
    Roots sampleScan.paths (sampleTree quarantine software) (sampleContents quarantine software) := by
  refine ⟨h, ?_⟩
  intro area
  cases area with
  | quarantine => rfl
  | software => rfl

theorem corresponds_single {quarantine software : Directory} {row : ReleaseFile} {names : List PyStr} {data : Bytes}
    (hQuarantine : quarantine.WellFormed IsFileName) (hSoftware : software.WellFormed IsFileName)
    (hHere : quarantine.walkFiles (fun _ => true) = [(names, .file data)])
    (hThere : software.walkFiles (fun _ => true) = []) (hPath : row.relativeStoragePath = joinSlash names)
    (hArea : areaAllowed row.status .quarantine = true) (hSize : data.length = row.fileSizeBytes)
    (hDigest : Sha256.hexdigest data = row.sha256) :
    Corresponds (sampleContents quarantine software) ⟨[], [], [row], []⟩ := by
  have hOnly (area : StorageArea) (found : List PyStr) (leaf : Leaf) :
      (sampleContents quarantine software area).file? found = some leaf ↔
        area = .quarantine ∧ found = names ∧ leaf = .file data := by
    cases area with
    | quarantine =>
        change quarantine.file? found = some leaf ↔ _
        rw [← mem_walkFiles_all hQuarantine, hHere]
        simp
    | software =>
        change software.file? found = some leaf ↔ _
        rw [← mem_walkFiles_all hSoftware, hThere]
        simp
  have hHolds : Holds (sampleContents quarantine software) (.quarantine, names) data :=
    (hOnly .quarantine names (.file data)).mpr ⟨rfl, rfl, rfl⟩
  refine ⟨?_, ?_, ?_, ?_⟩
  · intro other hOther
    obtain rfl := List.mem_singleton.mp hOther
    refine ⟨(.quarantine, names), ⟨⟨data, hHolds⟩, hPath.symm⟩, ?_⟩
    rintro ⟨area, found⟩ ⟨⟨content, hFile⟩, -⟩
    obtain ⟨rfl, rfl, -⟩ := (hOnly area found _).mp hFile
    rfl
  · rintro ⟨area, found⟩ content hFile
    obtain ⟨rfl, rfl, -⟩ := (hOnly area found _).mp hFile
    refine ⟨row, ⟨List.mem_singleton_self row, hPath⟩, ?_⟩
    rintro other ⟨hOther, -⟩
    exact List.mem_singleton.mp hOther
  · rintro other hOther ⟨area, found⟩ content hFile -
    obtain rfl := List.mem_singleton.mp hOther
    obtain ⟨rfl, -, hContent⟩ := (hOnly area found _).mp hFile
    cases hContent
    exact ⟨hArea, hSize, hDigest⟩
  · intro area found leaf hFile
    exact ⟨data, ((hOnly area found leaf).mp hFile).2.2⟩

def storedDirectory : Directory := .dir (py "ab") (.leaf (py "setup") (.file [1, 2]) .nil) .nil

def blockingDirectory : Directory := .dir (py "ab") (.dir (py "setup") .nil .nil) .nil

/-- A file with a backslash in its name. -/
def backslashDirectory : Directory := .leaf (py "ab\\setup") (.file [1, 2]) .nil

def backslashFile : ReleaseFile := { sampleFile with relativeStoragePath := py "ab\\setup" }

/-- A second row for the first file, under another spelling of the path. -/
def respelledFile : ReleaseFile := { sampleFile with id := 2, relativeStoragePath := py "ab//setup" }

theorem verifyStorage_healthy_iff_sample :
    ∃ report, verifyStorage sampleScan true ⟨[], [], [sampleFile], []⟩ (sampleTree storedDirectory .nil) = .ok report ∧
      (([sampleFile].map fun row => posixText row.relativeStoragePath).Nodup →
        (report.healthy = true ↔ Corresponds (sampleContents storedDirectory .nil) ⟨[], [], [sampleFile], []⟩ ∧
          PlainPaths (sampleContents storedDirectory .nil) ⟨[], [], [sampleFile], []⟩)) ∧
      report.metadataCount =
        report.verifiedCount + [sampleFile].countP (deviates (sampleContents storedDirectory .nil)) := by
  apply verifyStorage_healthy_iff sampleScan ⟨[], [], [sampleFile], []⟩
  · exact ⟨fun _ => rfl, fun _ => rfl, fun _ _ => rfl⟩
  · apply sampleRoots
    decide
  · unfold StorableText
    decide

/-- The files of the first and the last state correspond to their rows and the
report is not healthy; those of the second do not, and it is. -/
theorem correspondence_not_healthy :
    ((verifyStorage sampleScan true ⟨[], [], [sampleFile], []⟩ (sampleTree storedDirectory blockingDirectory)).map
        Report.healthy = .ok false ∧
      Corresponds (sampleContents storedDirectory blockingDirectory) ⟨[], [], [sampleFile], []⟩) ∧
    ((verifyStorage sampleScan true ⟨[], [], [sampleFile, respelledFile], []⟩ (sampleTree storedDirectory .nil)).map
        Report.healthy = .ok true ∧
      ¬Corresponds (sampleContents storedDirectory .nil) ⟨[], [], [sampleFile, respelledFile], []⟩) ∧
    ((verifyStorage sampleScan true ⟨[], [], [backslashFile], []⟩ (sampleTree backslashDirectory .nil)).map
        Report.healthy = .ok false ∧
      Corresponds (sampleContents backslashDirectory .nil) ⟨[], [], [backslashFile], []⟩) := by
  refine ⟨⟨by decide +kernel, ?_⟩, ⟨by decide +kernel, ?_⟩, by decide +kernel, ?_⟩
  · exact @corresponds_single storedDirectory blockingDirectory sampleFile [py "ab", py "setup"] [1, 2]
      (by decide) (by decide) rfl rfl rfl rfl rfl rfl
  · intro hCorresponds
    obtain ⟨place, ⟨⟨data, hHolds⟩, hJoin⟩, -⟩ := hCorresponds.file respelledFile (by simp)
    have hRoots : Roots sampleScan.paths (sampleTree storedDirectory .nil) (sampleContents storedDirectory .nil) := by
      apply sampleRoots
      decide
    obtain ⟨hNil, hNames⟩ := hRoots.fileNames hHolds
    have hText := posixText_joinSlash hNil hNames
    rw [hJoin] at hText
    exact absurd hText (by decide)
  · exact @corresponds_single backslashDirectory .nil backslashFile [py "ab\\setup"] [1, 2]
      (by decide) (by decide) rfl rfl rfl rfl rfl rfl

end SoftwareHub.Reconciliation
