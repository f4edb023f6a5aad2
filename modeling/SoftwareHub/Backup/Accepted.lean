import SoftwareHub.Backup.Verification
import SoftwareHub.Semantics.Program

/-! What acceptance by the verifier says about a directory: the manifest determines
every file but its own checksum, among those that a walk reaches. -/
namespace SoftwareHub.Backup

open SoftwareHub.Python SoftwareHub.Tree SoftwareHub.Semantics

/-- A regular file of the tree is read as such. -/
theorem regularFile?_eq_some {beyond : List PyStr → Option Bytes} {tree : Directory}
    {path : List PyStr} {content : Bytes} (h : tree.file? path = some (.file content)) :
    regularFile? beyond tree path = some content := by
  rw [Forest.file?_eq_some_iff] at h
  simp [regularFile?, h]

/-- A path leads through a link only if the tree has one. -/
theorem exists_symlink_of_throughLink {tree : Directory} {path : List PyStr}
    (h : throughLink tree path = true) : ∃ above target, tree.file? above = some (.symlink target) := by
  induction path generalizing tree with
  | nil => cases tree <;> cases h
  | cons name path ih =>
      cases path with
      | nil => cases tree <;> cases h
      | cons next path =>
          rw [throughLink] at h
          cases hFind : tree.find name with
          | none => simp [hFind] at h
          | some entry =>
              cases entry with
              | leaf leaf =>
                  cases leaf with
                  | symlink target => exact ⟨[name], target, by simp [Forest.file?_cons, hFind]⟩
                  | file content => simp [hFind] at h
                  | special => simp [hFind] at h
              | dir sub =>
                  obtain ⟨above, target, hLink⟩ := ih (by simpa [hFind] using h)
                  exact ⟨name :: above, target, by simp [Forest.file?_cons, hFind, hLink]⟩

/-- All files of a tree are regular ones. -/
def AllRegular (tree : Directory) : Prop := ∀ path leaf, tree.file? path = some leaf → leaf.IsRegular

/-- Without links, nothing beyond the tree is read. -/
theorem AllRegular.regularFile?_eq {tree : Directory} (h : AllRegular tree)
    (beyond beyond' : List PyStr → Option Bytes) :
    regularFile? beyond tree = regularFile? beyond' tree := by
  funext path
  unfold regularFile?
  split
  · rfl
  · rfl
  · have hLink : throughLink tree path = false := by
      by_contra hLink
      obtain ⟨above, target, hTarget⟩ := exists_symlink_of_throughLink (Bool.not_eq_false _ ▸ hLink)
      exact h above _ hTarget
    simp [hLink]

/-- A safe path consists of its parts, none of which leads upwards. -/
theorem safeRelativePath_eq_ok {value : PyStr} {parts : List PyStr}
    (h : safeRelativePath value = .ok parts) :
    parts = pathParts value ∧ 0 ∉ value ∧ 0x5C ∉ value ∧ py ".." ∉ parts := by
  unfold safeRelativePath at h
  split_ifs at h with hInvalid hUnsafe
  simp only [not_or] at hInvalid
  simp only [Except.ok.injEq] at h
  subst h
  refine ⟨rfl, hInvalid.2.1, hInvalid.2.2, fun hUp => hUnsafe (Or.inr ?_)⟩
  exact List.any_eq_true.mpr ⟨_, hUp, by simp⟩

/-- A checked entry is a file of the tree with the declared size and digest. -/
theorem verifyEntry_eq_ok {beyond : List PyStr → Option Bytes} {tree : Directory}
    {entry : BackupEntry} {declared : PyStr} (h : verifyEntry beyond tree entry = .ok declared) :
    ∃ path content, (pathParts entry.relativePath).mapM fsname = some path ∧
      declared = asPosix (pathParts entry.relativePath) ∧
      regularFile? beyond tree path = some content ∧ content.length = entry.sizeBytes ∧
      Sha256.hexdigest content = entry.sha256 := by
  obtain ⟨parts, hParts, h⟩ := except_bind_eq_ok h
  obtain ⟨rfl, -⟩ := safeRelativePath_eq_ok hParts
  split at h
  · cases h
  · rename_i path hPath
    split at h
    · cases h
    · rename_i content hContent
      obtain ⟨_, hLength, h⟩ := except_bind_eq_ok h
      obtain ⟨_, hDigest, h⟩ := except_bind_eq_ok h
      cases h
      exact ⟨path, content, hPath, rfl, hContent, require_eq_ok_iff.mp hLength,
        require_eq_ok_iff.mp hDigest⟩

/-- The loop has checked every declared entry. -/
theorem verifyEntries_eq_ok {beyond : List PyStr → Option Bytes} {tree : Directory}
    {entries : List BackupEntry} {declared : List PyStr}
    (h : verifyEntries beyond tree entries = .ok declared) :
    (∀ entry ∈ entries, ∃ text ∈ declared, verifyEntry beyond tree entry = .ok text) ∧
      ∀ text ∈ declared, ∃ entry ∈ entries, verifyEntry beyond tree entry = .ok text := by
  induction entries generalizing declared with
  | nil =>
      cases h
      simp
  | cons entry entries ih =>
      obtain ⟨text, hText, h⟩ := except_bind_eq_ok h
      obtain ⟨texts, hTexts, h⟩ := except_bind_eq_ok h
      cases h
      obtain ⟨ihEntries, ihTexts⟩ := ih hTexts
      simp only [List.mem_cons, forall_eq_or_imp, exists_eq_or_imp]
      exact ⟨⟨Or.inl hText, fun other hm => Or.inr (ihEntries other hm)⟩,
        Or.inl hText, fun other hm => Or.inr (ihTexts other hm)⟩

/-- The walk reports all listed files, and there are no others but regular ones
among them. -/
theorem actualFiles_eq_ok {listable : List PyStr → Bool} {tree : Directory} (hTree : tree.WellFormed IsFileName)
    {actual : List PyStr} (h : actualFiles tree listable = .ok actual) :
    (∀ path leaf, tree.file? path = some leaf → Forest.Listed listable path → leaf.IsRegular) ∧ ∀ text, text ∈ actual ↔
      ∃ path leaf, tree.file? path = some leaf ∧ Forest.Listed listable path ∧ joinSlash path = text := by
  have hWalk (path : List PyStr) (leaf : Leaf) : (path, leaf) ∈ tree.listedFiles listable (fun _ => true) ↔
      tree.file? path = some leaf ∧ Forest.Listed listable path := by
    rw [Forest.mem_listedFiles_iff hTree]
    simp [Forest.Entered]
  unfold actualFiles at h
  simp only at h
  split_ifs at h with hRegular
  simp only [Except.ok.injEq] at h
  subst h
  refine ⟨fun path leaf hFile hListed => ?_, fun text => ?_⟩
  · simpa using List.all_eq_true.mp hRegular _ ((hWalk path leaf).mpr ⟨hFile, hListed⟩)
  · simp only [List.mem_map, Prod.exists, hWalk, and_assoc]

/-- Everything the verifier has checked when it returns a report. Of the files
in directories it cannot list it knows nothing. -/
structure Accepted (python : Interpreter) (sqlite : Sqlite) (listable : List PyStr → Bool) (tree : Directory)
    (id : PyStr) (payload : Bytes) (manifest : BackupManifest) : Prop where
  validId : fullMatch backupIdPattern (strip id) = true
  regular : ∀ path leaf, tree.file? path = some leaf → Forest.Listed listable path → leaf.IsRegular
  manifestFile : tree.file? [manifestName] = some (.file payload)
  manifestSize : payload.length ≤ maxManifestBytes
  parsed : parseManifest python payload = .ok manifest
  sameId : manifest.backupId = id
  declaredFile : ∀ entry ∈ manifest.entries, ∃ path content,
    (pathParts entry.relativePath).mapM fsname = some path ∧ tree.file? path = some (.file content) ∧
      content.length = entry.sizeBytes ∧ Sha256.hexdigest content = entry.sha256
  declared : ∀ path leaf, tree.file? path = some leaf → Forest.Listed listable path → path = [manifestName] ∨
    path = [manifestChecksumName] ∨ ∃ entry ∈ manifest.entries, pathParts entry.relativePath = path
  topListable : listable [] = true
  sound : sqliteIntegrityCheck sqlite (databaseFiles tree) = .ok ()
  revision : sqliteSchemaRevision sqlite (databaseFiles tree) = .ok manifest.databaseRevision

/-- The manifest and its checksum are read and agree. -/
theorem verifyChecksum_eq_ok {beyond : List PyStr → Option Bytes} {tree : Directory}
    {payload : Bytes} (h : verifyChecksum beyond tree = .ok payload) :
    regularFile? beyond tree [manifestName] = some payload ∧ payload.length ≤ maxManifestBytes ∧
      ∃ checksum, regularFile? beyond tree [manifestChecksumName] = some checksum ∧
        parseChecksum checksum = .ok (Sha256.hexdigest payload) := by
  unfold verifyChecksum at h
  split at h
  · cases h
  · rename_i found hManifest
    split_ifs at h with hSize
    split at h
    · cases h
    · rename_i checksum hChecksum
      obtain ⟨digest, hDigest, h⟩ := except_bind_eq_ok h
      obtain ⟨_, hEqual, h⟩ := except_bind_eq_ok h
      cases h
      exact ⟨hManifest, by omega, checksum, hChecksum, by rw [hDigest, require_eq_ok_iff.mp hEqual]⟩

/-- The comparison of two sets of paths. -/
theorem sameElements_iff {first second : List PyStr} :
    sameElements first second = true ↔ ∀ text, text ∈ first ↔ text ∈ second := by
  simp only [sameElements, Bool.and_eq_true, List.all_eq_true, decide_eq_true_eq]
  exact ⟨fun h text => ⟨h.1 text, h.2 text⟩, fun h => ⟨fun text => (h text).1, fun text => (h text).2⟩⟩

/-- The two files of the manifest have names of files. -/
theorem isFileName_manifestNames :
    IsFileName manifestName ∧ IsFileName manifestChecksumName := by decide

variable {python : Interpreter} {sqlite : Sqlite}

/-- A listed file that the verifier reads is the regular file of the tree. -/
theorem file?_of_regularFile? {beyond : List PyStr → Option Bytes} {tree : Directory} {path : List PyStr} {leaf : Leaf}
    {content : Bytes} (hLeaf : tree.file? path = some leaf) (hRegular : leaf.IsRegular)
    (hFile : regularFile? beyond tree path = some content) : tree.file? path = some (.file content) := by
  cases leaf with
  | file found =>
      rw [regularFile?_eq_some hLeaf, Option.some.injEq] at hFile
      rw [hLeaf, hFile]
  | symlink target => exact hRegular.elim
  | special => exact hRegular.elim

/-- A returning verification has made every check. -/
theorem accepted_of_verifyDirectory {listable : List PyStr → Bool} {beyond : List PyStr → Option Bytes}
    {tree : Directory} (hTree : tree.WellFormed IsFileName) {id : PyStr} {report : BackupVerificationReport}
    (h : verifyDirectory python sqlite listable beyond (some (.dir tree)) id = .ok report) :
    ∃ payload manifest, Accepted python sqlite listable tree id payload manifest ∧ report = manifest.report := by
  obtain ⟨safeId, hId, h⟩ := except_bind_eq_ok h
  obtain ⟨manifest, hContent, h⟩ := except_bind_eq_ok h
  obtain ⟨payload, hPayload, hContent⟩ := except_bind_eq_ok hContent
  obtain ⟨_, hParsed, hContent⟩ := except_bind_eq_ok hContent
  obtain ⟨hManifest, hSize, checksum, hChecksum, -⟩ := verifyChecksum_eq_ok hPayload
  obtain ⟨_, hSameId, hContent⟩ := except_bind_eq_ok hContent
  obtain ⟨declared, hDeclared, hContent⟩ := except_bind_eq_ok hContent
  obtain ⟨actual, hActual, hContent⟩ := except_bind_eq_ok hContent
  obtain ⟨hRegular, hMem⟩ := actualFiles_eq_ok hTree hActual
  obtain ⟨_, hSame, hContent⟩ := except_bind_eq_ok hContent
  cases hContent
  obtain ⟨sound, hSound, h⟩ := except_bind_eq_ok h
  obtain ⟨revision, hRevision, h⟩ := except_bind_eq_ok h
  obtain ⟨_, hSameRevision, h⟩ := except_bind_eq_ok h
  rw [require_eq_ok_iff] at hSameId hSame hSameRevision
  obtain ⟨hEntries, hTexts⟩ := verifyEntries_eq_ok hDeclared
  -- What is expected has been found by the walk.
  have hSeen {text : PyStr} (hText : text ∈ manifestName :: manifestChecksumName :: declared) : ∃ path leaf,
      tree.file? path = some leaf ∧ Forest.Listed listable path ∧ joinSlash path = text ∧ path ≠ [] ∧
        ∀ name ∈ path, IsFileName name := by
    obtain ⟨path, leaf, hFile, hListed, hJoin⟩ := (hMem _).mp ((sameElements_iff.mp hSame _).mpr hText)
    refine ⟨path, leaf, hFile, hListed, hJoin, ?_, (hTree.node? ((Forest.file?_eq_some_iff _ _ _).mp hFile)).1⟩
    rintro rfl
    simp at hFile
  have hManifestSeen : ∃ leaf, tree.file? [manifestName] = some leaf ∧ Forest.Listed listable [manifestName] := by
    obtain ⟨path, leaf, hFile, hListed, hJoin, -, hNames⟩ := hSeen List.mem_cons_self
    have hTop : ∀ part ∈ [manifestName], IsFileName part := by simpa using isFileName_manifestNames.1
    obtain rfl := joinSlash_injective hNames hTop hJoin
    exact ⟨leaf, hFile, hListed⟩
  obtain ⟨manifestLeaf, hManifestLeaf, hManifestListed⟩ := hManifestSeen
  refine ⟨payload, manifest, ⟨?_, hRegular, ?_, hSize, hParsed, hSameId, ?_, ?_,
    hManifestListed [] List.nil_prefix (by simp), hSound, hSameRevision ▸ hRevision⟩, ?_⟩
  · unfold safeBackupId at hId
    split_ifs at hId with hMatch
    exact hMatch
  · exact file?_of_regularFile? hManifestLeaf (hRegular _ _ hManifestLeaf hManifestListed) hManifest
  · intro entry hEntry
    obtain ⟨text, hText, hVerified⟩ := hEntries entry hEntry
    obtain ⟨path, content, hPath, hPosix, hFile, hLength, hDigest⟩ := verifyEntry_eq_ok hVerified
    obtain ⟨found, leaf, hFound, hListed, hJoin, hNil, hNames⟩ :=
      hSeen (List.mem_cons_of_mem _ (List.mem_cons_of_mem _ hText))
    have hParts := eq_of_asPosix_eq_joinSlash hNil hNames (hPosix.symm.trans hJoin.symm)
    rw [hParts, mapM_fsname_of_fileNames hNames, Option.some.injEq] at hPath
    subst hPath
    exact ⟨found, content, by rw [hParts, mapM_fsname_of_fileNames hNames],
      file?_of_regularFile? hFound (hRegular _ _ hFound hListed) hFile, hLength, hDigest⟩
  · intro path leaf hFile hListed
    have hNil : path ≠ [] := by
      rintro rfl
      simp at hFile
    have hNames := (hTree.node? ((Forest.file?_eq_some_iff _ _ _).mp hFile)).1
    have hExpected : joinSlash path ∈ manifestName :: manifestChecksumName :: declared :=
      (sameElements_iff.mp hSame _).mp ((hMem _).mpr ⟨path, leaf, hFile, hListed, rfl⟩)
    simp only [List.mem_cons] at hExpected
    rcases hExpected with hText | hText | hText
    · exact Or.inl (joinSlash_injective hNames (by simpa using isFileName_manifestNames.1) hText)
    · exact Or.inr (Or.inl (joinSlash_injective hNames (by simpa using isFileName_manifestNames.2) hText))
    · obtain ⟨entry, hEntry, hVerified⟩ := hTexts _ hText
      obtain ⟨-, -, -, hPosix, -⟩ := verifyEntry_eq_ok hVerified
      exact Or.inr (Or.inr ⟨entry, hEntry, eq_of_asPosix_eq_joinSlash hNil hNames hPosix.symm⟩)
  · cases h
    rfl

/-- Where everything can be listed, an accepted directory has regular files only. -/
theorem Accepted.allRegular {tree : Directory} {id : PyStr} {payload : Bytes} {manifest : BackupManifest}
    (h : Accepted python sqlite allListable tree id payload manifest) : AllRegular tree := by
  intro path leaf hFile
  exact h.regular path leaf hFile (Forest.listed_of_forall (fun _ => rfl) path)

/-- Acceptance does not depend on what lies beyond links. -/
theorem verifyDirectory_beyond {beyond beyond' : List PyStr → Option Bytes} {tree : Directory}
    (hRegular : AllRegular tree) (id : PyStr) :
    verifyDirectory python sqlite allListable beyond (some (.dir tree)) id =
      verifyDirectory python sqlite allListable beyond' (some (.dir tree)) id := by
  have hRead := hRegular.regularFile?_eq beyond beyond'
  have hEntries (entries : List BackupEntry) :
      verifyEntries beyond tree entries = verifyEntries beyond' tree entries := by
    induction entries with
    | nil => rfl
    | cons entry entries ih => simp only [verifyEntries, verifyEntry, hRead, ih]
  simp only [verifyDirectory, verifyTree, verifyContent, verifyChecksum, hRead, hEntries]

/-- The components of a file's path are names of files. -/
theorem fileNames_of_file? {tree : Directory} (hTree : tree.WellFormed IsFileName)
    {path : List PyStr} {leaf : Leaf} (h : tree.file? path = some leaf) :
    ∀ name ∈ path, IsFileName name :=
  (hTree.node? ((Forest.file?_eq_some_iff _ _ _).mp h)).1

/-- A listed file of an accepted directory has a twin of equal digest in every
directory accepted with the same manifest. -/
theorem Accepted.exists_twin {listable listable' : List PyStr → Bool} {tree other : Directory}
    (hTree : tree.WellFormed IsFileName) {id : PyStr} {payload : Bytes} {manifest : BackupManifest} {sqlite' : Sqlite}
    (h : Accepted python sqlite listable tree id payload manifest)
    (hOther : Accepted python sqlite' listable' other id payload manifest) {path : List PyStr} {leaf : Leaf}
    (hFile : tree.file? path = some leaf) (hListed : Forest.Listed listable path) (hPath : path ≠ [manifestChecksumName]) :
    ∃ content twin, leaf = .file content ∧ other.file? path = some (.file twin) ∧
      Sha256.hexdigest content = Sha256.hexdigest twin := by
  rcases h.declared path leaf hFile hListed with rfl | hChecksum | ⟨entry, hEntry, hParts⟩
  · rw [h.manifestFile, Option.some.injEq] at hFile
    exact ⟨payload, payload, hFile.symm, hOther.manifestFile, rfl⟩
  · exact (hPath hChecksum).elim
  · have hNames := mapM_fsname_of_fileNames (fileNames_of_file? hTree hFile)
    obtain ⟨path₁, content, hPath₁, hContent, -, hDigest⟩ := h.declaredFile entry hEntry
    obtain ⟨path₂, twin, hPath₂, hTwin, -, hTwinDigest⟩ := hOther.declaredFile entry hEntry
    rw [hParts, hNames, Option.some.injEq] at hPath₁ hPath₂
    subst hPath₁ hPath₂
    rw [hContent, Option.some.injEq] at hFile
    exact ⟨content, twin, hFile.symm, hTwin, hDigest.trans hTwinDigest.symm⟩

/-- Different contents among those of two directories have different digests. -/
def CollisionFree (first second : Directory) : Prop :=
  ∀ path path' content content', first.file? path = some (.file content) →
    second.file? path' = some (.file content') →
      Sha256.hexdigest content = Sha256.hexdigest content' → content = content'

/-- The two directories can be exchanged. -/
theorem CollisionFree.symm {first second : Directory} (h : CollisionFree first second) : CollisionFree second first :=
  fun path path' content content' hSecond hFirst hDigest =>
    (h path' path content' content hFirst hSecond hDigest.symm).symm

/-- Both directories have the same regular file at a path, or none. -/
def SameFileAt (first second : Directory) (path : List PyStr) : Prop :=
  ∀ content, first.file? path = some (.file content) ↔ second.file? path = some (.file content)

/-- A listed file of an accepted directory is in every directory accepted with the same manifest. -/
theorem Accepted.file?_of_listed {listable listable' : List PyStr → Bool} {tree other : Directory}
    (hTree : tree.WellFormed IsFileName) {id : PyStr} {payload : Bytes} {manifest : BackupManifest} {sqlite' : Sqlite}
    (h : Accepted python sqlite listable tree id payload manifest)
    (hOther : Accepted python sqlite' listable' other id payload manifest) (hCollision : CollisionFree tree other)
    {path : List PyStr} (hListed : Forest.Listed listable path) (hPath : path ≠ [manifestChecksumName]) {content : Bytes}
    (hFile : tree.file? path = some (.file content)) : other.file? path = some (.file content) := by
  obtain ⟨found, twin, hFound, hTwin, hDigest⟩ := h.exists_twin hTree hOther hFile hListed hPath
  cases hFound
  rw [hTwin, hCollision path path content twin hFile hTwin hDigest]

/-- Two accepted directories with the same `manifest.json` hold the same
regular files, apart from `manifest.sha256`, exactly when they hold the same
ones below the directories that the verifier could not list. -/
theorem files_eq_of_manifest_eq_iff {sqlite' : Sqlite} {listable listable' : List PyStr → Bool}
    {beyond beyond' : List PyStr → Option Bytes} {first second : Directory} {id : PyStr}
    {report report' : BackupVerificationReport} (hFirst : first.WellFormed IsFileName)
    (hSecond : second.WellFormed IsFileName)
    (hAccepted : verifyDirectory python sqlite listable beyond (some (.dir first)) id = .ok report)
    (hAccepted' : verifyDirectory python sqlite' listable' beyond' (some (.dir second)) id = .ok report')
    (hManifest : first.file? [manifestName] = second.file? [manifestName])
    (hCollision : CollisionFree first second) :
    (∀ path ≠ [manifestChecksumName], SameFileAt first second path) ↔
      ∀ path, ¬(Forest.Listed listable path ∧ Forest.Listed listable' path) → SameFileAt first second path := by
  obtain ⟨payload, manifest, h, -⟩ := accepted_of_verifyDirectory hFirst hAccepted
  obtain ⟨payload', manifest', h', -⟩ := accepted_of_verifyDirectory hSecond hAccepted'
  -- equal manifest bytes parse to equal manifests
  rw [h.manifestFile, h'.manifestFile, Option.some.injEq, Leaf.file.injEq] at hManifest
  subst hManifest
  obtain rfl : manifest = manifest' := by simpa [h.parsed] using h'.parsed
  constructor
  · intro hSame path hHidden
    apply hSame
    rintro rfl
    -- the checksum file is at the top, which both walks have listed
    have hTop {mask : List PyStr → Bool} (hMask : mask [] = true) : Forest.Listed mask [manifestChecksumName] := by
      intro above hAbove hNe
      rcases List.prefix_cons_iff.mp hAbove with rfl | ⟨rest, rfl, hRest⟩
      · exact hMask
      · rw [List.prefix_nil.mp hRest] at hNe
        exact (hNe rfl).elim
    exact hHidden ⟨hTop h.topListable, hTop h'.topListable⟩
  · intro hHidden path hPath
    by_cases hListed : Forest.Listed listable path ∧ Forest.Listed listable' path
    · intro content
      exact ⟨h.file?_of_listed hFirst h' hCollision hListed.1 hPath,
        h'.file?_of_listed hSecond h hCollision.symm hListed.2 hPath⟩
    · exact hHidden path hListed

/-- An interpreter that prints every float alike, and no container. -/
def samplePython : Interpreter where
  floatRepr _ := py "0.0"
  containerRepr _ := none
  maxDepth := 1000
  three_le_maxDepth := by decide

def sampleDatabase : Bytes := (py "SQLite format 3").map UInt8.ofNat ++ [0]

/-- Knows one database, and nothing of its side files. -/
def sampleSqlite : Sqlite where
  integrityCheck files :=
    if files.main = some (.file sampleDatabase) then some (some (py "ok")) else none
  schemaVersion files :=
    if files.main = some (.file sampleDatabase) then some (some (py "20260714_0001")) else none
  backup files := if files.main = some (.file sampleDatabase) then some sampleDatabase else none
  opened := id
  opened_main _ := rfl
  opened_backup _ _ _ := rfl

def sampleId : PyStr := py "software-hub-backup-20260714T101500000000Z-0123abcd"

/-- A manifest with the database alone. -/
def sampleManifest : BackupManifest where
  backupId := sampleId
  createdAt := {
    year := 2026
    month := 7
    day := 14
    hour := 10
    minute := 15
    second := 0
    microsecond := 0
    utcoffset := some 0
    year_range := by decide
    month_range := by decide
    day_range := by decide
    clock_range := by decide
    offset_range := by decide }
  appVersion := py "1.0.0"
  databaseRevision := py "20260714_0001"
  entries := [⟨joinSlash databaseEntryPath, sampleDatabase.length, Sha256.hexdigest sampleDatabase⟩]

def samplePayload : Bytes :=
  match manifestPayload samplePython sampleManifest with
  | .ok payload => payload
  | .error _ => []

def sampleChecksum : Bytes :=
  (Sha256.hexdigest samplePayload ++ py "  " ++ manifestName ++ [0x0A]).map UInt8.ofNat

/-- Without the directory `storage`, as a copy that keeps no empty directories leaves it. -/
def sampleFiles : Directory :=
  .dir (py "database") (.leaf databaseName (.file sampleDatabase) .nil)
    (.leaf manifestName (.file samplePayload) (.leaf manifestChecksumName (.file sampleChecksum) .nil))

/-- The directory with an empty directory `storage`. -/
def sampleTree : Directory :=
  .dir (py "storage") .nil sampleFiles

/-- With a file in `storage` that the manifest does not declare. -/
def smuggledTree : Directory :=
  .dir (py "storage") (.leaf (py "a") (.file [1]) .nil) sampleFiles

/-- The directory `storage` cannot be listed. -/
def storageUnlistable (path : List PyStr) : Bool := path ≠ [py "storage"]

theorem sampleTree_wellFormed : sampleTree.WellFormed IsFileName := by decide

theorem smuggledTree_wellFormed : smuggledTree.WellFormed IsFileName := by decide

/-- The contents of all regular files. -/
def storedContents (tree : Directory) : List Bytes :=
  (tree.walkFiles fun _ => true).filterMap fun file => match file.2 with
    | .file content => some content
    | _ => none

-- One evaluation for all the facts, since each of them hashes the same manifest.
/-- The verifier accepts all three directories, the third where it cannot list the
directory `storage`. -/
theorem samples_evaluated :
    (verifyDirectory samplePython sampleSqlite allListable (fun _ => none) (some (.dir sampleFiles)) sampleId =
        .ok sampleManifest.report ∧
      verifyDirectory samplePython sampleSqlite allListable (fun _ => none) (some (.dir sampleTree)) sampleId =
        .ok sampleManifest.report ∧
      verifyDirectory samplePython sampleSqlite storageUnlistable (fun _ => none) (some (.dir smuggledTree)) sampleId =
        .ok sampleManifest.report) ∧
    ∀ content ∈ storedContents sampleTree, ∀ content' ∈ storedContents smuggledTree,
      Sha256.hexdigest content = Sha256.hexdigest content' → content = content' := by decide +kernel

theorem verify_sampleFiles : verifyDirectory samplePython sampleSqlite allListable (fun _ => none)
    (some (.dir sampleFiles)) sampleId = .ok sampleManifest.report := samples_evaluated.1.1

theorem verify_sampleTree : verifyDirectory samplePython sampleSqlite allListable (fun _ => none)
    (some (.dir sampleTree)) sampleId = .ok sampleManifest.report := samples_evaluated.1.2.1

/-- The content of a regular file is among those. -/
theorem mem_storedContents {tree : Directory} (hTree : tree.WellFormed IsFileName) {path : List PyStr}
    {content : Bytes} (h : tree.file? path = some (.file content)) : content ∈ storedContents tree :=
  List.mem_filterMap.mpr ⟨(path, .file content),
    (Forest.mem_walkFiles_iff hTree _ _ _).mpr ⟨h, by simp [Forest.Entered]⟩, rfl⟩

/-- The contents of the two directories have different digests. -/
theorem sample_collisionFree : CollisionFree sampleTree smuggledTree := by
  intro path path' content content' hFile hFile'
  exact samples_evaluated.2 _ (mem_storedContents sampleTree_wellFormed hFile) _
    (mem_storedContents smuggledTree_wellFormed hFile')

/-- A file that the manifest does not declare goes unnoticed where the verifier cannot list. -/
theorem smuggled_file_accepted :
    verifyDirectory samplePython sampleSqlite allListable (fun _ => none) (some (.dir sampleTree)) sampleId =
        .ok sampleManifest.report ∧
      verifyDirectory samplePython sampleSqlite storageUnlistable (fun _ => none) (some (.dir smuggledTree)) sampleId =
        .ok sampleManifest.report ∧
      sampleTree.file? [manifestName] = smuggledTree.file? [manifestName] ∧
      ¬SameFileAt sampleTree smuggledTree [py "storage", py "a"] := by
  refine ⟨samples_evaluated.1.2.1, samples_evaluated.1.2.2, rfl, fun hSame => ?_⟩
  have hFile : sampleTree.file? [py "storage", py "a"] = some (.file [1]) := (hSame [1]).mpr rfl
  cases hFile

theorem files_eq_of_manifest_eq_iff_sample :
    (∀ path ≠ [manifestChecksumName], SameFileAt sampleTree smuggledTree path) ↔
      ∀ path, ¬(Forest.Listed allListable path ∧ Forest.Listed storageUnlistable path) →
        SameFileAt sampleTree smuggledTree path :=
  files_eq_of_manifest_eq_iff sampleTree_wellFormed smuggledTree_wellFormed samples_evaluated.1.2.1
    samples_evaluated.1.2.2 rfl sample_collisionFree

end SoftwareHub.Backup
