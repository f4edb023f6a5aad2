import Mathlib.Algebra.Order.BigOperators.Group.List
import SoftwareHub.Backup.ManifestRoundTrip
import SoftwareHub.Backup.Populated
import SoftwareHub.Backup.AtomicCreation
import SoftwareHub.Storage.Filename

/-! A backup that was just written passes verification, as long as its manifest is
not too large. -/
namespace SoftwareHub.Backup

open SoftwareHub.Python SoftwareHub.Tree SoftwareHub.Semantics

/-- Copying succeeds for regular files that stand beside each other in some
tree, into a place where nothing is in their way. -/
theorem exists_copyFiles {folder : PyStr} (hFolder : IsFileName folder) {source : Directory}
    {files : List (List PyStr × Leaf)} (hFiles : ∀ file ∈ files, source.file? file.1 = some file.2)
    (hRegular : ∀ file ∈ files, file.2.IsRegular) (hNames : ∀ file ∈ files, ∀ name ∈ file.1, IsFileName name)
    (hDistinct : (files.map (·.1)).Nodup) {tree : Directory} (hTree : tree.WellFormed IsFileName)
    (hFree : ∀ file ∈ files, tree.node? (folder :: file.1) = none ∧
      ∀ above, above <+: folder :: file.1 → tree.file? above = none) :
    ∃ result, copyFiles folder files tree = .ok result := by
  induction files generalizing tree with
  | nil => exact ⟨_, rfl⟩
  | cons file files ih =>
      obtain ⟨path, leaf⟩ := file
      obtain ⟨hFresh, hRestDistinct⟩ := List.nodup_cons.mp hDistinct
      obtain ⟨content, rfl⟩ : ∃ content, leaf = .file content := by
        have hLeaf := hRegular (path, leaf) (by simp)
        cases leaf with
        | file content => exact ⟨content, rfl⟩
        | symlink target => exact hLeaf.elim
        | special => exact hLeaf.elim
      have hHere := hFree (path, .file content) (by simp)
      have hPath : ∀ name ∈ folder :: path, IsFileName name :=
        List.forall_mem_cons.mpr ⟨hFolder, hNames (path, .file content) (by simp)⟩
      obtain ⟨next, hCreate⟩ := Forest.exists_create (.leaf (.file content)) (by simp) hHere.1 hHere.2
      have hCopy : copyRegularFile (.file content) (folder :: path) tree =
          .ok (next, content.length, Sha256.hexdigest content) := by
        simp [copyRegularFile, hCreate]
      -- no other file of the source lies above or below this one
      have hBeside {other : List PyStr} {stored : Leaf} (hOther : (other, stored) ∈ files) :
          ¬other <+: path ∧ ¬path <+: other := by
        have hStored := hFiles (other, stored) (by simp [hOther])
        have hThis := hFiles (path, .file content) (by simp)
        have hNe : other ≠ path := fun h => hFresh (h ▸ List.mem_map.mpr ⟨_, hOther, rfl⟩)
        exact ⟨fun h => hNe (Forest.eq_of_nested_files hStored hThis h),
          fun h => hNe (Forest.eq_of_nested_files hThis hStored h).symm⟩
      obtain ⟨⟨result, entries⟩, hRest⟩ := ih (fun other hm => hFiles other (by simp [hm]))
        (fun other hm => hRegular other (by simp [hm])) (fun other hm => hNames other (by simp [hm])) hRestDistinct
        (hTree.create hPath (by simp [Forest.Node.WellFormed]) hCreate) fun other hOther => by
          obtain ⟨hNone, hAbove⟩ := hFree other (by simp [hOther])
          obtain ⟨hNotAbove, hNotBelow⟩ := @hBeside other.1 other.2 hOther
          refine ⟨Forest.node?_create_eq_none hTree hCreate hNone fun h => hNotAbove ?_, fun above h => ?_⟩
          · exact (List.cons_prefix_cons.mp h).2
          · rw [Forest.file?_create hTree hCreate, if_neg fun hEq => hNotBelow ?_, hAbove above h]
            exact (List.cons_prefix_cons.mp (hEq ▸ h)).2
      exact ⟨_, by simp only [copyFiles, hCopy, hRest, bind, Except.bind, pure, Except.pure]; rfl⟩

/-- No file of the storage is listed twice. -/
theorem nodup_storageFiles {listable : List PyStr → Bool} {root : Directory} (hRoot : root.WellFormed IsFileName)
    (temporaryRelative : List PyStr) : ((storageFiles listable temporaryRelative root).map (·.1)).Nodup :=
  (List.filter_sublist.map _).nodup (Forest.nodup_listedFiles hRoot _ _)

theorem nodup_configTemplates {listable : List PyStr → Bool} {project : Directory}
    (hProject : project.WellFormed IsFileName) : ((configTemplates listable project).map (·.1)).Nodup := by
  have hNames : templateNames.Nodup ∧ py "nginx" ∉ templateNames := by decide
  rw [configTemplates, List.map_append, List.nodup_append, List.map_filterMap]
  have hSingle {name : PyStr} {path : List PyStr} {leaf : Option (List PyStr × Leaf)}
      (hLeaf : ∀ file, leaf = some file → file.1 = [name]) (h : path ∈ leaf.map (·.1)) : path = [name] := by
    obtain ⟨file, hFile, rfl⟩ := Option.map_eq_some_iff.mp h
    exact hLeaf file hFile
  refine ⟨hNames.1.filterMap fun name other path hName hOther => ?_, ?_, ?_⟩
  · refine List.singleton_inj.mp ((hSingle ?_ hName).symm.trans (hSingle ?_ hOther))
    all_goals
      intro file hFile
      split at hFile
      · exact Option.some.inj hFile ▸ rfl
      · cases hFile
  · cases hFind : project.find (py "nginx") with
    | none => simp
    | some entry =>
        cases entry with
        | leaf leaf => simp
        | dir nginx =>
            have hWalk := Forest.nodup_listedFiles (hProject.find_dir hFind) listable fun _ => true
            have hFolder := hWalk.map (f := fun path => py "nginx" :: path) fun a b h => by simpa using h
            simpa [List.map_map, Function.comp_def] using hFolder
  · rintro path hPath other hOther rfl
    obtain ⟨name, hName, hSome⟩ := List.mem_filterMap.mp hPath
    obtain rfl : path = [name] := by
      refine hSingle ?_ hSome
      intro file hFile
      split at hFile
      · exact Option.some.inj hFile ▸ rfl
      · cases hFile
    cases hFind : project.find (py "nginx") with
    | none => simp [hFind] at hOther
    | some entry =>
        cases entry with
        | leaf leaf => simp [hFind] at hOther
        | dir nginx =>
            simp only [hFind, List.map_map, List.mem_map, Function.comp_apply, List.cons.injEq] at hOther
            obtain ⟨_, -, hEq, -⟩ := hOther
            exact hNames.2 (hEq ▸ hName)

/-- A storage of regular files and a sound database can be copied. -/
theorem exists_populateBackup {sqlite : Sqlite} {settings : Settings} {listable : Listable} {database : DatabaseFiles}
    {root : Directory} (hRoot : root.WellFormed IsFileName) {temporaryRelative : List PyStr}
    (hTemporary : settings.temporaryRelative = some temporaryRelative)
    (hStorage : ∀ file ∈ storageFiles listable.storage temporaryRelative root, file.2.IsRegular)
    (hTemplates : ∀ file ∈ configTemplates listable.nginx settings.projectRoot, file.2.IsRegular) {copy : Bytes}
    (hCopy : backupSqlite sqlite database = .ok copy) :
    ∃ tree entries, populateBackup sqlite settings listable (some (.dir root)) database = .ok (tree, entries) := by
  obtain ⟨hStorageName, hConfigName, hDatabaseFolder, hDatabaseName⟩ := isFileName_folders
  let start : Directory := .dir (py "database") (.leaf databaseName (.file copy) .nil) .nil
  let first : Directory := start.put storageFolder (some (.dir .nil))
  have hFolders : storageFolder ≠ py "database" ∧ configFolder ≠ py "database" ∧
      configFolder ≠ storageFolder := by decide
  have hStart : start.WellFormed IsFileName :=
    ⟨hDatabaseFolder, by simp [Forest.names], ⟨hDatabaseName, by simp [Forest.names], trivial⟩, trivial⟩
  have hCreate : start.create [storageFolder] (.dir .nil) = some first := by
    simp [Forest.create, start, first, Forest.find, hFolders.1.symm]
  have hFirst : first.WellFormed IsFileName :=
    hStart.create (by simpa using hStorageName) (by simp [Forest.Node.WellFormed, Forest.WellFormed]) hCreate
  have hFirstFind : first.find storageFolder = some (.dir .nil) := Forest.find_put_self hStart _ _
  have hEmpty (tail : List PyStr) : (Forest.nil : Directory).file? tail = none := by
    cases tail <;> simp [Forest.file?_cons, Forest.find]
  have hStorageMem {file : List PyStr × Leaf} (hFile : file ∈ storageFiles listable.storage temporaryRelative root) :=
    (mem_storageFiles hRoot file.1 file.2).mp hFile
  obtain ⟨⟨second, storageEntries⟩, hSecond⟩ := exists_copyFiles hStorageName
    (fun file hFile => (hStorageMem hFile).1) hStorage (fun file hFile => (storageFiles_paths hRoot file hFile).2)
    (nodup_storageFiles hRoot temporaryRelative) hFirst fun file hFile => by
      obtain ⟨name, tail, hPath⟩ := List.exists_cons_of_ne_nil (storageFiles_paths hRoot file hFile).1
      refine ⟨by simp [Forest.node?_cons, hFirstFind, hPath, Forest.find], fun above hAbove => ?_⟩
      rcases above with _ | ⟨head, above⟩
      · simp
      · rw [(List.cons_prefix_cons.mp hAbove).1, Forest.file?_cons, hFirstFind]
        exact hEmpty above
  obtain ⟨hSecondFormed, -, -, -, hSecondOther, -⟩ :=
    copyFiles_spec hStorageName (storageFiles_paths hRoot) hFirst hSecond
  have hSecondFind : second.find configFolder = none := by
    rw [hSecondOther _ hFolders.2.2, Forest.find_create_of_ne hCreate hFolders.2.2]
    simp [start, Forest.find, hFolders.2.1.symm]
  obtain ⟨⟨third, configEntries⟩, hThird⟩ := exists_copyFiles hConfigName
    (fun file hFile => file?_of_mem_configTemplates settings.projectRoot_wellFormed hFile) hTemplates
    (fun file hFile => (configTemplates_paths settings.projectRoot_wellFormed file hFile).2)
    (nodup_configTemplates settings.projectRoot_wellFormed) hSecondFormed fun file _ => by
      refine ⟨by simp [Forest.node?_cons, hSecondFind], fun above hAbove => ?_⟩
      rcases above with _ | ⟨head, above⟩
      · simp
      · rw [(List.cons_prefix_cons.mp hAbove).1, Forest.file?_cons, hSecondFind]
  have hCopyStorage : copyStorage settings listable.storage (some (.dir root)) start = .ok (second, storageEntries) := by
    simp [copyStorage, hCreate, hTemporary, hSecond]
  refine ⟨third, ⟨joinSlash databaseEntryPath, copy.length, Sha256.hexdigest copy⟩ ::
    (storageEntries ++ configEntries), ?_⟩
  have hStartEq : Forest.dir (py "database") (.leaf databaseName (.file copy) .nil) .nil = start := rfl
  simp [populateBackup, hCopy, hStartEq, hCopyStorage, hThird, bind, Except.bind, pure, Except.pure]

section Manifest

variable {sqlite : Sqlite} {settings : Settings} {listable : Listable} {storage : Option Entry} {database : DatabaseFiles}
  {tree : Directory} {entries : List BackupEntry} {copy : Bytes} {root : Directory}
  {temporaryRelative : List PyStr}

/-- All files of the backup have plain names. -/
def PlainPaths (files : List (List PyStr × Leaf)) : Prop := ∀ file ∈ files, ∀ name ∈ file.1, PlainName name

/-- The folders of a backup have plain names. -/
theorem plainName_folders : PlainName storageFolder ∧ PlainName configFolder ∧
    ∀ name ∈ databaseEntryPath, PlainName name := by decide

/-- With plain names in the storage and the templates, all paths are plain. -/
theorem plainPaths_backupFiles {stored templates : List (List PyStr × Leaf)} (hStorage : PlainPaths stored)
    (hTemplates : PlainPaths templates) : PlainPaths (backupFiles copy stored templates) := by
  obtain ⟨hStorageName, hConfigName, hDatabase⟩ := plainName_folders
  simp only [PlainPaths, backupFiles, inFolder, List.forall_mem_cons, List.forall_mem_append, List.mem_map,
    forall_exists_index, and_imp, forall_apply_eq_imp_iff₂]
  exact ⟨hDatabase, fun file hFile => ⟨hStorageName, hStorage file hFile⟩,
    fun file hFile => ⟨hConfigName, hTemplates file hFile⟩⟩

/-- No path of the backup is written twice. -/
theorem nodup_backupFiles {stored templates : List (List PyStr × Leaf)}
    (hStorage : (stored.map (·.1)).Nodup) (hTemplates : (templates.map (·.1)).Nodup) :
    ((backupFiles copy stored templates).map (·.1)).Nodup := by
  have hFolders : py "database" ≠ storageFolder ∧ py "database" ≠ configFolder ∧
      storageFolder ≠ configFolder := by decide
  have hFolder (folder : PyStr) {files : List (List PyStr × Leaf)} (h : (files.map (·.1)).Nodup) :
      ((inFolder folder files).map (·.1)).Nodup := by
    have hCons := h.map (f := fun path => folder :: path) fun a b h => by simpa using h
    simpa [inFolder, List.map_map, Function.comp_def] using hCons
  have hHead {folder : PyStr} {files : List (List PyStr × Leaf)} {path : List PyStr}
      (h : path ∈ (inFolder folder files).map (·.1)) : path.head? = some folder := by
    simp only [inFolder, List.map_map, List.mem_map, Function.comp_apply] at h
    obtain ⟨file, -, rfl⟩ := h
    rfl
  rw [backupFiles, List.map_cons, List.map_append, List.nodup_cons, List.mem_append, List.nodup_append]
  refine ⟨?_, hFolder _ hStorage, hFolder _ hTemplates, ?_⟩
  · rintro (h | h)
    · exact hFolders.1 (by simpa [databaseEntryPath] using hHead h)
    · exact hFolders.2.1 (by simpa [databaseEntryPath] using hHead h)
  · rintro path hPath other hOther rfl
    exact hFolders.2.2 (by simpa using (hHead hPath).symm.trans (hHead hOther))

/-- The manifest of a filled directory is one the parser understands. -/
theorem Populated.manifest_wellFormed
    (h : Populated sqlite settings listable storage database tree entries copy root temporaryRelative)
    (hRoot : root.WellFormed IsFileName) (hStorage : PlainPaths (storageFiles listable.storage temporaryRelative root))
    (hTemplates : PlainPaths (configTemplates listable.nginx settings.projectRoot)) {revision : PyStr}
    (hRevision : matchesRevision revision = true) (ambient : Ambient) :
    (newManifest ambient.backupId ambient.createdAt ambient.appVersion revision entries).WellFormed := by
  let files := backupFiles copy (storageFiles listable.storage temporaryRelative root) (configTemplates listable.nginx settings.projectRoot)
  have hPlain : PlainPaths files := plainPaths_backupFiles hStorage hTemplates
  have hNil : ∀ file ∈ files, file.1 ≠ [] := fun file hFile =>
    ne_nil_of_file? ((h.file?_iff file.1 file.2).mpr hFile)
  have hPerm : (newManifest ambient.backupId ambient.createdAt ambient.appVersion revision entries).entries.Perm
      (files.map fileEntry) := h.entries_eq ▸ List.perm_insertionSort _ _
  have hMem {entry : BackupEntry} (hEntry : entry ∈ (newManifest ambient.backupId ambient.createdAt
      ambient.appVersion revision entries).entries) : ∃ file ∈ files, fileEntry file = entry :=
    List.mem_map.mp (hPerm.mem_iff.mp hEntry)
  refine ⟨matches_newBackupId _ _, ambient.createdAt_utc, ambient.appVersion_scalar, hRevision, ?_, ?_, ?_, ?_⟩
  · intro entry hEntry
    obtain ⟨file, hFile, rfl⟩ := hMem hEntry
    exact ⟨file.1, hNil file hFile, hPlain file hFile, rfl⟩
  · intro entry hEntry
    obtain ⟨file, hFile, rfl⟩ := hMem hEntry
    have hLength := Sha256.length_hexdigest file.2.content
    have hHex : (Sha256.hexdigest file.2.content).all isLowerHex = true :=
      List.all_eq_true.mpr fun c hc => Sha256.isLowerHex_of_mem_hexdigest hc
    simp [fileEntry, isValidDigest, hLength, hHex]
  · rw [(hPerm.map _).nodup_iff, List.map_map]
    have hPaths := @nodup_backupFiles copy (storageFiles listable.storage temporaryRelative root)
      (configTemplates listable.nginx settings.projectRoot) (nodup_storageFiles hRoot temporaryRelative)
      (nodup_configTemplates settings.projectRoot_wellFormed)
    have hJoin := List.Nodup.map_on (f := joinSlash) (fun path hPath other hOther hEq => ?_) hPaths
    · rw [List.map_map] at hJoin
      exact hJoin
    · obtain ⟨file, hFile, rfl⟩ := List.mem_map.mp hPath
      obtain ⟨twin, hTwin, rfl⟩ := List.mem_map.mp hOther
      exact joinSlash_injective (fun name hm => (hPlain file hFile name hm).1)
        (fun name hm => (hPlain twin hTwin name hm).1) hEq
  · rw [(hPerm.map _).mem_iff, List.map_map]
    exact List.mem_map.mpr ⟨(databaseEntryPath, .file copy), by simp [files, backupFiles], rfl⟩

end Manifest

section Sealed

variable {python : Interpreter} {sqlite : Sqlite} {settings : Settings} {listable : Listable} {storage : Option Entry}
  {database : DatabaseFiles} {tree : Directory} {entries : List BackupEntry} {copy : Bytes}
  {root : Directory} {temporaryRelative : List PyStr}

/-- The checksum file names the digest of the manifest. -/
theorem parseChecksum_manifestChecksum (payload : Bytes) :
    parseChecksum (manifestChecksum payload) = .ok (Sha256.hexdigest payload) := by
  let digest := Sha256.hexdigest payload
  let text := digest ++ py "  " ++ manifestName ++ [0x0A]
  have hHex : ∀ c ∈ digest, c < 0x80 ∧ isSpace c = false := by
    intro c hc
    have hLower := Sha256.isLowerHex_of_mem_hexdigest hc
    have hSmall : c < 0x80 := by
      simp only [isLowerHex, isDigit, Bool.or_eq_true, Bool.and_eq_true, decide_eq_true_eq] at hLower
      omega
    have hAll : ∀ c < 0x80, isLowerHex c = true → isSpace c = false := by decide
    exact ⟨hSmall, hAll c hSmall hLower⟩
  have hRest : ∀ c ∈ py "  " ++ manifestName ++ [0x0A], c < 0x80 := by decide
  have hText : ∀ c ∈ text, c < 0x80 := by
    intro c hc
    simp only [text, List.append_assoc, List.mem_append] at hc
    rcases hc with hc | hc | hc | hc
    · exact (hHex c hc).1
    all_goals exact hRest c (by simp [hc])
  have hDecode : decodeAscii (manifestChecksum payload) = some text := by
    have hNat : ∀ c ∈ text, (UInt8.ofNat c).toNat = c := fun c hc => by
      rw [UInt8.toNat_ofNat']
      exact Nat.mod_eq_of_lt (by have := hText c hc; omega)
    have hSmall : ((text.map UInt8.ofNat).all fun b => b.toNat < 0x80) = true := by
      rw [List.all_map, List.all_eq_true]
      intro c hc
      simpa [hNat c hc] using hText c hc
    have hBytes : manifestChecksum payload = text.map UInt8.ofNat := rfl
    rw [hBytes, decodeAscii, if_pos hSmall, List.map_map, Option.some.injEq]
    exact (List.map_congr_left hNat).trans (List.map_id _)
  have hWords : words text = [digest, manifestName] := by
    have hNameSpace : ∀ c ∈ manifestName, isSpace c = false := by decide
    have hSplit (word rest : PyStr) (hWord : ∀ c ∈ word, isSpace c = false) (blank : Nat)
        (hBlank : isSpace blank = true) :
        (word ++ blank :: rest).splitOnP isSpace = word :: rest.splitOnP isSpace :=
      List.splitOnP_append_cons_of_forall_mem hWord blank hBlank rest
    have hShape : text = digest ++ 0x20 :: ([] ++ 0x20 :: (manifestName ++ 0x0A :: [])) := by
      simp [text, py]
    have hDigestNil : digest ≠ [] := by
      intro hNil
      have hLength := Sha256.length_hexdigest payload
      rw [show Sha256.hexdigest payload = digest from rfl, hNil] at hLength
      simp at hLength
    have hNameNil : manifestName ≠ [] := by decide
    rw [words, hShape, hSplit _ _ (fun c hc => (hHex c hc).2) _ (by decide),
      hSplit _ _ (by simp) _ (by decide), hSplit _ _ hNameSpace _ (by decide)]
    simp [hDigestNil, hNameNil]
  simp [parseChecksum, hDecode, hWords, digest]

/-- Every declared entry of the sealed directory is found as declared. -/
theorem verifyEntries_of_files {tree : Directory} (beyond : List PyStr → Option Bytes)
    {entries : List BackupEntry} (h : ∀ entry ∈ entries, ∃ path content, path ≠ [] ∧
      (∀ name ∈ path, PlainName name) ∧ tree.file? path = some (.file content) ∧
      entry = fileEntry (path, .file content)) :
    verifyEntries beyond tree entries = .ok (entries.map BackupEntry.relativePath) := by
  induction entries with
  | nil => rfl
  | cons entry entries ih =>
      obtain ⟨path, content, hNil, hPlain, hFile, rfl⟩ := h entry (by simp)
      have hEntry : verifyEntry beyond tree (fileEntry (path, .file content)) = .ok (joinSlash path) := by
        simp [verifyEntry, fileEntry, safeRelativePath_joinSlash hNil hPlain,
          mapM_fsname_of_fileNames fun name hm => (hPlain name hm).1, regularFile?_eq_some hFile,
          Leaf.content, require, asPosix_eq_joinSlash hNil, bind, Except.bind, pure, Except.pure]
      have hRest := ih fun other hm => h other (by simp [hm])
      simp only [verifyEntries, hEntry, hRest, bind, Except.bind, pure, Except.pure]
      rfl

/-- The verifier accepts the sealed directory, unless the manifest is too large. -/
theorem Populated.verify_written
    (h : Populated sqlite settings listable storage database tree entries copy root temporaryRelative)
    (hRoot : root.WellFormed IsFileName) (hStorage : PlainPaths (storageFiles listable.storage temporaryRelative root))
    (hTemplates : PlainPaths (configTemplates listable.nginx settings.projectRoot)) {revision : PyStr}
    (hRevision : sqliteSchemaRevision sqlite (.ofMain copy) = .ok revision)
    (hMatches : matchesRevision revision = true) (ambient : Ambient) {manifest : BackupManifest}
    (hManifest : manifest = newManifest ambient.backupId ambient.createdAt ambient.appVersion revision entries)
    {payload : Bytes} (hPayload : manifestPayload python manifest = .ok payload)
    {written : Directory} (hWritten : writeManifest python tree manifest = .ok written)
    (beyond : List PyStr → Option Bytes) :
    verifyDirectory python sqlite allListable beyond (some (.dir written)) ambient.backupId =
      if payload.length ≤ maxManifestBytes then .ok manifest.report
      else .error (.validationError "The backup manifest is too large.") := by
  have hFormed : manifest.WellFormed :=
    hManifest ▸ h.manifest_wellFormed hRoot hStorage hTemplates hMatches ambient
  have hWrittenFormed := writeManifest_wellFormed h.wellFormed hWritten
  obtain ⟨found, hFound, rfl⟩ := writeManifest_eq_ok hWritten
  obtain rfl : found = payload := Except.ok.inj (hFound.symm.trans hPayload)
  have hFile := h.file?_written found
  have hNames : manifestName ≠ manifestChecksumName := by decide
  have hManifestFile := hFile [manifestName]
  have hChecksumFile := hFile [manifestChecksumName]
  simp only [List.cons.injEq, hNames, and_true, if_true, if_false] at hManifestFile hChecksumFile
  have hStored {path : List PyStr} {leaf : Leaf} (hPath : tree.file? path = some leaf) :
      path ≠ [manifestChecksumName] ∧ path ≠ [manifestName] := by
    have hFolders : ∀ name ∈ [manifestName, manifestChecksumName],
        name ≠ py "database" ∧ name ≠ storageFolder ∧ name ≠ configFolder := by decide
    have hAbsent : ∀ name ∈ [manifestName, manifestChecksumName], tree.file? [name] = none :=
      fun name hm => by
        obtain ⟨h₁, h₂, h₃⟩ := hFolders name hm
        simp [Forest.file?_cons, h.onlyFolders name h₁ h₂ h₃]
    constructor
    · rintro rfl
      simp [hAbsent manifestChecksumName (by simp)] at hPath
    · rintro rfl
      simp [hAbsent manifestName (by simp)] at hPath
  have hKept {path : List PyStr} {leaf : Leaf} (hPath : tree.file? path = some leaf) :
      ((tree.put manifestName (some (.leaf (.file found)))).put manifestChecksumName
        (some (.leaf (.file (manifestChecksum found))))).file? path = some leaf := by
    rw [hFile, if_neg (hStored hPath).1, if_neg (hStored hPath).2, hPath]
  have hContent {path : List PyStr} {leaf : Leaf} (hPath : tree.file? path = some leaf) :
      ∃ content, leaf = .file content := by
    have hLeaf := h.regular _ ((h.file?_iff _ _).mp hPath)
    cases leaf with
    | file content => exact ⟨content, rfl⟩
    | symlink target => exact hLeaf.elim
    | special => exact hLeaf.elim
  have hEntry {entry : BackupEntry} : entry ∈ manifest.entries ↔ ∃ path content,
      tree.file? path = some (.file content) ∧ entry = fileEntry (path, .file content) := by
    have hPerm : manifest.entries.Perm entries := hManifest ▸ List.perm_insertionSort _ _
    rw [hPerm.mem_iff, h.entries_eq, List.mem_map]
    constructor
    · rintro ⟨⟨path, leaf⟩, hMem, rfl⟩
      have hPath := (h.file?_iff _ _).mpr hMem
      obtain ⟨content, rfl⟩ := hContent hPath
      exact ⟨path, content, hPath, rfl⟩
    · rintro ⟨path, content, hPath, rfl⟩
      exact ⟨_, (h.file?_iff _ _).mp hPath, rfl⟩
  have hDatabase := h.databaseFiles_written found
  generalize (tree.put manifestName (some (.leaf (.file found)))).put manifestChecksumName
    (some (.leaf (.file (manifestChecksum found)))) = written at *
  have hDirectory : verifyDirectory python sqlite allListable beyond (some (.dir written)) ambient.backupId =
      verifyTree python sqlite allListable beyond written ambient.backupId := by
    simp [verifyDirectory, safeBackupId_of_match (matches_newBackupId _ _), Ambient.backupId, bind,
      Except.bind]
  have hChecksum : verifyChecksum beyond written =
      if found.length ≤ maxManifestBytes then .ok found
      else .error (.validationError "The backup manifest is too large.") := by
    by_cases hSize : found.length ≤ maxManifestBytes
    · simp [verifyChecksum, regularFile?_eq_some hManifestFile, regularFile?_eq_some hChecksumFile,
        parseChecksum_manifestChecksum, require, hSize, Nat.not_lt.mpr hSize, bind, Except.bind, pure,
        Except.pure]
    · simp [verifyChecksum, regularFile?_eq_some hManifestFile, hSize, Nat.lt_of_not_le hSize]
  by_cases hSize : found.length ≤ maxManifestBytes
  · have hEntries : verifyEntries beyond written manifest.entries =
        .ok (manifest.entries.map BackupEntry.relativePath) := by
      refine verifyEntries_of_files beyond fun entry hMem => ?_
      obtain ⟨path, content, hPath, rfl⟩ := hEntry.mp hMem
      have hPlain := plainPaths_backupFiles hStorage hTemplates _ ((h.file?_iff _ _).mp hPath)
      exact ⟨path, content, ne_nil_of_file? hPath, hPlain, hKept hPath, rfl⟩
    have hActual : ∃ actual, actualFiles written allListable = .ok actual ∧
        sameElements actual (manifestName :: manifestChecksumName ::
          manifest.entries.map BackupEntry.relativePath) = true := by
      have hWalk (path : List PyStr) (leaf : Leaf) :
          (path, leaf) ∈ written.listedFiles allListable (fun _ => true) ↔ written.file? path = some leaf := by
        rw [Forest.mem_listedFiles_iff hWrittenFormed]
        simp only [Forest.Entered, true_and, implies_true]
        exact and_iff_left (Forest.listed_of_forall (fun _ => rfl) path)
      have hRegular : ((written.listedFiles allListable fun _ => true).all fun file => file.2.IsRegular) = true := by
        rw [List.all_eq_true]
        rintro ⟨path, leaf⟩ hMem
        rw [hWalk, hFile] at hMem
        split_ifs at hMem
        · rw [← Option.some.inj hMem]
          rfl
        · rw [← Option.some.inj hMem]
          rfl
        · simpa using h.regular _ ((h.file?_iff _ _).mp hMem)
      refine ⟨(written.listedFiles allListable fun _ => true).map fun file => joinSlash file.1,
        by simp [actualFiles, hRegular], sameElements_iff.mpr fun text => ?_⟩
      simp only [List.mem_map, Prod.exists, hWalk, List.mem_cons, hEntry]
      constructor
      · rintro ⟨path, leaf, hPath, rfl⟩
        rw [hFile] at hPath
        split_ifs at hPath with hIsChecksum hIsManifest
        · exact Or.inr (Or.inl (by simp [hIsChecksum, joinSlash]))
        · exact Or.inl (by simp [hIsManifest, joinSlash])
        · obtain ⟨content, rfl⟩ := hContent hPath
          exact Or.inr (Or.inr ⟨_, ⟨path, content, hPath, rfl⟩, rfl⟩)
      · rintro (rfl | rfl | ⟨_, ⟨path, content, hPath, rfl⟩, rfl⟩)
        · exact ⟨[manifestName], _, hManifestFile, by simp [joinSlash]⟩
        · exact ⟨[manifestChecksumName], _, hChecksumFile, by simp [joinSlash]⟩
        · exact ⟨path, _, hKept hPath, rfl⟩
    obtain ⟨actual, hActual, hSame⟩ := hActual
    have hParsed := parseManifest_manifestPayload python hFormed hPayload
    have hId : manifest.backupId = ambient.backupId := by rw [hManifest]; rfl
    have hDatabaseRevision : manifest.databaseRevision = revision := by rw [hManifest]; rfl
    simp [hDirectory, verifyTree, verifyContent, hChecksum, hSize, hParsed, hId, hEntries, hActual, hSame, require,
      hDatabase, h.sound, hRevision, hDatabaseRevision, BackupManifest.report, BackupManifest.totalBytes,
      bind, Except.bind, pure, Except.pure]
  · simp [hDirectory, verifyTree, verifyContent, hChecksum, hSize, bind, Except.bind]

/-- Every entry of a manifest takes at least one byte. -/
theorem length_entries_le_payload {manifest : BackupManifest} (h : manifest.WellFormed) {payload : Bytes}
    (hPayload : manifestPayload python manifest = .ok payload) :
    manifest.entries.length ≤ payload.length := by
  obtain ⟨⟨data, hData, hEq⟩, -⟩ := manifestPayload_eq_ok python h hPayload
  let items := Json.sorted.sortedItems (manifest.entries.map BackupEntry.toDict)
  have hLength : items.length = manifest.entries.length := by
    simp [items, Json.sortedItems_eq_map]
  have hMem : (py "entries", Json.array items) ∈
      Json.sortKeys (Json.sorted.sortedMembers manifest.members) := by
    rw [(Json.sortKeys_perm _).mem_iff, Json.sortedMembers_eq_map]
    exact List.mem_map.mpr ⟨(py "entries", .array (manifest.entries.map BackupEntry.toDict)),
      by simp [BackupManifest.members], rfl⟩
  calc manifest.entries.length
      = items.length := hLength.symm
    _ ≤ (Json.dumpsAt python.floatRepr 1 (.array items)).length := Json.length_le_dumpsAt_array _ 1 items
    _ ≤ (Json.dumpsAt python.floatRepr 0 (Json.object manifest.members).sorted).length :=
        Json.length_le_dumpsAt_object _ 0 hMem
    _ ≤ data.length := Json.length_le_of_encodeUtf8 hData
    _ ≤ payload.length := by simp [hEq]

end Sealed

/-- The name of an archive under a number. -/
def numberedName (i : Nat) : PyStr := py "0000" ++ (padded 28 i ++ py ".zip")

/-- Empty archives under all numbers below `count`. -/
def numberedFiles : Nat → Directory
  | 0 => .nil
  | count + 1 => .leaf (numberedName count) (.file []) (numberedFiles count)

/-- These archives in one directory of the quarantine. -/
def crowdedStorage (count : Nat) : Directory :=
  .dir (py "quarantine") (.dir (py "00") (.dir (py "00") (numberedFiles count) .nil) .nil) .nil

/-- Different numbers have different names. -/
theorem numberedName_injective {i j : Nat} (h : numberedName i = numberedName j) : i = j := by
  have hPadded : padded 28 i = padded 28 j := List.append_cancel_right (List.append_cancel_left h)
  rw [← DateTime.digitsValue_padded 28 i, ← DateTime.digitsValue_padded 28 j, hPadded]

theorem shardedRelativePath_numberedName {i : Nat} (h : i < 10 ^ 28) :
    Storage.shardedRelativePath (numberedName i) = some [py "00", py "00", numberedName i] := by
  have hLength : (padded 28 i).length = 28 := DateTime.length_padded (by decide) h
  have hSplit : (numberedName i).splitAt 32 = (py "0000" ++ padded 28 i, py ".zip") := by
    rw [numberedName, ← List.append_assoc, List.splitAt_eq,
      List.take_left' (by simp [hLength, py]), List.drop_left' (by simp [hLength, py])]
  have hHex : (py "0000" ++ padded 28 i).all isLowerHex = true := by
    rw [List.all_append, Bool.and_eq_true]
    exact ⟨by decide, List.all_eq_true.mpr fun c hc => by simp [isLowerHex, DateTime.isDigit_of_mem_padded hc]⟩
  have hName : Storage.isStorageFilename (numberedName i) = true := by
    simp only [Storage.isStorageFilename, hSplit, hHex, List.length_append, hLength]
    decide
  rw [Storage.shardedRelativePath, if_pos hName]
  rfl

/-- The entries of that directory. -/
theorem find_numberedFiles {count : Nat} {name : PyStr} {entry : Entry} :
    (numberedFiles count).find name = some entry ↔
      ∃ i < count, name = numberedName i ∧ entry = .leaf (.file []) := by
  induction count with
  | zero => simp [numberedFiles, Forest.find]
  | succ count ih =>
      rw [numberedFiles, Forest.find]
      split_ifs with h
      · subst h
        constructor
        · intro hEntry
          exact ⟨count, Nat.lt_succ_self count, rfl, (Option.some.inj hEntry).symm⟩
        · rintro ⟨-, -, -, rfl⟩
          rfl
      · rw [ih]
        constructor
        · rintro ⟨i, hi, hName⟩
          exact ⟨i, Nat.lt_succ_of_lt hi, hName⟩
        · rintro ⟨i, hi, rfl, hEntry⟩
          have hNe : i ≠ count := fun hi => h (hi ▸ rfl)
          exact ⟨i, by omega, rfl, hEntry⟩

theorem numberedFiles_wellFormed {count : Nat} (h : count ≤ 10 ^ 28) :
    (numberedFiles count).WellFormed IsFileName := by
  induction count with
  | zero => trivial
  | succ count ih =>
      refine ⟨?_, fun hName => ?_, ih (by omega)⟩
      · have hPath := shardedRelativePath_numberedName (i := count) (by omega)
        exact (Storage.plainName_of_mem_shardedRelativePath hPath _ (by simp)).1
      · obtain ⟨entry, hFind⟩ := Forest.find_of_mem_names hName
        obtain ⟨i, hi, hEq, -⟩ := find_numberedFiles.mp hFind
        exact absurd (numberedName_injective hEq) (by omega)

theorem file?_crowdedStorage {count : Nat} {path : List PyStr} {leaf : Leaf} :
    (crowdedStorage count).file? path = some leaf ↔ ∃ i < count,
      path = [py "quarantine", py "00", py "00", numberedName i] ∧ leaf = .file [] := by
  have hOnly (name : PyStr) (sub : Directory) (path : List PyStr) :
      (Forest.dir name sub .nil).file? path = some leaf ↔
        ∃ rest, path = name :: rest ∧ sub.file? rest = some leaf := by
    cases path with
    | nil => simp
    | cons other rest =>
        by_cases h : name = other
        · simp [Forest.file?_cons, Forest.find, h]
        · simp [Forest.file?_cons, Forest.find, h, Ne.symm h]
  have hNumbered (path : List PyStr) : (numberedFiles count).file? path = some leaf ↔
      ∃ i < count, path = [numberedName i] ∧ leaf = .file [] := by
    cases path with
    | nil => simp
    | cons name rest =>
        rw [Forest.file?_cons]
        cases hFind : (numberedFiles count).find name with
        | none =>
            simp only [reduceCtorEq, List.cons.injEq, false_iff, not_exists, not_and]
            rintro i hi ⟨rfl, -⟩
            rw [find_numberedFiles.mpr ⟨i, hi, rfl, rfl⟩] at hFind
            cases hFind
        | some entry =>
            obtain ⟨i, hi, rfl, rfl⟩ := find_numberedFiles.mp hFind
            constructor
            · intro h
              split_ifs at h with hRest
              exact ⟨i, hi, by rw [hRest], (Option.some.inj h).symm⟩
            · rintro ⟨_, _, hPath, rfl⟩
              simp [(List.cons.inj hPath).2]
  simp only [crowdedStorage, hOnly, hNumbered]
  constructor
  · rintro ⟨_, rfl, _, rfl, _, rfl, i, hi, rfl, hLeaf⟩
    exact ⟨i, hi, rfl, hLeaf⟩
  · rintro ⟨i, hi, rfl, hLeaf⟩
    exact ⟨_, rfl, _, rfl, _, rfl, i, hi, rfl, hLeaf⟩

/-- The storage has names of files. -/
theorem crowdedStorage_wellFormed {count : Nat} (h : count ≤ 10 ^ 28) :
    (crowdedStorage count).WellFormed IsFileName := by
  have hNames : IsFileName (py "quarantine") ∧ IsFileName (py "00") := by decide
  exact ⟨hNames.1, by simp [Forest.names], ⟨hNames.2, by simp [Forest.names], ⟨hNames.2,
    by simp [Forest.names], numberedFiles_wellFormed h, trivial⟩, trivial⟩, trivial⟩

theorem mem_storageFiles_crowdedStorage {count : Nat} (h : count ≤ 10 ^ 28) {file : List PyStr × Leaf} :
    file ∈ storageFiles Listable.all.storage [py "temporary"] (crowdedStorage count) ↔ ∃ i < count,
      file = ([py "quarantine", py "00", py "00", numberedName i], .file []) := by
  obtain ⟨path, leaf⟩ := file
  have hOutside : py "temporary" ≠ py "quarantine" := by decide
  rw [mem_storageFiles (crowdedStorage_wellFormed h), file?_crowdedStorage]
  constructor
  · rintro ⟨⟨i, hi, rfl, rfl⟩, -⟩
    exact ⟨i, hi, rfl⟩
  · rintro ⟨i, hi, hFile⟩
    obtain ⟨rfl, rfl⟩ := Prod.mk.inj hFile
    exact ⟨⟨i, hi, rfl, rfl⟩, fun hPrefix => hOutside (List.cons_prefix_cons.mp hPrefix).1,
      Forest.listed_of_forall (fun _ => rfl) _⟩

theorem length_storageFiles_crowdedStorage {count : Nat} (h : count ≤ 10 ^ 28) :
    (storageFiles Listable.all.storage [py "temporary"] (crowdedStorage count)).length = count := by
  let numbered (i : Nat) : List PyStr × Leaf :=
    ([py "quarantine", py "00", py "00", numberedName i], .file [])
  have hInjective : Function.Injective numbered := by
    intro i j hEq
    exact numberedName_injective (by simpa [numbered] using hEq)
  have hPerm : (storageFiles Listable.all.storage [py "temporary"] (crowdedStorage count)).Perm
      ((List.range count).map numbered) := by
    refine (List.perm_ext_iff_of_nodup ?_ (List.nodup_range.map hInjective)).mpr fun file => ?_
    · exact (nodup_storageFiles (crowdedStorage_wellFormed h) _).of_map _
    · rw [mem_storageFiles_crowdedStorage h]
      simp [numbered, eq_comm]
  rw [hPerm.length_eq, List.length_map, List.length_range]

/-- A storage with a file in an area and one in the temporary root. -/
def writtenStorage : Directory :=
  .dir (py "software") (.leaf (py "a") (.file [1, 2]) .nil)
    (.dir (py "temporary") (.leaf (py "b.part") (.file [3]) .nil) .nil)

/-- Settings with a project that holds a template. -/
def templateSettings : Settings :=
  { sampleSettings with
    projectRoot := .leaf (py "alembic.ini") (.file [4]) .nil
    projectRoot_wellFormed := by decide }

end SoftwareHub.Backup
