import SoftwareHub.Backup.Accepted
import SoftwareHub.Backup.Creation

/-! What a filled backup directory holds: the database copy, the storage files
outside the temporary root and the configuration templates. -/
namespace SoftwareHub.Backup

open SoftwareHub.Python SoftwareHub.Tree SoftwareHub.Semantics

/-- The bytes of a regular file. -/
def Leaf.content : Leaf → Bytes
  | .file content => content
  | _ => []

/-- The manifest entry of a file. -/
def fileEntry (file : List PyStr × Leaf) : BackupEntry :=
  ⟨joinSlash file.1, file.2.content.length, Sha256.hexdigest file.2.content⟩

def inFolder (folder : PyStr) (files : List (List PyStr × Leaf)) : List (List PyStr × Leaf) :=
  files.map fun file => (folder :: file.1, file.2)

/-- A copied file is a regular one at its destination. -/
theorem copyRegularFile_eq_ok {source : Leaf} {destination : List PyStr} {tree result : Directory}
    {size : Nat} {digest : PyStr}
    (h : copyRegularFile source destination tree = .ok (result, size, digest)) :
    source.IsRegular ∧ tree.create destination (.leaf source) = some result ∧
      size = source.content.length ∧ digest = Sha256.hexdigest source.content := by
  unfold copyRegularFile at h
  split at h
  · rename_i content
    split at h
    · cases h
    · rename_i created hCreate
      cases h
      exact ⟨trivial, hCreate, rfl, rfl⟩
  · cases h

/-- Copying adds exactly the files of the list, all of them regular, and
nothing outside the folder. -/
theorem copyFiles_spec {folder : PyStr} (hFolder : IsFileName folder)
    {files : List (List PyStr × Leaf)} (hPaths : ∀ file ∈ files, file.1 ≠ [] ∧ ∀ name ∈ file.1, IsFileName name)
    {tree result : Directory} (hTree : tree.WellFormed IsFileName) {entries : List BackupEntry}
    (h : copyFiles folder files tree = .ok (result, entries)) :
    result.WellFormed IsFileName ∧ entries = (inFolder folder files).map fileEntry ∧
      (∀ file ∈ files, file.2.IsRegular) ∧
      (∀ path leaf, result.file? path = some leaf ↔
        tree.file? path = some leaf ∨ (path, leaf) ∈ inFolder folder files) ∧
      (∀ name ≠ folder, result.find name = tree.find name) ∧
      ((∃ sub, tree.find folder = some (.dir sub)) → ∃ sub, result.find folder = some (.dir sub)) := by
  induction files generalizing tree entries with
  | nil =>
      cases h
      exact ⟨hTree, rfl, by simp, by simp [inFolder], fun _ _ => rfl, id⟩
  | cons file files ih =>
      obtain ⟨path, leaf⟩ := file
      obtain ⟨hNil, hNames⟩ := hPaths (path, leaf) (by simp)
      obtain ⟨⟨next, size, digest⟩, hCopy, h⟩ := except_bind_eq_ok h
      obtain ⟨⟨last, rest⟩, hRest, h⟩ := except_bind_eq_ok h
      cases h
      obtain ⟨hRegular, hCreate, rfl, rfl⟩ := copyRegularFile_eq_ok hCopy
      have hPath : ∀ name ∈ folder :: path, IsFileName name := by
        simpa using ⟨hFolder, hNames⟩
      obtain ⟨hResult, rfl, hAll, hMem, hOther, hDir⟩ :=
        ih (fun other hm => hPaths other (by simp [hm])) (hTree.create hPath (by simp [Forest.Node.WellFormed]) hCreate) hRest
      obtain ⟨name, tail, rfl⟩ := List.exists_cons_of_ne_nil hNil
      refine ⟨hResult, ?_, List.forall_mem_cons.mpr ⟨hRegular, hAll⟩, fun other found => ?_,
        fun other hNe => (hOther other hNe).trans (Forest.find_create_of_ne hCreate hNe),
        fun _ => hDir (Forest.find_create_above hTree hCreate)⟩
      · simp [inFolder, fileEntry, joinSlash_cons]
      · have hFree : tree.file? (folder :: name :: tail) = none := by
          rw [Forest.file?, Forest.node?_of_create hCreate]
        rw [hMem, Forest.file?_create hTree hCreate]
        by_cases hOther : other = folder :: name :: tail
        · subst hOther
          simp only [if_true, Option.some.injEq, hFree, reduceCtorEq, false_or, inFolder, List.map_cons,
            List.mem_cons, Prod.mk.injEq, true_and]
          exact or_congr eq_comm Iff.rfl
        · simp [inFolder, hOther]

def backupFiles (copy : Bytes) (storage templates : List (List PyStr × Leaf)) : List (List PyStr × Leaf) :=
  (databaseEntryPath, .file copy) :: (inFolder storageFolder storage ++ inFolder configFolder templates)

/-- The directory a successful `_populate_backup` leaves, and its entries. -/
structure Populated (sqlite : Sqlite) (settings : Settings) (listable : Listable) (storage : Option Entry)
    (database : DatabaseFiles) (tree : Directory) (entries : List BackupEntry) (copy : Bytes)
    (root : Directory) (temporaryRelative : List PyStr) : Prop where
  copied : sqlite.backup database = some copy
  sound : sqliteIntegrityCheck sqlite (.ofMain copy) = .ok ()
  storageRoot : storage = some (.dir root)
  temporary : settings.temporaryRelative = some temporaryRelative
  wellFormed : tree.WellFormed IsFileName
  regular : ∀ file ∈ backupFiles copy (storageFiles listable.storage temporaryRelative root)
    (configTemplates listable.nginx settings.projectRoot), file.2.IsRegular
  entries_eq : entries = (backupFiles copy (storageFiles listable.storage temporaryRelative root)
    (configTemplates listable.nginx settings.projectRoot)).map fileEntry
  file?_iff : ∀ path leaf, tree.file? path = some leaf ↔ (path, leaf) ∈ backupFiles copy
    (storageFiles listable.storage temporaryRelative root) (configTemplates listable.nginx settings.projectRoot)
  storageDirectory : ∃ sub, tree.find storageFolder = some (.dir sub)
  onlyFolders : ∀ name, name ≠ py "database" → name ≠ storageFolder → name ≠ configFolder →
    tree.find name = none

/-- The listed storage files outside the temporary root. -/
theorem mem_storageFiles {listable : List PyStr → Bool} {root : Directory} (hRoot : root.WellFormed IsFileName)
    {temporaryRelative : List PyStr} (path : List PyStr) (leaf : Leaf) :
    (path, leaf) ∈ storageFiles listable temporaryRelative root ↔
      root.file? path = some leaf ∧ ¬temporaryRelative <+: path ∧ Forest.Listed listable path := by
  rw [storageFiles, List.mem_filter, Forest.mem_listedFiles_iff hRoot]
  have hOutside (other : List PyStr) : (!excludedStoragePath temporaryRelative other) = true ↔
      ¬temporaryRelative <+: other := by
    rw [Bool.not_eq_true', excludedStoragePath, ← Bool.not_eq_true, List.isPrefixOf_iff_prefix]
  simp only [hOutside, Forest.Entered, List.nil_append]
  constructor
  · rintro ⟨⟨hFile, -, hListed⟩, hOutside⟩
    exact ⟨hFile, hOutside, hListed⟩
  · rintro ⟨hFile, hOutside, hListed⟩
    -- a directory inside the temporary root cannot lie above a path outside of it
    exact ⟨⟨hFile, fun above hAbove _ _ hInside => hOutside (hInside.trans hAbove), hListed⟩, hOutside⟩

/-- The root of a tree is no file. -/
theorem ne_nil_of_file? {tree : Directory} {path : List PyStr} {leaf : Leaf}
    (h : tree.file? path = some leaf) : path ≠ [] := by
  rintro rfl
  simp at h

theorem storageFiles_paths {listable : List PyStr → Bool} {root : Directory} (hRoot : root.WellFormed IsFileName)
    {temporaryRelative : List PyStr} : ∀ file ∈ storageFiles listable temporaryRelative root,
      file.1 ≠ [] ∧ ∀ name ∈ file.1, IsFileName name := by
  rintro ⟨path, leaf⟩ hMem
  have hFile := ((mem_storageFiles hRoot path leaf).mp hMem).1
  exact ⟨ne_nil_of_file? hFile, fileNames_of_file? hRoot hFile⟩

/-- The templates are files of the project. -/
theorem file?_of_mem_configTemplates {listable : List PyStr → Bool} {project : Directory}
    (hProject : project.WellFormed IsFileName) {path : List PyStr} {leaf : Leaf}
    (h : (path, leaf) ∈ configTemplates listable project) :
    project.file? path = some leaf := by
  rw [configTemplates, List.mem_append] at h
  rcases h with h | h
  · obtain ⟨name, -, hName⟩ := List.mem_filterMap.mp h
    cases hFind : project.find name with
    | none => simp [hFind] at hName
    | some entry =>
        rcases entry with (content | target | _) | sub <;> simp [hFind] at hName
        obtain ⟨rfl, rfl⟩ := hName
        simp [Forest.file?_cons, hFind]
  · cases hFind : project.find (py "nginx") with
    | none => simp [hFind] at h
    | some entry =>
        cases entry with
        | leaf leaf => simp [hFind] at h
        | dir nginx =>
            simp only [hFind, List.mem_map, Prod.exists, Prod.mk.injEq] at h
            obtain ⟨tail, found, hWalk, rfl, rfl⟩ := h
            rw [Forest.mem_listedFiles_iff (hProject.find_dir hFind)] at hWalk
            simp [Forest.file?_cons, hFind, hWalk.1]

theorem configTemplates_paths {listable : List PyStr → Bool} {project : Directory}
    (hProject : project.WellFormed IsFileName) : ∀ file ∈ configTemplates listable project, file.1 ≠ [] ∧ ∀ name ∈ file.1, IsFileName name := by
  rintro ⟨path, leaf⟩ hMem
  have hFile := file?_of_mem_configTemplates hProject hMem
  exact ⟨ne_nil_of_file? hFile, fileNames_of_file? hProject hFile⟩

/-- The folders of a backup have names of files. -/
theorem isFileName_folders : IsFileName storageFolder ∧ IsFileName configFolder ∧
    IsFileName (py "database") ∧ IsFileName databaseName := by decide

/-- The copy of the database is whole and sound. -/
theorem backupSqlite_eq_ok {sqlite : Sqlite} {database : DatabaseFiles} {copy : Bytes}
    (h : backupSqlite sqlite database = .ok copy) : sqlite.backup database = some copy ∧
      sqliteIntegrityCheck sqlite (.ofMain copy) = .ok () ∧ ∃ content, database.main = some (.file content) := by
  unfold backupSqlite at h
  split at h
  · rename_i content hMain
    split at h
    · cases h
    · rename_i found hBackup
      obtain ⟨sound, hSound, h⟩ := except_bind_eq_ok h
      cases h
      exact ⟨hBackup, hSound, content, hMain⟩
  · cases h

/-- A step that returns has filled the directory. -/
theorem populated_of_populateBackup {sqlite : Sqlite} {settings : Settings} {listable : Listable} {storage : Option Entry}
    (hStorage : ∀ root, storage = some (.dir root) → root.WellFormed IsFileName)
    {database : DatabaseFiles} {tree : Directory} {entries : List BackupEntry}
    (h : populateBackup sqlite settings listable storage database = .ok (tree, entries)) :
    ∃ copy root temporaryRelative,
      Populated sqlite settings listable storage database tree entries copy root temporaryRelative := by
  obtain ⟨hStorageName, hConfigName, hDatabaseFolder, hDatabaseName⟩ := isFileName_folders
  obtain ⟨copy, hCopy, h⟩ := except_bind_eq_ok h
  obtain ⟨hBackup, hSound, -⟩ := backupSqlite_eq_ok hCopy
  obtain ⟨⟨second, storageEntries⟩, hCopyStorage, h⟩ := except_bind_eq_ok h
  obtain ⟨⟨third, configEntries⟩, hCopyConfig, h⟩ := except_bind_eq_ok h
  cases h
  unfold copyStorage at hCopyStorage
  split at hCopyStorage
  · rename_i root _
    have hRoot := hStorage root rfl
    split at hCopyStorage
    · cases hCopyStorage
    · rename_i first hFirst
      split at hCopyStorage
      · cases hCopyStorage
      · rename_i temporaryRelative hTemporary
        let start : Directory := .dir (py "database") (.leaf databaseName (.file copy) .nil) .nil
        have hDatabase : (Forest.nil : Directory).create databaseEntryPath (.leaf (.file copy)) = some start := rfl
        have hNil : (Forest.nil : Directory).WellFormed IsFileName := trivial
        have hStart : start.WellFormed IsFileName :=
          ⟨hDatabaseFolder, by simp [Forest.names], ⟨hDatabaseName, by simp [Forest.names], trivial⟩, trivial⟩
        have hFirstFormed : first.WellFormed IsFileName :=
          hStart.create (by simpa using hStorageName) (by simp [Forest.Node.WellFormed, Forest.WellFormed]) hFirst
        obtain ⟨hSecond, rfl, hStorageRegular, hSecondFile, hSecondOther, hSecondDir⟩ :=
          copyFiles_spec hStorageName (storageFiles_paths hRoot) hFirstFormed hCopyStorage
        obtain ⟨hThird, rfl, hConfigRegular, hThirdFile, hThirdOther, -⟩ :=
          copyFiles_spec hConfigName (configTemplates_paths settings.projectRoot_wellFormed) hSecond hCopyConfig
        refine ⟨copy, root, temporaryRelative, hBackup, hSound, rfl, hTemporary, hThird, ?_, ?_, ?_, ?_, ?_⟩
        · simp only [backupFiles, inFolder, List.mem_cons, List.mem_append, List.mem_map]
          rintro file (rfl | ⟨source, hSource, rfl⟩ | ⟨source, hSource, rfl⟩)
          · trivial
          · exact hStorageRegular source hSource
          · exact hConfigRegular source hSource
        · simp [backupFiles, fileEntry, Leaf.content]
        · intro path leaf
          rw [hThirdFile, hSecondFile, Forest.file?_create_empty hStart hFirst,
            Forest.file?_create hNil hDatabase]
          have hEmpty : (Forest.nil : Directory).file? path = none := by
            cases path <;> simp [Forest.file?_cons, Forest.find]
          by_cases hPath : path = databaseEntryPath <;>
            simp [backupFiles, hPath, hEmpty, or_assoc, @eq_comm _ leaf]
        · have hNe : storageFolder ≠ configFolder := by decide
          rw [hThirdOther _ hNe]
          rw [(Forest.create_singleton hFirst).2] at hSecondDir
          exact hSecondDir ⟨.nil, Forest.find_put_self hStart _ _⟩
        · intro name hDatabaseNe hStorageNe hConfigNe
          rw [hThirdOther name hConfigNe, hSecondOther name hStorageNe,
            Forest.find_create_of_ne hFirst hStorageNe]
          simp [Forest.find, Ne.symm hDatabaseNe]
  · cases hCopyStorage

section Written

variable {sqlite : Sqlite} {settings : Settings} {listable : Listable} {storage : Option Entry} {database : DatabaseFiles}
  {tree : Directory} {entries : List BackupEntry} {copy : Bytes} {root : Directory} {temporaryRelative : List PyStr}

/-- The files after the manifest has been written. -/
theorem Populated.file?_written
    (h : Populated sqlite settings listable storage database tree entries copy root temporaryRelative)
    (payload : Bytes) (path : List PyStr) :
    ((tree.put manifestName (some (.leaf (.file payload)))).put manifestChecksumName
      (some (.leaf (.file (manifestChecksum payload))))).file? path =
        if path = [manifestChecksumName] then some (.file (manifestChecksum payload))
        else if path = [manifestName] then some (.file payload) else tree.file? path := by
  have hNames : manifestName ≠ py "database" ∧ manifestName ≠ storageFolder ∧ manifestName ≠ configFolder ∧
      manifestChecksumName ≠ py "database" ∧ manifestChecksumName ≠ storageFolder ∧
      manifestChecksumName ≠ configFolder ∧ manifestChecksumName ≠ manifestName := by decide
  obtain ⟨h₁, h₂, h₃, h₄, h₅, h₆, hNe⟩ := hNames
  have hWith : (tree.put manifestName (some (.leaf (.file payload)))).WellFormed IsFileName :=
    h.wellFormed.put isFileName_manifestNames.1 (by simp [Forest.Node.WellFormed])
  have hFree : (tree.put manifestName (some (.leaf (.file payload)))).find manifestChecksumName = none := by
    rw [Forest.find_put_of_ne _ _ hNe]
    exact h.onlyFolders _ h₄ h₅ h₆
  rw [Forest.file?_put_leaf hWith hFree, Forest.file?_put_leaf h.wellFormed (h.onlyFolders _ h₁ h₂ h₃)]

/-- Without side files the copy is the whole database. -/
theorem Populated.databaseFiles_eq
    (h : Populated sqlite settings listable storage database tree entries copy root temporaryRelative) :
    databaseFiles tree = .ofMain copy := by
  have hFolders : storageFolder ≠ py "database" ∧ configFolder ≠ py "database" ∧
      databaseName ++ py "-wal" ≠ databaseName ∧ databaseName ++ py "-shm" ≠ databaseName := by decide
  have hOnly {name : PyStr} {leaf : Leaf} (hFile : tree.file? [py "database", name] = some leaf) :
      name = databaseName := by
    have hMem := (h.file?_iff _ _).mp hFile
    simp only [backupFiles, inFolder, databaseEntryPath, List.mem_cons, List.mem_append, List.mem_map,
      Prod.mk.injEq, List.cons.injEq] at hMem
    rcases hMem with hMem | ⟨file, -, ⟨hFolder, -⟩, -⟩ | ⟨file, -, ⟨hFolder, -⟩, -⟩
    · exact hMem.1.2.1
    · exact (hFolders.1 hFolder).elim
    · exact (hFolders.2.1 hFolder).elim
  have hMain : tree.file? [py "database", databaseName] = some (.file copy) :=
    (h.file?_iff _ _).mpr List.mem_cons_self
  have hSide {suffix : PyStr} (hNe : databaseName ++ suffix ≠ databaseName) :
      tree.file? [py "database", databaseName ++ suffix] = none := by
    cases hFile : tree.file? [py "database", databaseName ++ suffix] with
    | none => rfl
    | some leaf => exact (hNe (hOnly hFile)).elim
  rw [databaseFiles, hMain, hSide hFolders.2.2.1, hSide hFolders.2.2.2]
  rfl

/-- The files of the manifest leave the database. -/
theorem Populated.databaseFiles_written
    (h : Populated sqlite settings listable storage database tree entries copy root temporaryRelative) (payload : Bytes) :
    databaseFiles ((tree.put manifestName (some (.leaf (.file payload)))).put manifestChecksumName
      (some (.leaf (.file (manifestChecksum payload))))) = .ofMain copy := by
  rw [← h.databaseFiles_eq, databaseFiles, databaseFiles]
  simp [h.file?_written]

end Written

/-- The two files `_write_manifest` adds. -/
theorem writeManifest_eq_ok {python : Interpreter} {tree written : Directory} {manifest : BackupManifest}
    (h : writeManifest python tree manifest = .ok written) : ∃ payload,
      manifestPayload python manifest = .ok payload ∧
        written = (tree.put manifestName (some (.leaf (.file payload)))).put manifestChecksumName
          (some (.leaf (.file (manifestChecksum payload)))) := by
  obtain ⟨payload, hPayload, h⟩ := except_bind_eq_ok h
  cases h
  exact ⟨payload, hPayload, rfl⟩

theorem writeManifest_wellFormed {python : Interpreter} {tree written : Directory}
    {manifest : BackupManifest} (hTree : tree.WellFormed IsFileName)
    (h : writeManifest python tree manifest = .ok written) : written.WellFormed IsFileName := by
  obtain ⟨payload, -, rfl⟩ := writeManifest_eq_ok h
  exact (hTree.put isFileName_manifestNames.1 (by simp [Forest.Node.WellFormed])).put
    isFileName_manifestNames.2 (by simp [Forest.Node.WellFormed])

end SoftwareHub.Backup
