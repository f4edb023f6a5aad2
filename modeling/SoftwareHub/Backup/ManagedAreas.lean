import SoftwareHub.Backup.SelfVerification
import SoftwareHub.Core.Config

/-! The storage areas of accepted settings, and what the backup takes of them. -/
namespace SoftwareHub.Backup

open SoftwareHub.Python SoftwareHub.Tree SoftwareHub.Core
open SoftwareHub.Storage (AbsolutePath resolveFrom resolveFrom_append resolveFrom_eq resolveStep)

/-- `StoragePaths`. -/
structure StorageLayout where
  root : AbsolutePath
  software : AbsolutePath
  icons : AbsolutePath
  imports : AbsolutePath
  temporary : AbsolutePath
  quarantine : AbsolutePath
  backups : AbsolutePath

/-- The area of the published files. -/
def softwareName : PyStr := py "software"

/-- The area of the imports. -/
def importName : PyStr := py "import"

theorem isFileName_areaNames : IsFileName softwareName ∧ IsFileName importName := by decide

/-- `StoragePaths.from_settings`. -/
def StorageLayout.fromSettings (settings : AppSettings) : StorageLayout where
  root := settings.storageRoot
  software := settings.storageRoot.join softwareName isFileName_areaNames.1
  icons := settings.iconsRoot
  imports := settings.storageRoot.join importName isFileName_areaNames.2
  temporary := settings.temporaryRoot
  quarantine := settings.quarantineRoot
  backups := settings.backupRoot

/-- The areas that the storage manager creates. -/
def StorageLayout.managedAreas (layout : StorageLayout) : List AbsolutePath :=
  [layout.software, layout.imports, layout.icons, layout.quarantine, layout.temporary]

/-- The settings of the backup service. -/
def backupSettings (service : Settings) (settings : AppSettings) : Settings :=
  { service with temporaryRelative := settings.temporaryRoot.relativeTo settings.storageRoot }

/-- Neither directory is or contains the other. -/
def Separate (first second : List PyStr) : Prop := ¬first <+: second ∧ ¬second <+: first

instance (first second : List PyStr) : Decidable (Separate first second) :=
  inferInstanceAs (Decidable (_ ∧ _))

theorem separate_comm {first second : List PyStr} : Separate first second ↔ Separate second first := and_comm

section Areas

variable (env : ConfigEnvironment) (settings : AppSettings) (service : Settings) (listable : List PyStr → Bool)
  (root backup : Directory)

/-- The storage root is a directory with regular files only. -/
structure RegularStorage : Prop where
  there : settings.storageRoot.lstat env.links env.tree = some (.dir root)
  wellFormed : root.WellFormed IsFileName
  regular : root.AllLeaves Leaf.IsRegular

/-- No area is in another, and the copy has all that is not temporary. -/
structure AreasBackedUp : Prop where
  separate : ((StorageLayout.fromSettings settings).managedAreas.map env.resolve).Pairwise Separate
  copied : ∃ after entries,
    copyStorage (backupSettings service settings) listable (settings.storageRoot.lstat env.links env.tree) backup =
        .ok (after, entries) ∧
      (∀ path leaf, after.file? (storageFolder :: path) = some leaf ↔ root.file? path = some leaf ∧
        ¬env.resolve settings.temporaryRoot <+: env.resolve settings.storageRoot ++ path) ∧
      ∀ area ∈ [(StorageLayout.fromSettings settings).software, (StorageLayout.fromSettings settings).quarantine],
        ∀ path leaf, env.resolve area <+: env.resolve settings.storageRoot ++ path → root.file? path = some leaf →
          after.file? (storageFolder :: path) = some leaf

/-- The three configured directories are in neither derived area and not in one another. -/
structure RootsApart : Prop where
  outside : ∀ path ∈ settings.managedStorageRoots, ∀ name ∈ [softwareName, importName],
    ¬env.resolve settings.storageRoot ++ [name] <+: env.resolve path
  separate : (settings.managedStorageRoots.map env.resolve).Pairwise Separate

/-- The temporary root is written below the storage root, and where `..` is in
the rest of it the walk meets no temporary files. -/
def TemporaryWritten : Prop :=
  ∃ names, settings.temporaryRoot.relativeTo settings.storageRoot = some names ∧
    (py ".." ∈ names → ∀ path leaf, root.file? path = some leaf → Forest.Listed listable path →
      ¬env.resolve settings.temporaryRoot <+: env.resolve settings.storageRoot ++ path)

/-- Every directory with a file that is not temporary can be listed. The walk
has no `on_error` and passes over the others in silence. -/
def StorageListed : Prop :=
  ∀ path leaf, root.file? path = some leaf →
    ¬env.resolve settings.temporaryRoot <+: env.resolve settings.storageRoot ++ path → Forest.Listed listable path

variable {env settings service listable root backup}

theorem separate_append {above first second : List PyStr} :
    Separate (above ++ first) (above ++ second) ↔ Separate first second := by
  unfold Separate
  rw [List.prefix_append_right_inj, List.prefix_append_right_inj]

/-- Beside one name there is all that does not begin with it. -/
theorem separate_singleton {name : PyStr} {names : List PyStr} (hNil : names ≠ []) :
    Separate [name] names ↔ ¬[name] <+: names := by
  obtain ⟨first, rest, rfl⟩ := List.exists_cons_of_ne_nil hNil
  constructor
  · exact fun h => h.1
  · intro h
    refine ⟨h, fun hAbove => h ?_⟩
    obtain ⟨rfl, -⟩ := List.cons_prefix_cons.mp hAbove
    exact ⟨rest, rfl⟩

/-- The storage root is a directory of the tree. -/
theorem RegularStorage.node? (h : RegularStorage env settings root) :
    env.tree.node? (env.resolve settings.storageRoot) = some (.dir root) :=
  Storage.node?_of_lstatFrom h.there

/-- Below the storage root nothing is a link. -/
theorem RegularStorage.isSymlink_eq (h : RegularStorage env settings root) (path : List PyStr) :
    isSymlink (env.tree.node? (env.resolve settings.storageRoot ++ path)) = false := by
  rw [Forest.node?_append h.node?]
  cases hNode : root.node? path with
  | none => rfl
  | some entry =>
      cases entry with
      | dir sub => rfl
      | leaf value =>
          have hRegular := h.regular.file? ((Forest.file?_eq_some_iff root path value).mpr hNode)
          cases value with
          | file content => rfl
          | symlink target => exact hRegular.elim
          | special => rfl

/-- What is written below the storage root without `..` lies there. -/
theorem RegularStorage.resolveFrom_eq (h : RegularStorage env settings root) {names : List PyStr} (hNames : py ".." ∉ names) :
    resolveFrom env.links env.tree (env.resolve settings.storageRoot) names = env.resolve settings.storageRoot ++ names :=
  Storage.resolveFrom_eq hNames fun above _ => h.isSymlink_eq above

/-- A storage tree of regular files is copied up to what begins with the
relative temporary root. -/
theorem copyStorage_regular {settings : Settings} (hRoot : root.WellFormed IsFileName) (hRegular : root.AllLeaves Leaf.IsRegular)
    (hBackup : backup.WellFormed IsFileName) (hFree : backup.find storageFolder = none) {names : List PyStr}
    (hTemporary : settings.temporaryRelative = some names) :
    ∃ after entries, copyStorage settings listable (some (.dir root)) backup = .ok (after, entries) ∧
      ∀ path leaf, after.file? (storageFolder :: path) = some leaf ↔
        root.file? path = some leaf ∧ ¬names <+: path ∧ Forest.Listed listable path := by
  have hFolder : IsFileName storageFolder := by decide
  let first : Directory := backup.put storageFolder (some (.dir .nil))
  have hCreate : backup.create [storageFolder] (.dir .nil) = some first := by
    simp [Forest.create, hFree, first]
  have hFirst : first.WellFormed IsFileName :=
    hBackup.create (List.forall_mem_singleton.mpr hFolder) (by simp [Forest.Node.WellFormed, Forest.WellFormed]) hCreate
  have hFind : first.find storageFolder = some (.dir .nil) := Forest.find_put_self hBackup _ _
  have hEmpty (path : List PyStr) : first.file? (storageFolder :: path) = none := by
    rw [Forest.file?_cons, hFind]
    exact Forest.file?_empty path
  have hMem {file : List PyStr × Leaf} (hFile : file ∈ storageFiles listable names root) := (mem_storageFiles hRoot file.1 file.2).mp hFile
  obtain ⟨⟨after, entries⟩, hCopy⟩ := exists_copyFiles hFolder (fun file hFile => (hMem hFile).1)
    (fun file hFile => hRegular.file? (hMem hFile).1) (fun file hFile => (storageFiles_paths hRoot file hFile).2)
    (nodup_storageFiles hRoot names) hFirst (by
      intro file hFile
      obtain ⟨name, tail, hPath⟩ := List.exists_cons_of_ne_nil (storageFiles_paths hRoot file hFile).1
      refine ⟨by rw [Forest.node?_cons, hFind, hPath]; exact Forest.node?_empty name tail, ?_⟩
      intro above hAbove
      cases above with
      | nil => exact Forest.file?_nil first
      | cons head above =>
          rw [(List.cons_prefix_cons.mp hAbove).1]
          exact hEmpty above)
  obtain ⟨-, -, -, hFiles, -, -⟩ := copyFiles_spec hFolder (storageFiles_paths hRoot) hFirst hCopy
  refine ⟨after, entries, ?_, ?_⟩
  · simp only [copyStorage, hCreate, hTemporary]
    exact hCopy
  · intro path leaf
    rw [hFiles, hEmpty, ← mem_storageFiles hRoot]
    simp [inFolder]

/-- The resolved place of what is written below the storage root. -/
theorem resolve_of_relativeTo {path : AbsolutePath} {names : List PyStr}
    (hNames : path.relativeTo settings.storageRoot = some names) :
    env.resolve path = resolveFrom env.links env.tree (env.resolve settings.storageRoot) names := by
  unfold ConfigEnvironment.resolve AbsolutePath.resolve
  rw [(Storage.AbsolutePath.relativeTo_eq_some hNames).1, resolveFrom_append]

/-- The area of a name below the storage root. -/
theorem RegularStorage.resolve_join (h : RegularStorage env settings root) {name : PyStr} (hName : IsFileName name) :
    env.resolve (settings.storageRoot.join name hName) = env.resolve settings.storageRoot ++ [name] := by
  unfold ConfigEnvironment.resolve AbsolutePath.resolve AbsolutePath.join
  rw [resolveFrom_append]
  apply h.resolveFrom_eq
  rw [List.mem_singleton]
  exact hName.2.2.2.2.1.symm

/-- The areas are apart exactly when the configured directories are. -/
theorem RegularStorage.separate_iff (h : RegularStorage env settings root) (hAccepted : RootsAccepted env settings) :
    ((StorageLayout.fromSettings settings).managedAreas.map env.resolve).Pairwise Separate ↔ RootsApart env settings := by
  have hDerived {path : AbsolutePath} (hPath : path ∈ settings.managedStorageRoots) (name : PyStr) :
      Separate (env.resolve settings.storageRoot ++ [name]) (env.resolve path) ↔
        ¬env.resolve settings.storageRoot ++ [name] <+: env.resolve path := by
    obtain ⟨names, hNil, hNames⟩ := hAccepted.below path hPath
    rw [hNames, separate_append, separate_singleton hNil, List.prefix_append_right_inj]
  have hBoth : Separate (env.resolve settings.storageRoot ++ [softwareName]) (env.resolve settings.storageRoot ++ [importName]) := by
    rw [separate_append, separate_singleton (List.cons_ne_nil _ _)]
    decide
  have hSoftware := h.resolve_join isFileName_areaNames.1
  have hImports := h.resolve_join isFileName_areaNames.2
  have hTemporary := @hDerived settings.temporaryRoot (by simp [AppSettings.managedStorageRoots])
  have hQuarantine := @hDerived settings.quarantineRoot (by simp [AppSettings.managedStorageRoots])
  have hIcons := @hDerived settings.iconsRoot (by simp [AppSettings.managedStorageRoots])
  constructor
  · intro hPairs
    simp only [StorageLayout.managedAreas, StorageLayout.fromSettings, List.map_cons, List.map_nil, hSoftware, hImports,
      List.pairwise_cons, List.forall_mem_cons] at hPairs
    obtain ⟨⟨-, hSI, hSQ, hST, -⟩, ⟨hII, hIQ, hIT, -⟩, ⟨hQ, hT, -⟩, ⟨hQT, -⟩, -⟩ := hPairs
    constructor
    · simp only [AppSettings.managedStorageRoots, List.forall_mem_cons]
      exact ⟨⟨(hTemporary _).mp hST, (hTemporary _).mp hIT, by simp⟩, ⟨(hQuarantine _).mp hSQ, (hQuarantine _).mp hIQ, by simp⟩,
        ⟨(hIcons _).mp hSI, (hIcons _).mp hII, by simp⟩, by simp⟩
    · simp only [AppSettings.managedStorageRoots, List.map_cons, List.map_nil, List.pairwise_cons, List.forall_mem_cons]
      exact ⟨⟨separate_comm.mp hQT, separate_comm.mp hT, by simp⟩, ⟨separate_comm.mp hQ, by simp⟩, by simp⟩
  · intro hApart
    have hOutside := hApart.outside
    have hPairs := hApart.separate
    simp only [AppSettings.managedStorageRoots, List.forall_mem_cons] at hOutside
    simp only [AppSettings.managedStorageRoots, List.map_cons, List.map_nil, List.pairwise_cons, List.forall_mem_cons] at hPairs
    obtain ⟨⟨hST, hIT, -⟩, ⟨hSQ, hIQ, -⟩, ⟨hSI, hII, -⟩, -⟩ := hOutside
    obtain ⟨⟨hQT, hT, -⟩, ⟨hQ, -⟩, -⟩ := hPairs
    simp only [StorageLayout.managedAreas, StorageLayout.fromSettings, List.map_cons, List.map_nil, hSoftware, hImports,
      List.pairwise_cons, List.forall_mem_cons]
    refine ⟨⟨hBoth, (hIcons _).mpr hSI, (hQuarantine _).mpr hSQ, (hTemporary _).mpr hST, by simp⟩,
      ⟨(hIcons _).mpr hII, (hQuarantine _).mpr hIQ, (hTemporary _).mpr hIT, by simp⟩, ⟨separate_comm.mp hQ, separate_comm.mp hT, by simp⟩,
      ⟨separate_comm.mp hQT, by simp⟩, by simp⟩

/-- The copy has everything exactly when the temporary root is written below the
storage root, and the rest can be listed. -/
theorem RegularStorage.copied_iff (h : RegularStorage env settings root)
    (hBackup : backup.WellFormed IsFileName) (hFree : backup.find storageFolder = none) :
    (∃ after entries,
      copyStorage (backupSettings service settings) listable (settings.storageRoot.lstat env.links env.tree) backup = .ok (after, entries) ∧
        ∀ path leaf, after.file? (storageFolder :: path) = some leaf ↔ root.file? path = some leaf ∧
          ¬env.resolve settings.temporaryRoot <+: env.resolve settings.storageRoot ++ path) ↔
      TemporaryWritten env settings listable root ∧ StorageListed env settings listable root := by
  -- Where the names have no dots, they are where the temporary root is.
  have hPlain {names : List PyStr} (hNames : settings.temporaryRoot.relativeTo settings.storageRoot = some names)
      (hDots : py ".." ∉ names) (path : List PyStr) :
      names <+: path ↔ env.resolve settings.temporaryRoot <+: env.resolve settings.storageRoot ++ path := by
    rw [resolve_of_relativeTo hNames, h.resolveFrom_eq hDots, List.prefix_append_right_inj]
  have hDotted {names path : List PyStr} {leaf : Leaf} (hDots : py ".." ∈ names) (hFile : root.file? path = some leaf) :
      ¬names <+: path := by
    intro hPrefix
    have hName := fileNames_of_file? h.wellFormed hFile _ (hPrefix.subset hDots)
    exact hName.2.2.2.2.1 rfl
  rw [h.there]
  constructor
  · rintro ⟨after, entries, hCopy, hExact⟩
    cases hNames : settings.temporaryRoot.relativeTo settings.storageRoot with
    | none =>
        have hCreate : backup.create [storageFolder] (.dir .nil) = some (backup.put storageFolder (some (.dir .nil))) := by
          simp [Forest.create, hFree]
        simp only [copyStorage, hCreate, backupSettings, hNames] at hCopy
        cases hCopy
    | some names =>
        obtain ⟨other, otherEntries, hOther, hFiles⟩ := @copyStorage_regular listable root backup
          (backupSettings service settings) h.wellFormed h.regular hBackup hFree names hNames
        obtain ⟨rfl, rfl⟩ := Prod.mk.inj (Except.ok.inj (hCopy.symm.trans hOther))
        refine ⟨⟨names, hNames, ?_⟩, ?_⟩
        · intro hDots path leaf hFile hListed
          have hCopied := (hFiles path leaf).mpr ⟨hFile, hDotted hDots hFile, hListed⟩
          exact ((hExact path leaf).mp hCopied).2
        · intro path leaf hFile hOutside
          exact ((hFiles path leaf).mp ((hExact path leaf).mpr ⟨hFile, hOutside⟩)).2.2
  · rintro ⟨⟨names, hNames, hEmpty⟩, hStored⟩
    obtain ⟨after, entries, hCopy, hFiles⟩ := @copyStorage_regular listable root backup (backupSettings service settings)
      h.wellFormed h.regular hBackup hFree names hNames
    refine ⟨after, entries, hCopy, ?_⟩
    intro path leaf
    rw [hFiles]
    apply and_congr_right
    intro hFile
    constructor
    · rintro ⟨hOutside, hListed⟩
      by_cases hDots : py ".." ∈ names
      · exact hEmpty hDots path leaf hFile hListed
      · exact fun hTemporary => hOutside ((hPlain hNames hDots path).mpr hTemporary)
    · intro hOutside
      refine ⟨?_, hStored path leaf hFile hOutside⟩
      by_cases hDots : py ".." ∈ names
      · exact hDotted hDots hFile
      · exact fun hPrefix => hOutside ((hPlain hNames hDots path).mp hPrefix)

/-- Where the areas are apart, no path of the software and quarantine areas is
below the temporary root: of two directories above one path, one is in the other. -/
theorem not_temporary_of_separate
    (hSeparate : ((StorageLayout.fromSettings settings).managedAreas.map env.resolve).Pairwise Separate) {area : AbsolutePath}
    (hArea : area ∈ [(StorageLayout.fromSettings settings).software, (StorageLayout.fromSettings settings).quarantine])
    {path : List PyStr} (hInside : env.resolve area <+: path) : ¬env.resolve settings.temporaryRoot <+: path := by
  intro hTemporary
  have hApart : Separate (env.resolve area) (env.resolve settings.temporaryRoot) := by
    simp only [StorageLayout.managedAreas, StorageLayout.fromSettings, List.map_cons, List.map_nil,
      List.pairwise_cons, List.forall_mem_cons] at hSeparate
    obtain ⟨⟨-, -, -, hST, -⟩, -, -, ⟨hQT, -⟩, -⟩ := hSeparate
    rcases List.mem_cons.mp hArea with rfl | hArea
    · exact hST
    · rw [List.mem_singleton.mp hArea]
      exact hQT
  rcases List.prefix_or_prefix_of_prefix hInside hTemporary with hPrefix | hPrefix
  · exact hApart.1 hPrefix
  · exact hApart.2 hPrefix

/-- Accepted settings keep the areas apart, and the backup has every file that
is not temporary, exactly when the configured directories are apart, the
temporary root is written below the storage root and the directories of these
files can be listed. -/
theorem areasBackedUp_iff (hAccepted : validateSecurityInvariants env settings = .ok ()) (h : RegularStorage env settings root)
    (hBackup : backup.WellFormed IsFileName) (hFree : backup.find storageFolder = none) :
    AreasBackedUp env settings service listable root backup ↔ RootsApart env settings ∧
      TemporaryWritten env settings listable root ∧ StorageListed env settings listable root := by
  have hRoots := rootsAccepted_of_validate hAccepted
  constructor
  · intro hAreas
    obtain ⟨after, entries, hCopy, hExact, -⟩ := hAreas.copied
    exact ⟨(h.separate_iff hRoots).mp hAreas.separate, (@RegularStorage.copied_iff _ _ service _ _ _ h hBackup hFree).mp
      ⟨after, entries, hCopy, hExact⟩⟩
  · rintro ⟨hApart, hWritten⟩
    have hSeparate := (h.separate_iff hRoots).mpr hApart
    obtain ⟨after, entries, hCopy, hExact⟩ := (@RegularStorage.copied_iff _ _ service _ _ _ h hBackup hFree).mpr hWritten
    refine ⟨hSeparate, after, entries, hCopy, hExact, ?_⟩
    intro area hArea path leaf hInside hFile
    exact (hExact path leaf).mpr ⟨hFile, not_temporary_of_separate hSeparate hArea hInside⟩

/-- Accepted settings keep the areas apart exactly when the configured
directories are, and the copy has exactly the files that are not temporary when
the temporary root is written below the storage root and the rest can be listed.
Where both hold, every file of the software and quarantine areas is copied. -/
theorem managedAreas_copied_iff (hAccepted : validateSecurityInvariants env settings = .ok ())
    (h : RegularStorage env settings root) (hBackup : backup.WellFormed IsFileName) (hFree : backup.find storageFolder = none) :
    (((StorageLayout.fromSettings settings).managedAreas.map env.resolve).Pairwise Separate ↔ RootsApart env settings) ∧
      ((∃ after entries,
        copyStorage (backupSettings service settings) listable (settings.storageRoot.lstat env.links env.tree) backup =
            .ok (after, entries) ∧
          ∀ path leaf, after.file? (storageFolder :: path) = some leaf ↔ root.file? path = some leaf ∧
            ¬env.resolve settings.temporaryRoot <+: env.resolve settings.storageRoot ++ path) ↔
        TemporaryWritten env settings listable root ∧ StorageListed env settings listable root) ∧
      (RootsApart env settings → TemporaryWritten env settings listable root → StorageListed env settings listable root →
        ∃ after entries,
          copyStorage (backupSettings service settings) listable (settings.storageRoot.lstat env.links env.tree) backup =
              .ok (after, entries) ∧
            ∀ area ∈ [(StorageLayout.fromSettings settings).software, (StorageLayout.fromSettings settings).quarantine],
              ∀ path leaf, env.resolve area <+: env.resolve settings.storageRoot ++ path → root.file? path = some leaf →
                after.file? (storageFolder :: path) = some leaf) := by
  have hSeparate := h.separate_iff (rootsAccepted_of_validate hAccepted)
  have hCopied := @RegularStorage.copied_iff _ _ service listable _ _ h hBackup hFree
  refine ⟨hSeparate, hCopied, ?_⟩
  intro hApart hWritten hListed
  obtain ⟨after, entries, hCopy, hExact⟩ := hCopied.mpr ⟨hWritten, hListed⟩
  refine ⟨after, entries, hCopy, ?_⟩
  intro area hArea path leaf hInside hFile
  exact (hExact path leaf).mpr ⟨hFile, not_temporary_of_separate (hSeparate.mpr hApart) hArea hInside⟩

end Areas

/-- The names of the sample can stand in a path. -/
theorem isFileName_sampleNames : (∀ part ∈ [py "srv", py "storage"], part = py ".." ∨ IsFileName part) ∧
    (∀ part ∈ [py "srv", py "backups"], part = py ".." ∨ IsFileName part) ∧ IsFileName (py "temporary") ∧
    IsFileName (py "quarantine") ∧ IsFileName (py "icons") := by decide

/-- `/srv/storage`. -/
def sampleStorageRoot : AbsolutePath := ⟨false, [py "srv", py "storage"], isFileName_sampleNames.1⟩

/-- `/srv/storage/temporary`. -/
def sampleTemporaryRoot : AbsolutePath := sampleStorageRoot.join (py "temporary") isFileName_sampleNames.2.2.1

/-- Settings with a quarantine of their own. -/
def sampleAppSettings (quarantineRoot : AbsolutePath) : AppSettings where
  appEnvironment := .development
  appDebug := false
  appSecretKey := none
  csrfSecret := none
  csrfTokenTtlSeconds := 7200
  loginCsrfCookieName := py "software_hub_login_csrf"
  sessionCookieName := py "software_hub_session"
  sessionCookiePath := py "/"
  sessionCookieSecure := none
  sessionIdleTimeoutSeconds := 1800
  sessionAbsoluteTimeoutSeconds := 43200
  sessionTouchIntervalSeconds := 60
  passwordMinLength := 12
  passwordMaxLength := 1024
  argon2TimeCost := defaultArgon2TimeCost
  argon2MemoryCostKib := defaultArgon2MemoryCostKib
  databaseUrl := py "sqlite+pysqlite:////srv/software-hub.db"
  publicBaseUrl := py "http://localhost:8000/"
  internalDownloadPrefix := py "/protected-downloads/"
  trustedHosts := [py "localhost"]
  storageRoot := sampleStorageRoot
  temporaryRoot := sampleTemporaryRoot
  quarantineRoot := quarantineRoot
  iconsRoot := sampleStorageRoot.join (py "icons") isFileName_sampleNames.2.2.2.2
  backupRoot := ⟨false, [py "srv", py "backups"], isFileName_sampleNames.2.1⟩

/-- A file in the software area, and one in a quarantine among the temporary files. -/
def sampleStorageTree : Directory :=
  .dir softwareName (.leaf (py "a.zip") (.file [1]) .nil)
    (.dir (py "temporary") (.dir (py "quarantine") (.leaf (py "b.zip") (.file [2]) .nil) .nil) .nil)

/-- A file system that holds that tree. -/
def sampleConfigEnvironment : ConfigEnvironment where
  lower := id
  urlDatabase _ := some (py "/srv/software-hub.db")
  urlScheme _ := py "http"
  urlHostname _ := some (py "localhost")
  workingDirectory := []
  links := id
  tree := .dir (py "srv") (.dir (py "storage") sampleStorageTree .nil) .nil

/-- The other settings of the service. -/
def sampleService : Settings := ⟨none, [], fileNames_of_noDirectories, 14, 0, .nil, trivial⟩

/-- The quarantine is beside the temporary files. -/
def besideTemporary : AppSettings :=
  sampleAppSettings (sampleStorageRoot.join (py "quarantine") isFileName_sampleNames.2.2.2.1)

def insideTemporary : AppSettings :=
  sampleAppSettings (sampleTemporaryRoot.join (py "quarantine") isFileName_sampleNames.2.2.2.1)

/-- The tree is regular. -/
theorem sampleStorage_regular {settings : AppSettings} (hRoot : settings.storageRoot = sampleStorageRoot) :
    RegularStorage sampleConfigEnvironment settings sampleStorageTree := by
  refine ⟨?_, by decide, by decide⟩
  rw [hRoot]
  decide

/-- Both settings are accepted; only the first keep the areas apart. -/
theorem areasBackedUp_sample :
    AreasBackedUp sampleConfigEnvironment besideTemporary sampleService allListable sampleStorageTree .nil ∧
      validateSecurityInvariants sampleConfigEnvironment insideTemporary = .ok () ∧
      ¬AreasBackedUp sampleConfigEnvironment insideTemporary sampleService allListable sampleStorageTree .nil := by
  have hBeside : AreasBackedUp sampleConfigEnvironment besideTemporary sampleService allListable sampleStorageTree .nil ↔
      RootsApart sampleConfigEnvironment besideTemporary ∧
        TemporaryWritten sampleConfigEnvironment besideTemporary allListable sampleStorageTree ∧
        StorageListed sampleConfigEnvironment besideTemporary allListable sampleStorageTree :=
    areasBackedUp_iff (by decide) (sampleStorage_regular rfl) trivial rfl
  have hInside : AreasBackedUp sampleConfigEnvironment insideTemporary sampleService allListable sampleStorageTree .nil ↔
      RootsApart sampleConfigEnvironment insideTemporary ∧
        TemporaryWritten sampleConfigEnvironment insideTemporary allListable sampleStorageTree ∧
        StorageListed sampleConfigEnvironment insideTemporary allListable sampleStorageTree :=
    areasBackedUp_iff (by decide) (sampleStorage_regular rfl) trivial rfl
  refine ⟨hBeside.mpr ⟨⟨?_, ?_⟩, ?_, ?_⟩, by decide, ?_⟩
  · decide
  · decide
  · exact ⟨[py "temporary"], by decide, fun h => absurd h (by decide)⟩
  · exact fun path _ _ _ => Forest.listed_of_forall (fun _ => rfl) path
  · intro h
    exact absurd (hInside.mp h).1.separate (by decide)

/-- The areas of the first settings are apart, and the copy has their files. -/
theorem managedAreas_copied_iff_sample :
    ((StorageLayout.fromSettings besideTemporary).managedAreas.map sampleConfigEnvironment.resolve).Pairwise Separate ∧
      ∃ after entries, copyStorage (backupSettings sampleService besideTemporary) allListable
          (besideTemporary.storageRoot.lstat sampleConfigEnvironment.links sampleConfigEnvironment.tree) .nil =
            .ok (after, entries) ∧
        after.file? [storageFolder, softwareName, py "a.zip"] = some (.file [1]) := by
  have hApart : RootsApart sampleConfigEnvironment besideTemporary := ⟨by decide, by decide⟩
  obtain ⟨hSeparate, -, hAreas⟩ := @managedAreas_copied_iff sampleConfigEnvironment besideTemporary sampleService allListable
    sampleStorageTree .nil (by decide) (sampleStorage_regular rfl) trivial rfl
  refine ⟨hSeparate.mpr hApart, ?_⟩
  obtain ⟨after, entries, hCopy, hFiles⟩ := hAreas hApart ⟨[py "temporary"], by decide, fun h => absurd h (by decide)⟩
    fun path _ _ _ => Forest.listed_of_forall (fun _ => rfl) path
  refine ⟨after, entries, hCopy, hFiles _ List.mem_cons_self [softwareName, py "a.zip"] (.file [1]) (by decide) (by decide)⟩

theorem quarantine_inside_temporary_not_copied :
    validateSecurityInvariants sampleConfigEnvironment insideTemporary = .ok () ∧
      RegularStorage sampleConfigEnvironment insideTemporary sampleStorageTree ∧
      ¬((StorageLayout.fromSettings insideTemporary).managedAreas.map sampleConfigEnvironment.resolve).Pairwise Separate ∧
      sampleConfigEnvironment.resolve (StorageLayout.fromSettings insideTemporary).quarantine <+:
        sampleConfigEnvironment.resolve insideTemporary.storageRoot ++ [py "temporary", py "quarantine", py "b.zip"] ∧
      sampleStorageTree.file? [py "temporary", py "quarantine", py "b.zip"] = some (.file [2]) ∧
      ((copyStorage (backupSettings sampleService insideTemporary) allListable
        (insideTemporary.storageRoot.lstat sampleConfigEnvironment.links sampleConfigEnvironment.tree) .nil).map
          fun result => result.1.file? [storageFolder, py "temporary", py "quarantine", py "b.zip"]) = .ok none := by
  refine ⟨by decide, sampleStorage_regular rfl, by decide, by decide, by decide, by decide⟩

end SoftwareHub.Backup
