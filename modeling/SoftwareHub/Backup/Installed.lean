import SoftwareHub.Backup.Restore

/-! The part of a restore up to the migration: when it gets there, and what can be
taken back when it does not. -/
namespace SoftwareHub.Backup

open SoftwareHub.Python SoftwareHub.Tree SoftwareHub.Semantics SoftwareHub.Semantics.Program

/-- The names of the stages and rollbacks are new. -/
structure Fresh (start : Restoring) : Prop where
  storageStage : start.storageStage = none
  storageRollback : start.storageRollback = none
  databaseStage : start.databaseStage = none
  databaseRollback : start.databaseRollback = none
  storageReplaced : start.storageReplaced = false
  databaseReplaced : start.databaseReplaced = false

/-- The old storage tree is in place, moved aside, or moved aside and replaced. -/
inductive StorageSaved (start now : Restoring) : Prop
  | inPlace (flag : now.storageReplaced = false) (storage : now.storage = start.storage) (rollback : now.storageRollback = none)
  | aside (flag : now.storageReplaced = false) (storage : now.storage = none)
      (rollback : now.storageRollback = start.storage) (there : pathExists start.storage = true)
  | replaced (flag : now.storageReplaced = true) (storage : ∃ tree, now.storage = some (.dir tree))
      (rollback : now.storageRollback = start.storage) (there : start.storage = none ∨ pathExists start.storage = true)

/-- Every file of the old database is in place or in the rollback directory. -/
def Parted (old live rollback : DatabaseFiles) : Prop :=
  ∀ part, live.part part = old.part part ∧ rollback.part part = none ∨
    live.part part = none ∧ rollback.part part = old.part part

/-- The old database is in place, or parted between its place and the rollback
directory. -/
inductive DatabaseSaved (start now : Restoring) : Prop
  | inPlace (flag : now.databaseReplaced = false) (database : now.database = start.database)
      (rollback : now.databaseRollback = none)
  | parted (flag : now.databaseReplaced = false) (files : DatabaseFiles) (rollback : now.databaseRollback = some files)
      (parts : Parted start.database now.database files)

/-- Everything of the live state is still there, and no database was installed. -/
structure Recoverable (start now : Restoring) : Prop where
  storage : StorageSaved start now
  database : DatabaseSaved start now

def Untouched (start now : Restoring) : Prop :=
  now = { start with storageStage := now.storageStage, databaseStage := now.databaseStage }

variable (sqlite : Sqlite) (settings : Settings) (env : RestoreEnvironment) (backup : Directory)

/-- What a backup must have, and what the stages of storage and database then hold. -/
structure Stageable (made : Directory) (content : Bytes) : Prop where
  storage : ∃ tree path, backup.find storageFolder = some (.dir tree) ∧ tree.AllLeaves Leaf.IsRegular ∧
    settings.temporaryRelative = some path ∧ tree.mkdirs path = some made
  database : backup.file? databaseEntryPath = some (.file content)
  sound : sqliteIntegrityCheck sqlite (.ofMain content) = .ok ()

/-- Storage and database are staged, and nothing else has changed. -/
def staged (start : Restoring) (made : Directory) (content : Bytes) : Restoring :=
  { start with storageStage := some (.dir made), databaseStage := some (.file content) }

/-- The new storage and the new database are in place, before the migration. -/
def installed (start : Restoring) (made : Directory) (content : Bytes) : Restoring where
  storage := some (.dir made)
  storageStage := none
  storageRollback := start.storage
  database := .ofMain content
  databaseStage := none
  databaseRollback := some start.database
  storageReplaced := true
  databaseReplaced := true

def stagingCalls : List RestoreCall := [.copyTree, .makeTemporary, .copyDatabase, .checkStage]

variable {start : Restoring}

section Rules

variable {P : Restoring → Prop} {α : Type} {Q : α → Restoring → Prop} {E : BaseException → Restoring → Prop}

/-- A call that may raise before its effect. -/
theorem restoreCall_spec {call : RestoreCall} {x : RestoreProgram α} (hx : env.signal call = none → Triple P x Q E)
    (hFault : ∀ e s, P s → E e s) : Triple P (restoreCall env call x) Q E := by
  unfold restoreCall
  cases hSignal : env.signal call with
  | none => exact hx hSignal
  | some e => exact Triple.raise (hFault e)

theorem liftException_spec {x : Except PyException α} (hOk : ∀ a, x = .ok a → ∀ s, P s → Q a s)
    (hError : ∀ e s, P s → E e s) : Triple P (liftException x) Q E := by
  cases x with
  | ok a => exact Triple.pure (hOk a rfl)
  | error e => exact Triple.raise (hError _)

end Rules

section Staging

/-- The storage of the backup is copied, if it has one and all of it is regular. -/
theorem stageStorage_spec : Triple (· = start) (stageStorage env backup)
    (fun _ now => env.signal .copyTree = none ∧ ∃ tree, backup.find storageFolder = some (.dir tree) ∧
      tree.AllLeaves Leaf.IsRegular ∧ now = { start with storageStage := some (.dir tree) })
    fun _ => Untouched start := by
  rintro before rfl
  unfold stageStorage
  cases hSignal : env.signal .copyTree with
  | some e => exact rfl
  | none =>
      cases hFind : backup.find storageFolder with
      | none => exact rfl
      | some entry =>
          cases entry with
          | leaf value => exact rfl
          | dir tree =>
              dsimp only
              split
              · rename_i hRegular
                exact ⟨rfl, tree, rfl, hRegular, rfl⟩
              · exact rfl

/-- The temporary root is made in the copy. -/
theorem makeTemporaryRoot_spec (tree : Directory) :
    Triple (· = { start with storageStage := some (.dir tree) }) (makeTemporaryRoot settings env)
      (fun _ now => env.signal .makeTemporary = none ∧ ∃ path made, settings.temporaryRelative = some path ∧
        tree.mkdirs path = some made ∧ now = { start with storageStage := some (.dir made) })
      fun _ => Untouched start := by
  unfold makeTemporaryRoot
  cases settings.temporaryRelative with
  | none =>
      apply Triple.raise
      rintro before rfl
      exact rfl
  | some path =>
      apply restoreCall_spec
      · rintro hSilent before rfl
        rw [read_bind]
        dsimp only
        cases hMade : tree.mkdirs path with
        | none => exact rfl
        | some made => exact ⟨hSilent, path, made, rfl, hMade, rfl⟩
      · rintro e before rfl
        exact rfl

/-- The database of the backup is copied. -/
theorem stageDatabase_spec (hFresh : Fresh start) (made : Directory) :
    Triple (· = { start with storageStage := some (.dir made) }) (stageDatabase env backup)
      (fun _ now => env.signal .copyDatabase = none ∧ ∃ content, backup.file? databaseEntryPath = some (.file content) ∧
        now = staged start made content)
      fun _ => Untouched start := by
  rintro before rfl
  unfold stageDatabase
  cases hSignal : env.signal .copyDatabase with
  | some e => exact rfl
  | none =>
      cases hFile : backup.file? databaseEntryPath with
      | none => exact rfl
      | some leaf =>
          cases leaf with
          | symlink target => exact rfl
          | special => exact rfl
          | file content =>
              dsimp only
              rw [read_bind, if_pos hFresh.databaseStage]
              exact ⟨rfl, content, rfl, rfl⟩

/-- Staging leaves the live state alone, and returns only where it may. -/
theorem stageBackup_spec (hFresh : Fresh start) : Triple (· = start) (stageBackup sqlite settings env backup)
    (fun _ now => (∀ call ∈ stagingCalls, env.signal call = none) ∧
      ∃ made content, Stageable sqlite settings backup made content ∧ now = staged start made content)
    fun _ => Untouched start := by
  unfold stageBackup
  apply (stageStorage_spec env backup).bind
  rintro _ before ⟨hTree, tree, hFolder, hRegular, hBefore⟩
  have hRest : Triple (· = { start with storageStage := some (.dir tree) })
      (makeTemporaryRoot settings env >>= fun _ => stageDatabase env backup >>= fun _ =>
        restoreCall env .checkStage (read Restoring.databaseStage >>= fun leaf =>
          liftException (sqliteIntegrityCheck sqlite ⟨leaf, none, none⟩)))
      (fun _ now => (∀ call ∈ stagingCalls, env.signal call = none) ∧
        ∃ made content, Stageable sqlite settings backup made content ∧ now = staged start made content)
      fun _ => Untouched start := by
    apply (makeTemporaryRoot_spec settings env tree).bind
    rintro _ mid ⟨hTemporary, path, made, hPath, hMade, hMid⟩
    refine Triple.bind (stageDatabase_spec env backup hFresh made) ?_ mid hMid
    rintro _ last ⟨hCopy, content, hDatabase, hLast⟩
    have hCheck : Triple (· = staged start made content)
        (restoreCall env .checkStage (read Restoring.databaseStage >>= fun leaf =>
          liftException (sqliteIntegrityCheck sqlite ⟨leaf, none, none⟩)))
        (fun _ now => (∀ call ∈ stagingCalls, env.signal call = none) ∧
          ∃ made content, Stageable sqlite settings backup made content ∧ now = staged start made content)
        fun _ => Untouched start := by
      apply restoreCall_spec
      · rintro hSilent now rfl
        rw [read_bind]
        refine liftException_spec (P := (· = staged start made content)) ?_ ?_ _ rfl
        · rintro _ hSound now rfl
          refine ⟨?_, made, content, ⟨⟨tree, path, hFolder, hRegular, hPath, hMade⟩, hDatabase, hSound⟩, rfl⟩
          simp [stagingCalls, hTree, hTemporary, hCopy, hSilent]
        · rintro e now rfl
          exact rfl
      · rintro e now rfl
        exact rfl
    exact hCheck last hLast
  exact hRest before hBefore

end Staging

section Replacing

/-- Where only the stages have changed, everything is still in its place. -/
theorem Untouched.recoverable (hFresh : Fresh start) {now : Restoring} (h : Untouched start now) : Recoverable start now := by
  unfold Untouched at h
  rw [h]
  exact ⟨.inPlace hFresh.storageReplaced rfl hFresh.storageRollback,
    .inPlace hFresh.databaseReplaced rfl hFresh.databaseRollback⟩

/-- A rename to a free name succeeds. -/
theorem renameEntry_absent {source : Option Entry} {entry : Entry} (h : source = some entry) :
    renameEntry source none = .ok () := by
  rw [h]
  cases entry <;> rfl

/-- The new storage is in place, the old one moved aside. -/
def storageInstalled (start : Restoring) (made : Directory) (content : Bytes) : Restoring :=
  { start with
    storage := some (.dir made)
    storageStage := none
    storageRollback := start.storage
    databaseStage := some (.file content)
    storageReplaced := true }

/-- A path that exists has an entry. -/
theorem exists_of_pathExists {entry : Option Entry} (h : pathExists entry = true) : ∃ found, entry = some found := by
  cases entry with
  | none => cases h
  | some found => exact ⟨found, rfl⟩

theorem renamePath_ok {source target : Restoring → Option Entry} {renamed : Restoring → Restoring} {s : Restoring}
    (h : renameEntry (source s) (target s) = .ok ()) : renamePath source target renamed s = (.ok (), renamed s) := by
  rw [renamePath, read_bind, read_bind, h]
  rfl

theorem renamePath_error {source target : Restoring → Option Entry} {renamed : Restoring → Restoring} {s : Restoring}
    {kind : OSError} (h : renameEntry (source s) (target s) = .error kind) :
    renamePath source target renamed s = (.error (.exception (.os kind)), s) := by
  rw [renamePath, read_bind, read_bind, h]
  rfl

/-- The old storage tree is moved aside, if there is one. -/
def storageAside (start : Restoring) (made : Directory) (content : Bytes) : Restoring :=
  if pathExists start.storage = true then
    { staged start made content with storage := none, storageRollback := start.storage }
  else staged start made content

/-- The old tree can be moved back. -/
theorem storageAside_recoverable (hFresh : Fresh start) (made : Directory) (content : Bytes) :
    Recoverable start (storageAside start made content) := by
  unfold storageAside
  split
  · rename_i hThere
    exact ⟨.aside hFresh.storageReplaced rfl rfl hThere, .inPlace hFresh.databaseReplaced rfl hFresh.databaseRollback⟩
  · exact Untouched.recoverable hFresh rfl

/-- The old storage tree is moved aside, or the call raises with everything in its
place. -/
theorem moveStorageAside_spec (hFresh : Fresh start) (made : Directory) (content : Bytes) :
    Triple (· = staged start made content) (moveStorageAside env)
      (fun _ now => (env.signal .statStorage = none ∧ (pathExists start.storage = true → env.signal .moveStorage = none)) ∧
        now = storageAside start made content) fun _ => Recoverable start := by
  have hStaged : ∀ now, now = staged start made content → Recoverable start now := by
    rintro now rfl
    exact Untouched.recoverable hFresh rfl
  unfold moveStorageAside
  refine Triple.bind (Q := fun _ now => env.signal .statStorage = none ∧ now = staged start made content) ?_ ?_
  · apply restoreCall_spec
    · exact fun hStat => Triple.pure fun _ hNow => ⟨hStat, hNow⟩
    · exact fun e now hNow => hStaged now hNow
  rintro _ before ⟨hStat, rfl⟩
  have hStorage : (staged start made content).storage = start.storage := rfl
  have hFree : (staged start made content).storageRollback = none := hFresh.storageRollback
  rw [read_bind, hStorage]
  by_cases hThere : pathExists start.storage = true
  · obtain ⟨entry, hEntry⟩ := exists_of_pathExists hThere
    rw [if_pos hThere]
    refine restoreCall_spec env (P := (· = staged start made content)) ?_ ?_ _ rfl
    · rintro hSilent now rfl
      rw [renamePath_ok (by rw [hFree]; exact renameEntry_absent hEntry)]
      exact ⟨⟨hStat, fun _ => hSilent⟩, by rw [storageAside, if_pos hThere]; rfl⟩
    · exact fun e now hNow => hStaged now hNow
  · rw [if_neg hThere]
    exact ⟨⟨hStat, fun h => (hThere h).elim⟩, by rw [storageAside, if_neg hThere]⟩

/-- What replacing the storage tree needs. -/
structure StorageReplaceable (start : Restoring) : Prop where
  stat : env.signal .statStorage = none
  move : pathExists start.storage = true → env.signal .moveStorage = none
  install : env.signal .installStorage = none
  noDanglingLink : start.storage = none ∨ pathExists start.storage = true

/-- Without a storage root, or with one moved aside, the stage can take its place. -/
theorem installStorage_run (hFresh : Fresh start) (made : Directory) (content : Bytes)
    (h : start.storage = none ∨ pathExists start.storage = true) :
    renamePath Restoring.storageStage Restoring.storage
        (fun s => { s with storage := s.storageStage, storageStage := none, storageReplaced := true })
        (storageAside start made content) = (.ok (), storageInstalled start made content) := by
  by_cases hThere : pathExists start.storage = true
  · rw [storageAside, if_pos hThere]
    exact renamePath_ok rfl
  · have hNone : start.storage = none := h.resolve_right hThere
    rw [storageAside, if_neg hThere]
    refine (renamePath_ok ?_).trans ?_
    · exact (congrArg (renameEntry _) hNone).trans rfl
    · rw [storageInstalled, hNone, ← hFresh.storageRollback]
      rfl

/-- A directory cannot be renamed to a link that leads nowhere. -/
theorem renameEntry_dangling {tree : Directory} {target : Option Entry}
    (h : ¬(target = none ∨ pathExists target = true)) :
    renameEntry (some (.dir tree)) target = .error .notADirectoryError := by
  cases target with
  | none => exact (h (Or.inl rfl)).elim
  | some entry =>
      cases entry with
      | dir sub => exact (h (Or.inr rfl)).elim
      | leaf value => cases tree <;> rfl

/-- Replacing the storage tree returns only where it may, and otherwise the old tree
is in place or aside. -/
theorem replaceStorage_spec (hFresh : Fresh start) (made : Directory) (content : Bytes) :
    Triple (· = staged start made content) (replaceStorage env)
      (fun _ now => StorageReplaceable env start ∧ now = storageInstalled start made content)
      fun _ => Recoverable start := by
  unfold replaceStorage
  apply (moveStorageAside_spec env hFresh made content).bind
  rintro _ before ⟨⟨hStat, hMove⟩, hBefore⟩
  have hInstall : Triple (· = storageAside start made content)
      (restoreCall env .installStorage (renamePath Restoring.storageStage Restoring.storage fun s =>
        { s with storage := s.storageStage, storageStage := none, storageReplaced := true }))
      (fun _ now => StorageReplaceable env start ∧ now = storageInstalled start made content)
      fun _ => Recoverable start := by
    apply restoreCall_spec
    · rintro hSilent now rfl
      by_cases hLink : start.storage = none ∨ pathExists start.storage = true
      · rw [installStorage_run hFresh made content hLink]
        exact ⟨⟨hStat, hMove, hSilent, hLink⟩, rfl⟩
      · have hTarget : renameEntry (storageAside start made content).storageStage
            (storageAside start made content).storage = .error .notADirectoryError := by
          rw [storageAside, if_neg fun hThere => hLink (Or.inr hThere)]
          exact renameEntry_dangling hLink
        rw [renamePath_error hTarget]
        exact storageAside_recoverable hFresh made content
    · rintro e now rfl
      exact storageAside_recoverable hFresh made content
  exact hInstall before hBefore

/-- The files of the database that have been moved into the rollback directory. -/
def DatabaseAside (base : Restoring) (moved : List DatabasePart) (now : Restoring) : Prop :=
  ∃ live files, now = { base with database := live, databaseRollback := some files } ∧ ∀ part,
    live.part part = (if part ∈ moved then none else base.database.part part) ∧
      files.part part = if part ∈ moved then base.database.part part else none

theorem storageInstalled_saved (hFresh : Fresh start) {made : Directory} {content : Bytes}
    (h : start.storage = none ∨ pathExists start.storage = true) :
    Recoverable start (storageInstalled start made content) :=
  ⟨.replaced rfl ⟨made, rfl⟩ rfl h, .inPlace hFresh.databaseReplaced rfl hFresh.databaseRollback⟩

/-- While the database is moved aside, all of its files can be found. -/
theorem databaseAside_recoverable (hFresh : Fresh start) {made : Directory} {content : Bytes}
    (h : start.storage = none ∨ pathExists start.storage = true) {moved : List DatabasePart} {now : Restoring}
    (hNow : DatabaseAside (storageInstalled start made content) moved now) : Recoverable start now := by
  obtain ⟨live, files, rfl, hParts⟩ := hNow
  refine ⟨.replaced rfl ⟨made, rfl⟩ rfl h, .parted hFresh.databaseReplaced files rfl ?_⟩
  intro part
  obtain ⟨hLive, hFiles⟩ := hParts part
  by_cases hMoved : part ∈ moved
  · rw [if_pos hMoved] at hLive hFiles
    exact Or.inr ⟨hLive, hFiles⟩
  · rw [if_neg hMoved] at hLive hFiles
    exact Or.inl ⟨hLive, hFiles⟩

/-- The move of one file of the database. -/
theorem moveAside_spec {base : Restoring} {moved : List DatabasePart} {E : BaseException → Restoring → Prop}
    (hError : ∀ e now, DatabaseAside base moved now → E e now) (part : DatabasePart) (hNew : part ∉ moved) :
    Triple (DatabaseAside base moved) (moveAside env part)
      (fun _ now => env.signal (.moveAside part) = none ∧ DatabaseAside base (part :: moved) now) E := by
  unfold moveAside
  apply restoreCall_spec env _ hError
  rintro hSilent before ⟨live, files, rfl, hParts⟩
  rw [read_bind]
  have hPart : live.part part = base.database.part part := by
    rw [(hParts part).1, if_neg hNew]
  cases hLeaf : live.part part with
  | none =>
      rw [hPart] at hLeaf
      refine ⟨hSilent, live, files, rfl, ?_⟩
      intro other
      obtain ⟨hLive, hFiles⟩ := hParts other
      by_cases hOther : other = part
      · rw [hOther, if_neg hNew] at hLive hFiles
        rw [hOther, if_pos List.mem_cons_self, if_pos List.mem_cons_self, hLeaf]
        exact ⟨hLive.trans hLeaf, hFiles⟩
      · simpa [hOther] using And.intro hLive hFiles
  | some leaf =>
      refine ⟨hSilent, live.setPart none part, files.setPart (some leaf) part, rfl, ?_⟩
      intro other
      obtain ⟨hLive, hFiles⟩ := hParts other
      rw [DatabaseFiles.part_setPart, DatabaseFiles.part_setPart]
      by_cases hOther : other = part
      · rw [hOther, ← hPart, hLeaf]
        simp
      · simpa [hOther] using And.intro hLive hFiles

/-- The calls that move the database aside. -/
def asideCalls : List RestoreCall := [.makeRollback, .moveAside .main, .moveAside .wal, .moveAside .shm]

theorem moveDatabaseAside_spec {base : Restoring} {E : BaseException → Restoring → Prop}
    (hFree : base.databaseRollback = none) (hBase : ∀ e, E e base)
    (hError : ∀ e moved now, DatabaseAside base moved now → E e now) :
    Triple (· = base) (moveDatabaseAside env)
      (fun _ now => (∀ call ∈ asideCalls, env.signal call = none) ∧
        now = { base with database := .empty, databaseRollback := some base.database }) E := by
  unfold moveDatabaseAside
  refine Triple.bind (Q := fun _ now => env.signal .makeRollback = none ∧ DatabaseAside base [] now) ?_ ?_
  · apply restoreCall_spec
    · rintro hSilent before rfl
      rw [read_bind, if_pos hFree]
      refine ⟨hSilent, before.database, .empty, rfl, ?_⟩
      intro part
      simp
    · rintro e now rfl
      exact hBase e
  rintro _ start ⟨hRollback, hStart⟩
  have hMoves : Triple (DatabaseAside base []) (forEach [.main, .wal, .shm] (moveAside env))
      (fun _ now => (∀ call ∈ asideCalls, env.signal call = none) ∧ DatabaseAside base [.shm, .wal, .main] now) E := by
    unfold forEach
    apply (moveAside_spec env (fun e => hError e _) .main (by decide)).bind
    rintro _ second ⟨hMain, hSecond⟩
    unfold forEach
    refine Triple.bind (moveAside_spec env (fun e => hError e _) .wal (by decide)) ?_ second hSecond
    rintro _ third ⟨hWal, hThird⟩
    unfold forEach
    refine Triple.bind (moveAside_spec env (fun e => hError e _) .shm (by decide)) ?_ third hThird
    rintro _ last ⟨hShm, hLast⟩
    refine ⟨?_, hLast⟩
    simp [asideCalls, hRollback, hMain, hWal, hShm]
  refine (hMoves.mono (fun _ h => h) ?_ fun _ _ h => h) start hStart
  rintro _ now ⟨hSilent, live, files, rfl, hParts⟩
  have hLive : live = .empty := by
    apply DatabaseFiles.ext_part
    intro part
    rw [(hParts part).1, DatabaseFiles.part_empty]
    cases part <;> rfl
  have hFiles : files = base.database := by
    apply DatabaseFiles.ext_part
    intro part
    rw [(hParts part).2]
    cases part <;> rfl
  rw [hLive, hFiles]
  exact ⟨hSilent, rfl⟩

/-- Everything that getting to the migration needs. -/
structure Installable (start : Restoring) (made : Directory) (content : Bytes) : Prop where
  staging : ∀ call ∈ stagingCalls, env.signal call = none
  stageable : Stageable sqlite settings backup made content
  storage : StorageReplaceable env start
  aside : ∀ call ∈ asideCalls, env.signal call = none
  install : env.signal .installDatabase = none

/-- Up to the migration: it returns only where it may, and otherwise everything is still there. -/
theorem installBackup_spec (hFresh : Fresh start) : Triple (· = start) (installBackup sqlite settings env backup)
    (fun _ now => ∃ made content, Installable sqlite settings env backup start made content ∧
      now = installed start made content)
    fun _ => Recoverable start := by
  unfold installBackup
  apply ((stageBackup_spec sqlite settings env backup hFresh).mono (fun _ h => h) (fun _ _ h => h) fun _ _ h =>
    h.recoverable hFresh).bind
  rintro _ before ⟨hStaging, made, content, hStageable, hBefore⟩
  refine Triple.bind (replaceStorage_spec env hFresh made content) ?_ before hBefore
  rintro _ mid ⟨hStorage, hMid⟩
  have hSaved : Recoverable start (storageInstalled start made content) :=
    storageInstalled_saved hFresh hStorage.noDanglingLink
  have hAsideSpec : Triple (· = storageInstalled start made content) (moveDatabaseAside env)
      (fun _ now => (∀ call ∈ asideCalls, env.signal call = none) ∧
        now = { storageInstalled start made content with database := .empty, databaseRollback := some start.database })
      fun _ => Recoverable start :=
    moveDatabaseAside_spec env hFresh.databaseRollback (fun _ => hSaved) fun _ _ _ h =>
      databaseAside_recoverable hFresh hStorage.noDanglingLink h
  refine Triple.bind hAsideSpec ?_ mid hMid
  rintro _ aside ⟨hAside, rfl⟩
  have hMoved : Recoverable start { storageInstalled start made content with
      database := .empty, databaseRollback := some start.database } := by
    refine ⟨.replaced rfl ⟨made, rfl⟩ rfl hStorage.noDanglingLink,
      .parted hFresh.databaseReplaced start.database rfl fun part => Or.inr ⟨?_, rfl⟩⟩
    exact DatabaseFiles.part_empty part
  unfold installDatabase
  refine restoreCall_spec env (P := (· = { storageInstalled start made content with
    database := .empty, databaseRollback := some start.database })) ?_ ?_ _ rfl
  · rintro hInstall now rfl
    exact ⟨made, content, ⟨hStaging, hStageable, hStorage, hAside, hInstall⟩, rfl⟩
  · rintro e now rfl
    exact hMoved

end Replacing

section Returning

theorem restoreCall_silent {α : Type} {call : RestoreCall} (h : env.signal call = none) (x : RestoreProgram α) :
    restoreCall env call x = x := by
  rw [restoreCall, h]
  rfl

/-- Staging makes the stages of storage and database. -/
theorem stageBackup_run (hFresh : Fresh start) (hSilent : ∀ call ∈ stagingCalls, env.signal call = none)
    {made : Directory} {content : Bytes} (h : Stageable sqlite settings backup made content) :
    stageBackup sqlite settings env backup start = (.ok (), staged start made content) := by
  obtain ⟨tree, path, hFolder, hRegular, hPath, hMade⟩ := h.storage
  have hTree : stageStorage env backup start = (.ok (), { start with storageStage := some (.dir tree) }) := by
    rw [stageStorage, hSilent .copyTree (by simp [stagingCalls]), hFolder]
    exact congrFun (if_pos hRegular) start
  have hTemporary : makeTemporaryRoot settings env { start with storageStage := some (.dir tree) } =
      (.ok (), { start with storageStage := some (.dir made) }) := by
    rw [makeTemporaryRoot, hPath]
    dsimp only
    rw [restoreCall_silent env (hSilent .makeTemporary (by simp [stagingCalls])), read_bind]
    dsimp only
    rw [hMade]
    rfl
  have hDatabase : stageDatabase env backup { start with storageStage := some (.dir made) } =
      (.ok (), staged start made content) := by
    rw [stageDatabase, hSilent .copyDatabase (by simp [stagingCalls]), h.database]
    dsimp only
    rw [read_bind, if_pos hFresh.databaseStage]
    rfl
  rw [stageBackup, bind_ok hTree, bind_ok hTemporary, bind_ok hDatabase,
    restoreCall_silent env (hSilent .checkStage (by simp [stagingCalls])), read_bind]
  change liftException (sqliteIntegrityCheck sqlite (.ofMain content)) (staged start made content) = _
  rw [h.sound]
  rfl

/-- The stage takes the place of the storage root. -/
theorem replaceStorage_run (hFresh : Fresh start) (made : Directory) (content : Bytes) (h : StorageReplaceable env start) :
    replaceStorage env (staged start made content) = (.ok (), storageInstalled start made content) := by
  have hAside : moveStorageAside env (staged start made content) = (.ok (), storageAside start made content) := by
    have hStorage : (staged start made content).storage = start.storage := rfl
    have hFree : (staged start made content).storageRollback = none := hFresh.storageRollback
    rw [moveStorageAside, restoreCall_silent env h.stat, bind_ok (pure_apply () _), read_bind, hStorage]
    by_cases hThere : pathExists start.storage = true
    · obtain ⟨entry, hEntry⟩ := exists_of_pathExists hThere
      rw [if_pos hThere, restoreCall_silent env (h.move hThere),
        renamePath_ok (by rw [hFree]; exact renameEntry_absent hEntry), storageAside, if_pos hThere]
      rfl
    · rw [if_neg hThere, storageAside, if_neg hThere]
      rfl
  rw [replaceStorage, bind_ok hAside, restoreCall_silent env h.install]
  exact installStorage_run hFresh made content h.noDanglingLink

/-- The move of one file of the database returns. -/
theorem moveAside_run {part : DatabasePart} (h : env.signal (.moveAside part) = none) (s : Restoring) :
    ∃ next, moveAside env part s = (.ok (), next) := by
  rw [moveAside, restoreCall_silent env h, read_bind]
  cases s.database.part part with
  | none => exact ⟨s, rfl⟩
  | some leaf => exact ⟨_, rfl⟩

/-- The whole database comes into the rollback directory. -/
theorem moveDatabaseAside_run {base : Restoring} (hFree : base.databaseRollback = none)
    (hSilent : ∀ call ∈ asideCalls, env.signal call = none) : moveDatabaseAside env base =
      (.ok (), { base with database := .empty, databaseRollback := some base.database }) := by
  have hSpec := moveDatabaseAside_spec (E := fun _ _ => False → False) env hFree (fun _ => id) (fun _ _ _ _ => id) base rfl
  have hReturns : ∃ after, moveDatabaseAside env base = (.ok (), after) := by
    obtain ⟨first, hFirst⟩ := moveAside_run env (hSilent (.moveAside .main) (by simp [asideCalls]))
      { base with databaseRollback := some .empty }
    obtain ⟨second, hSecond⟩ := moveAside_run env (hSilent (.moveAside .wal) (by simp [asideCalls])) first
    obtain ⟨third, hThird⟩ := moveAside_run env (hSilent (.moveAside .shm) (by simp [asideCalls])) second
    have hRollback : restoreCall env .makeRollback (do
        if (← read Restoring.databaseRollback) = none then
          write fun s => { s with databaseRollback := some .empty }
        else raiseException (.os .fileExistsError)) base = (.ok (), { base with databaseRollback := some .empty }) := by
      rw [restoreCall_silent env (hSilent .makeRollback (by simp [asideCalls])), read_bind, if_pos hFree]
      rfl
    refine ⟨third, ?_⟩
    rw [moveDatabaseAside, bind_ok hRollback, forEach, bind_ok hFirst, forEach, bind_ok hSecond, forEach, bind_ok hThird]
    rfl
  obtain ⟨after, hAfter⟩ := hReturns
  rw [hAfter] at hSpec ⊢
  rw [show after = _ from hSpec.2]

/-- Where everything is as needed, the restore gets to the migration. -/
theorem installBackup_run (hFresh : Fresh start) {made : Directory} {content : Bytes}
    (h : Installable sqlite settings env backup start made content) :
    installBackup sqlite settings env backup start = (.ok (), installed start made content) := by
  have hAside := @moveDatabaseAside_run env (storageInstalled start made content) hFresh.databaseRollback h.aside
  rw [installBackup, bind_ok (stageBackup_run sqlite settings env backup hFresh h.staging h.stageable),
    bind_ok (replaceStorage_run env hFresh made content h.storage), bind_ok hAside, installDatabase,
    restoreCall_silent env h.install]
  rfl

end Returning

end SoftwareHub.Backup
