import SoftwareHub.Backup.Restorable
import SoftwareHub.Semantics.View

/-! What the compensation of a failed restore gives back: everything but the side
files that a migration has made. -/
namespace SoftwareHub.Backup

open SoftwareHub.Python SoftwareHub.Tree SoftwareHub.Semantics SoftwareHub.Semantics.Program

variable (sqlite : Sqlite) (settings : Settings) (env : RestoreEnvironment) (backup : Directory)

def compensationCalls : List RestoreCall :=
  [.unlinkDatabase, .statDatabaseRollback, .listDatabaseRollback, .moveBack .main, .moveBack .wal, .moveBack .shm,
    .statStorageRollback, .restoreStorage, .unlinkStage]

/-- Every compensating step succeeds. -/
structure Compensating : Prop where
  silent : ∀ call ∈ compensationCalls, env.signal call = none
  removed : ∀ tree, env.remains .removeStorage tree = none

/-- No interrupt arrives. -/
structure Uninterrupted : Prop where
  signal : ∀ call e, env.signal call = some e → ∃ x, e = .exception x
  upgrade : ∀ files e, (env.upgrade files).1 = some e → ∃ x, e = .exception x

variable {env} {start : Restoring}

/-- Without interrupts a call whose errors are ignored returns. -/
theorem ignoringErrors_uninterrupted (h : Uninterrupted env) (call : RestoreCall) (s : Restoring) :
    ignoringErrors env call s = (.ok (), s) := by
  unfold ignoringErrors
  cases hSignal : env.signal call with
  | none => rfl
  | some e =>
      obtain ⟨x, rfl⟩ := h.signal call e hSignal
      rfl

/-- The files of the first, and what only the second has. -/
def DatabaseFiles.over (first second : DatabaseFiles) : DatabaseFiles :=
  ⟨first.main <|> second.main, first.wal <|> second.wal, first.shm <|> second.shm⟩

theorem DatabaseFiles.part_over (first second : DatabaseFiles) (part : DatabasePart) :
    (first.over second).part part = (first.part part <|> second.part part) := by cases part <;> rfl

theorem moveBack_run (h : ∀ part, env.signal (.moveBack part) = none) (part : DatabasePart) (s : Restoring)
    {files : DatabaseFiles} (hFiles : s.databaseRollback = some files) : ∃ live left,
      moveBack env part s = (.ok (), { s with database := live, databaseRollback := some left }) ∧ ∀ other,
        live.part other = (if other = part then (files.part other <|> s.database.part other) else s.database.part other) ∧
          left.part other = if other = part then none else files.part other := by
  have hBind : (s.databaseRollback.bind fun files => files.part part) = files.part part := by
    rw [hFiles]
    rfl
  rw [moveBack, read_bind, hBind]
  cases hLeaf : files.part part with
  | none =>
      refine ⟨s.database, files, ?_, ?_⟩
      · rw [← hFiles]
        rfl
      · intro other
        by_cases hOther : other = part
        · rw [hOther, if_pos rfl, if_pos rfl, hLeaf]
          exact ⟨rfl, rfl⟩
        · rw [if_neg hOther, if_neg hOther]
          exact ⟨rfl, rfl⟩
  | some leaf =>
      refine ⟨s.database.setPart (some leaf) part, files.setPart none part, ?_, ?_⟩
      · dsimp only
        rw [restoreCall_silent env (h part), write_apply, hFiles]
        rfl
      · intro other
        rw [DatabaseFiles.part_setPart, DatabaseFiles.part_setPart]
        by_cases hOther : other = part
        · rw [hOther, if_pos rfl, if_pos rfl, if_pos rfl, hLeaf]
          exact ⟨rfl, rfl⟩
        · rw [if_neg hOther, if_neg hOther, if_neg hOther]
          exact ⟨rfl, rfl⟩

/-- The loop of the way back, over any listing. -/
theorem moveBacks_run (h : ∀ part, env.signal (.moveBack part) = none) (parts : List DatabasePart) (s : Restoring)
    {files : DatabaseFiles} (hFiles : s.databaseRollback = some files) : ∃ live left,
      forEach parts (moveBack env) s = (.ok (), { s with database := live, databaseRollback := some left }) ∧ ∀ part,
        live.part part = if part ∈ parts then (files.part part <|> s.database.part part) else s.database.part part := by
  induction parts generalizing s files with
  | nil =>
      refine ⟨s.database, files, ?_, fun _ => rfl⟩
      rw [← hFiles]
      rfl
  | cons first parts ih =>
      obtain ⟨live, left, hRun, hParts⟩ := moveBack_run h first s hFiles
      obtain ⟨last, rest, hRest, hLast⟩ := ih { s with database := live, databaseRollback := some left } rfl
      refine ⟨last, rest, ?_, ?_⟩
      · rw [forEach, bind_ok hRun, hRest]
      · intro part
        rw [hLast part]
        obtain ⟨hLive, hLeft⟩ := hParts part
        by_cases hFirst : part = first
        · rw [if_pos hFirst] at hLive hLeft
          rw [hLeft, hLive, hFirst, if_pos List.mem_cons_self]
          split <;> rfl
        · rw [if_neg hFirst] at hLive hLeft
          rw [hLeft, hLive]
          simp [hFirst]

/-- The files of the rollback directory come back over what is there. -/
theorem restoreDatabaseRollback_run (h : Compensating env) (s : Restoring) {files : DatabaseFiles}
    (hFiles : s.databaseRollback = some files) : ∃ left, restoreDatabaseRollback env s =
      (.ok (), { s with database := files.over s.database, databaseRollback := left }) := by
  have hMoves : ∀ part, env.signal (.moveBack part) = none := by
    intro part
    cases part <;> exact h.silent _ (by simp [compensationCalls])
  obtain ⟨live, left, hRun, hParts⟩ := moveBacks_run hMoves env.listing s hFiles
  have hLive : live = files.over s.database := by
    apply DatabaseFiles.ext_part
    intro part
    have hListed : part ∈ env.listing := by
      apply env.listing_perm.mem_iff.mpr
      cases part <;> simp
    rw [hParts part, if_pos hListed, DatabaseFiles.part_over]
  refine ⟨some left, ?_⟩
  rw [restoreDatabaseRollback, restoreCall_silent env (h.silent _ (by simp [compensationCalls])), bind_ok (pure_apply () s),
    hRun, hLive]

/-- The old files come back, and side files that did not exist stay. -/
theorem compensateDatabase_replaced (h : Compensating env) (s : Restoring) (hFlag : s.databaseReplaced = true)
    (hRollback : s.databaseRollback = some start.database) : ∃ left, compensateDatabase env s =
      (.ok (), { s with database := start.database.over (s.database.setPart none .main), databaseRollback := left }) := by
  have hUnlink : unlinkInstalled env s = (.ok (), { s with database := s.database.setPart none .main }) := by
    rw [unlinkInstalled, read_bind, if_pos hFlag, restoreCall_silent env (h.silent _ (by simp [compensationCalls]))]
    rfl
  obtain ⟨left, hRun⟩ := restoreDatabaseRollback_run h { s with database := s.database.setPart none .main } hRollback
  have hSome : s.databaseRollback.isSome = true := by
    rw [hRollback]
    rfl
  refine ⟨left, ?_⟩
  rw [compensateDatabase, bind_ok hUnlink, restoreCall_silent env (h.silent _ (by simp [compensationCalls])),
    bind_ok (pure_apply () _), read_bind, if_pos hSome]
  exact hRun

/-- Files that were parted come together again. -/
theorem over_of_parted {old live files : DatabaseFiles} (h : Parted old live files) : files.over live = old := by
  apply DatabaseFiles.ext_part
  intro part
  rw [DatabaseFiles.part_over]
  rcases h part with ⟨hLive, hFiles⟩ | ⟨hLive, hFiles⟩
  · rw [hLive, hFiles]
    rfl
  · rw [hLive, hFiles]
    cases old.part part <;> rfl

theorem compensateDatabase_saved (h : Compensating env) (s : Restoring) (hSaved : DatabaseSaved start s) :
    ∃ left, compensateDatabase env s = (.ok (), { s with database := start.database, databaseRollback := left }) := by
  have hUnlink : s.databaseReplaced = false → unlinkInstalled env s = (.ok (), s) := by
    intro hFlag
    rw [unlinkInstalled, read_bind, hFlag]
    rfl
  have hStat := restoreCall_silent env (h.silent .statDatabaseRollback (by simp [compensationCalls])) (pure ())
  cases hSaved with
  | inPlace flag database rollback =>
      have hNone : s.databaseRollback.isSome = false := by
        rw [rollback]
        rfl
      refine ⟨s.databaseRollback, ?_⟩
      rw [compensateDatabase, bind_ok (hUnlink flag), hStat, bind_ok (pure_apply () s), read_bind, hNone, ← database]
      rfl
  | parted flag files rollback parts =>
      obtain ⟨left, hRun⟩ := restoreDatabaseRollback_run h s rollback
      refine ⟨left, ?_⟩
      rw [over_of_parted parts] at hRun
      have hSome : s.databaseRollback.isSome = true := by
        rw [rollback]
        rfl
      rw [compensateDatabase, bind_ok (hUnlink flag), hStat, bind_ok (pure_apply () s), read_bind, if_pos hSome]
      exact hRun

theorem compensateStorage_saved (h : Compensating env) (hAlone : Uninterrupted env) (s : Restoring)
    (hSaved : StorageSaved start s) : ∃ left, compensateStorage env s =
      (.ok (), { s with storage := start.storage, storageRollback := left }) := by
  have hStat := restoreCall_silent env (h.silent .statStorageRollback (by simp [compensationCalls])) (pure ())
  have hCall := restoreCall_silent env (h.silent .restoreStorage (by simp [compensationCalls]))
    (renamePath Restoring.storageRollback Restoring.storage fun s =>
      { s with storage := s.storageRollback, storageRollback := none })
  -- From a storage root that is gone.
  have hBack : ∀ gone : Restoring, gone.storage = none → gone.storageRollback = start.storage →
      (start.storage = none ∨ pathExists start.storage = true) → ∃ left,
        (restoreCall env .statStorageRollback (pure ()) >>= fun _ => read Restoring.storageRollback >>= fun rollback =>
          if pathExists rollback = true then restoreCall env .restoreStorage
            (renamePath Restoring.storageRollback Restoring.storage fun s =>
              { s with storage := s.storageRollback, storageRollback := none }) else pure ()) gone =
          (.ok (), { gone with storage := start.storage, storageRollback := left }) := by
    intro gone hGone hRollback hThere
    rw [hStat, bind_ok (pure_apply () gone), read_bind, hRollback]
    by_cases hExists : pathExists start.storage = true
    · obtain ⟨entry, hEntry⟩ := exists_of_pathExists hExists
      refine ⟨none, ?_⟩
      rw [if_pos hExists, hCall, renamePath_ok (by rw [hGone]; exact renameEntry_absent (hRollback.trans hEntry)), hRollback]
    · refine ⟨gone.storageRollback, ?_⟩
      rw [if_neg hExists, hThere.resolve_right hExists, ← hGone]
      rfl
  have hKeep : s.storageReplaced = false → removeInstalled env s = (.ok (), s) := by
    intro hFlag
    rw [removeInstalled, read_bind, hFlag]
    rfl
  unfold compensateStorage
  cases hSaved with
  | inPlace flag storage rollback =>
      refine ⟨s.storageRollback, ?_⟩
      have hNone : pathExists s.storageRollback = false := by
        rw [rollback]
        rfl
      rw [bind_ok (hKeep flag), hStat, bind_ok (pure_apply () s), read_bind, hNone, ← storage]
      rfl
  | aside flag storage rollback there =>
      obtain ⟨left, hRun⟩ := hBack s storage rollback (Or.inr there)
      exact ⟨left, (bind_ok (hKeep flag) _).trans hRun⟩
  | replaced flag storage rollback there =>
      obtain ⟨tree, hTree⟩ := storage
      have hRemove : removeInstalled env s = (.ok (), { s with storage := none }) := by
        rw [removeInstalled, read_bind, if_pos flag, write_bind, ignoringErrors_uninterrupted hAlone, hTree, removeTree,
          h.removed]
      obtain ⟨left, hRun⟩ := hBack { s with storage := none } rfl rollback there
      exact ⟨left, (bind_ok hRemove _).trans hRun⟩

/-- The live storage and the live database. -/
def live (s : Restoring) : Option Entry × DatabaseFiles := (s.storage, s.database)

/-- The handler of an exception compensates both and raises it again. -/
theorem takeBack_run {x : PyException} {s first second : Restoring} (hDatabase : compensateDatabase env s = (.ok (), first))
    (hStorage : compensateStorage env first = (.ok (), second)) :
    takeBack env (.exception x) s = (.error (.exception x), second) := by
  rw [takeBack, bind_ok hDatabase, bind_ok hStorage]
  rfl

/-- Before the installation of the database, the live state is as it was. -/
theorem takeBack_saved (h : Compensating env) (hAlone : Uninterrupted env) (x : PyException) {s : Restoring}
    (hSaved : Recoverable start s) : ∃ after, takeBack env (.exception x) s = (.error (.exception x), after) ∧
      live after = live start := by
  obtain ⟨left, hDatabase⟩ := compensateDatabase_saved h s hSaved.database
  have hStorageSaved : StorageSaved start { s with database := start.database, databaseRollback := left } := by
    cases hSaved.storage with
    | inPlace flag storage rollback => exact .inPlace flag storage rollback
    | aside flag storage rollback there => exact .aside flag storage rollback there
    | replaced flag storage rollback there => exact .replaced flag storage rollback there
  obtain ⟨rest, hStorage⟩ := compensateStorage_saved h hAlone _ hStorageSaved
  exact ⟨_, takeBack_run hDatabase hStorage, rfl⟩

def migrated (start : Restoring) (made : Directory) (content : Bytes) (files : DatabaseFiles) : Restoring :=
  { installed start made content with database := files }

/-- After the migration it is, except for the side files. -/
theorem takeBack_migrated (h : Compensating env) (hAlone : Uninterrupted env) (x : PyException) {made : Directory}
    {content : Bytes} (hLink : start.storage = none ∨ pathExists start.storage = true) (files : DatabaseFiles) :
    ∃ after, takeBack env (.exception x) (migrated start made content files) = (.error (.exception x), after) ∧
      live after = (start.storage, start.database.over (files.setPart none .main)) := by
  obtain ⟨left, hDatabase⟩ := compensateDatabase_replaced h (migrated start made content files) rfl rfl
  have hSaved : StorageSaved start { migrated start made content files with
      database := start.database.over (files.setPart none .main), databaseRollback := left } :=
    .replaced rfl ⟨made, rfl⟩ rfl hLink
  obtain ⟨rest, hStorage⟩ := compensateStorage_saved h hAlone _ hSaved
  exact ⟨_, takeBack_run hDatabase hStorage, rfl⟩

/-- The cleanup returns and leaves the live state alone. -/
theorem cleanUp_live (h : Compensating env) (hAlone : Uninterrupted env) (s : Restoring) :
    ∃ after, cleanUp env s = (.ok (), after) ∧ live after = live s := by
  rw [cleanUp, write_bind, bind_ok (ignoringErrors_uninterrupted hAlone _ _),
    restoreCall_silent env (h.silent _ (by simp [compensationCalls])), write_bind, write_bind,
    ignoringErrors_uninterrupted hAlone]
  exact ⟨_, rfl, rfl⟩

/-- Without interrupts the removal of the rollbacks returns. -/
theorem removeRollbacks_live (hAlone : Uninterrupted env) (s : Restoring) :
    ∃ after, removeRollbacks env s = (.ok (), after) := by
  rw [removeRollbacks, write_bind, bind_ok (ignoringErrors_uninterrupted hAlone _ _), write_bind,
    ignoringErrors_uninterrupted hAlone]
  exact ⟨_, rfl⟩

/-- What the migration and the check leave, also when one of them raises. -/
theorem finishDatabase_state (s : Restoring) :
    (finishDatabase sqlite env s).2 = { s with database := finishedDatabase sqlite env s.database } := by
  rw [finishDatabase, finishedDatabase]
  rcases hUpgrade : env.upgrade s.database with ⟨_ | e, files⟩
  · have hRun : upgradeDatabase env s = (.ok (), { s with database := files }) := by
      rw [upgradeDatabase, read_bind, hUpgrade]
      rfl
    rw [bind_ok hRun, read_bind, write_bind]
    unfold restoreCall
    cases env.signal .checkDatabase with
    | some e => rfl
    | none =>
        rw [guarded_none]
        cases sqliteIntegrityCheck sqlite files <;> rfl
  · have hRun : upgradeDatabase env s = (.error e, { s with database := files }) := by
      rw [upgradeDatabase, read_bind, hUpgrade]
      rfl
    rw [bind_error hRun]

/-- The side files that are left were there before. -/
def NoNewSideFiles (start : Restoring) (files : DatabaseFiles) : Prop :=
  ∀ part, part ≠ .main → start.database.part part = none → files.part part = none

/-- The database is the old one exactly when no side file is new. -/
theorem over_eq_iff {files : DatabaseFiles} :
    start.database.over (files.setPart none .main) = start.database ↔ NoNewSideFiles start files := by
  constructor
  · intro h part hPart hNone
    have hSame := congrArg (fun found : DatabaseFiles => found.part part) h
    rw [DatabaseFiles.part_over, DatabaseFiles.part_setPart, if_neg hPart, hNone] at hSame
    exact hSame
  · intro h
    apply DatabaseFiles.ext_part
    intro part
    rw [DatabaseFiles.part_over, DatabaseFiles.part_setPart]
    cases hOld : start.database.part part with
    | some leaf => rfl
    | none =>
        split
        · rfl
        · rename_i hPart
          exact h part hPart hOld

/-- A raising body stopped before the migration, or in it or in the check after it. -/
theorem body_error (hFresh : Fresh start) (hAlone : Uninterrupted env) {e : BaseException} {mid : Restoring}
    (h : (installBackup sqlite settings env backup >>= fun _ => finishDatabase sqlite env >>= fun _ =>
      removeRollbacks env) start = (.error e, mid)) :
    (Recoverable start mid ∧ ¬∃ made content, Installable sqlite settings env backup start made content) ∨
      ∃ made content, Installable sqlite settings env backup start made content ∧
        mid = migrated start made content (finishedDatabase sqlite env (.ofMain content)) := by
  rcases bind_eq_error h with hInstall | ⟨_, ready, hInstall, h⟩
  · refine Or.inl ⟨(installBackup_spec sqlite settings env backup hFresh).of_error rfl hInstall, ?_⟩
    rintro ⟨made, content, hInstallable⟩
    rw [installBackup_run sqlite settings env backup hFresh hInstallable] at hInstall
    cases hInstall
  · obtain ⟨made, content, hInstallable, rfl⟩ :=
      (installBackup_spec sqlite settings env backup hFresh).of_ok rfl hInstall
    rcases bind_eq_error h with hFinish | ⟨_, finished, -, h⟩
    · refine Or.inr ⟨made, content, hInstallable, ?_⟩
      have hState := @finishDatabase_state sqlite env (installed start made content)
      rw [hFinish] at hState
      exact hState
    · obtain ⟨after, hRemove⟩ := removeRollbacks_live hAlone finished
      rw [hRemove] at h
      cases h

/-- The program raises nothing but exceptions. -/
def Excepting {α : Type} (x : RestoreProgram α) : Prop :=
  Triple (fun _ => True) x (fun _ _ => True) fun e _ => ∃ raised, e = .exception raised

namespace Excepting

variable {α γ : Type}

theorem pure (a : α) : Excepting (pure a) := Triple.pure fun _ _ => trivial

theorem raise (e : PyException) : Excepting (raiseException e : RestoreProgram α) := Triple.raise fun _ _ => ⟨e, rfl⟩

theorem read (f : Restoring → α) : Excepting (Program.read f) := Triple.read fun _ _ => trivial

theorem write (f : Restoring → Restoring) : Excepting (Program.write f) := Triple.write fun _ _ => trivial

theorem bind {x : RestoreProgram α} {f : α → RestoreProgram γ} (hx : Excepting x) (hf : ∀ a, Excepting (f a)) :
    Excepting (x >>= f) := Triple.bind hx hf

theorem ite {c : Prop} [Decidable c] {x y : RestoreProgram α} (hx : Excepting x) (hy : Excepting y) :
    Excepting (if c then x else y) := Triple.ite (fun _ => hx) fun _ => hy

theorem forEach {ι : Type} {items : List ι} {body : ι → RestoreProgram Unit} (h : ∀ item, Excepting (body item)) :
    Excepting (forEach items body) := Triple.forEach fun item _ => h item

theorem restoreCall (hAlone : Uninterrupted env) {call : RestoreCall} {x : RestoreProgram α} (hx : Excepting x) :
    Excepting (restoreCall env call x) :=
  Triple.guarded hx fun e hSignal _ _ => hAlone.signal call e hSignal

theorem liftException (x : Except PyException α) : Excepting (liftException x) := by
  cases x with
  | ok a => exact pure a
  | error e => exact raise e

theorem renamePath (source target : Restoring → Option Entry) (renamed : Restoring → Restoring) :
    Excepting (renamePath source target renamed) := by
  apply (read source).bind
  intro entry
  apply (read target).bind
  intro found
  cases renameEntry entry found with
  | ok u => exact write renamed
  | error kind => exact raise _

/-- A write, then a signal is raised. -/
theorem write_raise (f : Restoring → Restoring) {e : BaseException} (he : ∃ raised, e = .exception raised) :
    Excepting (do
      Program.write f
      Program.raise e : RestoreProgram Unit) := by
  obtain ⟨raised, rfl⟩ := he
  exact (write f).bind fun _ => raise raised

/-- Staging raises exceptions only. -/
theorem stageBackup (hAlone : Uninterrupted env) : Excepting (stageBackup sqlite settings env backup) := by
  have hTree : Excepting (stageStorage env backup) := by
    unfold stageStorage
    cases hSignal : env.signal .copyTree with
    | some e => exact write_raise _ (hAlone.signal _ e hSignal)
    | none =>
        cases backup.find storageFolder with
        | none => exact raise _
        | some entry =>
            cases entry with
            | leaf value => exact raise _
            | dir tree => exact ite (write _) ((write _).bind fun _ => raise _)
  have hTemporary : Excepting (makeTemporaryRoot settings env) := by
    unfold makeTemporaryRoot
    cases settings.temporaryRelative with
    | none => exact raise _
    | some path =>
        apply restoreCall hAlone
        apply (read _).bind
        intro stage
        rcases stage with _ | ⟨leaf⟩ | ⟨tree⟩
        · exact raise _
        · exact raise _
        · dsimp only
          cases tree.mkdirs path with
          | none => exact raise _
          | some made => exact write _
  have hDatabase : Excepting (stageDatabase env backup) := by
    unfold stageDatabase
    cases hSignal : env.signal .copyDatabase with
    | some e => exact write_raise _ (hAlone.signal _ e hSignal)
    | none =>
        rcases backup.file? databaseEntryPath with _ | ⟨content | target | _⟩
        · exact raise _
        · exact (read _).bind fun _ => ite (write _) (raise _)
        · exact raise _
        · exact raise _
  exact hTree.bind fun _ => hTemporary.bind fun _ => hDatabase.bind fun _ =>
    restoreCall hAlone ((read _).bind fun _ => liftException _)

theorem installBackup (hAlone : Uninterrupted env) : Excepting (installBackup sqlite settings env backup) := by
  have hAside : Excepting (moveStorageAside env) :=
    (restoreCall hAlone (pure ())).bind fun _ => (read _).bind fun _ =>
      ite (restoreCall hAlone (renamePath _ _ _)) (pure ())
  have hReplace : Excepting (replaceStorage env) := hAside.bind fun _ => restoreCall hAlone (renamePath _ _ _)
  have hMove : ∀ part, Excepting (moveAside env part) := by
    intro part
    apply restoreCall hAlone
    apply (read _).bind
    intro leaf
    cases leaf with
    | none => exact pure ()
    | some leaf => exact write _
  have hDatabase : Excepting (moveDatabaseAside env) :=
    (restoreCall hAlone ((read _).bind fun _ => ite (write _) (raise _))).bind fun _ => forEach hMove
  have hInstall : Excepting (installDatabase env) := by
    apply restoreCall hAlone
    apply (read _).bind
    intro leaf
    cases leaf with
    | none => exact raise _
    | some leaf => exact write _
  exact (stageBackup sqlite settings backup hAlone).bind fun _ => hReplace.bind fun _ => hDatabase.bind fun _ => hInstall

theorem finishDatabase (hAlone : Uninterrupted env) : Excepting (finishDatabase sqlite env) := by
  have hUpgrade : Excepting (upgradeDatabase env) := by
    intro s _
    have hSignal := hAlone.upgrade s.database
    rw [upgradeDatabase, read_bind]
    rcases hRun : env.upgrade s.database with ⟨signal, files⟩
    rw [hRun] at hSignal
    cases signal with
    | none => exact trivial
    | some e => exact hSignal e rfl
  exact hUpgrade.bind fun _ => (read _).bind fun _ => (write _).bind fun _ => restoreCall hAlone (liftException _)

end Excepting

/-- The migration writes to the log of the database and raises. -/
def failingMigration : RestoreEnvironment :=
  { quietRestore with upgrade := fun files => (some (.exception .databaseError), { files with wal := some (.file [1]) }) }

theorem failingMigration_compensating : Compensating failingMigration := ⟨fun _ _ => rfl, fun _ => rfl⟩

theorem failingMigration_uninterrupted : Uninterrupted failingMigration := by
  constructor
  · intro call e h
    cases h
  · intro files e h
    cases h
    exact ⟨_, rfl⟩

end SoftwareHub.Backup
