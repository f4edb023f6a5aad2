import SoftwareHub.Backup.Accepted
import SoftwareHub.Backup.Installed

/-! Which verified backups can be restored. -/
namespace SoftwareHub.Backup

open SoftwareHub.Python SoftwareHub.Tree SoftwareHub.Semantics SoftwareHub.Semantics.Program

variable (sqlite : Sqlite) (settings : Settings) (env : RestoreEnvironment) (backup : Directory)

/-- The migration returns and leaves a sound database. -/
def Migrates (files : DatabaseFiles) : Prop :=
  (env.upgrade files).1 = none ∧ sqliteIntegrityCheck sqlite (env.upgrade files).2 = .ok ()

variable {start : Restoring}

/-- The handler raises whatever happens in it. -/
theorem takeBack_raises (e : BaseException) (s : Restoring) : ∃ raised after, takeBack env e s = (.error raised, after) := by
  rcases hRun : takeBack env e s with ⟨outcome, after⟩
  cases outcome with
  | error raised => exact ⟨raised, after, rfl⟩
  | ok u =>
      cases e with
      | exception e =>
          unfold takeBack at hRun
          obtain ⟨_, _, -, hRun⟩ := bind_eq_ok hRun
          obtain ⟨_, _, -, hRun⟩ := bind_eq_ok hRun
          cases hRun
      | keyboardInterrupt => cases hRun
      | systemExit => cases hRun

/-- A `finally` clause that returns follows a body that has returned. -/
theorem tryFinally_eq_ok {σ ε α : Type} {x : Program σ ε α} {last : Program σ ε Unit} {s t : σ} {a : α}
    (h : tryFinally x last s = (.ok a, t)) : ∃ mid, x s = (.ok a, mid) ∧ last mid = (.ok (), t) := by
  rcases hx : x s with ⟨outcome, mid⟩
  rcases hLast : last mid with ⟨ending, after⟩
  rw [tryFinally_run hx hLast] at h
  cases ending with
  | error e => cases h
  | ok u =>
      obtain ⟨hOutcome, rfl⟩ := Prod.mk.inj h
      exact ⟨mid, congrArg (·, mid) hOutcome, hLast⟩

/-- A restore that returns has gone through its body. -/
theorem restoreVerifiedBackup_eq_ok {after : Restoring} {u : Unit}
    (h : restoreVerifiedBackup sqlite settings env backup start = (.ok u, after)) :
    ∃ ready finished last, installBackup sqlite settings env backup start = (.ok (), ready) ∧
      finishDatabase sqlite env ready = (.ok (), finished) ∧ removeRollbacks env finished = (.ok (), last) ∧
      cleanUp env last = (.ok (), after) := by
  obtain ⟨last, hTry, hCleanUp⟩ := tryFinally_eq_ok h
  rcases hBody : (installBackup sqlite settings env backup >>= fun _ => finishDatabase sqlite env >>= fun _ =>
    removeRollbacks env) start with ⟨outcome, mid⟩
  cases outcome with
  | error e =>
      obtain ⟨raised, left, hRaised⟩ := takeBack_raises env e mid
      have hError := (tryExcept_error hBody).trans hRaised
      rw [show tryExcept _ _ start = _ from hTry] at hError
      cases hError
  | ok v =>
      have hOk := (tryExcept_ok hBody).symm.trans hTry
      obtain ⟨-, rfl⟩ := Prod.mk.inj hOk
      obtain ⟨_, ready, hInstall, hBody⟩ := bind_eq_ok hBody
      obtain ⟨_, finished, hFinish, hRemove⟩ := bind_eq_ok hBody
      exact ⟨ready, finished, _, hInstall, hFinish, hRemove, hCleanUp⟩

/-- What the migration leaves of a database, and the check after it if the migration returns. -/
def finishedDatabase (files : DatabaseFiles) : DatabaseFiles :=
  match env.upgrade files with
  | (none, migrated) => sqlite.opened migrated
  | (some _, migrated) => migrated

/-- After a migration that returns, the check opens the database. -/
theorem finishedDatabase_of_none {files : DatabaseFiles} (h : (env.upgrade files).1 = none) :
    finishedDatabase sqlite env files = sqlite.opened (env.upgrade files).2 := by
  unfold finishedDatabase
  rcases hRun : env.upgrade files with ⟨signal, migrated⟩
  rw [hRun] at h
  obtain rfl : signal = none := h
  rfl

/-- The check writes beside the main file only. -/
theorem finishedDatabase_main (files : DatabaseFiles) :
    (finishedDatabase sqlite env files).main = (env.upgrade files).2.main := by
  unfold finishedDatabase
  rcases env.upgrade files with ⟨_ | e, migrated⟩
  · exact sqlite.opened_main migrated
  · rfl

/-- The migration and the check succeed where they may. -/
theorem finishDatabase_run (hSilent : env.signal .checkDatabase = none) (s : Restoring) (h : Migrates sqlite env s.database) :
    finishDatabase sqlite env s = (.ok (), { s with database := finishedDatabase sqlite env s.database }) := by
  have hUpgrade : upgradeDatabase env s = (.ok (), { s with database := (env.upgrade s.database).2 }) := by
    rw [upgradeDatabase, read_bind]
    rcases hRun : env.upgrade s.database with ⟨signal, files⟩
    have hNone : signal = none := (congrArg Prod.fst hRun).symm.trans h.1
    rw [hNone]
    rfl
  rw [finishDatabase, bind_ok hUpgrade, read_bind, write_bind, restoreCall_silent env hSilent, h.2,
    finishedDatabase_of_none sqlite env h.1]
  rfl

theorem ignoringErrors_run {call : RestoreCall} (h : env.signal call = none) (s : Restoring) :
    ignoringErrors env call s = (.ok (), s) := by
  rw [ignoringErrors, h]
  rfl

/-- Where no call fails, the rollbacks are removed. -/
theorem removeRollbacks_run (hSilent : ∀ call, env.signal call = none) (s : Restoring) :
    ∃ after, removeRollbacks env s = (.ok (), after) := by
  rw [removeRollbacks, write_bind, bind_ok (ignoringErrors_run env (hSilent _) _), write_bind,
    ignoringErrors_run env (hSilent _) _]
  exact ⟨_, rfl⟩

theorem cleanUp_run (hSilent : ∀ call, env.signal call = none) (s : Restoring) : ∃ after, cleanUp env s = (.ok (), after) := by
  rw [cleanUp, write_bind, bind_ok (ignoringErrors_run env (hSilent _) _), restoreCall_silent env (hSilent _), write_bind,
    write_bind, ignoringErrors_run env (hSilent _) _]
  exact ⟨_, rfl⟩

/-- The main file of a sound database is a regular file. -/
theorem exists_main_of_sound {files : DatabaseFiles} (h : sqliteIntegrityCheck sqlite files = .ok ()) :
    ∃ content, files.main = some (.file content) := by
  unfold sqliteIntegrityCheck at h
  split at h
  · rename_i content hMain
    exact ⟨content, hMain⟩
  · cases h

/-- Where no call fails, a restore returns exactly when the backup can be
staged and the old storage root can be replaced. -/
theorem restore_returns_iff (hFresh : Fresh start) (hSilent : ∀ call, env.signal call = none)
    (hLink : start.storage = none ∨ pathExists start.storage = true)
    (hMigrates : ∀ content, backup.file? databaseEntryPath = some (.file content) → Migrates sqlite env (.ofMain content)) :
    (∃ after, restoreVerifiedBackup sqlite settings env backup start = (.ok (), after)) ↔
      ∃ made content, Stageable sqlite settings backup made content := by
  constructor
  · rintro ⟨after, h⟩
    obtain ⟨ready, -, -, hInstall, -⟩ := restoreVerifiedBackup_eq_ok sqlite settings env backup h
    obtain ⟨made, content, hInstallable, -⟩ := (installBackup_spec sqlite settings env backup hFresh).of_ok rfl hInstall
    exact ⟨made, content, hInstallable.stageable⟩
  · rintro ⟨made, content, h⟩
    have hInstallable : Installable sqlite settings env backup start made content :=
      ⟨fun _ _ => hSilent _, h, ⟨hSilent _, fun _ => hSilent _, hSilent _, hLink⟩, fun _ _ => hSilent _, hSilent _⟩
    have hInstall := installBackup_run sqlite settings env backup hFresh hInstallable
    have hFinish := finishDatabase_run sqlite env (hSilent _) (installed start made content) (hMigrates content h.database)
    obtain ⟨last, hRemove⟩ := removeRollbacks_run env hSilent
      { installed start made content with database := finishedDatabase sqlite env (.ofMain content) }
    obtain ⟨after, hCleanUp⟩ := cleanUp_run env hSilent last
    refine ⟨after, ?_⟩
    have hBody : (installBackup sqlite settings env backup >>= fun _ => finishDatabase sqlite env >>= fun _ =>
        removeRollbacks env) start = (.ok (), last) := by
      rw [bind_ok hInstall, bind_ok hFinish]
      exact hRemove
    exact tryFinally_run (tryExcept_ok hBody) hCleanUp

/-- No call fails, and the migration changes nothing. -/
def quietRestore : RestoreEnvironment where
  signal _ := none
  partialStage := none
  partialDatabase := none
  remains _ _ := none
  remainingFiles _ _ := none
  upgrade files := (none, files)
  listing := [.main, .wal, .shm]
  listing_perm := List.Perm.refl _

/-- The temporary root is a directory of the storage. -/
def restoreSettings : Settings where
  temporaryRelative := some [py "temporary"]
  requiredDirectories := []
  requiredDirectories_fileNames := fileNames_of_noDirectories
  backupRetentionCount := 1
  backupMinFreeBytes := 0
  projectRoot := .nil
  projectRoot_wellFormed := trivial

/-- A storage with an empty area, and a database. -/
def liveState : Restoring where
  storage := some (.dir (.dir (py "quarantine") .nil .nil))
  storageStage := none
  storageRollback := none
  database := .ofMain sampleDatabase
  databaseStage := none
  databaseRollback := none
  storageReplaced := false
  databaseReplaced := false

/-- The names of the stages and rollbacks are free. -/
theorem liveState_fresh : Fresh liveState := ⟨rfl, rfl, rfl, rfl, rfl, rfl⟩

/-- The sample database is sound after the migration. -/
theorem sample_migrates {tree : Directory} (h : tree.file? databaseEntryPath = some (.file sampleDatabase)) :
    ∀ content, tree.file? databaseEntryPath = some (.file content) → Migrates sampleSqlite quietRestore (.ofMain content) := by
  intro content hContent
  rw [h] at hContent
  cases hContent
  exact ⟨rfl, by decide⟩

end SoftwareHub.Backup
