import SoftwareHub.Backup.NoLoss

/-! Exactly which restores that raise keep the old state: the condition is on what
raises, not on where the attempt has got to. -/
namespace SoftwareHub.Backup

open SoftwareHub.Python SoftwareHub.Tree SoftwareHub.Semantics SoftwareHub.Semantics.Program

variable (sqlite : Sqlite) (settings : Settings) (env : RestoreEnvironment) (backup : Directory)

/-- What moving the old main file aside needs. -/
structure MainMoved (start : Restoring) (made : Directory) (content : Bytes) : Prop where
  staging : ∀ call ∈ stagingCalls, env.signal call = none
  stageable : Stageable sqlite settings backup made content
  storage : StorageReplaceable env start
  rollback : env.signal .makeRollback = none
  move : env.signal (.moveAside .main) = none

/-- A call that raises after the move of the main file, what is then in the
rollback directory, and whether the new database is in place. -/
structure Stop where
  raised : BaseException
  aside : DatabaseFiles
  replaced : Bool

/-- What a check raises. -/
def faultOf : Except PyException Unit → Option BaseException
  | .ok _ => none
  | .error e => some (.exception e)

/-- What the migration of the restored database raises, or the check after it. -/
def finishFault (content : Bytes) : Option BaseException :=
  (env.upgrade (.ofMain content)).1.or <|
    (env.signal .checkDatabase).or (faultOf (sqliteIntegrityCheck sqlite (env.upgrade (.ofMain content)).2))

/-- The first call after the move of the main file that raises. -/
def firstStop (old : DatabaseFiles) (content : Bytes) : Option Stop :=
  ((env.signal (.moveAside .wal)).map fun e => ⟨e, ⟨old.main, none, none⟩, false⟩).or <|
    ((env.signal (.moveAside .shm)).map fun e => ⟨e, ⟨old.main, old.wal, none⟩, false⟩).or <|
      ((env.signal .installDatabase).map fun e => ⟨e, old, false⟩).or <|
        (finishFault sqlite env content).map fun e => ⟨e, old, true⟩

/-- The handler takes the main file back: no interrupt passes it, and none of
its calls up to the move of that file raises. -/
def TakenBack (stop : Stop) : Prop :=
  ¬IsInterrupt stop.raised ∧ ∀ call ∈ (if stop.replaced = true then [RestoreCall.unlinkDatabase] else []) ++
    [.statDatabaseRollback, .listDatabaseRollback] ++ movesToMain stop.aside env.listing, env.signal call = none

/-- An interrupt arrives in the call. -/
def Interrupted (call : RestoreCall) : Prop := ∃ e, env.signal call = some e ∧ IsInterrupt e

/-- Nothing is raised after the last check. -/
def EndsQuietly : Prop :=
  (∀ call ∈ [RestoreCall.removeStorageRollback, .removeDatabaseRollback, .removeStage, .removeRollback], ¬Interrupted env call) ∧
    env.signal .unlinkStage = none

/-- An interrupt arrives before anything of the old storage tree is removed, and
the cleanup stops before it removes the old database. -/
def StopsTwice (storage : Option Entry) : Prop :=
  Interrupted env .removeStorageRollback ∧ CleanUpStops env ∧ removeTree env .removeStorageRollback storage = storage

/-- The restores that keep the old state when they raise. -/
structure KeepsOld (start : Restoring) : Prop where
  stopped : ∀ made content, MainMoved sqlite settings env backup start made content → ∀ stop,
    firstStop sqlite env start.database content = some stop → CleanUpStops env ∨ TakenBack env stop
  returned : ∀ made content, MainMoved sqlite settings env backup start made content →
    firstStop sqlite env start.database content = none → EndsQuietly env ∨ StopsTwice env start.storage

/-- A call that raises leaves the old state somewhere. -/
def LosesNothing (start : Restoring) (old : Leaf) : Prop :=
  ∀ e after, restoreVerifiedBackup sqlite settings env backup start = (.error e, after) →
    StorageKept start after ∧ MainKept old after

/-- The old main file is aside, and the new storage tree is in place. -/
def mainMoved (start : Restoring) (made : Directory) (content : Bytes) : Restoring :=
  { storageInstalled start made content with
    database := { start.database with main := none }
    databaseRollback := some ⟨start.database.main, none, none⟩ }

/-- After a last check that passes. -/
def finished (start : Restoring) (made : Directory) (content : Bytes) : Restoring :=
  migrated start made content (finishedDatabase sqlite env (.ofMain content))

/-- What an attempt that stops there leaves of the database. -/
structure StoppedAt (stop : Stop) (mid : Restoring) : Prop where
  rollback : mid.databaseRollback = some stop.aside
  replaced : mid.databaseReplaced = stop.replaced
  live : stop.replaced = false → mid.database.main = none

variable {sqlite settings env backup} {start : Restoring} {made : Directory} {content : Bytes} {old : Leaf}

section Attempt

/-- Wherever the attempt stops, the old main file is aside. -/
theorem firstStop_main {files : DatabaseFiles} {stop : Stop} (h : firstStop sqlite env files content = some stop) :
    stop.aside.main = files.main := by
  simp only [firstStop, Option.or_eq_some_iff, Option.map_eq_some_iff] at h
  rcases h with ⟨e, -, rfl⟩ | ⟨-, ⟨e, -, rfl⟩ | ⟨-, ⟨e, -, rfl⟩ | ⟨-, e, -, rfl⟩⟩⟩ <;> rfl

/-- One file is moved aside, whether it is there or not. -/
theorem moveAside_returns {part : DatabasePart} (h : env.signal (.moveAside part) = none) {s : Restoring} {files : DatabaseFiles}
    (hFiles : s.databaseRollback = some files) (hNone : files.part part = none) : moveAside env part s =
      (.ok (), { s with
        database := s.database.setPart none part
        databaseRollback := some (files.setPart (s.database.part part) part) }) := by
  have hSame {found : DatabaseFiles} (hFound : found.part part = none) : found.setPart none part = found := by
    apply DatabaseFiles.ext_part
    intro other
    rw [DatabaseFiles.part_setPart]
    split
    · rename_i hOther
      rw [hOther, hFound]
    · rfl
  rw [moveAside, restoreCall_silent env h, read_bind]
  cases hLeaf : s.database.part part with
  | none =>
      dsimp only
      rw [hSame hLeaf, hSame hNone, ← hFiles]
      rfl
  | some leaf =>
      dsimp only
      rw [write_apply, hFiles]
      rfl

/-- The migration and the check after it, and what the first of them to raise raises. -/
theorem finishDatabase_outcome {s : Restoring} (hDatabase : s.database = .ofMain content) :
    (finishFault sqlite env content = none ∧ finishDatabase sqlite env s =
      (.ok (), { s with database := finishedDatabase sqlite env (.ofMain content) })) ∨
    ∃ e, finishFault sqlite env content = some e ∧ finishDatabase sqlite env s =
      (.error e, { s with database := finishedDatabase sqlite env (.ofMain content) }) := by
  have hState := @finishDatabase_state sqlite env s
  rw [hDatabase] at hState
  unfold finishFault
  cases hRaised : (env.upgrade (.ofMain content)).1 with
  | some e =>
      have hUpgrade : upgradeDatabase env s = (.error e, { s with database := (env.upgrade (.ofMain content)).2 }) := by
        rw [upgradeDatabase, read_bind, hDatabase]
        rcases hRun : env.upgrade (.ofMain content) with ⟨signal, files⟩
        rw [hRun] at hRaised
        obtain rfl : signal = some e := hRaised
        rfl
      refine Or.inr ⟨e, rfl, ?_⟩
      rw [← hState]
      exact Prod.ext (by rw [finishDatabase, bind_error hUpgrade]) rfl
  | none =>
      have hUpgrade : upgradeDatabase env s = (.ok (), { s with database := (env.upgrade (.ofMain content)).2 }) := by
        rw [upgradeDatabase, read_bind, hDatabase]
        rcases hRun : env.upgrade (.ofMain content) with ⟨signal, files⟩
        rw [hRun] at hRaised
        obtain rfl : signal = none := hRaised
        rfl
      have hCheck : (finishDatabase sqlite env s).1 = (restoreCall env .checkDatabase
          (liftException (sqliteIntegrityCheck sqlite (env.upgrade (.ofMain content)).2))
            { s with database := sqlite.opened (env.upgrade (.ofMain content)).2 }).1 := by
        rw [finishDatabase, bind_ok hUpgrade]
        rfl
      cases hSignal : env.signal .checkDatabase with
      | some e =>
          refine Or.inr ⟨e, rfl, Prod.ext (hCheck.trans ?_) hState⟩
          rw [restoreCall_raises hSignal]
      | none =>
          rw [restoreCall_silent env hSignal] at hCheck
          cases hSound : sqliteIntegrityCheck sqlite (env.upgrade (.ofMain content)).2 with
          | error x =>
              rw [hSound] at hCheck
              exact Or.inr ⟨.exception x, rfl, Prod.ext hCheck hState⟩
          | ok u =>
              rw [hSound] at hCheck
              exact Or.inl ⟨rfl, Prod.ext hCheck hState⟩

/-- After the main file has been moved aside: the first call that raises stops the attempt. -/
theorem attempt_of_mainMoved (hFresh : Fresh start) (h : MainMoved sqlite settings env backup start made content) :
    (∃ stop mid, firstStop sqlite env start.database content = some stop ∧
      attemptRestore sqlite settings env backup start = (.error stop.raised, mid) ∧ StoppedAt stop mid) ∨
    firstStop sqlite env start.database content = none ∧
      attemptRestore sqlite settings env backup start = (.ok (), finished sqlite env start made content) := by
  have hMkdir : restoreCall env .makeRollback (do
      if (← read Restoring.databaseRollback) = none then
        write fun s => { s with databaseRollback := some .empty }
      else raiseException (.os .fileExistsError)) (storageInstalled start made content) =
        (.ok (), { storageInstalled start made content with databaseRollback := some .empty }) := by
    have hFree : (storageInstalled start made content).databaseRollback = none := hFresh.databaseRollback
    rw [restoreCall_silent env h.rollback, read_bind, if_pos hFree]
    rfl
  have hMain : moveAside env .main { storageInstalled start made content with databaseRollback := some .empty } =
      (.ok (), mainMoved start made content) := by
    rw [moveAside_returns h.move (show _ = some DatabaseFiles.empty from rfl) rfl]
    rfl
  -- What is left of the attempt once the main file is aside.
  have hRest {outcome : Except BaseException Unit} {mid : Restoring}
      (hTail : (forEach [.wal, .shm] (moveAside env) >>= fun _ => installDatabase env) (mainMoved start made content) =
        (outcome, mid)) : installBackup sqlite settings env backup start = (outcome, mid) := by
    have hAside : moveDatabaseAside env (storageInstalled start made content) =
        forEach [.wal, .shm] (moveAside env) (mainMoved start made content) := by
      rw [moveDatabaseAside, bind_ok hMkdir, forEach, bind_ok hMain]
    rw [← hTail, installBackup, bind_ok (stageBackup_run sqlite settings env backup hFresh h.staging h.stageable),
      bind_ok (replaceStorage_run env hFresh made content h.storage), bind_def, bind_def, hAside]
  unfold firstStop
  cases hWal : env.signal (.moveAside .wal) with
  | some e =>
      have hRaises : moveAside env .wal (mainMoved start made content) = (.error e, mainMoved start made content) :=
        restoreCall_raises hWal _ _
      refine Or.inl ⟨_, mainMoved start made content, rfl, bind_error (hRest ?_) _, rfl, hFresh.databaseReplaced, fun _ => rfl⟩
      rw [forEach, bind_def, bind_error hRaises]
  | none =>
      let second : Restoring := { mainMoved start made content with
        database := ⟨none, none, start.database.shm⟩
        databaseRollback := some ⟨start.database.main, start.database.wal, none⟩ }
      have hSecond : moveAside env .wal (mainMoved start made content) = (.ok (), second) := by
        rw [moveAside_returns hWal (show _ = some (DatabaseFiles.mk start.database.main none none) from rfl) rfl]
        rfl
      cases hShm : env.signal (.moveAside .shm) with
      | some e =>
          have hRaises : moveAside env .shm second = (.error e, second) := restoreCall_raises hShm _ _
          refine Or.inl ⟨_, second, rfl, bind_error (hRest ?_) _, rfl, hFresh.databaseReplaced, fun _ => rfl⟩
          rw [forEach, bind_def, bind_ok hSecond, forEach, bind_error hRaises]
      | none =>
          let third : Restoring := { mainMoved start made content with
            database := .empty
            databaseRollback := some start.database }
          have hThird : moveAside env .shm second = (.ok (), third) := by
            rw [moveAside_returns hShm (show _ = some (DatabaseFiles.mk start.database.main start.database.wal none) from rfl) rfl]
            rfl
          have hMoved : forEach [.wal, .shm] (moveAside env) (mainMoved start made content) = (.ok (), third) := by
            rw [forEach, bind_ok hSecond, forEach, bind_ok hThird]
            rfl
          cases hInstall : env.signal .installDatabase with
          | some e =>
              refine Or.inl ⟨_, third, rfl, bind_error (hRest ?_) _, rfl, hFresh.databaseReplaced, fun _ => rfl⟩
              exact (bind_ok hMoved _).trans (restoreCall_raises hInstall _ _)
          | none =>
              have hReady : installBackup sqlite settings env backup start = (.ok (), installed start made content) := by
                apply hRest
                rw [bind_ok hMoved, installDatabase, restoreCall_silent env hInstall]
                rfl
              rcases @finishDatabase_outcome sqlite env content (installed start made content) rfl with
                ⟨hFault, hFinish⟩ | ⟨e, hFault, hFinish⟩
              · rw [hFault]
                exact Or.inr ⟨rfl, (bind_ok hReady _).trans hFinish⟩
              · rw [hFault]
                exact Or.inl ⟨_, _, rfl, (bind_ok hReady _).trans hFinish, rfl, rfl, fun hFlag => by cases hFlag⟩

/-- Replacing the storage tree leaves the database alone. -/
theorem replaceStorage_silent : Silent Restoring.databaseRollback (replaceStorage env) := by
  unfold replaceStorage moveStorageAside
  refine Silent.bind (Silent.bind (restoreCall_silently (Silent.pure ())) fun _ => Silent.bind (Silent.read _) fun _ =>
    Silent.ite (restoreCall_silently (renamePath_silent ?_)) (Silent.pure ())) fun _ =>
      restoreCall_silently (renamePath_silent ?_)
  · intro _
    rfl
  · intro _
    rfl

/-- What holds of every state holds after every program. -/
theorem triple_of_forall {α : Type} {P : Restoring → Prop} {Q : α → Restoring → Prop} {E : BaseException → Restoring → Prop}
    {x : RestoreProgram α} (h : ∀ s, P s → (∀ a t, Q a t) ∧ ∀ e t, E e t) : Triple P x Q E := by
  intro s hs
  rcases x s with ⟨_ | _, _⟩
  · exact (h s hs).2 _ _
  · exact (h s hs).1 _ _

/-- An attempt that leaves the main file aside has got past the move of that file. -/
theorem attemptRestore_aside (hFresh : Fresh start) : Triple (· = start) (attemptRestore sqlite settings env backup)
    (fun _ _ => ∃ made content, MainMoved sqlite settings env backup start made content)
    fun _ now => MainAside old now → ∃ made content, MainMoved sqlite settings env backup start made content := by
  have hPlace {now : Restoring} (h : now.databaseRollback = none ∨ now.databaseRollback = some .empty) : ¬MainAside old now := by
    rintro ⟨files, hFiles, hMain⟩
    rcases h with hNone | hEmpty
    · rw [hNone] at hFiles
      cases hFiles
    · rw [hEmpty] at hFiles
      cases hFiles
      cases hMain
  have hMoves (base : Restoring) (hFree : base.databaseRollback = none) {I : Prop}
      (hMoved : env.signal .makeRollback = none → env.signal (.moveAside .main) = none → I) :
      Triple (· = base) (moveDatabaseAside env) (fun _ _ => I) fun _ now => MainAside old now → I := by
    unfold moveDatabaseAside
    refine Triple.bind (Q := fun _ now => env.signal .makeRollback = none ∧ now = { base with databaseRollback := some .empty })
      ?_ ?_
    · apply restoreCall_spec
      · rintro hSilent now rfl
        rw [read_bind, if_pos hFree]
        exact ⟨hSilent, rfl⟩
      · rintro e now rfl hAside
        exact (hPlace (Or.inl hFree) hAside).elim
    · rintro _ now ⟨hRollback, rfl⟩
      unfold forEach
      refine Triple.bind (P := (· = { base with databaseRollback := some .empty })) (Q := fun _ _ => I) ?_ ?_ _ rfl
      · apply restoreCall_spec
        · intro hSilent
          exact triple_of_forall fun _ _ => ⟨fun _ _ => hMoved hRollback hSilent, fun _ _ _ => hMoved hRollback hSilent⟩
        · rintro e now rfl hAside
          exact (hPlace (Or.inr rfl) hAside).elim
      · exact fun _ => triple_of_forall fun _ hI => ⟨fun _ _ => hI, fun _ _ _ => hI⟩
  have hInstall : Triple (· = start) (installBackup sqlite settings env backup)
      (fun _ _ => ∃ made content, MainMoved sqlite settings env backup start made content)
      fun _ now => MainAside old now → ∃ made content, MainMoved sqlite settings env backup start made content := by
    unfold installBackup
    refine Triple.bind ((stageBackup_spec sqlite settings env backup hFresh).mono (fun _ h => h) (fun _ _ h => h) ?_) ?_
    · intro e now hNow hAside
      unfold Untouched at hNow
      rw [hNow] at hAside
      exact (hPlace (Or.inl hFresh.databaseRollback) hAside).elim
    rintro _ before ⟨hStaging, made, content, hStageable, rfl⟩
    have hReplace : Triple (· = staged start made content) (replaceStorage env)
        (fun _ now => StorageReplaceable env start ∧ now = storageInstalled start made content)
        fun _ now => MainAside old now → ∃ made content, MainMoved sqlite settings env backup start made content := by
      rintro now rfl
      have hSpec := replaceStorage_spec env hFresh made content _ rfl
      have hSame := @replaceStorage_silent env (staged start made content)
      rcases hRun : replaceStorage env (staged start made content) with ⟨_ | _, after⟩
      · rw [hRun] at hSame
        exact fun hAside => (hPlace (Or.inl (hSame.trans hFresh.databaseRollback)) hAside).elim
      · rw [hRun] at hSpec
        exact hSpec
    refine Triple.bind hReplace ?_ _ rfl
    rintro _ now ⟨hStorage, rfl⟩
    refine Triple.bind (hMoves (storageInstalled start made content) hFresh.databaseRollback fun hRollback hMove =>
      ⟨made, content, hStaging, hStageable, hStorage, hRollback, hMove⟩) ?_ _ rfl
    exact fun _ => triple_of_forall fun _ hI => ⟨fun _ _ => hI, fun _ _ _ => hI⟩
  exact hInstall.bind fun _ => triple_of_forall fun _ hI => ⟨fun _ _ => hI, fun _ _ _ => hI⟩

end Attempt

section Handler

/-- While the main file is aside, a move back leaves it aside or brings it back. -/
theorem moveBack_keeps (part : DatabasePart) :
    Preserves (fun s => MainAside old s ∨ s.database.main = some old ∧ ∀ files, s.databaseRollback = some files → files.main = none)
      (moveBack env part) := by
  rintro s (⟨files, hFiles, hOld⟩ | hBack)
  · cases hLeaf : files.part part with
    | none =>
        rw [moveBack_absent hFiles hLeaf]
        exact Or.inl ⟨files, hFiles, hOld⟩
    | some leaf =>
        cases hSignal : env.signal (.moveBack part) with
        | some e =>
            rw [moveBack_raises hFiles hLeaf hSignal]
            exact Or.inl ⟨files, hFiles, hOld⟩
        | none =>
            rw [moveBack_moves hFiles hLeaf hSignal]
            by_cases hPart : part = .main
            · rw [hPart] at hLeaf ⊢
              refine Or.inr ⟨hLeaf.symm.trans hOld, ?_⟩
              rintro left hLeft
              cases hLeft
              rfl
            · exact Or.inl ⟨_, rfl, (main_setPart hPart files none).trans hOld⟩
  · exact Or.inr (moveBack_returned part s hBack)

/-- The compensation of a main file that is aside keeps it, whatever raises. -/
theorem compensateDatabase_kept {s : Restoring} (h : MainAside old s) : MainKept old (compensateDatabase env s).2 := by
  have hUnlink : Preserves (MainAside old) (unlinkInstalled env) := by
    intro now hNow
    have hSame : Silent Restoring.databaseRollback (unlinkInstalled env) := by
      unfold unlinkInstalled
      refine Silent.bind (Silent.read _) fun _ => Silent.ite (restoreCall_silently (Silent.write ?_)) (Silent.pure ())
      intro _
      rfl
    rw [MainAside, hSame now]
    exact hNow
  have hBack : Preserves (fun s => MainAside old s ∨ s.database.main = some old ∧
      ∀ files, s.databaseRollback = some files → files.main = none)
      (restoreCall env .statDatabaseRollback (pure ()) >>= fun _ => read (fun s => s.databaseRollback.isSome) >>= fun isSome =>
        if isSome = true then restoreDatabaseRollback env else pure ()) :=
    (ask_preserves _).bind fun _ => (Preserves.read _).bind fun _ => Preserves.ite ((ask_preserves _).bind fun _ =>
      Preserves.forEach fun part => moveBack_keeps part) (Preserves.pure ())
  have hMid := hUnlink s h
  unfold compensateDatabase
  rcases hRun : unlinkInstalled env s with ⟨outcome, mid⟩
  rw [hRun] at hMid
  cases outcome with
  | error e =>
      rw [bind_error hRun]
      exact Or.inr hMid
  | ok u =>
      rw [bind_ok hRun]
      rcases hBack mid (Or.inl hMid) with hAside | ⟨hMain, -⟩
      · exact Or.inr hAside
      · exact Or.inl hMain

/-- Where no call up to the move of the main file raises, it comes back. -/
theorem compensateDatabase_back {s : Restoring} {stop : Stop} (h : StoppedAt stop s) (hOld : stop.aside.main = some old)
    (hBack : TakenBack env stop) : (compensateDatabase env s).2.database.main = some old := by
  have hCalls : ∀ call ∈ callsToMain env s, env.signal call = none := by
    rw [callsToMain, h.replaced, h.rollback, Option.getD_some]
    exact hBack.2
  have hMain {now : Restoring} (hRollback : now.databaseRollback = s.databaseRollback)
      (hFlag : now.databaseReplaced = s.databaseReplaced) (hNone : now.database.main = none) :
      (compensateDatabase env now).2.database.main = some old := by
    have hNotOld : now.database.main ≠ some old := by
      rw [hNone]
      exact (Option.some_ne_none old).symm
    have hSame : callsToMain env now = callsToMain env s := by rw [callsToMain, callsToMain, hRollback, hFlag]
    rcases compensateDatabase_main (hRollback.trans h.rollback) hOld hNotOld with ⟨-, hDone⟩ | ⟨hRaises, -⟩
    · exact hDone
    · rw [hSame] at hRaises
      exact (hRaises hCalls).elim
  cases hReplaced : s.databaseReplaced with
  | false => exact hMain rfl rfl (h.live (h.replaced.symm.trans hReplaced))
  | true =>
      -- The unlinked database may be the old one again: it goes first.
      have hUnlink {now : Restoring} (hFlag : now.databaseReplaced = true) : unlinkInstalled env now =
          (.ok (), { now with database := now.database.setPart none .main }) := by
        have hSilent : env.signal .unlinkDatabase = none := by
          apply hCalls
          rw [callsToMain, hReplaced]
          exact List.mem_cons_self
        rw [unlinkInstalled, read_bind, if_pos hFlag, restoreCall_silent env hSilent]
        rfl
      have hSame : compensateDatabase env s =
          compensateDatabase env { s with database := s.database.setPart none .main } := by
        rw [compensateDatabase, bind_ok (hUnlink hReplaced),
          bind_ok (@hUnlink { s with database := s.database.setPart none .main } hReplaced)]
        rfl
      rw [hSame]
      exact hMain rfl rfl rfl

/-- The handler keeps a main file that is aside, whatever raises. -/
theorem takeBack_kept {mid : Restoring} (h : MainAside old mid) (e : BaseException) : MainKept old (takeBack env e mid).2 := by
  by_cases hInterrupt : IsInterrupt e
  · rw [takeBack_interrupt hInterrupt]
    exact Or.inr h
  · obtain ⟨x, rfl⟩ := exception_of_not_interrupt hInterrupt
    obtain ⟨hDatabase, hRollback⟩ := @takeBack_database env x mid
    rw [MainKept, MainAside, hDatabase, hRollback]
    exact compensateDatabase_kept h

/-- A main file in its place stays there. -/
theorem takeBack_inPlace {mid : Restoring} (h : MainInPlace old mid) (e : BaseException) :
    (takeBack env e mid).2.database.main = some old := by
  by_cases hInterrupt : IsInterrupt e
  · rw [takeBack_interrupt hInterrupt]
    exact h.2.1
  · obtain ⟨x, rfl⟩ := exception_of_not_interrupt hInterrupt
    rw [(takeBack_database x mid).1]
    exact compensateDatabase_inPlace h

/-- One that is aside comes back where the handler takes it back. -/
theorem takeBack_back {stop : Stop} {mid : Restoring} (h : StoppedAt stop mid) (hAside : MainAside old mid)
    (hBack : TakenBack env stop) : (takeBack env stop.raised mid).2.database.main = some old := by
  obtain ⟨x, hRaised⟩ := exception_of_not_interrupt hBack.1
  obtain ⟨files, hFiles, hOld⟩ := hAside
  obtain rfl : stop.aside = files := Option.some.inj (h.rollback.symm.trans hFiles)
  rw [hRaised, (takeBack_database x mid).1]
  exact compensateDatabase_back h hOld hBack

end Handler

section Ending

/-- A call whose errors are ignored returns unless an interrupt arrives in it. -/
theorem ignoringErrors_eq_ok {call : RestoreCall} {s : Restoring} :
    (ignoringErrors env call s).1 = .ok () ↔ ¬Interrupted env call := by
  constructor
  · rintro hOk ⟨e, hSignal, hInterrupt⟩
    rw [ignoringErrors_stops hSignal hInterrupt] at hOk
    cases hOk
  · intro h
    rw [ignoringErrors_passes fun e hSignal hInterrupt => h ⟨e, hSignal, hInterrupt⟩]

/-- What follows such a call runs if no interrupt arrives. -/
theorem ignoringErrors_bind {call : RestoreCall} (h : ¬Interrupted env call) (rest : Unit → RestoreProgram Unit) (s : Restoring) :
    (ignoringErrors env call >>= rest) s = rest () s :=
  bind_ok (ignoringErrors_passes (fun e hSignal hInterrupt => h ⟨e, hSignal, hInterrupt⟩) s) rest

/-- An interrupt in the first removal leaves the old database aside. -/
theorem removeRollbacks_interrupted (h : Interrupted env .removeStorageRollback) (s : Restoring) :
    ∃ e, removeRollbacks env s = (.error e, { s with storageRollback := removeTree env .removeStorageRollback s.storageRollback }) := by
  obtain ⟨e, hSignal, hInterrupt⟩ := h
  refine ⟨e, ?_⟩
  rw [removeRollbacks, write_bind, bind_error (ignoringErrors_stops hSignal hInterrupt _)]

/-- Otherwise the old database is removed as well. -/
theorem removeRollbacks_removed (h : ¬Interrupted env .removeStorageRollback) (s : Restoring) :
    (removeRollbacks env s).2.databaseRollback = s.databaseRollback.bind (env.remainingFiles .removeDatabaseRollback) := by
  rw [removeRollbacks, write_bind, ignoringErrors_bind h, write_bind]
  exact @ignoringErrors_keeps env _ (fun s => s.databaseRollback) .removeDatabaseRollback _

theorem removeRollbacks_eq_ok (s : Restoring) : (removeRollbacks env s).1 = .ok () ↔
    ¬Interrupted env .removeStorageRollback ∧ ¬Interrupted env .removeDatabaseRollback := by
  by_cases h : Interrupted env .removeStorageRollback
  · obtain ⟨e, hRun⟩ := removeRollbacks_interrupted h s
    rw [hRun]
    exact iff_of_false (fun hOk => by cases hOk) fun hBoth => hBoth.1 h
  · rw [removeRollbacks, write_bind, ignoringErrors_bind h, write_bind, ignoringErrors_eq_ok, and_iff_right h]

theorem cleanUp_eq_ok (s : Restoring) : (cleanUp env s).1 = .ok () ↔
    ¬Interrupted env .removeStage ∧ env.signal .unlinkStage = none ∧ ¬Interrupted env .removeRollback := by
  rw [cleanUp, write_bind]
  by_cases h : Interrupted env .removeStage
  · obtain ⟨e, hSignal, hInterrupt⟩ := h
    rw [bind_error (ignoringErrors_stops hSignal hInterrupt _)]
    exact iff_of_false (fun hOk => by cases hOk) fun hAll => hAll.1 ⟨e, hSignal, hInterrupt⟩
  · rw [ignoringErrors_bind h, and_iff_right h]
    cases hUnlink : env.signal .unlinkStage with
    | some e =>
        rw [bind_error (restoreCall_raises hUnlink _ _)]
        exact iff_of_false (fun hOk => by cases hOk) fun hAll => by cases hAll.1
    | none =>
        rw [restoreCall_silent env hUnlink, write_bind, write_bind, ignoringErrors_eq_ok, and_iff_right rfl]

/-- After an attempt that returns, the call returns exactly when nothing is raised any more. -/
theorem restore_eq_ok {mid : Restoring} (hAttempt : attemptRestore sqlite settings env backup start = (.ok (), mid)) :
    (restoreVerifiedBackup sqlite settings env backup start).1 = .ok () ↔ EndsQuietly env := by
  have hEnding := @cleanUp_eq_ok env (removeRollbacks env mid).2
  have hRemoval := @removeRollbacks_eq_ok env mid
  have hQuiet : EndsQuietly env ↔ (¬Interrupted env .removeStorageRollback ∧ ¬Interrupted env .removeDatabaseRollback) ∧
      ¬Interrupted env .removeStage ∧ env.signal .unlinkStage = none ∧ ¬Interrupted env .removeRollback := by
    simp only [EndsQuietly, List.forall_mem_cons]
    tauto
  rw [hQuiet, ← hRemoval, ← hEnding]
  rcases hRemove : removeRollbacks env mid with ⟨outcome, after⟩
  rcases hClean : cleanUp env after with ⟨ending, last⟩
  have hBody := (body_of_attempt sqlite settings backup hAttempt).trans hRemove
  rw [restoreVerifiedBackup_eq]
  cases ending with
  | error e =>
      rw [tryFinally_run hBody hClean]
      exact iff_of_false (fun hOk => by cases hOk) fun hBoth => by cases hBoth.2
  | ok u =>
      rw [tryFinally_run hBody hClean]
      exact (and_iff_left rfl).symm

end Ending

section Condition

/-- After the cleanup the main file is kept that is in its place, or aside where the cleanup stops. -/
theorem cleanUp_kept {s : Restoring} (h : s.database.main = some old ∨ CleanUpStops env ∧ MainKept old s) :
    MainKept old (cleanUp env s).2 := by
  have hLive : (cleanUp env s).2.database = s.database := congrArg (fun view => view.1.2) (@cleanUp_keeps env s)
  rw [MainKept, hLive]
  rcases h with hPlace | ⟨hStops, hKept⟩
  · exact Or.inl hPlace
  · rw [MainAside, cleanUp_stopped hStops]
    exact hKept

/-- The stop of an attempt that left the main file aside. -/
theorem stop_of_aside (hFresh : Fresh start) {e : BaseException} {mid : Restoring}
    (hAttempt : attemptRestore sqlite settings env backup start = (.error e, mid)) (hAside : MainAside old mid) :
    ∃ made content stop, MainMoved sqlite settings env backup start made content ∧
      firstStop sqlite env start.database content = some stop ∧ stop.raised = e ∧ StoppedAt stop mid := by
  obtain ⟨made, content, hMoved⟩ := (attemptRestore_aside hFresh).of_error rfl hAttempt hAside
  rcases attempt_of_mainMoved hFresh hMoved with ⟨stop, last, hStop, hRun, hLast⟩ | ⟨-, hRun⟩
  · rw [hAttempt] at hRun
    obtain ⟨hRaised, rfl⟩ := Prod.mk.inj hRun
    exact ⟨made, content, stop, hMoved, hStop, (Except.error.inj hRaised).symm, hLast⟩
  · rw [hAttempt] at hRun
    cases hRun

/-- An attempt that returns has gone past every call. -/
theorem finished_of_ok (hFresh : Fresh start) {mid : Restoring}
    (hAttempt : attemptRestore sqlite settings env backup start = (.ok (), mid)) :
    ∃ made content, MainMoved sqlite settings env backup start made content ∧
      firstStop sqlite env start.database content = none ∧ mid = finished sqlite env start made content := by
  obtain ⟨made, content, hMoved⟩ := (@attemptRestore_aside _ _ _ _ _ .special hFresh).of_ok rfl hAttempt
  rcases attempt_of_mainMoved hFresh hMoved with ⟨stop, last, -, hRun, -⟩ | ⟨hNone, hRun⟩
  · rw [hAttempt] at hRun
    cases hRun
  · rw [hAttempt] at hRun
    exact ⟨made, content, hMoved, hNone, (Prod.mk.inj hRun).2⟩

/-- Where the condition holds, nothing is lost. -/
theorem KeepsOld.losesNothing (h : KeepsOld sqlite settings env backup start) (hFresh : Fresh start)
    (hOld : start.database.main = some old) : LosesNothing sqlite settings env backup start old := by
  intro raised after hRun
  have hAfter : after = (restoreVerifiedBackup sqlite settings env backup start).2 := by rw [hRun]
  rcases hAttempt : attemptRestore sqlite settings env backup start with ⟨outcome, mid⟩
  cases outcome with
  | error e =>
      obtain ⟨hStorage, hMain⟩ := attemptRestore_saved sqlite settings backup hFresh hOld hAttempt
      rw [hAfter, restore_of_error sqlite settings backup hAttempt]
      refine ⟨storageKept_cleanUp hStorage, cleanUp_kept ?_⟩
      rcases hMain with hPlace | ⟨hAside, -⟩
      · exact Or.inl (takeBack_inPlace hPlace e)
      · obtain ⟨made, content, stop, hMoved, hStop, rfl, hStopped⟩ := stop_of_aside hFresh hAttempt hAside
        rcases h.stopped made content hMoved stop hStop with hStops | hBack
        · exact Or.inr ⟨hStops, takeBack_kept hAside stop.raised⟩
        · exact Or.inl (takeBack_back hStopped hAside hBack)
  | ok u =>
      obtain ⟨made, content, hMoved, hNone, rfl⟩ := finished_of_ok hFresh hAttempt
      rcases h.returned made content hMoved hNone with hQuiet | ⟨hInterrupted, hStops, hLeft⟩
      · have hOk := (restore_eq_ok hAttempt).mpr hQuiet
        rw [hRun] at hOk
        cases hOk
      · obtain ⟨e, hRemove⟩ := removeRollbacks_interrupted hInterrupted (finished sqlite env start made content)
        have hSame := @cleanUp_keeps env (removeRollbacks env (finished sqlite env start made content)).2
        rw [hAfter, restoreVerifiedBackup_state, body_of_attempt sqlite settings backup hAttempt]
        rw [hRemove] at hSame ⊢
        refine ⟨Or.inr ((congrArg Prod.snd hSame).trans hLeft), cleanUp_kept (Or.inr ⟨hStops, Or.inr ?_⟩)⟩
        exact ⟨start.database, rfl, hOld⟩

/-- After the cleanup the main file is aside only if the cleanup stops. -/
theorem aside_of_cleanUp (hRemoved : ∀ call files left, env.remainingFiles call files = some left → left.main = none)
    {s : Restoring} (h : MainAside old (cleanUp env s).2) : MainAside old s ∧ CleanUpStops env := by
  have hStops : CleanUpStops env := by
    by_contra hNot
    obtain ⟨left, hLeft, hMain⟩ := h
    rw [cleanUp_removed hNot] at hLeft
    obtain ⟨files, -, hFiles⟩ := Option.bind_eq_some_iff.mp hLeft
    rw [hRemoved _ files left hFiles] at hMain
    cases hMain
  rw [MainAside, cleanUp_stopped hStops] at h
  exact ⟨h, hStops⟩

section Lost

variable (hFresh : Fresh start)
  (hRemoved : ∀ call files left, env.remainingFiles call files = some left → left.main = none)
  (hDatabase : ∀ content, backup.file? databaseEntryPath = some (.file content) →
    (env.upgrade (.ofMain content)).2.main ≠ some old)
  (h : LosesNothing sqlite settings env backup start old)
  (hMoved : MainMoved sqlite settings env backup start made content)

include hFresh hRemoved hDatabase h hMoved

/-- Where nothing is lost, an attempt that stops is taken back, or the cleanup stops as well. -/
theorem takenBack_of_losesNothing (hOld : start.database.main = some old) {stop : Stop}
    (hStop : firstStop sqlite env start.database content = some stop) : CleanUpStops env ∨ TakenBack env stop := by
  rcases attempt_of_mainMoved hFresh hMoved with ⟨found, mid, hFound, hAttempt, hStopped⟩ | ⟨hNone, -⟩
  · obtain rfl : stop = found := Option.some.inj (hStop.symm.trans hFound)
    obtain ⟨raised, hRaised⟩ := restore_raises sqlite settings backup hAttempt
    obtain ⟨-, hKept⟩ := h raised (restoreVerifiedBackup sqlite settings env backup start).2 (Prod.ext hRaised rfl)
    rw [restore_of_error sqlite settings backup hAttempt, mainKept_cleanUp (hRemoved .removeRollback)] at hKept
    have hMain := (attemptRestore_error sqlite settings backup hFresh hOld hDatabase hAttempt).2
    rcases (mainKept_takeBack hMain stop.raised).mp hKept with hPlace | hStops | ⟨hException, hSilent⟩
    · exact (hPlace ⟨stop.aside, hStopped.rollback, (firstStop_main hStop).trans hOld⟩).elim
    · exact Or.inl hStops
    · refine Or.inr ⟨hException, ?_⟩
      rw [callsToMain, hStopped.replaced, hStopped.rollback, Option.getD_some] at hSilent
      exact hSilent
  · rw [hNone] at hStop
    cases hStop

/-- Where nothing is lost, nothing is raised after an attempt that returns, or
an interrupt comes before the first removal and another stops the cleanup. -/
theorem endsQuietly_of_losesNothing (hStorage : start.storage ≠ some (.dir made))
    (hNone : firstStop sqlite env start.database content = none) : EndsQuietly env ∨ StopsTwice env start.storage := by
  rcases attempt_of_mainMoved hFresh hMoved with ⟨stop, -, hStop, -⟩ | ⟨-, hAttempt⟩
  · rw [hNone] at hStop
    cases hStop
  rw [or_iff_not_imp_left]
  intro hRaises
  obtain ⟨raised, hRaised⟩ : ∃ raised, (restoreVerifiedBackup sqlite settings env backup start).1 = .error raised := by
    cases hResult : (restoreVerifiedBackup sqlite settings env backup start).1 with
    | error raised => exact ⟨raised, rfl⟩
    | ok u => exact (hRaises ((restore_eq_ok hAttempt).mp hResult)).elim
  obtain ⟨hStorageKept, hMainKept⟩ := h raised (restoreVerifiedBackup sqlite settings env backup start).2
    (Prod.ext hRaised rfl)
  have hSame := @cleanUp_keeps env (removeRollbacks env (finished sqlite env start made content)).2
  have hLive := @removeRollbacks_silent env (finished sqlite env start made content)
  rw [restoreVerifiedBackup_state, body_of_attempt sqlite settings backup hAttempt] at hStorageKept hMainKept
  simp only [Prod.mk.injEq, live] at hSame hLive
  obtain ⟨⟨hTree, hFiles⟩, hRollback⟩ := hSame
  -- The new database is in place, so that the old one has to be aside.
  have hAside : MainAside old (removeRollbacks env (finished sqlite env start made content)).2 ∧ CleanUpStops env := by
    rcases hMainKept with hPlace | hAside
    · rw [hFiles, hLive.2] at hPlace
      exact (hDatabase content hMoved.stageable.database ((finishedDatabase_main sqlite env _).symm.trans hPlace)).elim
    · exact aside_of_cleanUp hRemoved hAside
  have hInterrupted : Interrupted env .removeStorageRollback := by
    by_contra hNot
    obtain ⟨left, hLeft, hMain⟩ := hAside.1
    rw [removeRollbacks_removed hNot] at hLeft
    obtain ⟨files, -, hRemains⟩ := Option.bind_eq_some_iff.mp hLeft
    rw [hRemoved _ files left hRemains] at hMain
    cases hMain
  refine ⟨hInterrupted, hAside.2, ?_⟩
  obtain ⟨e, hRemove⟩ := removeRollbacks_interrupted hInterrupted (finished sqlite env start made content)
  rcases hStorageKept with hPlace | hThere
  · rw [hTree, hLive.1] at hPlace
    exact (hStorage hPlace.symm).elim
  · rw [hRollback, hRemove] at hThere
    exact hThere

end Lost

end Condition

/-- The migration fails, and so does the removal of the new database. -/
def stuckMigration : RestoreEnvironment :=
  { quietRestore with
    signal := fun call => if call = .unlinkDatabase then some (.exception (.os .other)) else none
    upgrade := fun _ => (some (.exception .databaseError), .ofMain [1]) }

end SoftwareHub.Backup
