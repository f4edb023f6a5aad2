import SoftwareHub.Backup.RoundTrip

/-! What a restore that raises has lost. The old storage tree is always kept. The
old database is lost where its rollback directory is removed before the main file is
back in its place. -/
namespace SoftwareHub.Backup

open SoftwareHub.Python SoftwareHub.Tree SoftwareHub.Semantics SoftwareHub.Semantics.Program

variable (sqlite : Sqlite) (settings : Settings) (env : RestoreEnvironment) (backup : Directory)

/-- The restore up to the removal of the rollbacks. -/
def attemptRestore : RestoreProgram Unit := do
  installBackup sqlite settings env backup
  finishDatabase sqlite env

/-- It passes `except Exception` and `ignore_errors=True`. -/
def IsInterrupt (e : BaseException) : Prop := ∀ x, e ≠ .exception x

/-- The old storage tree is in its place, or aside. -/
def StorageKept (start now : Restoring) : Prop := now.storage = start.storage ∨ now.storageRollback = start.storage

/-- The old main file is in the rollback directory. -/
def MainAside (old : Leaf) (s : Restoring) : Prop := ∃ files, s.databaseRollback = some files ∧ files.main = some old

/-- The old main file is in its place, or aside. -/
def MainKept (old : Leaf) (s : Restoring) : Prop := s.database.main = some old ∨ MainAside old s

/-- The moves of the way back, up to that of the main file. -/
def movesToMain (files : DatabaseFiles) : List DatabasePart → List RestoreCall
  | [] => []
  | part :: parts =>
      if part = .main then [.moveBack .main]
      else if (files.part part).isSome = true then .moveBack part :: movesToMain files parts
      else movesToMain files parts

/-- The calls of the handler, up to the move of the main file. -/
def callsToMain (s : Restoring) : List RestoreCall :=
  (if s.databaseReplaced = true then [.unlinkDatabase] else []) ++
    [.statDatabaseRollback, .listDatabaseRollback] ++ movesToMain (s.databaseRollback.getD .empty) env.listing

/-- The `finally` branch stops before it removes the rollback directory. -/
def CleanUpStops : Prop := (∃ e, env.signal .removeStage = some e ∧ IsInterrupt e) ∨ env.signal .unlinkStage ≠ none

variable {env} {start : Restoring} {old : Leaf}

section CleanUp

/-- An interrupt passes a call whose errors are ignored. -/
theorem ignoringErrors_stops {call : RestoreCall} {e : BaseException} (h : env.signal call = some e)
    (hInterrupt : IsInterrupt e) (s : Restoring) : ignoringErrors env call s = (.error e, s) := by
  rw [ignoringErrors, h]
  cases e with
  | exception x => exact (hInterrupt x rfl).elim
  | keyboardInterrupt => rfl
  | systemExit => rfl

/-- Any other exception is swallowed. -/
theorem ignoringErrors_passes {call : RestoreCall} (h : ∀ e, env.signal call = some e → ¬IsInterrupt e) (s : Restoring) :
    ignoringErrors env call s = (.ok (), s) := by
  unfold ignoringErrors
  cases hSignal : env.signal call with
  | none => rfl
  | some e =>
      cases e with
      | exception x => rfl
      | keyboardInterrupt => exact (h _ hSignal fun x => nofun).elim
      | systemExit => exact (h _ hSignal fun x => nofun).elim

theorem ignoringErrors_keeps {δ : Type} {view : Restoring → δ} (call : RestoreCall) :
    Silent view (ignoringErrors env call) := by
  intro s
  by_cases h : ∃ e, env.signal call = some e ∧ IsInterrupt e
  · obtain ⟨e, hSignal, hInterrupt⟩ := h
    rw [ignoringErrors_stops hSignal hInterrupt]
  · rw [ignoringErrors_passes fun e hSignal hInterrupt => h ⟨e, hSignal, hInterrupt⟩]

/-- A call that may raise leaves what its effect leaves. -/
theorem restoreCall_silently {δ α : Type} {view : Restoring → δ} {call : RestoreCall} {x : RestoreProgram α}
    (h : Silent view x) : Silent view (restoreCall env call x) := by
  unfold restoreCall
  cases env.signal call with
  | none => exact h
  | some e => exact Silent.raise e

/-- `shutil.rmtree(path, ignore_errors=True)`, then what follows it. -/
theorem removal_keeps {δ : Type} {view : Restoring → δ} {removed : Restoring → Restoring} {call : RestoreCall}
    {rest : RestoreProgram Unit} (h : ∀ s, view (removed s) = view s) (hRest : Silent view rest) :
    Silent view (write removed >>= fun _ => ignoringErrors env call >>= fun _ => rest) :=
  (Silent.write h).bind fun _ => (ignoringErrors_keeps call).bind fun _ => hRest

/-- The cleanup leaves the live state and the old storage tree alone. -/
theorem cleanUp_keeps : Silent (fun s => (live s, s.storageRollback)) (cleanUp env) := by
  unfold cleanUp
  apply removal_keeps
  · intro _
    rfl
  refine Silent.bind (restoreCall_silently (Silent.write ?_)) fun _ => Silent.bind (Silent.write ?_) fun _ =>
    ignoringErrors_keeps _
  · intro _
    rfl
  · intro _
    rfl

/-- A cleanup that stops leaves the rollback directory. -/
theorem cleanUp_stopped (h : CleanUpStops env) (s : Restoring) :
    (cleanUp env s).2.databaseRollback = s.databaseRollback := by
  unfold cleanUp
  rw [write_bind]
  by_cases hRemove : ∃ e, env.signal .removeStage = some e ∧ IsInterrupt e
  · obtain ⟨e, hSignal, hInterrupt⟩ := hRemove
    rw [bind_error (ignoringErrors_stops hSignal hInterrupt _)]
  · obtain ⟨e, hUnlink⟩ := Option.ne_none_iff_exists'.mp (h.resolve_left hRemove)
    have hRaises : ∀ now : Restoring, restoreCall env .unlinkStage (write fun s => { s with databaseStage := none }) now =
        (.error e, now) := by
      intro now
      rw [restoreCall, hUnlink]
      rfl
    rw [bind_ok (ignoringErrors_passes (fun e hSignal hInterrupt => hRemove ⟨e, hSignal, hInterrupt⟩) _),
      bind_error (hRaises _)]

/-- Any other removes it, or leaves what remains of it. -/
theorem cleanUp_removed (h : ¬CleanUpStops env) (s : Restoring) :
    (cleanUp env s).2.databaseRollback = s.databaseRollback.bind (env.remainingFiles .removeRollback) := by
  have hUnlink : env.signal .unlinkStage = none := Decidable.not_not.mp fun hNot => h (Or.inr hNot)
  have hLast : ∀ now : Restoring, (ignoringErrors env .removeRollback now).2.databaseRollback = now.databaseRollback :=
    fun now => @ignoringErrors_keeps env _ (fun s => s.databaseRollback) .removeRollback now
  rw [cleanUp, write_bind,
    bind_ok (ignoringErrors_passes (fun e hSignal hInterrupt => h (Or.inl ⟨e, hSignal, hInterrupt⟩)) _),
    restoreCall_silent env hUnlink, write_bind, write_bind, hLast]

/-- After the cleanup, the old main file is there if it was in its place, or
aside when the cleanup did not get to the rollback directory. -/
theorem mainKept_cleanUp (hRemoved : ∀ files left, env.remainingFiles .removeRollback files = some left → left.main = none)
    (s : Restoring) : MainKept old (cleanUp env s).2 ↔ s.database.main = some old ∨ MainAside old s ∧ CleanUpStops env := by
  have hLive : (cleanUp env s).2.database = s.database := congrArg (fun view => view.1.2) (@cleanUp_keeps env s)
  rw [MainKept, hLive]
  apply or_congr_right
  by_cases hStops : CleanUpStops env
  · rw [MainAside, cleanUp_stopped hStops, and_iff_left hStops]
    rfl
  · rw [MainAside, cleanUp_removed hStops, iff_false_right fun h => hStops h.2]
    rintro ⟨left, hLeft, hMain⟩
    obtain ⟨files, -, hFiles⟩ := Option.bind_eq_some_iff.mp hLeft
    rw [hRemoved files left hFiles] at hMain
    cases hMain

end CleanUp

section WayBack

/-- The main file is back when no call up to its move raises; otherwise it stays aside. -/
def MainBack (env : RestoreEnvironment) (old : Leaf) (calls : List RestoreCall) (s : Restoring) : Prop :=
  (∀ call ∈ calls, env.signal call = none) ∧ s.database.main = some old ∨
    (¬∀ call ∈ calls, env.signal call = none) ∧ MainAside old s ∧ s.database.main ≠ some old

/-- A call before the move raises, so that the file stays aside. -/
theorem MainBack.of_raise {calls : List RestoreCall} {call : RestoreCall} {e : BaseException} {s : Restoring}
    (hCall : call ∈ calls) (hSignal : env.signal call = some e) (hAside : MainAside old s)
    (hMain : s.database.main ≠ some old) : MainBack env old calls s := by
  refine Or.inr ⟨?_, hAside, hMain⟩
  intro hSilent
  rw [hSilent call hCall] at hSignal
  cases hSignal

theorem MainBack.cons {calls : List RestoreCall} {call : RestoreCall} {s : Restoring} (h : MainBack env old calls s)
    (hSilent : env.signal call = none) : MainBack env old (call :: calls) s := by
  rw [MainBack, List.forall_mem_cons, and_iff_right hSilent]
  exact h

/-- Once the main file is back, the other moves leave it alone. -/
theorem moveBack_returned (part : DatabasePart) :
    Preserves (fun s => s.database.main = some old ∧ ∀ files, s.databaseRollback = some files → files.main = none)
      (moveBack env part) := by
  rintro s ⟨hMain, hNone⟩
  rw [moveBack, read_bind]
  cases hLeaf : s.databaseRollback.bind fun files => files.part part with
  | none => exact ⟨hMain, hNone⟩
  | some leaf =>
      dsimp only
      unfold restoreCall
      cases env.signal (.moveBack part) with
      | some e => exact ⟨hMain, hNone⟩
      | none =>
          obtain ⟨files, hFiles, hPart⟩ := Option.bind_eq_some_iff.mp hLeaf
          cases part with
          | main =>
              have hAbsent := hNone files hFiles
              rw [show files.main = some leaf from hPart] at hAbsent
              cases hAbsent
          | wal =>
              refine ⟨hMain, ?_⟩
              rintro left hLeft
              rw [guarded_none, write_apply, hFiles] at hLeft
              cases hLeft
              exact hNone files hFiles
          | shm =>
              refine ⟨hMain, ?_⟩
              rintro left hLeft
              rw [guarded_none, write_apply, hFiles] at hLeft
              cases hLeft
              exact hNone files hFiles

/-- A file that is not there is not moved. -/
theorem moveBack_absent {part : DatabasePart} {s : Restoring} {files : DatabaseFiles} (hFiles : s.databaseRollback = some files)
    (h : files.part part = none) : moveBack env part s = (.ok (), s) := by
  rw [moveBack, read_bind, hFiles, Option.bind_some, h]
  rfl

/-- A move that raises leaves the file aside. -/
theorem moveBack_raises {part : DatabasePart} {s : Restoring} {files : DatabaseFiles} (hFiles : s.databaseRollback = some files)
    {leaf : Leaf} (h : files.part part = some leaf) {e : BaseException} (hSignal : env.signal (.moveBack part) = some e) :
    moveBack env part s = (.error e, s) := by
  rw [moveBack, read_bind, hFiles, Option.bind_some, h]
  dsimp only
  rw [restoreCall, hSignal]
  rfl

/-- A move that does not raise brings the file back. -/
theorem moveBack_moves {part : DatabasePart} {s : Restoring} {files : DatabaseFiles} (hFiles : s.databaseRollback = some files)
    {leaf : Leaf} (h : files.part part = some leaf) (hSignal : env.signal (.moveBack part) = none) :
    moveBack env part s = (.ok (), { s with
      database := s.database.setPart (some leaf) part
      databaseRollback := some (files.setPart none part) }) := by
  rw [moveBack, read_bind, hFiles, Option.bind_some, h]
  dsimp only
  rw [restoreCall_silent env hSignal, write_apply, hFiles]
  rfl

/-- The side files are not the main file. -/
theorem main_setPart {part : DatabasePart} (h : part ≠ .main) (files : DatabaseFiles) (leaf : Option Leaf) :
    (files.setPart leaf part).main = files.main :=
  (DatabaseFiles.part_setPart files leaf part .main).trans (if_neg h.symm)

/-- The moves depend on the files that are listed. -/
theorem movesToMain_congr {files left : DatabaseFiles} {parts : List DatabasePart}
    (h : ∀ part ∈ parts, left.part part = files.part part) : movesToMain left parts = movesToMain files parts := by
  induction parts with
  | nil => rfl
  | cons part parts ih =>
      rw [movesToMain, movesToMain, h part List.mem_cons_self, ih fun other hOther => h other (List.mem_cons_of_mem _ hOther)]

/-- The loop of the way back, up to the main file and past it. -/
theorem moveBacks_main {parts : List DatabasePart} (hNodup : parts.Nodup) (hListed : .main ∈ parts) {s : Restoring}
    {files : DatabaseFiles} (hFiles : s.databaseRollback = some files) (hOld : files.main = some old)
    (hMain : s.database.main ≠ some old) :
    MainBack env old (movesToMain files parts) (forEach parts (moveBack env) s).2 := by
  induction parts generalizing s files with
  | nil => cases hListed
  | cons part parts ih =>
      obtain ⟨hNew, hNodup⟩ := List.nodup_cons.mp hNodup
      unfold movesToMain
      by_cases hPart : part = .main
      · -- The main file itself: what follows it does not matter.
        have hLeaf : files.part .main = some old := hOld
        rw [if_pos hPart, hPart]
        cases hSignal : env.signal (.moveBack .main) with
        | some e =>
            rw [forEach, bind_error (moveBack_raises hFiles hLeaf hSignal)]
            exact .of_raise List.mem_cons_self hSignal ⟨files, hFiles, hOld⟩ hMain
        | none =>
            rw [forEach, bind_ok (moveBack_moves hFiles hLeaf hSignal)]
            refine Or.inl ⟨fun call hCall => by rwa [List.mem_singleton.mp hCall], ?_⟩
            have hKept := @Preserves.forEach _ _ _ _ parts (moveBack env) fun other => @moveBack_returned env old other
            refine (hKept _ ⟨rfl, ?_⟩).1
            rintro left hLeft
            cases hLeft
            rfl
      · have hLater : .main ∈ parts := (List.mem_cons.mp hListed).resolve_left fun h => hPart h.symm
        rw [if_neg hPart]
        cases hLeaf : files.part part with
        | none =>
            rw [forEach, bind_ok (moveBack_absent hFiles hLeaf)]
            exact ih hNodup hLater hFiles hOld hMain
        | some leaf =>
            cases hSignal : env.signal (.moveBack part) with
            | some e =>
                rw [forEach, bind_error (moveBack_raises hFiles hLeaf hSignal)]
                exact .of_raise List.mem_cons_self hSignal ⟨files, hFiles, hOld⟩ hMain
            | none =>
                have hSame : movesToMain (files.setPart none part) parts = movesToMain files parts := by
                  apply movesToMain_congr
                  rintro other hMem
                  rw [DatabaseFiles.part_setPart, if_neg]
                  rintro rfl
                  exact hNew hMem
                rw [forEach, bind_ok (moveBack_moves hFiles hLeaf hSignal), ← hSame]
                apply MainBack.cons _ hSignal
                apply ih hNodup hLater rfl
                · rw [main_setPart hPart, hOld]
                · rw [main_setPart hPart]
                  exact hMain

/-- A call that raises leaves everything as it is. -/
theorem restoreCall_raises {α : Type} {call : RestoreCall} {e : BaseException} (h : env.signal call = some e)
    (x : RestoreProgram α) (s : Restoring) : restoreCall env call x s = (.error e, s) := by
  rw [restoreCall, h]
  rfl

/-- The directory is looked at, listed and emptied. -/
theorem wayBack_main {s : Restoring} {files : DatabaseFiles} (hFiles : s.databaseRollback = some files)
    (hOld : files.main = some old) (hMain : s.database.main ≠ some old) :
    MainBack env old (.statDatabaseRollback :: .listDatabaseRollback :: movesToMain files env.listing)
      ((restoreCall env .statDatabaseRollback (pure ()) >>= fun _ => read (fun s => s.databaseRollback.isSome) >>= fun isSome =>
        if isSome = true then restoreDatabaseRollback env else pure ()) s).2 := by
  have hNodup : env.listing.Nodup := env.listing_perm.nodup_iff.mpr (by decide)
  have hListed : .main ∈ env.listing := env.listing_perm.mem_iff.mpr (by decide)
  cases hStat : env.signal .statDatabaseRollback with
  | some e =>
      rw [bind_error (restoreCall_raises hStat _ _)]
      exact .of_raise List.mem_cons_self hStat ⟨files, hFiles, hOld⟩ hMain
  | none =>
      rw [restoreCall_silent env hStat, bind_ok (pure_apply () s), read_bind, hFiles, if_pos Option.isSome_some]
      apply MainBack.cons _ hStat
      unfold restoreDatabaseRollback
      cases hList : env.signal .listDatabaseRollback with
      | some e =>
          rw [bind_error (restoreCall_raises hList _ _)]
          exact .of_raise List.mem_cons_self hList ⟨files, hFiles, hOld⟩ hMain
      | none =>
          rw [restoreCall_silent env hList, bind_ok (pure_apply () s)]
          exact (moveBacks_main hNodup hListed hFiles hOld hMain).cons hList

/-- The compensation of an installed database, as far as the main file goes. -/
theorem compensateDatabase_main {s : Restoring} {files : DatabaseFiles} (hFiles : s.databaseRollback = some files)
    (hOld : files.main = some old) (hMain : s.database.main ≠ some old) :
    MainBack env old (callsToMain env s) (compensateDatabase env s).2 := by
  unfold callsToMain
  rw [hFiles, Option.getD_some]
  cases hFlag : s.databaseReplaced with
  | false =>
      have hUnlink : unlinkInstalled env s = (.ok (), s) := by
        rw [unlinkInstalled, read_bind, hFlag]
        rfl
      rw [compensateDatabase, bind_ok hUnlink]
      exact wayBack_main hFiles hOld hMain
  | true =>
      rw [if_pos rfl]
      cases hSignal : env.signal .unlinkDatabase with
      | some e =>
          have hUnlink : unlinkInstalled env s = (.error e, s) := by
            rw [unlinkInstalled, read_bind, if_pos hFlag]
            exact restoreCall_raises hSignal _ _
          rw [compensateDatabase, bind_error hUnlink]
          exact .of_raise List.mem_cons_self hSignal ⟨files, hFiles, hOld⟩ hMain
      | none =>
          have hUnlink : unlinkInstalled env s = (.ok (), { s with database := s.database.setPart none .main }) := by
            rw [unlinkInstalled, read_bind, if_pos hFlag, restoreCall_silent env hSignal]
            rfl
          have hGone : (s.database.setPart none .main).main ≠ some old := (Option.some_ne_none old).symm
          have hRest := @wayBack_main env old { s with database := s.database.setPart none .main } files hFiles hOld hGone
          rw [compensateDatabase, bind_ok hUnlink]
          exact hRest.cons hSignal

end WayBack

section Handler

/-- The old main file is in its place, and nothing has replaced it. -/
def MainInPlace (old : Leaf) (s : Restoring) : Prop :=
  s.databaseReplaced = false ∧ s.database.main = some old ∧ ∀ files, s.databaseRollback = some files → files.main = none

/-- A file in its place is not aside. -/
theorem MainInPlace.not_aside {s : Restoring} (h : MainInPlace old s) : ¬MainAside old s := by
  rintro ⟨files, hFiles, hMain⟩
  rw [h.2.2 files hFiles] at hMain
  cases hMain

/-- A question to the file system changes nothing. -/
theorem ask_preserves {I : Restoring → Prop} (call : RestoreCall) : Preserves I (restoreCall env call (pure ())) := by
  unfold restoreCall
  cases env.signal call with
  | none => exact Preserves.pure ()
  | some e => exact Preserves.raise e

/-- Where the main file is in its place, the compensation leaves it there. -/
theorem compensateDatabase_inPlace {s : Restoring} (h : MainInPlace old s) :
    (compensateDatabase env s).2.database.main = some old := by
  have hUnlink : unlinkInstalled env s = (.ok (), s) := by
    rw [unlinkInstalled, read_bind, h.1]
    rfl
  have hBack : Preserves (fun s => s.database.main = some old ∧ ∀ files, s.databaseRollback = some files → files.main = none)
      (restoreCall env .statDatabaseRollback (pure ()) >>= fun _ => read (fun s => s.databaseRollback.isSome) >>= fun isSome =>
        if isSome = true then restoreDatabaseRollback env else pure ()) :=
    (ask_preserves _).bind fun _ => (Preserves.read _).bind fun _ => Preserves.ite ((ask_preserves _).bind fun _ =>
      Preserves.forEach fun part => moveBack_returned part) (Preserves.pure ())
  rw [compensateDatabase, bind_ok hUnlink]
  exact (hBack s h.2).1

/-- A rename leaves what it does not rename. -/
theorem renamePath_silent {δ : Type} {view : Restoring → δ} {source target : Restoring → Option Entry}
    {renamed : Restoring → Restoring} (h : ∀ s, view (renamed s) = view s) : Silent view (renamePath source target renamed) := by
  unfold renamePath
  apply (Silent.read _).bind
  intro entry
  apply (Silent.read _).bind
  intro found
  cases renameEntry entry found with
  | ok u => exact Silent.write h
  | error kind => exact Silent.raise _

/-- What the compensation of the storage leaves alone. -/
theorem compensateStorage_silent : Silent (fun s => (s.database, s.databaseRollback)) (compensateStorage env) := by
  unfold compensateStorage removeInstalled
  refine Silent.bind (Silent.bind (Silent.read _) fun _ => Silent.ite (Silent.bind (Silent.write ?_) fun _ =>
    ignoringErrors_keeps _) (Silent.pure ())) fun _ => ?_
  · intro _
    rfl
  refine Silent.bind (restoreCall_silently (Silent.pure ())) fun _ => Silent.bind (Silent.read _) fun _ =>
    Silent.ite (restoreCall_silently (renamePath_silent ?_)) (Silent.pure ())
  intro _
  rfl

/-- The storage tree, the one aside, and the flag. -/
def storageView (s : Restoring) : Option Entry × Option Entry × Bool := (s.storage, s.storageRollback, s.storageReplaced)

/-- What the compensation of the database leaves alone. -/
theorem compensateDatabase_silent : Silent storageView (compensateDatabase env) := by
  have hMove : ∀ part, Silent storageView (moveBack env part) := by
    intro part
    apply (Silent.read _).bind
    intro leaf
    cases leaf with
    | none => exact Silent.pure ()
    | some leaf => exact restoreCall_silently (Silent.write fun _ => rfl)
  unfold compensateDatabase unlinkInstalled restoreDatabaseRollback
  refine Silent.bind (Silent.bind (Silent.read _) fun _ => Silent.ite (restoreCall_silently (Silent.write ?_))
    (Silent.pure ())) fun _ => ?_
  · intro _
    rfl
  exact Silent.bind (restoreCall_silently (Silent.pure ())) fun _ => Silent.bind (Silent.read _) fun _ =>
    Silent.ite (Silent.bind (restoreCall_silently (Silent.pure ())) fun _ => Silent.forEach hMove) (Silent.pure ())

/-- Only these three matter to the old tree. -/
theorem StorageSaved.congr {now later : Restoring} (h : StorageSaved start now) (hSame : storageView later = storageView now) :
    StorageSaved start later := by
  simp only [storageView, Prod.mk.injEq] at hSame
  obtain ⟨hStorage, hRollback, hFlag⟩ := hSame
  cases h with
  | inPlace flag storage rollback =>
      exact .inPlace (hFlag.trans flag) (hStorage.trans storage) (hRollback.trans rollback)
  | aside flag storage rollback there =>
      exact .aside (hFlag.trans flag) (hStorage.trans storage) (hRollback.trans rollback) there
  | replaced flag storage rollback there =>
      rw [← hStorage] at storage
      exact .replaced (hFlag.trans flag) storage (hRollback.trans rollback) there

theorem StorageSaved.kept {now : Restoring} (h : StorageSaved start now) : StorageKept start now := by
  cases h with
  | inPlace flag storage rollback => exact Or.inl storage
  | aside flag storage rollback there => exact Or.inr rollback
  | replaced flag storage rollback there => exact Or.inr rollback

/-- A rename has all of the tree on one side. -/
theorem storageBack_kept {s : Restoring}
    (h : s.storageRollback = start.storage ∨ s.storage = start.storage ∧ s.storageRollback = none) :
    StorageKept start ((restoreCall env .statStorageRollback (pure ()) >>= fun _ => read Restoring.storageRollback >>=
      fun rollback => if pathExists rollback = true then restoreCall env .restoreStorage
        (renamePath Restoring.storageRollback Restoring.storage fun s =>
          { s with storage := s.storageRollback, storageRollback := none }) else pure ()) s).2 := by
  have hKept : StorageKept start s := by
    rcases h with hRollback | ⟨hStorage, -⟩
    · exact Or.inr hRollback
    · exact Or.inl hStorage
  cases hStat : env.signal .statStorageRollback with
  | some e =>
      rw [bind_error (restoreCall_raises hStat _ _)]
      exact hKept
  | none =>
      rw [restoreCall_silent env hStat, bind_ok (pure_apply () s), read_bind]
      by_cases hThere : pathExists s.storageRollback = true
      · rw [if_pos hThere]
        cases hSignal : env.signal .restoreStorage with
        | some e =>
            rw [restoreCall_raises hSignal]
            exact hKept
        | none =>
            rw [restoreCall_silent env hSignal]
            cases hRename : renameEntry s.storageRollback s.storage with
            | error kind =>
                rw [renamePath_error hRename]
                exact hKept
            | ok u =>
                rw [renamePath_ok hRename]
                rcases h with hRollback | ⟨-, hNone⟩
                · exact Or.inl hRollback
                · rw [hNone] at hThere
                  cases hThere
      · rw [if_neg hThere]
        exact hKept

/-- The removal of the new tree leaves the old one aside. -/
theorem removeInstalled_silent : Silent Restoring.storageRollback (removeInstalled env) := by
  unfold removeInstalled
  refine Silent.bind (Silent.read _) fun _ => Silent.ite (Silent.bind (Silent.write ?_) fun _ => ignoringErrors_keeps _)
    (Silent.pure ())
  intro _
  rfl

/-- The compensation keeps the old tree, whatever fails. -/
theorem compensateStorage_kept {s : Restoring} (h : StorageSaved start s) : StorageKept start (compensateStorage env s).2 := by
  have hMid : (removeInstalled env s).2.storageRollback = start.storage ∨
      (removeInstalled env s).2.storage = start.storage ∧ (removeInstalled env s).2.storageRollback = none := by
    rw [removeInstalled_silent s]
    cases h with
    | inPlace flag storage rollback =>
        have hNothing : removeInstalled env s = (.ok (), s) := by
          rw [removeInstalled, read_bind, flag]
          rfl
        rw [hNothing]
        exact Or.inr ⟨storage, rollback⟩
    | aside flag storage rollback there => exact Or.inl rollback
    | replaced flag storage rollback there => exact Or.inl rollback
  rcases hRemove : removeInstalled env s with ⟨outcome, mid⟩
  rw [hRemove] at hMid
  cases outcome with
  | error e =>
      rw [compensateStorage, bind_error hRemove]
      rcases hMid with hRollback | ⟨hStorage, -⟩
      · exact Or.inr hRollback
      · exact Or.inl hStorage
  | ok u =>
      rw [compensateStorage, bind_ok hRemove]
      exact storageBack_kept hMid

/-- The handler raises, keeps the old storage tree, and does to the database
what its compensation does, unless an interrupt passes it. -/
theorem takeBack_storage {s : Restoring} (h : StorageSaved start s) (e : BaseException) :
    StorageKept start (takeBack env e s).2 := by
  cases e with
  | keyboardInterrupt => exact h.kept
  | systemExit => exact h.kept
  | exception x =>
      have hSaved : StorageSaved start (compensateDatabase env s).2 := h.congr (compensateDatabase_silent s)
      rw [takeBack]
      rcases hDatabase : compensateDatabase env s with ⟨outcome, mid⟩
      rw [hDatabase] at hSaved
      cases outcome with
      | error raised =>
          rw [bind_error hDatabase]
          exact hSaved.kept
      | ok u =>
          have hKept := @compensateStorage_kept env start mid hSaved
          rw [bind_ok hDatabase]
          rcases hStorage : compensateStorage env mid with ⟨outcome, last⟩
          rw [hStorage] at hKept
          cases outcome with
          | error raised =>
              rw [bind_error hStorage]
              exact hKept
          | ok u =>
              rw [bind_ok hStorage]
              exact hKept

/-- The handler does to the database what its compensation does. -/
theorem takeBack_database (x : PyException) (s : Restoring) :
    (takeBack env (.exception x) s).2.database = (compensateDatabase env s).2.database ∧
      (takeBack env (.exception x) s).2.databaseRollback = (compensateDatabase env s).2.databaseRollback := by
  have hRest : Silent (fun s => (s.database, s.databaseRollback))
      (compensateStorage env >>= fun _ => raise (.exception x) : RestoreProgram Unit) :=
    compensateStorage_silent.bind fun _ => Silent.raise _
  rw [takeBack]
  rcases hDatabase : compensateDatabase env s with ⟨outcome, mid⟩
  cases outcome with
  | error raised =>
      rw [bind_error hDatabase]
      exact ⟨rfl, rfl⟩
  | ok u =>
      rw [bind_ok hDatabase]
      exact Prod.mk.inj (hRest mid)

/-- What is no interrupt is an exception. -/
theorem exception_of_not_interrupt {e : BaseException} (h : ¬IsInterrupt e) : ∃ x, e = .exception x := by
  by_contra hNot
  exact h fun x hx => hNot ⟨x, hx⟩

theorem takeBack_interrupt {e : BaseException} (h : IsInterrupt e) (s : Restoring) : takeBack env e s = (.error e, s) := by
  cases e with
  | exception x => exact (h x rfl).elim
  | keyboardInterrupt => rfl
  | systemExit => rfl

end Handler

section Losing

/-- Only an interrupt comes out of a call whose errors are ignored. -/
theorem ignoringErrors_spec (call : RestoreCall) :
    Triple (fun _ => True) (ignoringErrors env call) (fun _ _ => True) fun e _ => IsInterrupt e := by
  intro s _
  unfold ignoringErrors
  cases env.signal call with
  | none => trivial
  | some e =>
      cases e with
      | exception x => trivial
      | keyboardInterrupt => exact fun x => nofun
      | systemExit => exact fun x => nofun

/-- Only an interrupt stops the removal of the rollbacks. -/
theorem removeRollbacks_spec :
    Triple (fun _ => True) (removeRollbacks env) (fun _ _ => True) fun e _ => IsInterrupt e := by
  unfold removeRollbacks
  apply (Triple.write (Q := fun _ _ => True) fun _ _ => trivial).bind
  intro _
  apply (ignoringErrors_spec _).bind
  intro _
  exact (Triple.write (Q := fun _ _ => True) fun _ _ => trivial).bind fun _ => ignoringErrors_spec _

/-- The restore is its attempt, the removal of the rollbacks, the handler and the
cleanup. -/
theorem restoreVerifiedBackup_eq : restoreVerifiedBackup sqlite settings env backup =
    tryFinally (tryExcept (attemptRestore sqlite settings env backup >>= fun _ => removeRollbacks env) (takeBack env))
      (cleanUp env) := by
  have hBody : (installBackup sqlite settings env backup >>= fun _ => finishDatabase sqlite env >>= fun _ =>
      removeRollbacks env) = attemptRestore sqlite settings env backup >>= fun _ => removeRollbacks env := by
    funext s
    rw [attemptRestore, bind_def, bind_def, bind_def]
    rcases installBackup sqlite settings env backup s with ⟨_ | _, _⟩ <;> rfl
  unfold restoreVerifiedBackup
  rw [← hBody]

/-- Where the attempt raises, the old storage tree is somewhere, and the old
main file is in its place, or aside while there is none or the migrated one. -/
theorem attemptRestore_saved (hFresh : Fresh start) (hOld : start.database.main = some old) {e : BaseException} {mid : Restoring}
    (h : attemptRestore sqlite settings env backup start = (.error e, mid)) :
    StorageSaved start mid ∧ (MainInPlace old mid ∨ MainAside old mid ∧ (mid.database.main = none ∨ ∃ content,
      backup.file? databaseEntryPath = some (.file content) ∧ mid.database.main = (env.upgrade (.ofMain content)).2.main)) := by
  rcases bind_eq_error h with hInstall | ⟨_, ready, hInstall, hFinish⟩
  · have hSaved : Recoverable start mid := (installBackup_spec sqlite settings env backup hFresh).of_error rfl hInstall
    refine ⟨hSaved.storage, ?_⟩
    cases hSaved.database with
    | inPlace flag database rollback =>
        refine Or.inl ⟨flag, by rw [database, hOld], ?_⟩
        rw [rollback]
        exact fun _ => nofun
    | parted flag files rollback parts =>
        rcases parts .main with ⟨hLive, hFiles⟩ | ⟨hLive, hFiles⟩
        · refine Or.inl ⟨flag, hLive.trans hOld, ?_⟩
          rintro found hFound
          rw [rollback] at hFound
          cases hFound
          exact hFiles
        · exact Or.inr ⟨⟨files, rollback, hFiles.trans hOld⟩, Or.inl hLive⟩
  · obtain ⟨made, content, hInstallable, rfl⟩ :=
      (installBackup_spec sqlite settings env backup hFresh).of_ok rfl hInstall
    have hState := @finishDatabase_state sqlite env (installed start made content)
    rw [hFinish] at hState
    rw [show mid = _ from hState]
    exact ⟨.replaced rfl ⟨made, rfl⟩ rfl hInstallable.storage.noDanglingLink, Or.inr ⟨⟨start.database, rfl, hOld⟩,
      Or.inr ⟨content, hInstallable.stageable.database, finishedDatabase_main sqlite env (.ofMain content)⟩⟩⟩

/-- Where the migration changes the main file, the new one is not the old one. -/
theorem attemptRestore_error (hFresh : Fresh start) (hOld : start.database.main = some old)
    (hOther : ∀ content, backup.file? databaseEntryPath = some (.file content) →
      (env.upgrade (.ofMain content)).2.main ≠ some old) {e : BaseException} {mid : Restoring}
    (h : attemptRestore sqlite settings env backup start = (.error e, mid)) :
    StorageSaved start mid ∧ (MainInPlace old mid ∨ MainAside old mid ∧ mid.database.main ≠ some old) := by
  obtain ⟨hStorage, hMain⟩ := attemptRestore_saved sqlite settings backup hFresh hOld h
  refine ⟨hStorage, hMain.imp_right ?_⟩
  rintro ⟨hAside, hNone | ⟨content, hContent, hMigrated⟩⟩
  · rw [hNone]
    exact ⟨hAside, (Option.some_ne_none old).symm⟩
  · rw [hMigrated]
    exact ⟨hAside, hOther content hContent⟩

/-- After the handler: in its place, or aside for a cleanup that stops. -/
theorem mainKept_takeBack {mid : Restoring} (h : MainInPlace old mid ∨ MainAside old mid ∧ mid.database.main ≠ some old)
    (e : BaseException) :
    ((takeBack env e mid).2.database.main = some old ∨ MainAside old (takeBack env e mid).2 ∧ CleanUpStops env) ↔
      ¬MainAside old mid ∨ CleanUpStops env ∨ ¬IsInterrupt e ∧ ∀ call ∈ callsToMain env mid, env.signal call = none := by
  by_cases hInterrupt : IsInterrupt e
  · rw [takeBack_interrupt hInterrupt]
    rcases h with hPlace | ⟨hAside, hMain⟩
    · exact iff_of_true (Or.inl hPlace.2.1) (Or.inl hPlace.not_aside)
    · simp [hAside, hMain, hInterrupt]
  · obtain ⟨x, rfl⟩ := exception_of_not_interrupt hInterrupt
    obtain ⟨hDatabase, hRollback⟩ := @takeBack_database env x mid
    rw [MainAside, hDatabase, hRollback]
    rcases h with hPlace | ⟨hAside, hMain⟩
    · exact iff_of_true (Or.inl (compensateDatabase_inPlace hPlace)) (Or.inl hPlace.not_aside)
    · obtain ⟨files, hFiles, hOld⟩ := hAside
      have hThere : MainAside old mid := ⟨files, hFiles, hOld⟩
      rcases compensateDatabase_main hFiles hOld hMain with ⟨hSilent, hBack⟩ | ⟨hRaises, hAside, hAway⟩
      · exact iff_of_true (Or.inl hBack) (Or.inr (Or.inr ⟨hInterrupt, hSilent⟩))
      · change _ ∨ MainAside old (compensateDatabase env mid).2 ∧ _ ↔ _
        simp [hThere, hAside, hAway, hRaises]

/-- The cleanup runs on what the body and the handler leave. -/
theorem restoreVerifiedBackup_state (start : Restoring) : (restoreVerifiedBackup sqlite settings env backup start).2 =
    (cleanUp env (tryExcept (attemptRestore sqlite settings env backup >>= fun _ => removeRollbacks env)
      (takeBack env) start).2).2 := by
  rw [restoreVerifiedBackup_eq, tryFinally_state]

/-- After an attempt that raises, the handler and the cleanup run. -/
theorem restore_of_error {e : BaseException} {mid : Restoring}
    (hAttempt : attemptRestore sqlite settings env backup start = (.error e, mid)) :
    (restoreVerifiedBackup sqlite settings env backup start).2 = (cleanUp env (takeBack env e mid).2).2 := by
  rw [restoreVerifiedBackup_state, tryExcept_error (bind_error hAttempt _)]

/-- The call raises then. -/
theorem restore_raises {e : BaseException} {mid : Restoring}
    (hAttempt : attemptRestore sqlite settings env backup start = (.error e, mid)) :
    ∃ raised, (restoreVerifiedBackup sqlite settings env backup start).1 = .error raised := by
  rcases hRun : restoreVerifiedBackup sqlite settings env backup start with ⟨result, after⟩
  cases result with
  | error raised => exact ⟨raised, rfl⟩
  | ok u =>
      rw [restoreVerifiedBackup_eq] at hRun
      obtain ⟨last, hTry, -⟩ := tryFinally_eq_ok hRun
      obtain ⟨raised, back, hBack⟩ := takeBack_raises env e mid
      rw [tryExcept_error (bind_error hAttempt _), hBack] at hTry
      cases hTry

/-- The old storage tree is kept. -/
theorem storageKept_cleanUp {e : BaseException} {mid : Restoring} (h : StorageSaved start mid) :
    StorageKept start (cleanUp env (takeBack env e mid).2).2 := by
  have hKept := @takeBack_storage env start mid h e
  have hSame := @cleanUp_keeps env (takeBack env e mid).2
  simp only [Prod.mk.injEq, live] at hSame
  rw [StorageKept, hSame.1.1, hSame.2]
  exact hKept

/-- After an attempt that returns, only the rollbacks are removed before the cleanup. -/
theorem body_of_attempt {mid : Restoring} (hAttempt : attemptRestore sqlite settings env backup start = (.ok (), mid)) :
    tryExcept (attemptRestore sqlite settings env backup >>= fun _ => removeRollbacks env) (takeBack env) start =
      removeRollbacks env mid := by
  have hBody := bind_ok hAttempt fun _ => removeRollbacks env
  rcases hRemove : removeRollbacks env mid with ⟨outcome, last⟩
  rw [hRemove] at hBody
  cases outcome with
  | ok u => rw [tryExcept_ok hBody]
  | error e => rw [tryExcept_error hBody, takeBack_interrupt (removeRollbacks_spec.of_error trivial hRemove)]

/-- The migration is interrupted after it has written. -/
def interruptedMigration : RestoreEnvironment :=
  { quietRestore with upgrade := fun _ => (some .keyboardInterrupt, .ofMain [1]) }

theorem interruptedMigration_cleans : ¬CleanUpStops interruptedMigration := by
  rintro (⟨e, hSignal, -⟩ | hUnlink)
  · cases hSignal
  · exact hUnlink rfl

end Losing
end SoftwareHub.Backup
