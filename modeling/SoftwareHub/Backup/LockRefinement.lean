import SoftwareHub.Backup.OperationLock

/-! A process alone with the lock does what the service does with it. -/
namespace SoftwareHub.Backup.Locking

open SoftwareHub.Python SoftwareHub.Tree SoftwareHub.Semantics

/-- A process that nobody disturbs comes from one place to another. -/
def Reaches (first second : Process × BackupRoot) : Prop :=
  ∃ turns, interleave Process.step (List.replicate turns 0) ([first.1], first.2) = ([second.1], second.2)

theorem Reaches.refl (place : Process × BackupRoot) : Reaches place place := ⟨0, rfl⟩

theorem Reaches.step {process : Process} {root : BackupRoot} {last : Process × BackupRoot}
    (h : Reaches (process.step root) last) : Reaches (process, root) last := by
  obtain ⟨turns, hTurns⟩ := h
  exact ⟨turns + 1, hTurns⟩

theorem Reaches.trans {first second third : Process × BackupRoot} (h : Reaches first second)
    (hNext : Reaches second third) : Reaches first third := by
  obtain ⟨turns, hTurns⟩ := h
  obtain ⟨more, hMore⟩ := hNext
  refine ⟨turns + more, ?_⟩
  rw [← List.replicate_append_replicate, interleave_append, hTurns, hMore]

/-- What an activity comes to alone. -/
def Activity.result : Activity → BackupRoot → Except BaseException Unit × BackupRoot
  | .ends outcome, root => (outcome, root)
  | .does step rest, root => (rest root).result (step.apply root)

/-- What `finally` makes of an outcome. -/
def LockUse.release (use : LockUse) (outcome : Except BaseException Unit) (root : BackupRoot) :
    Except BaseException Unit × BackupRoot :=
  match use.closes, use.unlinks with
  | some e, _ => (.error e, root)
  | none, some e => (.error e, root)
  | none, none => (outcome, root.unlock)

theorem reaches_closing (use : LockUse) (body : Activity) (next : Except BaseException Unit → Plan) (root : BackupRoot) :
    Reaches (.inside use body next, root)
      (.closing use ((body.result root).1.mapError convertFileExists) next, (body.result root).2) := by
  induction body generalizing root with
  | ends outcome => exact (Reaches.refl _).step
  | does step rest ih =>
      apply Reaches.step
      exact ih root (step.apply root)

theorem reaches_released (use : LockUse) (outcome : Except BaseException Unit) (next : Except BaseException Unit → Plan)
    (root : BackupRoot) : Reaches (.closing use outcome next, root)
      (.running (next (use.release outcome root).1), (use.release outcome root).2) := by
  apply Reaches.step
  rw [Process.step, LockUse.release]
  cases use.closes with
  | some e => exact Reaches.refl _
  | none =>
      apply Reaches.step
      rw [Process.step]
      cases use.unlinks with
      | some e => exact Reaches.refl _
      | none => exact Reaches.refl _

/-- The lock of the service in a failing environment. -/
def useOf (faults : Faults) (body : Activity) : LockUse where
  ensures := (faults.signal .lockEnsureRoot).map .exception
  opens := (faults.signal .lockOpen).map .exception
  writes := (faults.signal .lockWrite).map .exception
  syncs := (faults.signal .lockSync).map .exception
  body := body
  closes := (faults.signal .lockClose).map .exception
  unlinks := (faults.signal .lockUnlink).map .exception

/-- A host and an outcome as a process sees them. -/
def Matches (result : Except PyException Unit × Host) (place : Except BaseException Unit × BackupRoot) : Prop :=
  place.1 = result.1.mapError .exception ∧ place.2.entries = result.2.backups

/-- The end of the lock, from the outcome of the `try` block on. -/
theorem reaches_end (faults : Faults) {body : Activity} {block : Program Host PyException Unit} {host : Host}
    {place : Except BaseException Unit × BackupRoot} (h : Matches (block host) place)
    (next : Except BaseException Unit → Plan) :
    ∃ left, Matches (Program.tryFinally block (releaseLock faults) host) left ∧
      Reaches (.closing (useOf faults body) place.1 next, place.2) (.running (next left.1), left.2) := by
  refine ⟨(useOf faults body).release place.1 place.2, ?_, reaches_released _ _ _ _⟩
  rcases hBlock : block host with ⟨outcome, mid⟩
  rw [hBlock] at h
  obtain ⟨hOutcome, hEntries⟩ := h
  unfold LockUse.release useOf
  cases hClose : faults.signal .lockClose with
  | some e =>
      have hRelease : releaseLock faults mid = (.error e, mid) := by
        unfold releaseLock call
        rw [hClose]
        rfl
      rw [Program.tryFinally_run hBlock hRelease]
      exact ⟨rfl, hEntries⟩
  | none =>
      cases hUnlink : faults.signal .lockUnlink with
      | some e =>
          have hRelease : releaseLock faults mid = (.error e, mid) := by
            unfold releaseLock call
            rw [hClose, hUnlink]
            rfl
          rw [Program.tryFinally_run hBlock hRelease]
          exact ⟨rfl, hEntries⟩
      | none =>
          have hRelease : releaseLock faults mid = (.ok (), { mid with backups := mid.backups.put lockName none }) := by
            unfold releaseLock call
            rw [hClose, hUnlink]
            rfl
          rw [Program.tryFinally_run hBlock hRelease]
          refine ⟨hOutcome, ?_⟩
          exact congrArg (fun entries : Directory => entries.put lockName none) hEntries

/-- The `try` block, from the open lock file on. -/
theorem reaches_block (faults : Faults) {program : Program Host PyException Unit} {body : Activity}
    (hBody : ∀ host root, root.entries = host.backups → Matches (program host) (body.result root)) {host : Host}
    {root : BackupRoot} (hRoot : root.entries = host.backups) (next : Except BaseException Unit → Plan) :
    ∃ place, Matches (Program.tryExcept (holdLock faults program) (fun e => Program.raise (Backup.convertFileExists e)) host)
        place ∧
      Reaches (.writing (useOf faults body) next, root) (.closing (useOf faults body) place.1 next, place.2) := by
  have hFailed {e : PyException} (hHold : holdLock faults program host = (.error e, host)) :
      Matches (Program.tryExcept (holdLock faults program) (fun e => Program.raise (Backup.convertFileExists e)) host)
        (.error (.exception (Backup.convertFileExists e)), root) := by
    rw [Program.tryExcept_error hHold]
    exact ⟨rfl, hRoot⟩
  cases hWrite : faults.signal .lockWrite with
  | some e =>
      refine ⟨_, @hFailed e ?_, ?_⟩
      · unfold holdLock call
        rw [hWrite]
        rfl
      · apply Reaches.step
        rw [Process.step, useOf, hWrite]
        exact Reaches.refl _
  | none =>
      have hSyncing : Reaches (.writing (useOf faults body) next, root) (.syncing (useOf faults body) next, root) := by
        apply Reaches.step
        rw [Process.step, useOf, hWrite]
        exact Reaches.refl _
      cases hSync : faults.signal .lockSync with
      | some e =>
          refine ⟨_, @hFailed e ?_, hSyncing.trans ?_⟩
          · unfold holdLock call
            rw [hWrite, hSync]
            rfl
          · apply Reaches.step
            rw [Process.step, useOf, hSync]
            exact Reaches.refl _
      | none =>
          have hInside : Reaches (.syncing (useOf faults body) next, root) (.inside (useOf faults body) body next, root) := by
            apply Reaches.step
            rw [Process.step, useOf, hSync]
            exact Reaches.refl _
          have hHold : holdLock faults program host = program host := by
            unfold holdLock call
            rw [hWrite, hSync]
            rfl
          refine ⟨((body.result root).1.mapError convertFileExists, (body.result root).2), ?_,
            (hSyncing.trans hInside).trans (reaches_closing _ body next root)⟩
          have hResult := hBody host root hRoot
          rcases hProgram : program host with ⟨outcome, after⟩
          rw [hProgram] at hResult
          obtain ⟨hOutcome, hEntries⟩ := hResult
          cases outcome with
          | ok result =>
              rw [Program.tryExcept_ok (hHold.trans hProgram)]
              exact ⟨congrArg (Except.mapError convertFileExists) hOutcome, hEntries⟩
          | error e =>
              rw [Program.tryExcept_error (hHold.trans hProgram)]
              exact ⟨congrArg (Except.mapError convertFileExists) hOutcome, hEntries⟩

/-- A body that matches a program makes the lock around it match the lock of the service. -/
theorem reaches_operationLock (faults : Faults) {program : Program Host PyException Unit} {body : Activity}
    (hBody : ∀ host root, root.entries = host.backups → Matches (program host) (body.result root)) {host : Host}
    {root : BackupRoot} (hRoot : root.entries = host.backups) (next : Except BaseException Unit → Plan) :
    ∃ left, Matches (operationLock faults program host) left ∧
      Reaches (.running (.locked (useOf faults body) next), root) (.running (next left.1), left.2) := by
  cases hEnsure : faults.signal .lockEnsureRoot with
  | some e =>
      refine ⟨(.error (.exception e), root), ⟨?_, ?_⟩, ?_⟩
      · unfold operationLock call
        rw [hEnsure]
        rfl
      · unfold operationLock call
        rw [hEnsure]
        exact hRoot
      · apply Reaches.step
        rw [Process.step, acquire, useOf, hEnsure]
        exact Reaches.refl _
  | none =>
      cases hOpen : faults.signal .lockOpen with
      | some e =>
          refine ⟨(.error (.exception (Backup.convertFileExists e)), root), ⟨?_, ?_⟩, ?_⟩
          · unfold operationLock call
            rw [hEnsure, hOpen]
            rfl
          · unfold operationLock call
            rw [hEnsure, hOpen]
            exact hRoot
          · apply Reaches.step
            rw [Process.step, acquire, useOf, hEnsure, hOpen]
            exact Reaches.refl _
      | none =>
          by_cases hFree : host.backups.find lockName = none
          · have hOpened : Program.tryExcept (call faults .lockOpen openLock)
                (fun e => Program.raise (Backup.convertFileExists e)) host = (.ok (), locked host) := by
              apply Program.tryExcept_ok
              rw [call, hOpen, Program.guarded_none, openLock_apply, if_pos hFree]
            have hRun : operationLock faults program host = Program.tryFinally (Program.tryExcept
                (holdLock faults program) fun e => Program.raise (Backup.convertFileExists e)) (releaseLock faults)
                  (locked host) := by
              unfold operationLock
              rw [Program.bind_ok (show call faults .lockEnsureRoot (pure ()) host = (.ok (), host) by
                rw [call, hEnsure]; rfl), Program.bind_ok hOpened]
            have hUnlocked : ¬root.IsLocked := by
              unfold BackupRoot.IsLocked
              rw [hRoot, hFree]
              exact not_not.mpr rfl
            have hAcquired : Reaches (.running (.locked (useOf faults body) next), root)
                (.writing (useOf faults body) next, root.lock) := by
              apply Reaches.step
              rw [Process.step, acquire, useOf, hEnsure, hOpen]
              dsimp only [Option.map]
              rw [if_neg hUnlocked]
              exact Reaches.refl _
            have hEntries : root.lock.entries = (locked host).backups := by
              change root.entries.put lockName _ = host.backups.put lockName _
              rw [hRoot]
            obtain ⟨place, hPlace, hBlock⟩ := reaches_block faults hBody hEntries next
            obtain ⟨left, hLeft, hEnd⟩ := @reaches_end faults body _ _ _ hPlace next
            rw [hRun]
            exact ⟨left, hLeft, (hAcquired.trans hBlock).trans hEnd⟩
          · have hRefused : operationLock faults program host =
                (.error (Backup.convertFileExists (.os .fileExistsError)), host) := by
              unfold operationLock
              rw [Program.bind_ok (show call faults .lockEnsureRoot (pure ()) host = (.ok (), host) by
                rw [call, hEnsure]; rfl)]
              apply Program.bind_error
              rw [call, hOpen, Program.guarded_none, Program.tryExcept_error (by rw [openLock_apply, if_neg hFree])]
              rfl
            refine ⟨(.error (convertFileExists (.exception (.os .fileExistsError))), root), ?_, ?_⟩
            · rw [hRefused]
              exact ⟨rfl, hRoot⟩
            · have hLocked : root.IsLocked := by
                unfold BackupRoot.IsLocked
                rwa [hRoot]
              apply Reaches.step
              rw [Process.step, acquire, useOf, hEnsure, hOpen]
              dsimp only [Option.map]
              rw [if_pos hLocked]
              exact Reaches.refl _

end SoftwareHub.Backup.Locking
