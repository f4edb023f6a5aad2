import SoftwareHub.Backup.AtomicCreation
import SoftwareHub.Semantics.Interleaving

/-! The operation lock between processes that create, prune and restore backups. -/
namespace SoftwareHub.Backup.Locking

open SoftwareHub.Python SoftwareHub.Tree SoftwareHub.Semantics

/-- The directory that holds the backups and the lock file. -/
structure BackupRoot where
  entries : Directory
  wellFormed : entries.WellFormed IsFileName

/-- An entry of the root is set. -/
def BackupRoot.put (root : BackupRoot) (name : PyStr) (entry : Option Entry) (hName : IsFileName name)
    (hEntry : ∀ node, entry = some node → Forest.Node.WellFormed IsFileName node) : BackupRoot :=
  ⟨root.entries.put name entry, root.wellFormed.put hName hEntry⟩

def BackupRoot.lock (root : BackupRoot) : BackupRoot :=
  root.put lockName (some (.leaf (.file []))) isFileName_lockName (by simp [Forest.Node.WellFormed])

def BackupRoot.unlock (root : BackupRoot) : BackupRoot := root.put lockName none isFileName_lockName (by simp)

def BackupRoot.IsLocked (root : BackupRoot) : Prop := root.entries.find lockName ≠ none

instance (root : BackupRoot) : Decidable root.IsLocked := inferInstanceAs (Decidable (¬_))

/-- A change of the backup root that is none of the lock file. -/
structure RootStep where
  apply : BackupRoot → BackupRoot
  keepsLock : ∀ root, (apply root).entries.find lockName = root.entries.find lockName

/-- Code that does not touch the lock, step by step; what it does next depends on what it finds. -/
inductive Activity where
  | ends (outcome : Except BaseException Unit)
  | does (step : RootStep) (next : BackupRoot → Activity)

/-- One use of `with self._operation_lock()`: its body, and the exceptions of the calls around it. -/
structure LockUse where
  ensures : Option BaseException
  opens : Option BaseException
  writes : Option BaseException
  syncs : Option BaseException
  body : Activity
  closes : Option BaseException
  unlinks : Option BaseException

/-- The rest of a process outside the lock. -/
inductive Plan where
  | finished
  | does (step : RootStep) (next : BackupRoot → Plan)
  | locked (use : LockUse) (next : Except BaseException Unit → Plan)

/-- An activity, and the plan that its outcome leads to. -/
def Activity.followedBy : Activity → (Except BaseException Unit → Plan) → Plan
  | .ends outcome, next => next outcome
  | .does step rest, next => .does step fun root => (rest root).followedBy next

/-- The parts of `create_backup`. The body of its lock applies the retention without a lock of its own. -/
structure Creation where
  initialise : Activity
  use : LockUse
  report : Activity
  abandon : BaseException → Activity

/-- The handler, which lets interrupts through. -/
def abandonBackup (creation : Creation) (e : BaseException) (next : Except BaseException Unit → Plan) : Plan :=
  match e with
  | .exception _ => (creation.abandon e).followedBy fun
      | .error other => next (.error other)
      | .ok () => next (.error e)
  | _ => next (.error e)

/-- `create_backup`: the lock, the handler around it, and the audit event. -/
def createBackup (creation : Creation) (next : Except BaseException Unit → Plan) : Plan :=
  creation.initialise.followedBy fun
    | .error e => next (.error e)
    | .ok () => .locked creation.use fun
        | .error e => abandonBackup creation e next
        | .ok () => creation.report.followedBy fun
            | .error e => abandonBackup creation e next
            | .ok () => next (.ok ())

/-- `apply_retention` with `acquire_lock=True`. -/
def applyRetention (use : LockUse) (next : Except BaseException Unit → Plan) : Plan := .locked use next

/-- The parts of `restore_backup`: the verification, the safety backup with a lock
of its own, the lock and the audit event. -/
structure Restoration where
  verify : Activity
  safety : Option Creation
  use : LockUse
  audit : Activity

/-- The restoration once the safety backup exists. -/
def restoreLocked (restoration : Restoration) (next : Except BaseException Unit → Plan) : Plan :=
  .locked restoration.use fun
    | .error e => next (.error e)
    | .ok () => restoration.audit.followedBy next

/-- `restore_backup`: the lock is taken after the safety backup has given it back. -/
def restoreBackup (restoration : Restoration) (next : Except BaseException Unit → Plan) : Plan :=
  restoration.verify.followedBy fun
    | .error e => next (.error e)
    | .ok () => match restoration.safety with
        | none => restoreLocked restoration next
        | some creation => createBackup creation fun
            | .error e => next (.error e)
            | .ok () => restoreLocked restoration next

/-- What a process is asked to do. -/
inductive Command where
  | createBackup (creation : Creation)
  | applyRetention (use : LockUse)
  | restoreBackup (restoration : Restoration)

/-- The plan of a command, before what follows it. -/
def Command.plan : Command → (Except BaseException Unit → Plan) → Plan
  | .createBackup creation => Locking.createBackup creation
  | .applyRetention use => Locking.applyRetention use
  | .restoreBackup restoration => Locking.restoreBackup restoration

/-- The commands of a process, one after the other. -/
def planOf : List Command → Plan
  | [] => .finished
  | command :: commands => command.plan fun _ => planOf commands

/-- `except FileExistsError` of the lock, which also covers its body. -/
def convertFileExists : BaseException → BaseException
  | .exception e => .exception (Backup.convertFileExists e)
  | e => e

/-- Where a process is in `_operation_lock`. -/
inductive Process where
  | running (plan : Plan)
  | writing (use : LockUse) (next : Except BaseException Unit → Plan)
  | syncing (use : LockUse) (next : Except BaseException Unit → Plan)
  | inside (use : LockUse) (body : Activity) (next : Except BaseException Unit → Plan)
  | closing (use : LockUse) (outcome : Except BaseException Unit) (next : Except BaseException Unit → Plan)
  | unlinking (use : LockUse) (outcome : Except BaseException Unit) (next : Except BaseException Unit → Plan)

/-- Between acquiring the lock and releasing it. -/
def Process.holds : Process → Bool
  | .running _ => false
  | _ => true

/-- `os.open` with `O_CREAT | O_EXCL`, after `ensure_private_directory`. -/
def acquire (use : LockUse) (next : Except BaseException Unit → Plan) (root : BackupRoot) : Process × BackupRoot :=
  match use.ensures, use.opens with
  | some e, _ => (.running (next (.error e)), root)
  | none, some e => (.running (next (.error (convertFileExists e))), root)
  | none, none =>
      if root.IsLocked then (.running (next (.error (convertFileExists (.exception (.os .fileExistsError))))), root)
      else (.writing use next, root.lock)

/-- The next call of a process. The `finally` clause closes and unlinks. -/
def Process.step : Process → BackupRoot → Process × BackupRoot
  | .running .finished, root => (.running .finished, root)
  | .running (.does step next), root => (.running (next root), step.apply root)
  | .running (.locked use next), root => acquire use next root
  | .writing use next, root => match use.writes with
      | some e => (.closing use (.error (convertFileExists e)) next, root)
      | none => (.syncing use next, root)
  | .syncing use next, root => match use.syncs with
      | some e => (.closing use (.error (convertFileExists e)) next, root)
      | none => (.inside use use.body next, root)
  | .inside use (.does step rest) next, root => (.inside use (rest root) next, step.apply root)
  | .inside use (.ends outcome) next, root => (.closing use (outcome.mapError convertFileExists) next, root)
  | .closing use outcome next, root => match use.closes with
      | some e => (.running (next (.error e)), root)
      | none => (.unlinking use outcome next, root)
  | .unlinking use outcome next, root => match use.unlinks with
      | some e => (.running (next (.error e)), root)
      | none => (.running (next outcome), root.unlock)

/-- A lock file that was made is there. -/
theorem lock_isLocked (root : BackupRoot) : root.lock.IsLocked := by
  unfold BackupRoot.IsLocked BackupRoot.lock BackupRoot.put
  rw [Forest.find_put_self root.wellFormed]
  exact Option.some_ne_none _

/-- A lock file that was removed is not. -/
theorem not_isLocked_unlock (root : BackupRoot) : ¬root.unlock.IsLocked := by
  unfold BackupRoot.IsLocked BackupRoot.unlock BackupRoot.put
  rw [Forest.find_put_self root.wellFormed]
  exact not_not.mpr rfl

/-- Other changes of the root leave it. -/
theorem RootStep.isLocked_iff (step : RootStep) (root : BackupRoot) : (step.apply root).IsLocked ↔ root.IsLocked := by
  unfold BackupRoot.IsLocked
  rw [step.keepsLock]

/-- What a call does to the lock: nothing, or the process acquires it, releases it or leaves it behind. -/
inductive LockEffect (process : Process) (root : BackupRoot) : Process × BackupRoot → Prop where
  | none (after : Process) (left : BackupRoot) (hHolds : after.holds = process.holds)
      (hLock : left.IsLocked ↔ root.IsLocked) : LockEffect process root (after, left)
  | acquired (after : Process) (hBefore : process.holds = false) (hAfter : after.holds = true)
      (hFree : ¬root.IsLocked) : LockEffect process root (after, root.lock)
  | released (after : Process) (hBefore : process.holds = true) (hAfter : after.holds = false) :
      LockEffect process root (after, root.unlock)
  | abandoned (after : Process) (hBefore : process.holds = true) (hAfter : after.holds = false) :
      LockEffect process root (after, root)

/-- The acquisition finds the lock free and takes it, or changes nothing. -/
theorem acquire_effect (use : LockUse) (next : Except BaseException Unit → Plan) (root : BackupRoot) :
    LockEffect (.running (.locked use next)) root (acquire use next root) := by
  unfold acquire
  split
  · exact .none _ _ rfl Iff.rfl
  · exact .none _ _ rfl Iff.rfl
  · by_cases hLocked : root.IsLocked
    · rw [if_pos hLocked]
      exact .none _ _ rfl Iff.rfl
    · rw [if_neg hLocked]
      exact .acquired _ rfl rfl hLocked

theorem step_effect (process : Process) (root : BackupRoot) : LockEffect process root (process.step root) := by
  cases process with
  | running plan =>
      cases plan with
      | finished => exact .none _ _ rfl Iff.rfl
      | does step next => exact .none _ _ rfl (step.isLocked_iff root)
      | locked use next => exact acquire_effect use next root
  | writing use next =>
      rw [Process.step]
      split <;> exact .none _ _ rfl Iff.rfl
  | syncing use next =>
      rw [Process.step]
      split <;> exact .none _ _ rfl Iff.rfl
  | inside use body next =>
      cases body with
      | ends outcome => exact .none _ _ rfl Iff.rfl
      | does step rest => exact .none _ _ rfl (step.isLocked_iff root)
  | closing use outcome next =>
      rw [Process.step]
      split
      · exact .abandoned _ rfl rfl
      · exact .none _ _ rfl Iff.rfl
  | unlinking use outcome next =>
      rw [Process.step]
      split
      · exact .abandoned _ rfl rfl
      · exact .released _ rfl rfl

/-- The lock file exists while a process holds the lock, and one process holds it at most. -/
structure Guarded (system : List Process × BackupRoot) : Prop where
  present : ∀ (i : Nat) (process : Process), system.1[i]? = some process → process.holds = true → system.2.IsLocked
  exclusive : ∀ (i j : Nat) (first second : Process), system.1[i]? = some first → system.1[j]? = some second →
    first.holds = true → second.holds = true → i = j

/-- A thread after another one has been replaced. -/
theorem of_getElem?_set {processes : List Process} {i j : Nat} {after process : Process}
    (h : (processes.set i after)[j]? = some process) : j = i ∧ process = after ∨ j ≠ i ∧ processes[j]? = some process := by
  by_cases hSame : j = i
  · subst hSame
    have hBound : j < processes.length := by
      have := (List.getElem?_eq_some_iff.mp h).1
      rwa [List.length_set] at this
    rw [List.getElem?_set_self hBound] at h
    exact Or.inl ⟨rfl, (Option.some.inj h).symm⟩
  · rw [List.getElem?_set_ne (Ne.symm hSame)] at h
    exact Or.inr ⟨hSame, h⟩

/-- A call keeps the lock guarded: only who holds it releases it. -/
theorem guarded_step {processes : List Process} {root : BackupRoot} {i : Nat} {process : Process}
    (h : Guarded (processes, root)) (hProcess : processes[i]? = some process) :
    Guarded (processes.set i (process.step root).1, (process.step root).2) := by
  -- nobody else holds the lock while the process does
  have hAlone {j : Nat} {other : Process} (hOther : processes[j]? = some other) (hHolds : other.holds = true)
      (hBefore : process.holds = true) : j = i := h.exclusive j i other process hOther hProcess hHolds hBefore
  have hEffect := step_effect process root
  rcases hStep : process.step root with ⟨after, left⟩
  rw [hStep] at hEffect
  have hUnheld (hAfter : after.holds = false)
      (hKept : ∀ j other, j ≠ i → processes[j]? = some other → other.holds = true → left.IsLocked) :
      Guarded (processes.set i after, left) := by
    have hOthers {j : Nat} {other : Process} (hOther : (processes.set i after)[j]? = some other)
        (hHolds : other.holds = true) : j ≠ i ∧ processes[j]? = some other := by
      rcases of_getElem?_set hOther with ⟨-, rfl⟩ | hOld
      · rw [hAfter] at hHolds
        cases hHolds
      · exact hOld
    constructor
    · intro j other hOther hHolds
      obtain ⟨hNe, hOld⟩ := hOthers hOther hHolds
      exact hKept j other hNe hOld hHolds
    · intro j k first second hFirst hSecond hHolds hAlso
      exact h.exclusive j k first second (hOthers hFirst hHolds).2 (hOthers hSecond hAlso).2 hHolds hAlso
  cases hEffect with
  | none _ _ hHolds hLock =>
      cases hBefore : process.holds with
      | false =>
          refine hUnheld (hHolds.trans hBefore) fun j other _ hOther hOtherHolds => ?_
          exact hLock.mpr (h.present j other hOther hOtherHolds)
      | true =>
          have hOnly {j : Nat} {other : Process} (hOther : (processes.set i after)[j]? = some other)
              (hOtherHolds : other.holds = true) : j = i := by
            rcases of_getElem?_set hOther with ⟨hSame, -⟩ | ⟨-, hOld⟩
            · exact hSame
            · exact hAlone hOld hOtherHolds hBefore
          constructor
          · intro j other _ _
            exact hLock.mpr (h.present i process hProcess hBefore)
          · intro j k first second hFirst hSecond hFirstHolds hSecondHolds
            exact (hOnly hFirst hFirstHolds).trans (hOnly hSecond hSecondHolds).symm
  | acquired _ hBefore hAfter hFree =>
      have hOnly {j : Nat} {other : Process} (hOther : (processes.set i after)[j]? = some other)
          (hHolds : other.holds = true) : j = i := by
        rcases of_getElem?_set hOther with ⟨hSame, -⟩ | ⟨-, hOld⟩
        · exact hSame
        · exact (hFree (h.present j other hOld hHolds)).elim
      constructor
      · intro j other _ _
        exact lock_isLocked root
      · intro j k first second hFirst hSecond hFirstHolds hSecondHolds
        exact (hOnly hFirst hFirstHolds).trans (hOnly hSecond hSecondHolds).symm
  | released _ hBefore hAfter =>
      exact hUnheld hAfter fun j other hNe hOther hHolds => (hNe (hAlone hOther hHolds hBefore)).elim
  | abandoned _ hBefore hAfter =>
      exact hUnheld hAfter fun j other hNe hOther hHolds => (hNe (hAlone hOther hHolds hBefore)).elim

theorem guarded_run {processes : List Process} {root : BackupRoot} (h : Guarded (processes, root)) (schedule : List Nat) :
    Guarded (interleave Process.step schedule (processes, root)) :=
  interleave_of_invariant (fun _ _ _ _ hInv hProcess => guarded_step hInv hProcess) h schedule

theorem guarded_start (commands : List (List Command)) (root : BackupRoot) :
    Guarded (commands.map fun list => Process.running (planOf list), root) := by
  have hFree {i : Nat} {process : Process} (h : (commands.map fun list => Process.running (planOf list))[i]? = some process) :
      process.holds = false := by
    rw [List.getElem?_map, Option.map_eq_some_iff] at h
    obtain ⟨list, -, rfl⟩ := h
    rfl
  constructor
  · intro i process hProcess hHolds
    rw [hFree hProcess] at hHolds
    cases hHolds
  · intro i j first second hFirst _ hHolds _
    rw [hFree hFirst] at hHolds
    cases hHolds

/-- A process whose lock is taken goes on with the error, and leaves everything as it is. -/
theorem step_refused {use : LockUse} {next : Except BaseException Unit → Plan} {root : BackupRoot} (h : root.IsLocked) :
    ∃ e, Process.step (.running (.locked use next)) root = (.running (next (.error e)), root) := by
  rw [Process.step, acquire]
  split
  · exact ⟨_, rfl⟩
  · exact ⟨_, rfl⟩
  · exact ⟨_, if_pos h⟩

/-- The lock file survives the calls of who does not hold it. -/
theorem step_unheld {process : Process} {root : BackupRoot} (hHolds : process.holds = false) (h : root.IsLocked) :
    (process.step root).2.IsLocked := by
  have hEffect := step_effect process root
  rcases hStep : process.step root with ⟨after, left⟩
  rw [hStep] at hEffect
  cases hEffect with
  | none _ _ _ hLock => exact hLock.mpr h
  | acquired => exact lock_isLocked root
  | released _ hBefore =>
      rw [hHolds] at hBefore
      cases hBefore
  | abandoned _ hBefore => exact h

/-- The lock works, whatever the processes have done so far. -/
structure LockProtocol (system : List Process × BackupRoot) : Prop where
  exclusive : ∀ (i j : Nat) (first second : Process), system.1[i]? = some first → system.1[j]? = some second →
    first.holds = true → second.holds = true → i = j
  refused : ∀ (i : Nat) (use : LockUse) (next : Except BaseException Unit → Plan),
    system.1[i]? = some (.running (.locked use next)) → system.2.IsLocked →
      ∃ e, advance Process.step i system = (system.1.set i (.running (next (.error e))), system.2)
  keeps : ∀ (i : Nat) (process : Process), system.1[i]? = some process → process.holds = false → system.2.IsLocked →
    (advance Process.step i system).2.IsLocked
  releases : ∀ (i : Nat) (use : LockUse) (outcome : Except BaseException Unit) (next : Except BaseException Unit → Plan),
    system.1[i]? = some (.inside use (.ends outcome) next) → use.closes = none → use.unlinks = none →
      ∀ schedule, 3 ≤ schedule.count i → ∃ first rest, schedule = first ++ i :: rest ∧
        (interleave Process.step first system).2.IsLocked ∧
        ¬(interleave Process.step (first ++ [i]) system).2.IsLocked ∧
        (interleave Process.step (first ++ [i]) system).1[i]? =
          some (.running (next (outcome.mapError convertFileExists)))

/-- A body that has ended takes three turns to the end of the lock. -/
theorem releases_of_guarded {system : List Process × BackupRoot} (h : Guarded system) {i : Nat} {use : LockUse}
    {outcome : Except BaseException Unit} {next : Except BaseException Unit → Plan}
    (hProcess : system.1[i]? = some (.inside use (.ends outcome) next)) (hCloses : use.closes = none)
    (hUnlinks : use.unlinks = none) {schedule : List Nat} (hTurns : 3 ≤ schedule.count i) :
    ∃ first rest, schedule = first ++ i :: rest ∧ (interleave Process.step first system).2.IsLocked ∧
      ¬(interleave Process.step (first ++ [i]) system).2.IsLocked ∧
      (interleave Process.step (first ++ [i]) system).1[i]? =
        some (.running (next (outcome.mapError convertFileExists))) := by
  obtain ⟨toEnd, afterEnd, rfl, hTurns, -, hClosing, -⟩ := @exists_turn _ _ Process.step _ _ _ hTurns _ _ hProcess
  change _ = some (Process.closing use (outcome.mapError convertFileExists) next) at hClosing
  obtain ⟨toClose, afterClose, rfl, hTurns, -, hUnlinking, -⟩ := @exists_turn _ _ Process.step _ _ _ hTurns _ _ hClosing
  rw [Process.step, hCloses] at hUnlinking
  obtain ⟨toUnlink, rest, rfl, -, hHere, hRunning, hUnlinked⟩ := @exists_turn _ _ Process.step _ _ _ hTurns _ _ hUnlinking
  rw [Process.step, hUnlinks] at hRunning hUnlinked
  have hSplit (tail : List Nat) : interleave Process.step (toEnd ++ i :: (toClose ++ i :: toUnlink) ++ tail) system =
      interleave Process.step (toUnlink ++ tail) (interleave Process.step (toClose ++ [i])
        (interleave Process.step (toEnd ++ [i]) system)) := by
    rw [← interleave_append, ← interleave_append]
    simp
  refine ⟨toEnd ++ i :: (toClose ++ i :: toUnlink), rest, by simp, ?_, ?_, ?_⟩
  · have hBefore := guarded_run h (toEnd ++ i :: (toClose ++ i :: toUnlink) ++ [])
    rw [hSplit, List.append_nil] at hBefore
    have hSame := hSplit []
    rw [List.append_nil, List.append_nil] at hSame
    rw [hSame]
    exact hBefore.present i _ hHere rfl
  · rw [hSplit, hUnlinked]
    exact not_isLocked_unlock _
  · rw [hSplit]
    exact hRunning

/-- In every run at most one process is between the acquisition and the release of the lock, a process that does not
hold it leaves the file alone, and a body that returns or raises is followed by the removal. -/
theorem lock_protocol_of_run (commands : List (List Command)) (root : BackupRoot) (past : List Nat) :
    LockProtocol (interleave Process.step past (commands.map fun list => Process.running (planOf list), root)) := by
  have hGuarded := guarded_run (guarded_start commands root) past
  refine ⟨hGuarded.exclusive, fun i use next hProcess hLocked => ?_, fun i process hProcess hHolds hLocked => ?_,
    fun i use outcome next hProcess hCloses hUnlinks schedule => releases_of_guarded hGuarded hProcess hCloses hUnlinks⟩
  · obtain ⟨e, hStep⟩ := @step_refused use next _ hLocked
    exact ⟨e, by rw [advance_of_getElem? hProcess, hStep]⟩
  · rw [advance_of_getElem? hProcess]
    exact step_unheld hHolds hLocked

end SoftwareHub.Backup.Locking
