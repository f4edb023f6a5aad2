import Mathlib.Algebra.Ring.Nat
import Mathlib.Algebra.BigOperators.Group.List.Basic

/-! Threads over a shared state: a schedule says which thread takes the next
step. A thread that has not started yet is a thread nobody has scheduled. -/
namespace SoftwareHub.Semantics

section Interleaving

variable {τ σ : Type} (step : τ → σ → τ × σ)

/-- One thread takes a step, and the others wait. An index without a thread changes
nothing. -/
def advance (i : Nat) (system : List τ × σ) : List τ × σ :=
  match system.1[i]? with
  | none => system
  | some thread => (system.1.set i (step thread system.2).1, (step thread system.2).2)

/-- The threads take the steps of a schedule, which may be any list of indices. -/
def interleave : List Nat → List τ × σ → List τ × σ
  | [], system => system
  | i :: schedule, system => interleave schedule (advance step i system)

/-- A schedule in two parts is run in two parts. -/
theorem interleave_append (first second : List Nat) (system : List τ × σ) :
    interleave step (first ++ second) system = interleave step second (interleave step first system) := by
  induction first generalizing system with
  | nil => rfl
  | cons i first ih => exact ih (advance step i system)

variable {step}

theorem advance_of_getElem? {i : Nat} {system : List τ × σ} {thread : τ} (h : system.1[i]? = some thread) :
    advance step i system = (system.1.set i (step thread system.2).1, (step thread system.2).2) := by
  rw [advance, h]

theorem advance_of_none {i : Nat} {system : List τ × σ} (h : system.1[i]? = none) :
    advance step i system = system := by
  rw [advance, h]

/-- What the step of any thread preserves holds after every schedule. The induction
is on the schedule. -/
theorem interleave_of_invariant {Inv : List τ × σ → Prop}
    (h : ∀ threads s i thread, Inv (threads, s) → threads[i]? = some thread →
      Inv (threads.set i (step thread s).1, (step thread s).2))
    {system : List τ × σ} (hSystem : Inv system) (schedule : List Nat) : Inv (interleave step schedule system) := by
  induction schedule generalizing system with
  | nil => exact hSystem
  | cons i schedule ih =>
      refine ih ?_
      cases hThread : system.1[i]? with
      | none => rwa [advance_of_none hThread]
      | some thread =>
          rw [advance_of_getElem? hThread]
          exact h system.1 system.2 i thread hSystem hThread

/-- What the step of any thread preserves in good states holds after every schedule
that meets good states only. -/
theorem interleave_of_invariant_along {Inv Good : List τ × σ → Prop}
    (h : ∀ threads s i thread, Inv (threads, s) → Good (threads, s) → threads[i]? = some thread →
      Inv (threads.set i (step thread s).1, (step thread s).2))
    {system : List τ × σ} (hSystem : Inv system) (schedule : List Nat)
    (hGood : ∀ first rest, schedule = first ++ rest → Good (interleave step first system)) :
    Inv (interleave step schedule system) := by
  induction schedule generalizing system with
  | nil => exact hSystem
  | cons i schedule ih =>
      apply ih
      · cases hThread : system.1[i]? with
        | none => rwa [advance_of_none hThread]
        | some thread =>
            rw [advance_of_getElem? hThread]
            exact h system.1 system.2 i thread hSystem (hGood [] (i :: schedule) rfl) hThread
      · intro first rest hSchedule
        exact hGood (i :: first) rest (congrArg (i :: ·) hSchedule)

/-- A property of one thread that its own steps preserve; the others cannot change
the thread. -/
theorem interleave_local {P : τ → Prop} (h : ∀ thread s, P thread → P (step thread s).1) {system : List τ × σ}
    {i : Nat} (hThread : ∃ thread, system.1[i]? = some thread ∧ P thread) (schedule : List Nat) :
    ∃ thread, (interleave step schedule system).1[i]? = some thread ∧ P thread := by
  refine @interleave_of_invariant τ σ step (fun system => ∃ thread, system.1[i]? = some thread ∧ P thread)
    (fun threads s j thread hInv hStep => ?_) system hThread schedule
  obtain ⟨own, hOwn, hP⟩ := hInv
  dsimp only at hOwn ⊢
  by_cases hij : j = i
  · subst hij
    obtain rfl : own = thread := Option.some.inj (hOwn.symm.trans hStep)
    have hBound := (List.getElem?_eq_some_iff.mp hStep).1
    exact ⟨(step own s).1, by rw [List.getElem?_set_self hBound], h own s hP⟩
  · exact ⟨own, by rw [List.getElem?_set_ne hij]; exact hOwn, hP⟩

/-- A thread that is not scheduled stays as it is. -/
theorem interleave_of_not_mem {i : Nat} {schedule : List Nat} (h : i ∉ schedule) (system : List τ × σ) :
    (interleave step schedule system).1[i]? = system.1[i]? := by
  induction schedule generalizing system with
  | nil => rfl
  | cons j schedule ih =>
      have hNe : i ≠ j := fun hEq => h (List.mem_cons.mpr (Or.inl hEq))
      have hRest : i ∉ schedule := fun hMem => h (List.mem_cons_of_mem _ hMem)
      refine (ih hRest _).trans ?_
      cases hThread : system.1[j]? with
      | none => rw [advance_of_none hThread]
      | some thread =>
          rw [advance_of_getElem? hThread]
          exact List.getElem?_set_ne (Ne.symm hNe)

/-- A thread that is scheduled often enough has a next turn, which it takes as it
was left. -/
theorem exists_turn {i n : Nat} {schedule : List Nat} (h : n + 1 ≤ schedule.count i) {system : List τ × σ} {thread : τ}
    (hThread : system.1[i]? = some thread) : ∃ first rest, schedule = first ++ i :: rest ∧ n ≤ rest.count i ∧
      (interleave step first system).1[i]? = some thread ∧
      (interleave step (first ++ [i]) system).1[i]? = some (step thread (interleave step first system).2).1 ∧
      (interleave step (first ++ [i]) system).2 = (step thread (interleave step first system).2).2 := by
  have hMem : i ∈ schedule := List.count_pos_iff.mp (by omega)
  obtain ⟨first, rest, rfl, hFirst⟩ := List.eq_append_cons_of_mem hMem
  have hHere := (@interleave_of_not_mem _ _ step _ _ hFirst system).trans hThread
  have hTurn : interleave step (first ++ [i]) system = ((interleave step first system).1.set i
      (step thread (interleave step first system).2).1, (step thread (interleave step first system).2).2) := by
    rw [interleave_append]
    exact advance_of_getElem? hHere
  refine ⟨first, rest, rfl, ?_, hHere, ?_, ?_⟩
  · rw [List.count_append, List.count_eq_zero.mpr hFirst, List.count_cons_self] at h
    omega
  · rw [hTurn]
    exact List.getElem?_set_self (List.getElem?_eq_some_iff.mp hHere).1
  · rw [hTurn]

/-- Replacing one element changes a sum by the difference of its summand. -/
theorem sum_map_set {threads : List τ} {i : Nat} {old : τ} (h : threads[i]? = some old) (new : τ) (f : τ → Nat) :
    ((threads.set i new).map f).sum + f old = (threads.map f).sum + f new := by
  induction threads generalizing i with
  | nil => simp at h
  | cons head threads ih =>
      cases i with
      | zero =>
          obtain rfl : head = old := by simpa using h
          simp only [List.set_cons_zero, List.map_cons, List.sum_cons]
          omega
      | succ i =>
          have hRest := ih (by simpa using h)
          simp only [List.set_cons_succ, List.map_cons, List.sum_cons]
          omega

/-- Counting is a sum of zeros and ones, so that the rules for sums apply. -/
theorem countP_eq_sum_map (p : τ → Bool) (threads : List τ) :
    threads.countP p = (threads.map fun thread => (p thread).toNat).sum := by
  induction threads with
  | nil => rfl
  | cons head threads ih =>
      rw [List.countP_cons, List.map_cons, List.sum_cons, ih]
      cases p head <;> simp [Nat.add_comm]

/-- Replacing one element changes a count by at most one. -/
theorem countP_set {threads : List τ} {i : Nat} {old : τ} (h : threads[i]? = some old) (new : τ) (p : τ → Bool) :
    (threads.set i new).countP p + (p old).toNat = threads.countP p + (p new).toNat := by
  rw [countP_eq_sum_map, countP_eq_sum_map]
  exact sum_map_set h new fun thread => (p thread).toNat

variable (step) in
/-- The steps of one thread while no other takes any. -/
inductive RunsAlone : τ × σ → τ × σ → Prop
  | refl (system : τ × σ) : RunsAlone system system
  | head {thread : τ} {s : σ} {after : τ × σ} (rest : RunsAlone (step thread s) after) : RunsAlone (thread, s) after

theorem RunsAlone.of_step {thread : τ} {s : σ} {next after : τ × σ} (hStep : step thread s = next)
    (hRest : RunsAlone step next after) : RunsAlone step (thread, s) after := .head (hStep ▸ hRest)

/-- Two runs alone, one after the other. -/
theorem RunsAlone.trans {first second third : τ × σ} (h : RunsAlone step first second) (hRest : RunsAlone step second third) :
    RunsAlone step first third := by
  induction h with
  | refl system => exact hRest
  | head rest ih => exact .head (ih hRest)

/-- What each step keeps holds after a run alone. -/
theorem RunsAlone.invariant {I : τ × σ → Prop} (hStep : ∀ thread s, I (thread, s) → I (step thread s)) {before after : τ × σ}
    (h : RunsAlone step before after) (hBefore : I before) : I after := by
  induction h with
  | refl system => exact hBefore
  | head rest ih => exact ih (hStep _ _ hBefore)

/-- A run alone of a thread that is part of another one, step for step. -/
theorem RunsAlone.lift {ρ : Type} {wrap : τ → ρ} {outer : ρ → σ → ρ × σ}
    (hStep : ∀ thread s, outer (wrap thread) s = (wrap (step thread s).1, (step thread s).2)) {before after : τ × σ}
    (h : RunsAlone step before after) : RunsAlone outer (wrap before.1, before.2) (wrap after.1, after.2) := by
  induction h with
  | refl system => exact .refl _
  | head rest ih => exact .of_step (hStep _ _) ih

/-- Scheduling one thread often enough is its run, for any other threads beside it. -/
theorem RunsAlone.exists_schedule {before after : τ × σ} (h : RunsAlone step before after) {threads : List τ} {i : Nat}
    (hThread : threads[i]? = some before.1) :
    ∃ schedule, interleave step schedule (threads, before.2) = (threads.set i after.1, after.2) := by
  induction h generalizing threads with
  | refl system =>
      obtain ⟨hBound, hThread⟩ := List.getElem?_eq_some_iff.mp hThread
      refine ⟨[], ?_⟩
      rw [← hThread, List.set_getElem_self]
      rfl
  | @head thread s after rest ih =>
      have hBound := (List.getElem?_eq_some_iff.mp hThread).1
      obtain ⟨schedule, hSchedule⟩ := ih (List.getElem?_set_self hBound)
      refine ⟨i :: schedule, ?_⟩
      rw [interleave, advance_of_getElem? hThread, hSchedule, List.set_set]

/-- Threads that run one after another, each to its end, run as the calls they are the steps of. -/
theorem exists_schedule_of_calls {P : σ → Prop} {call : τ → σ → σ} {done : τ → τ} (threads : List τ)
    (h : ∀ thread ∈ threads, ∀ s, P s → RunsAlone step (thread, s) (done thread, call thread s) ∧ P (call thread s))
    {s : σ} (hs : P s) :
    ∃ schedule, interleave step schedule (threads, s) = (threads.map done, threads.foldl (fun s thread => call thread s) s) := by
  -- The threads before the next one are done.
  have hFrom (before rest : List τ)
      (hRest : ∀ thread ∈ rest, ∀ s, P s → RunsAlone step (thread, s) (done thread, call thread s) ∧ P (call thread s))
      (s : σ) (hs : P s) : ∃ schedule, interleave step schedule (before ++ rest, s) =
        (before ++ rest.map done, rest.foldl (fun s thread => call thread s) s) := by
    induction rest generalizing before s with
    | nil => exact ⟨[], rfl⟩
    | cons thread rest ih =>
        have hThread : (before ++ thread :: rest)[before.length]? = some thread := by simp
        obtain ⟨hRun, hNext⟩ := hRest thread List.mem_cons_self s hs
        obtain ⟨first, hFirst⟩ := hRun.exists_schedule hThread
        obtain ⟨second, hSecond⟩ := ih (before ++ [done thread])
          (fun other hOther => hRest other (List.mem_cons_of_mem _ hOther)) (call thread s) hNext
        refine ⟨first ++ second, ?_⟩
        rw [interleave_append, hFirst]
        have hSet : (before ++ thread :: rest).set before.length (done thread) = before ++ [done thread] ++ rest := by simp
        rw [hSet, hSecond]
        simp
  exact hFrom [] threads h s hs

end Interleaving
end SoftwareHub.Semantics
