import Mathlib.Logic.Basic

/-! Sequential programs that change a state and may raise. The state reached when
the exception is raised is kept, as it is for a file system. -/
namespace SoftwareHub.Semantics

/-- A sequence of fallible steps that returns splits at its first step. -/
theorem except_bind_eq_ok {ε α γ : Type} {x : Except ε α} {f : α → Except ε γ} {b : γ}
    (h : (x >>= f) = .ok b) : ∃ a, x = .ok a ∧ f a = .ok b := by
  cases x with
  | error e => cases h
  | ok a => exact ⟨a, rfl, h⟩

/-- A step that returns is followed by the rest of the sequence. -/
theorem except_bind_ok {ε α γ : Type} {x : Except ε α} {a : α} (h : x = .ok a) (f : α → Except ε γ) :
    (x >>= f) = f a := by
  rw [h]
  rfl

theorem except_bind_congr {ε α γ : Type} {x : Except ε α} {f g : α → Except ε γ} (h : ∀ a, x = .ok a → f a = g a) :
    (x >>= f) = (x >>= g) := by
  cases x with
  | error e => rfl
  | ok a => exact h a rfl

theorem except_mapM_ok {ε α γ : Type} {f : α → Except ε γ} {g : α → γ} {l : List α} (h : ∀ a ∈ l, f a = .ok (g a)) :
    l.mapM f = .ok (l.map g) := by
  induction l with
  | nil => rfl
  | cons a l ih =>
      rw [List.mapM_cons, except_bind_ok (h a List.mem_cons_self),
        except_bind_ok (ih fun b hb => h b (List.mem_cons_of_mem _ hb))]
      rfl

/-- A list is mapped when each of its elements is. -/
theorem exists_except_mapM {ε α γ : Type} {f : α → Except ε γ} {l : List α} (h : ∀ a ∈ l, ∃ b, f a = .ok b) :
    ∃ bs, l.mapM f = .ok bs := by
  induction l with
  | nil => exact ⟨[], rfl⟩
  | cons a l ih =>
      obtain ⟨b, hb⟩ := h a List.mem_cons_self
      obtain ⟨bs, hbs⟩ := ih fun c hc => h c (List.mem_cons_of_mem _ hc)
      exact ⟨b :: bs, by rw [List.mapM_cons, except_bind_ok hb, except_bind_ok hbs]; rfl⟩

theorem except_mapM_congr {ε α γ : Type} {f g : α → Except ε γ} {l : List α} (h : ∀ a ∈ l, f a = g a) :
    l.mapM f = l.mapM g := by
  induction l with
  | nil => rfl
  | cons a l ih =>
      rw [List.mapM_cons, List.mapM_cons, h a List.mem_cons_self, ih fun b hb => h b (List.mem_cons_of_mem _ hb)]

/-- A value that each step passes on is read off the results as off the arguments. -/
theorem map_of_except_mapM {ε α γ δ : Type} {f : α → Except ε γ} {before : α → δ} {after : γ → δ} {l : List α}
    {bs : List γ} (h : l.mapM f = .ok bs) (hStep : ∀ a ∈ l, ∀ b, f a = .ok b → after b = before a) :
    bs.map after = l.map before := by
  induction l generalizing bs with
  | nil =>
      cases h
      rfl
  | cons a l ih =>
      rw [List.mapM_cons] at h
      obtain ⟨b, hb, h⟩ := except_bind_eq_ok h
      obtain ⟨rest, hRest, h⟩ := except_bind_eq_ok h
      cases h
      rw [List.map_cons, List.map_cons, hStep a List.mem_cons_self b hb,
        ih hRest fun c hc => hStep c (List.mem_cons_of_mem _ hc)]

/-- Each result of a fallible map comes of one of its arguments. -/
theorem exists_of_mem_except_mapM {ε α γ : Type} {f : α → Except ε γ} {l : List α} {bs : List γ} (h : l.mapM f = .ok bs) {b : γ}
    (hb : b ∈ bs) : ∃ a ∈ l, f a = .ok b := by
  induction l generalizing bs with
  | nil =>
      cases h
      cases hb
  | cons a l ih =>
      rw [List.mapM_cons] at h
      obtain ⟨first, hFirst, h⟩ := except_bind_eq_ok h
      obtain ⟨rest, hRest, h⟩ := except_bind_eq_ok h
      cases h
      rcases List.mem_cons.mp hb with rfl | hRestMem
      · exact ⟨a, List.mem_cons_self, hFirst⟩
      · obtain ⟨found, hFound, hOk⟩ := ih hRest hRestMem
        exact ⟨found, List.mem_cons_of_mem a hFound, hOk⟩

theorem head?_of_except_mapM {ε α γ : Type} {f : α → Except ε γ} {l : List α} {bs : List γ} (h : l.mapM f = .ok bs)
    (b : γ) : bs.head? = some b ↔ ∃ a, l.head? = some a ∧ f a = .ok b := by
  cases l with
  | nil =>
      cases h
      simp
  | cons a l =>
      rw [List.mapM_cons] at h
      obtain ⟨first, hFirst, h⟩ := except_bind_eq_ok h
      obtain ⟨rest, -, h⟩ := except_bind_eq_ok h
      cases h
      simp [hFirst]

/-- Looking for a result is looking for its argument. -/
theorem find?_of_except_mapM {ε α γ : Type} {f : α → Except ε γ} {before : α → Bool} {after : γ → Bool} {l : List α}
    {bs : List γ} (h : l.mapM f = .ok bs) (hStep : ∀ a ∈ l, ∀ b, f a = .ok b → after b = before a) (b : γ) :
    bs.find? after = some b ↔ ∃ a, l.find? before = some a ∧ f a = .ok b := by
  induction l generalizing bs with
  | nil =>
      cases h
      simp
  | cons a l ih =>
      rw [List.mapM_cons] at h
      obtain ⟨first, hFirst, h⟩ := except_bind_eq_ok h
      obtain ⟨rest, hRest, h⟩ := except_bind_eq_ok h
      cases h
      have hSame := hStep a List.mem_cons_self first hFirst
      cases hFound : before a with
      | true =>
          rw [List.find?_cons_of_pos (hSame.trans hFound), List.find?_cons_of_pos hFound]
          constructor
          · intro hView
            obtain rfl := Option.some.inj hView
            exact ⟨a, rfl, hFirst⟩
          · intro hView
            obtain ⟨found, hEq, hOk⟩ := hView
            obtain rfl := Option.some.inj hEq
            rw [hFirst] at hOk
            exact congrArg some (Except.ok.inj hOk)
      | false =>
          rw [List.find?_cons_of_neg (Bool.not_eq_true _ ▸ hSame.trans hFound),
            List.find?_cons_of_neg (Bool.not_eq_true _ ▸ hFound)]
          exact ih hRest fun c hc => hStep c (List.mem_cons_of_mem _ hc)

/-- A program returns or raises, and either way leaves a state behind. -/
def Program (σ ε α : Type) : Type := σ → Except ε α × σ

namespace Program

variable {σ ε α γ : Type}

instance : Monad (Program σ ε) where
  pure a := fun s => (.ok a, s)
  bind x f := fun s => match x s with
    | (.ok a, t) => f a t
    | (.error e, t) => (.error e, t)

/-- `raise e`, which leaves the state as it is. -/
def raise (e : ε) : Program σ ε α := fun s => (.error e, s)

/-- A value computed from the state. -/
def read (f : σ → α) : Program σ ε α := fun s => (.ok (f s), s)

/-- A change of the state that cannot fail. -/
def write (f : σ → σ) : Program σ ε Unit := fun s => (.ok (), f s)

/-- A computation that does not look at the state and does not change it. -/
def lift (x : Except ε α) : Program σ ε α := fun s => (x, s)

/-- `try: x except e: handler(e)`. The handler starts in the state of the raise. -/
def tryExcept (x : Program σ ε α) (handler : ε → Program σ ε α) : Program σ ε α := fun s =>
  match x s with
  | (.ok a, t) => (.ok a, t)
  | (.error e, t) => handler e t

/-- `try: x finally: last`. An exception of `last` replaces the outcome of `x`. -/
def tryFinally (x : Program σ ε α) (last : Program σ ε Unit) : Program σ ε α := fun s =>
  match x s with
  | (outcome, t) => match last t with
    | (.ok _, u) => (outcome, u)
    | (.error e, u) => (.error e, u)

/-- Run the body for every item, in order; the first exception ends the loop. -/
def forEach {ι : Type} : List ι → (ι → Program σ ε Unit) → Program σ ε Unit
  | [], _ => pure ()
  | item :: items, body => do
      body item
      forEach items body

/-- A call the environment may let fail: it raises what `signal` says before
it has any effect, and is carried out when `signal` is silent. -/
def guarded (signal : Option ε) (x : Program σ ε α) : Program σ ε α :=
  match signal with
  | none => x
  | some e => raise e

/-- One transaction: what a raising body has written is rolled back. -/
def atomically (x : Program σ ε α) : Program σ ε α := fun s => match x s with
  | (.ok a, t) => (.ok a, t)
  | (.error e, _) => (.error e, s)

/-- The equation of a sequence, by which a run is taken apart when no rule below
says more. -/
theorem bind_def (x : Program σ ε α) (f : α → Program σ ε γ) (s : σ) :
    (x >>= f) s = match x s with
      | (.ok a, t) => f a t
      | (.error e, t) => (.error e, t) := rfl

@[simp] theorem pure_apply (a : α) (s : σ) : (pure a : Program σ ε α) s = (.ok a, s) := rfl

@[simp] theorem raise_apply (e : ε) (s : σ) : (raise e : Program σ ε α) s = (.error e, s) := rfl

@[simp] theorem read_apply (f : σ → α) (s : σ) : (read f : Program σ ε α) s = (.ok (f s), s) := rfl

@[simp] theorem write_apply (f : σ → σ) (s : σ) : (write f : Program σ ε Unit) s = (.ok (), f s) := rfl

@[simp] theorem map_apply (f : α → γ) (x : Program σ ε α) (s : σ) : (f <$> x) s = ((x s).1.map f, (x s).2) := by
  change (x >>= fun a => pure (f a)) s = _
  rw [bind_def]
  rcases x s with ⟨_ | _, _⟩ <;> rfl

@[simp] theorem lift_apply (x : Except ε α) (s : σ) : (lift x : Program σ ε α) s = (x, s) := rfl

@[simp] theorem guarded_none (x : Program σ ε α) : guarded none x = x := rfl

@[simp] theorem guarded_some (e : ε) (x : Program σ ε α) : guarded (some e) x = raise e := rfl

theorem atomically_ok {x : Program σ ε α} {s t : σ} {a : α} (h : x s = (.ok a, t)) :
    atomically x s = (.ok a, t) := by
  rw [atomically, h]

theorem atomically_error {x : Program σ ε α} {s t : σ} {e : ε} (h : x s = (.error e, t)) :
    atomically x s = (.error e, s) := by
  rw [atomically, h]

/-- A transaction that returns ran to its end, and what it wrote is there. -/
theorem atomically_eq_ok {x : Program σ ε α} {s t : σ} {a : α} (h : atomically x s = (.ok a, t)) :
    x s = (.ok a, t) := by
  rcases hx : x s with ⟨outcome, u⟩
  cases outcome with
  | ok b => rwa [atomically_ok hx] at h
  | error e => rw [atomically_error hx] at h; cases h

theorem atomically_eq_error {x : Program σ ε α} {s t : σ} {e : ε} (h : atomically x s = (.error e, t)) :
    t = s := by
  rcases hx : x s with ⟨outcome, u⟩
  cases outcome with
  | ok b => rw [atomically_ok hx] at h; cases h
  | error other => rw [atomically_error hx] at h; cases h; rfl

theorem bind_ok {x : Program σ ε α} {s t : σ} {a : α} (h : x s = (.ok a, t))
    (f : α → Program σ ε γ) : (x >>= f) s = f a t := by
  rw [bind_def, h]

theorem bind_error {x : Program σ ε α} {s t : σ} {e : ε} (h : x s = (.error e, t))
    (f : α → Program σ ε γ) : (x >>= f) s = (.error e, t) := by
  rw [bind_def, h]

/-- A returning sequence splits at its first program, into two runs that return. -/
theorem bind_eq_ok {x : Program σ ε α} {f : α → Program σ ε γ} {s u : σ} {b : γ}
    (h : (x >>= f) s = (.ok b, u)) : ∃ a t, x s = (.ok a, t) ∧ f a t = (.ok b, u) := by
  rw [bind_def] at h
  rcases hx : x s with ⟨outcome, t⟩
  cases outcome with
  | error e => simp [hx] at h
  | ok a => exact ⟨a, t, rfl, by simpa [hx] using h⟩

/-- A raising sequence raises in its first program or in what follows it. -/
theorem bind_eq_error {x : Program σ ε α} {f : α → Program σ ε γ} {s u : σ} {e : ε}
    (h : (x >>= f) s = (.error e, u)) :
    x s = (.error e, u) ∨ ∃ a t, x s = (.ok a, t) ∧ f a t = (.error e, u) := by
  rw [bind_def] at h
  rcases hx : x s with ⟨outcome, t⟩
  cases outcome with
  | error e =>
      rw [hx] at h
      cases h
      exact Or.inl rfl
  | ok a =>
      rw [hx] at h
      exact Or.inr ⟨a, t, rfl, h⟩

/-- A returning sequence that starts with a computation. -/
theorem lift_bind_eq_ok {x : Except ε α} {f : α → Program σ ε γ} {s u : σ} {b : γ}
    (h : (lift x >>= f) s = (.ok b, u)) : ∃ a, x = .ok a ∧ f a s = (.ok b, u) := by
  obtain ⟨a, t, hx, h⟩ := bind_eq_ok h
  cases hx
  exact ⟨a, rfl, h⟩

/-- Replacing the value of a program leaves the state alone. -/
theorem bind_pure_state (x : Program σ ε α) (g : α → γ) (s : σ) : ((x >>= fun a => pure (g a)) s).2 = (x s).2 := by
  rcases hRun : x s with ⟨outcome, t⟩
  cases outcome with
  | ok a => rw [bind_ok hRun, pure_apply]
  | error e => rw [bind_error hRun]

theorem read_bind (f : σ → α) (k : α → Program σ ε γ) (s : σ) : (read f >>= k) s = k (f s) s := rfl

theorem lift_ok_bind (a : α) (k : α → Program σ ε γ) (s : σ) : (lift (.ok a) >>= k) s = k a s := rfl

theorem lift_error_bind (e : ε) (k : α → Program σ ε γ) (s : σ) : (lift (.error e) >>= k) s = (.error e, s) := rfl

theorem write_bind (f : σ → σ) (k : Unit → Program σ ε γ) (s : σ) : (write f >>= k) s = k () (f s) := rfl

theorem tryExcept_ok {x : Program σ ε α} {handler : ε → Program σ ε α} {s t : σ} {a : α}
    (h : x s = (.ok a, t)) : tryExcept x handler s = (.ok a, t) := by
  rw [tryExcept, h]

/-- After an exception the handler runs on the state that the body has left. -/
theorem tryExcept_error {x : Program σ ε α} {handler : ε → Program σ ε α} {s t : σ} {e : ε}
    (h : x s = (.error e, t)) : tryExcept x handler s = handler e t := by
  rw [tryExcept, h]

theorem tryFinally_run {x : Program σ ε α} {last : Program σ ε Unit} {s t u : σ}
    {outcome : Except ε α} {ending : Except ε Unit} (hx : x s = (outcome, t))
    (hLast : last t = (ending, u)) : tryFinally x last s =
      (match ending with
        | .ok _ => outcome
        | .error e => .error e, u) := by
  rw [tryFinally, hx]
  simp only [hLast]
  cases ending <;> rfl

/-- Whatever the outcome, the state is the one that the last part leaves. -/
theorem tryFinally_state (x : Program σ ε α) (last : Program σ ε Unit) (s : σ) :
    (tryFinally x last s).2 = (last (x s).2).2 := by
  rw [tryFinally]
  rcases x s with ⟨outcome, t⟩
  dsimp only
  rcases last t with ⟨_ | _, u⟩ <;> rfl

/-- The postcondition that applies to an outcome: one for returning and one for
raising. -/
def Outcome (Q : α → σ → Prop) (E : ε → σ → Prop) : Except ε α × σ → Prop
  | (.ok a, s) => Q a s
  | (.error e, s) => E e s

/-- A partial-correctness triple: from a state in `P` the program returns with `Q`,
or raises with `E`. -/
def Triple (P : σ → Prop) (x : Program σ ε α) (Q : α → σ → Prop) (E : ε → σ → Prop) : Prop :=
  ∀ s, P s → Outcome Q E (x s)

variable {P P' : σ → Prop} {Q Q' : α → σ → Prop} {E E' : ε → σ → Prop} {R : γ → σ → Prop}

theorem Triple.of_ok {x : Program σ ε α} (h : Triple P x Q E) {s t : σ} {a : α} (hs : P s)
    (hx : x s = (.ok a, t)) : Q a t := by
  simpa [hx, Outcome] using h s hs

theorem Triple.of_error {x : Program σ ε α} (h : Triple P x Q E) {s t : σ} {e : ε} (hs : P s)
    (hx : x s = (.error e, t)) : E e t := by
  simpa [hx, Outcome] using h s hs

/-- The rule of consequence, for both ways to end. -/
theorem Triple.mono {x : Program σ ε α} (h : Triple P x Q E) (hP : ∀ s, P' s → P s)
    (hQ : ∀ a s, Q a s → Q' a s) (hE : ∀ e s, E e s → E' e s) : Triple P' x Q' E' := by
  intro s hs
  have hRun := h s (hP s hs)
  rcases hx : x s with ⟨outcome, t⟩
  rw [hx] at hRun
  cases outcome with
  | ok a => exact hQ a t hRun
  | error e => exact hE e t hRun

theorem Triple.pure {a : α} (h : ∀ s, P s → Q a s) : Triple P (pure a) Q E := h

theorem Triple.raise {e : ε} (h : ∀ s, P s → E e s) : Triple P (raise e) Q E := h

theorem Triple.read {f : σ → α} (h : ∀ s, P s → Q (f s) s) : Triple P (read f) Q E := h

theorem Triple.write {f : σ → σ} {Q : Unit → σ → Prop} (h : ∀ s, P s → Q () (f s)) :
    Triple P (write f) Q E := h

theorem Triple.lift {x : Except ε α} (hOk : ∀ a, x = .ok a → ∀ s, P s → Q a s)
    (hError : ∀ e, x = .error e → ∀ s, P s → E e s) : Triple P (lift x) Q E := by
  intro s hs
  cases x with
  | ok a => exact hOk a rfl s hs
  | error e => exact hError e rfl s hs

/-- What a raising transaction has written is gone, so that its precondition holds
again. -/
theorem Triple.atomically {x : Program σ ε α} {E : ε → Prop} (hx : Triple P x Q fun e _ => E e) :
    Triple P (atomically x) Q fun e s => E e ∧ P s := by
  intro s hs
  have hRun := hx s hs
  rw [Program.atomically]
  rcases hStep : x s with ⟨outcome, t⟩
  rw [hStep] at hRun
  cases outcome with
  | ok a => exact hRun
  | error e => exact ⟨hRun, hs⟩

/-- The rule of sequence. Both parts may raise, and the handler sees either
failure. -/
theorem Triple.bind {x : Program σ ε α} {f : α → Program σ ε γ} (hx : Triple P x Q E)
    (hf : ∀ a, Triple (Q a) (f a) R E) : Triple P (x >>= f) R E := by
  intro s hs
  have hRun := hx s hs
  rw [bind_def]
  rcases hStep : x s with ⟨outcome, t⟩
  rw [hStep] at hRun
  cases outcome with
  | ok a => exact hf a t hRun
  | error e => exact hRun

theorem Triple.map {x : Program σ ε α} {g : α → γ} (hx : Triple P x (fun a => R (g a)) E) : Triple P (g <$> x) R E := by
  intro s hs
  have hRun := hx s hs
  rw [map_apply]
  rcases hStep : x s with ⟨outcome, t⟩
  rw [hStep] at hRun
  cases outcome with
  | ok a => exact hRun
  | error e => exact hRun

theorem Triple.ite {c : Prop} [Decidable c] {x y : Program σ ε α}
    (hx : c → Triple P x Q E) (hy : ¬c → Triple P y Q E) : Triple P (if c then x else y) Q E := by
  by_cases h : c
  · simpa [h] using hx h
  · simpa [h] using hy h

/-- A guarded call either does nothing and raises, or is carried out. -/
theorem Triple.guarded {signal : Option ε} {x : Program σ ε α} (hx : Triple P x Q E)
    (hFault : ∀ e, signal = some e → ∀ s, P s → E e s) : Triple P (guarded signal x) Q E := by
  cases signal with
  | none => exact hx
  | some e => exact Triple.raise (hFault e rfl)

/-- The handler starts from whatever an exception of the body leaves behind. -/
theorem Triple.tryExcept {x : Program σ ε α} {handler : ε → Program σ ε α}
    (hx : Triple P x Q E) (hHandler : ∀ e, Triple (E e) (handler e) Q E') :
    Triple P (tryExcept x handler) Q E' := by
  intro s hs
  have hRun := hx s hs
  rw [Program.tryExcept]
  rcases hStep : x s with ⟨outcome, t⟩
  rw [hStep] at hRun
  cases outcome with
  | ok a => exact hRun
  | error e => exact hHandler e t hRun

/-- The last part runs after a return and after an exception, and may itself raise. -/
theorem Triple.tryFinally {x : Program σ ε α} {last : Program σ ε Unit}
    (hx : Triple P x Q E) (hReturn : ∀ a, Triple (Q a) last (fun _ => Q' a) E')
    (hRaise : ∀ e, Triple (E e) last (fun _ => E' e) E') :
    Triple P (tryFinally x last) Q' E' := by
  intro s hs
  have hRun := hx s hs
  rw [Program.tryFinally]
  rcases hStep : x s with ⟨outcome, t⟩
  rw [hStep] at hRun
  cases outcome with
  | ok a =>
      have hLast := hReturn a t hRun
      rcases hEnd : last t with ⟨ending, u⟩
      rw [hEnd] at hLast
      simp only [hEnd]
      cases ending <;> exact hLast
  | error e =>
      have hLast := hRaise e t hRun
      rcases hEnd : last t with ⟨ending, u⟩
      rw [hEnd] at hLast
      simp only [hEnd]
      cases ending <;> exact hLast

/-- An invariant of the body is an invariant of the loop. -/
theorem Triple.forEach {ι : Type} {items : List ι} {body : ι → Program σ ε Unit}
    (h : ∀ item ∈ items, Triple P (body item) (fun _ => P) E) :
    Triple P (forEach items body) (fun _ => P) E := by
  induction items with
  | nil => exact Triple.pure fun _ hs => hs
  | cons item items ih =>
      exact (h item (by simp)).bind fun _ => ih fun other hm => h other (by simp [hm])

end Program
end SoftwareHub.Semantics
