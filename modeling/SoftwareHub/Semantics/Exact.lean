import SoftwareHub.Semantics.Program

/-! Total-correctness triples with the exact condition of a normal return: the
program returns when the condition holds and raises when it does not. -/
namespace SoftwareHub.Semantics.Program

variable {σ ε α γ : Type}

/-- From a state in `P` the program returns, with `Q`, if and only if `C`
holds; otherwise it raises, with `E`. -/
def Exact (P : σ → Prop) (x : Program σ ε α) (C : Prop) (Q : α → σ → Prop) (E : ε → σ → Prop) : Prop :=
  ∀ s, P s → (C ∧ ∃ a t, x s = (.ok a, t) ∧ Q a t) ∨ (¬C ∧ ∃ e t, x s = (.error e, t) ∧ E e t)

variable {P P' : σ → Prop} {C C' : Prop} {Q Q' : α → σ → Prop} {E E' : ε → σ → Prop} {R : γ → σ → Prop}

/-- The condition may be given in another form. -/
theorem Exact.congr {x : Program σ ε α} (h : Exact P x C Q E) (hC : C ↔ C') : Exact P x C' Q E :=
  (propext hC) ▸ h

/-- The rule of consequence: a stronger precondition, weaker postconditions, the
same condition. -/
theorem Exact.mono {x : Program σ ε α} (h : Exact P x C Q E) (hP : ∀ s, P' s → P s)
    (hQ : ∀ a s, Q a s → Q' a s) (hE : ∀ e s, E e s → E' e s) : Exact P' x C Q' E' := by
  intro s hs
  rcases h s (hP s hs) with ⟨hC, a, t, hRun, hPost⟩ | ⟨hC, e, t, hRun, hPost⟩
  · exact Or.inl ⟨hC, a, t, hRun, hQ a t hPost⟩
  · exact Or.inr ⟨hC, e, t, hRun, hE e t hPost⟩

theorem Exact.pure {a : α} (h : ∀ s, P s → Q a s) : Exact P (pure a) True Q E :=
  fun s hs => Or.inl ⟨trivial, a, s, rfl, h s hs⟩

theorem Exact.raise {e : ε} (h : ∀ s, P s → E e s) : Exact P (raise e) False Q E :=
  fun s hs => Or.inr ⟨id, e, s, rfl, h s hs⟩

/-- A lifted computation returns when it has a value, and leaves the state alone. -/
theorem Exact.lift {x : Except ε α} (hE : ∀ e s, x = .error e → P s → E e s) :
    Exact P (lift x) (∃ a, x = .ok a) (fun a s => x = .ok a ∧ P s) E := by
  intro s hs
  cases x with
  | ok a => exact Or.inl ⟨⟨a, rfl⟩, a, s, rfl, rfl, hs⟩
  | error e => exact Or.inr ⟨by simp, e, s, rfl, hE e s rfl hs⟩

/-- A computation in a call that the environment may let fail. -/
theorem Exact.guarded_lift {signal : Option ε} {x : Except ε α} (hE : ∀ e s, P s → E e s) :
    Exact P (guarded signal (Program.lift x)) (∃ a, signal = none ∧ x = .ok a)
      (fun a s => (signal = none ∧ x = .ok a) ∧ P s) E := by
  intro s hs
  cases signal with
  | some e => exact Or.inr ⟨by simp, e, s, rfl, hE e s hs⟩
  | none => simpa using Exact.lift (fun e s _ => hE e s) s hs

/-- Reading a part of the state that `P` fixes, so that the rest is about a known
value. -/
theorem Exact.read_bind {f : σ → α} {a : α} {k : α → Program σ ε γ} (ha : ∀ s, P s → f s = a)
    (hk : Exact P (k a) C R E) : Exact P (Program.read f >>= k) C R E := by
  intro s hs
  rw [bind_ok (read_apply f s), ha s hs]
  exact hk s hs

/-- A guarded call returns when nothing disturbs it and its body returns. -/
theorem Exact.guarded {signal : Option ε} {x : Program σ ε α} (hx : Exact P x C Q E)
    (hE : ∀ e s, signal = some e → P s → E e s) : Exact P (guarded signal x) (signal = none ∧ C) Q E := by
  cases signal with
  | none => exact hx.congr (by simp)
  | some e => exact (Exact.raise fun s hs => hE e s rfl hs).congr (by simp)

/-- A sequence returns when both parts do. -/
theorem Exact.bind {x : Program σ ε α} {f : α → Program σ ε γ} (hx : Exact P x C Q E)
    (hf : ∀ a, Exact (Q a) (f a) C' R E) : Exact P (x >>= f) (C ∧ C') R E := by
  intro s hs
  rcases hx s hs with ⟨hC, a, t, hRun, hQ⟩ | ⟨hC, e, t, hRun, hE⟩
  · rw [bind_ok hRun]
    rcases hf a t hQ with ⟨hC', hRest⟩ | ⟨hC', hRest⟩
    · exact Or.inl ⟨⟨hC, hC'⟩, hRest⟩
    · exact Or.inr ⟨fun h => hC' h.2, hRest⟩
  · rw [bind_error hRun]
    exact Or.inr ⟨fun h => hC h.1, e, t, rfl, hE⟩

/-- A sequence whose failures tell which part has raised, as a handler with
compensations needs it. -/
theorem Exact.bind_split {x : Program σ ε α} {f : α → Program σ ε γ} (hx : Exact P x C Q E)
    (hf : ∀ a, Exact (Q a) (f a) C' R E') :
    Exact P (x >>= f) (C ∧ C') R fun e s => (¬C ∧ E e s) ∨ (C ∧ E' e s) := by
  intro s hs
  rcases hx s hs with ⟨hC, a, t, hRun, hQ⟩ | ⟨hC, e, t, hRun, hE⟩
  · rw [bind_ok hRun]
    rcases hf a t hQ with ⟨hC', hRest⟩ | ⟨hC', e, u, hRest, hE⟩
    · exact Or.inl ⟨⟨hC, hC'⟩, hRest⟩
    · exact Or.inr ⟨fun h => hC' h.2, e, u, hRest, Or.inr ⟨hC, hE⟩⟩
  · rw [bind_error hRun]
    exact Or.inr ⟨fun h => hC h.1, e, t, rfl, Or.inl ⟨hC, hE⟩⟩

/-- A sequence whose second part depends on the value of the first, where `V`
holds of that one value. -/
theorem Exact.bind_value {V : α → Prop} {D : α → Prop} {x : Program σ ε α} {f : α → Program σ ε γ}
    (hV : ∀ a b, V a → V b → a = b) (hx : Exact P x (∃ a, V a) (fun a s => V a ∧ Q a s) E)
    (hf : ∀ a, V a → Exact (Q a) (f a) (D a) R E) : Exact P (x >>= f) (∃ a, V a ∧ D a) R E := by
  intro s hs
  rcases hx s hs with ⟨-, a, t, hRun, hValue, hQ⟩ | ⟨hC, e, t, hRun, hE⟩
  · rw [bind_ok hRun]
    rcases hf a hValue t hQ with ⟨hD, hRest⟩ | ⟨hD, hRest⟩
    · exact Or.inl ⟨⟨a, hValue, hD⟩, hRest⟩
    · refine Or.inr ⟨?_, hRest⟩
      rintro ⟨b, hOther, hD'⟩
      exact hD (hV b a hOther hValue ▸ hD')
  · rw [bind_error hRun]
    exact Or.inr ⟨fun ⟨a, hValue, _⟩ => hC ⟨a, hValue⟩, e, t, rfl, hE⟩

end SoftwareHub.Semantics.Program
