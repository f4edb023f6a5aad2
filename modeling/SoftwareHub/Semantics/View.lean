import SoftwareHub.Semantics.Program

/-! What a program changes of the part of its state that a view shows, and what it
preserves of the state. -/
namespace SoftwareHub.Semantics.Program

variable {σ δ ε α γ : Type} {view : σ → δ}

/-- The view stays as it is, whether the program returns or raises. -/
def Silent (view : σ → δ) (x : Program σ ε α) : Prop := ∀ s, view (x s).2 = view s

/-- The view stays as it is, or it changes once by the relation. -/
def Writes (view : σ → δ) (B : δ → δ → Prop) (x : Program σ ε α) : Prop :=
  ∀ s, view (x s).2 = view s ∨ B (view s) (view (x s).2)

namespace Silent

theorem pure (a : α) : Silent view (pure a : Program σ ε α) := fun _ => rfl

theorem raise (e : ε) : Silent view (raise e : Program σ ε α) := fun _ => rfl

theorem read (f : σ → α) : Silent view (read f : Program σ ε α) := fun _ => rfl

theorem lift (x : Except ε α) : Silent view (lift x : Program σ ε α) := fun _ => rfl

theorem write {f : σ → σ} (h : ∀ s, view (f s) = view s) : Silent view (write f : Program σ ε Unit) := h

/-- A sequence of silent programs is silent. -/
theorem bind {x : Program σ ε α} {f : α → Program σ ε γ} (hx : Silent view x) (hf : ∀ a, Silent view (f a)) :
    Silent view (x >>= f) := by
  intro s
  have hFirst := hx s
  rw [bind_def]
  rcases hRun : x s with ⟨outcome, t⟩
  rw [hRun] at hFirst
  cases outcome with
  | error e => exact hFirst
  | ok a => exact (hf a t).trans hFirst

theorem ite {c : Prop} [Decidable c] {x y : Program σ ε α} (hx : Silent view x) (hy : Silent view y) :
    Silent view (if c then x else y) := by
  by_cases h : c
  · rw [if_pos h]
    exact hx
  · rw [if_neg h]
    exact hy

theorem tryExcept {x : Program σ ε α} {handler : ε → Program σ ε α} (hx : Silent view x)
    (hHandler : ∀ e, Silent view (handler e)) : Silent view (tryExcept x handler) := by
  intro s
  have hFirst := hx s
  rw [Program.tryExcept]
  rcases hRun : x s with ⟨outcome, t⟩
  rw [hRun] at hFirst
  cases outcome with
  | error e => exact (hHandler e t).trans hFirst
  | ok a => exact hFirst

theorem forEach {ι : Type} {items : List ι} {body : ι → Program σ ε Unit} (h : ∀ item, Silent view (body item)) :
    Silent view (forEach items body) := by
  induction items with
  | nil => exact pure ()
  | cons item items ih => exact (h item).bind fun _ => ih

theorem atomically {x : Program σ ε α} (h : Silent view x) : Silent view (atomically x) := by
  intro s
  have hRun := h s
  rcases hx : x s with ⟨outcome, t⟩
  rw [hx] at hRun
  cases outcome with
  | ok a =>
      rw [atomically_ok hx]
      exact hRun
  | error e => rw [atomically_error hx]

theorem map {x : Program σ ε α} (h : Silent view x) (g : α → γ) : Silent view (g <$> x) := by
  intro s
  rw [map_apply]
  exact h s

/-- What holds of the view goes on to hold, in either way to end. -/
theorem triple {x : Program σ ε α} (h : Silent view x) (P : δ → Prop) :
    Triple (fun s => P (view s)) x (fun _ s => P (view s)) fun _ s => P (view s) := by
  intro s hs
  have hRun := h s
  rcases hx : x s with ⟨outcome, t⟩
  rw [hx] at hRun
  have hAfter : P (view t) := by
    rw [hRun]
    exact hs
  cases outcome with
  | error e => exact hAfter
  | ok a => exact hAfter

theorem writes {x : Program σ ε α} (h : Silent view x) (B : δ → δ → Prop) : Writes view B x := fun s => Or.inl (h s)

/-- Nothing shows before the rest of the sequence writes. -/
theorem bind_writes {B : δ → δ → Prop} {x : Program σ ε α} {f : α → Program σ ε γ} (hx : Silent view x)
    (hf : ∀ a, Writes view B (f a)) : Writes view B (x >>= f) := by
  intro s
  have hFirst := hx s
  rw [bind_def]
  rcases hRun : x s with ⟨outcome, t⟩
  rw [hRun] at hFirst
  cases outcome with
  | error e => exact Or.inl hFirst
  | ok a =>
      have hRest := hf a t
      rw [hFirst] at hRest
      exact hRest

end Silent

namespace Writes

variable {B : δ → δ → Prop}

/-- Nothing shows after the first program has written. -/
theorem bind_silent {x : Program σ ε α} {f : α → Program σ ε γ} (hx : Writes view B x) (hf : ∀ a, Silent view (f a)) :
    Writes view B (x >>= f) := by
  intro s
  have hFirst := hx s
  rw [bind_def]
  rcases hRun : x s with ⟨outcome, t⟩
  rw [hRun] at hFirst
  cases outcome with
  | error e => exact hFirst
  | ok a =>
      have hRest := hf a t
      change view (f a t).2 = view s ∨ B (view s) (view (f a t).2)
      rw [hRest]
      exact hFirst

theorem tryExcept {x : Program σ ε α} {handler : ε → Program σ ε α} (hx : Writes view B x)
    (hHandler : ∀ e, Silent view (handler e)) : Writes view B (tryExcept x handler) := by
  intro s
  have hFirst := hx s
  rw [Program.tryExcept]
  rcases hRun : x s with ⟨outcome, t⟩
  rw [hRun] at hFirst
  cases outcome with
  | ok a => exact hFirst
  | error e =>
      have hRest := hHandler e t
      change view (handler e t).2 = view s ∨ B (view s) (view (handler e t).2)
      rw [hRest]
      exact hFirst

theorem ite {c : Prop} [Decidable c] {x y : Program σ ε α} (hx : Writes view B x) (hy : Writes view B y) :
    Writes view B (if c then x else y) := by
  by_cases h : c
  · rw [if_pos h]
    exact hx
  · rw [if_neg h]
    exact hy

theorem map {x : Program σ ε α} (h : Writes view B x) (g : α → γ) : Writes view B (g <$> x) := by
  intro s
  rw [map_apply]
  exact h s

end Writes
/-- The invariant holds afterwards, whether the program returns or raises. -/
def Preserves (I : σ → Prop) (x : Program σ ε α) : Prop := ∀ s, I s → I (x s).2

/-- An invariant of the view alone is preserved by what is silent. -/
theorem Silent.preserves {x : Program σ ε α} (h : Silent view x) (P : δ → Prop) : Preserves (fun s => P (view s)) x := by
  intro s hs
  rw [h s]
  exact hs

namespace Preserves

variable {I : σ → Prop}

theorem pure (a : α) : Preserves I (pure a : Program σ ε α) := fun _ hs => hs

theorem raise (e : ε) : Preserves I (raise e : Program σ ε α) := fun _ hs => hs

theorem read (f : σ → α) : Preserves I (read f : Program σ ε α) := fun _ hs => hs

theorem lift (x : Except ε α) : Preserves I (lift x : Program σ ε α) := fun _ hs => hs

theorem write {f : σ → σ} (h : ∀ s, I s → I (f s)) : Preserves I (write f : Program σ ε Unit) := h

theorem bind {x : Program σ ε α} {f : α → Program σ ε γ} (hx : Preserves I x) (hf : ∀ a, Preserves I (f a)) :
    Preserves I (x >>= f) := by
  intro s hs
  have hFirst := hx s hs
  rw [bind_def]
  rcases hRun : x s with ⟨outcome, t⟩
  rw [hRun] at hFirst
  cases outcome with
  | error e => exact hFirst
  | ok a => exact hf a t hFirst

theorem ite {c : Prop} [Decidable c] {x y : Program σ ε α} (hx : Preserves I x) (hy : Preserves I y) :
    Preserves I (if c then x else y) := by
  by_cases h : c
  · rw [if_pos h]
    exact hx
  · rw [if_neg h]
    exact hy

theorem tryExcept {x : Program σ ε α} {handler : ε → Program σ ε α} (hx : Preserves I x)
    (hHandler : ∀ e, Preserves I (handler e)) : Preserves I (tryExcept x handler) := by
  intro s hs
  have hFirst := hx s hs
  rw [Program.tryExcept]
  rcases hRun : x s with ⟨outcome, t⟩
  rw [hRun] at hFirst
  cases outcome with
  | error e => exact hHandler e t hFirst
  | ok a => exact hFirst

theorem tryFinally {x : Program σ ε α} {last : Program σ ε Unit} (hx : Preserves I x) (hLast : Preserves I last) :
    Preserves I (tryFinally x last) := by
  intro s hs
  have hFirst := hx s hs
  rcases hRun : x s with ⟨outcome, t⟩
  rw [hRun] at hFirst
  have hSecond := hLast t hFirst
  rcases hEnd : last t with ⟨ending, u⟩
  rw [hEnd] at hSecond
  rw [tryFinally_run hRun hEnd]
  exact hSecond

theorem forEach {ι : Type} {items : List ι} {body : ι → Program σ ε Unit} (h : ∀ item, Preserves I (body item)) :
    Preserves I (forEach items body) := by
  induction items with
  | nil => exact pure ()
  | cons item items ih => exact (h item).bind fun _ => ih

theorem map {x : Program σ ε α} (h : Preserves I x) (g : α → γ) : Preserves I (g <$> x) := by
  intro s hs
  rw [map_apply]
  exact h s hs

end Preserves
end SoftwareHub.Semantics.Program
