import Mathlib.Data.List.Basic
import SoftwareHub.Semantics.Program

/-! Runs of a program that answers one request after the other, and the invariants
of its states and of its history. -/
namespace SoftwareHub.Semantics

/-- One answered request, with the states before and after it. -/
structure Step (ι σ ε α : Type) where
  request : ι
  before : σ
  outcome : Except ε α
  after : σ

section Trace

variable {ι σ ε α : Type} (perform : ι → Program σ ε α)

/-- The step by which a program answers a request. -/
def answer (request : ι) (s : σ) : Step ι σ ε α := ⟨request, s, (perform request s).1, (perform request s).2⟩

theorem answer_of_run {perform : ι → Program σ ε α} {request : ι} {s t : σ} {outcome : Except ε α}
    (h : perform request s = (outcome, t)) : answer perform request s = ⟨request, s, outcome, t⟩ := by
  rw [answer, h]

/-- All requests of a list, each answered in the state that the one before it left. -/
def trace : σ → List ι → List (Step ι σ ε α)
  | _, [] => []
  | s, request :: requests => answer perform request s :: trace (perform request s).2 requests

def final : σ → List ι → σ
  | s, [] => s
  | s, request :: requests => final (perform request s).2 requests

@[simp] theorem trace_nil (s : σ) : trace perform s [] = [] := rfl

@[simp] theorem trace_cons (request : ι) (requests : List ι) (s : σ) : trace perform s (request :: requests) =
    answer perform request s :: trace perform (perform request s).2 requests := rfl

@[simp] theorem final_nil (s : σ) : final perform s [] = s := rfl

@[simp] theorem final_cons (request : ι) (requests : List ι) (s : σ) :
    final perform s (request :: requests) = final perform (perform request s).2 requests := rfl

/-- The second of two requests starts from what the first one leaves. -/
theorem trace_pair (first second : ι) (s : σ) : trace perform s [first, second] =
    [answer perform first s] ++ [answer perform second (answer perform first s).after] := rfl

/-- What two requests may need, each in the state that it finds. -/
theorem forall_trace_pair {Permitted : ι → σ → Prop} {first second : ι} {s : σ} (hFirst : Permitted first s)
    (hSecond : Permitted second (answer perform first s).after) :
    ∀ step ∈ trace perform s [first, second], Permitted step.request step.before := by
  intro step hStep
  rcases List.mem_cons.mp hStep with rfl | hStep
  · exact hFirst
  · rw [List.mem_singleton.mp hStep]
    exact hSecond

/-- A run in two parts, the second one from the state that the first one leaves. -/
theorem trace_append (s : σ) (first second : List ι) :
    trace perform s (first ++ second) = trace perform s first ++ trace perform (final perform s first) second := by
  induction first generalizing s with
  | nil => rfl
  | cons request requests ih => simp [ih]

/-- A run seen from both ends: its first step, the steps between, and its last one. -/
theorem trace_cons_concat (first last : ι) (requests : List ι) (s : σ) : trace perform s (first :: (requests ++ [last])) =
    answer perform first s :: (trace perform (answer perform first s).after requests ++
      [answer perform last (final perform (answer perform first s).after requests)]) := by
  rw [trace_cons, trace_append]
  rfl

theorem map_request_trace (s : σ) (requests : List ι) : (trace perform s requests).map Step.request = requests := by
  induction requests generalizing s with
  | nil => rfl
  | cons request requests ih => simp [answer, ih]

/-- Every step of a run answers its request in the state that it starts from. -/
theorem eq_answer_of_mem_trace {s : σ} {requests : List ι} {step : Step ι σ ε α}
    (h : step ∈ trace perform s requests) : step = answer perform step.request step.before := by
  induction requests generalizing s with
  | nil => cases h
  | cons request requests ih =>
      rcases List.mem_cons.mp h with rfl | h
      · rfl
      · exact ih h

variable {perform} {Inv : σ → Prop}

/-- Splitting the trace of a run splits its requests. -/
theorem trace_split {s : σ} {requests : List ι} {past rest : List (Step ι σ ε α)}
    (h : trace perform s requests = past ++ rest) :
    ∃ first second, requests = first ++ second ∧ trace perform s first = past ∧
      trace perform (final perform s first) second = rest := by
  induction past generalizing s requests with
  | nil => exact ⟨[], requests, rfl, rfl, h⟩
  | cons step past ih =>
      cases requests with
      | nil => cases h
      | cons request requests =>
          rw [trace_cons, List.cons_append, List.cons.injEq] at h
          obtain ⟨first, second, rfl, hFirst, hSecond⟩ := ih h.2
          exact ⟨request :: first, second, rfl, by rw [trace_cons, hFirst, h.1], hSecond⟩

/-- What every request preserves holds at the end of a run. -/
theorem final_of_invariant {s : σ} {requests : List ι} (hs : Inv s)
    (h : ∀ request ∈ requests, ∀ s, Inv s → Inv (perform request s).2) : Inv (final perform s requests) := by
  induction requests generalizing s with
  | nil => exact hs
  | cons request requests ih =>
      exact ih (h request (by simp) s hs) fun other hm => h other (by simp [hm])

/-- What every request preserves holds before and after each step of a run. -/
theorem trace_of_invariant {s : σ} {requests : List ι} (hs : Inv s)
    (h : ∀ request ∈ requests, ∀ s, Inv s → Inv (perform request s).2) :
    ∀ step ∈ trace perform s requests, Inv step.before ∧ Inv step.after := by
  induction requests generalizing s with
  | nil => simp
  | cons request requests ih =>
      have hNext := h request (by simp) s hs
      exact List.forall_mem_cons.mpr ⟨⟨hs, hNext⟩, ih hNext fun other hm => h other (by simp [hm])⟩

/-- An invariant that the permitted requests preserve, for the runs of permitted
requests. -/
theorem trace_of_permitted {Permitted : ι → σ → Prop} {s : σ} {requests : List ι} (hs : Inv s)
    (hPermitted : ∀ step ∈ trace perform s requests, Permitted step.request step.before)
    (h : ∀ request s, Permitted request s → Inv s → Inv (perform request s).2) :
    ∀ step ∈ trace perform s requests, Inv step.before ∧ Inv step.after := by
  induction requests generalizing s with
  | nil => simp
  | cons request requests ih =>
      obtain ⟨hFirst, hRest⟩ := List.forall_mem_cons.mp hPermitted
      have hNext := h request s hFirst hs
      exact List.forall_mem_cons.mpr ⟨⟨hs, hNext⟩, ih hNext hRest⟩

/-- An invariant of the history and the state, at each step of a run. -/
theorem history_of_invariant {Inv : List (Step ι σ ε α) → σ → Prop} {requests : List ι}
    (h : ∀ request ∈ requests, ∀ past s, Inv past s → Inv (past ++ [answer perform request s]) (perform request s).2)
    {past : List (Step ι σ ε α)} {s : σ} (hs : Inv past s) {earlier later : List (Step ι σ ε α)}
    {step : Step ι σ ε α} (hTrace : trace perform s requests = earlier ++ step :: later) :
    Inv (past ++ earlier) step.before ∧ Inv (past ++ earlier ++ [step]) step.after := by
  induction requests generalizing past s earlier with
  | nil => simp at hTrace
  | cons request requests ih =>
      have hNext := h request (by simp) past s hs
      cases earlier with
      | nil =>
          obtain ⟨rfl, -⟩ := List.cons.inj hTrace
          simpa using ⟨hs, hNext⟩
      | cons first earlier =>
          obtain ⟨rfl, hRest⟩ := List.cons.inj hTrace
          simpa using ih (fun other hm => h other (by simp [hm])) hNext hRest

end Trace
end SoftwareHub.Semantics
