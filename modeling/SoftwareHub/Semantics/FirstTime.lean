import Mathlib.Data.Option.Basic

/-! A stamp that a run sets when a condition first holds, and keeps. -/
namespace SoftwareHub.Semantics

section FirstTime

variable {σ ι T : Type} (step : σ → ι → σ) (time : ι → T) (Holds : σ → Prop) [DecidablePred Holds] (stamp : σ → Option T)

/-- The time of the first event after which the condition holds, if there is one in
the run. -/
def firstTime (s : σ) : List ι → Option T
  | [] => none
  | i :: events => if Holds (step s i) then some (time i) else firstTime (step s i) events

/-- A step that leads to the condition fills an empty stamp, and no other
step touches it. -/
structure Stamps : Prop where
  fill : ∀ s i, Holds (step s i) → (Holds s → (stamp s).isSome) → stamp (step s i) = some ((stamp s).getD (time i))
  keep : ∀ s i, ¬Holds (step s i) → stamp (step s i) = stamp s

variable {step time Holds stamp}

namespace Stamps

omit [DecidablePred Holds] in
/-- Where the condition holds after a run, the stamp is set. -/
theorem foldl_isSome (h : Stamps step time Holds stamp) {s : σ} (hStart : Holds s → (stamp s).isSome)
    (events : List ι) : Holds (events.foldl step s) → (stamp (events.foldl step s)).isSome := by
  induction events generalizing s with
  | nil => exact hStart
  | cons i events ih =>
      refine ih fun hHolds => ?_
      rw [h.fill s i hHolds hStart]
      rfl

/-- The stamp after a run is the one before it, or else the time of the first
event after which the condition holds. -/
theorem foldl_eq (h : Stamps step time Holds stamp) {s : σ} (hStart : Holds s → (stamp s).isSome)
    (events : List ι) : stamp (events.foldl step s) = (stamp s).or (firstTime step time Holds s events) := by
  induction events generalizing s with
  | nil => simp [firstTime]
  | cons i events ih =>
      have hNext : Holds (step s i) → (stamp (step s i)).isSome := h.foldl_isSome hStart [i]
      rw [List.foldl_cons, ih hNext, firstTime]
      by_cases hHolds : Holds (step s i)
      · rw [if_pos hHolds, h.fill s i hHolds hStart, Option.some_or]
        cases stamp s <;> rfl
      · rw [if_neg hHolds, h.keep s i hHolds]

/-- A stamp that is set stays as it is, whatever the events are. -/
theorem foldl_of_some (h : Stamps step time Holds stamp) {s : σ} {t : T} (hSet : stamp s = some t)
    (events : List ι) : stamp (events.foldl step s) = some t := by
  rw [h.foldl_eq (fun _ => by rw [hSet]; rfl), hSet, Option.some_or]

end Stamps
end FirstTime
end SoftwareHub.Semantics
