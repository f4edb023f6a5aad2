import Mathlib.Algebra.Ring.Nat
import Mathlib.Order.Basic
import SoftwareHub.Python.Exceptions

/-! Aware UTC datetimes as points in time: their order, the addition of a
`timedelta`, which fails at the end of the calendar, and `timestamp()` with its
rounding. -/
namespace SoftwareHub.Python

/-- Microseconds from the first moment that a `datetime` can hold to the end of the
year 9999. -/
def instantCount : Nat := 315537897600000000

def microsPerSecond : Nat := 1000000

/-- A UTC `datetime`, as microseconds since the start of the year 1. The bound makes
every value one that `datetime` can hold. -/
structure Instant where
  micros : Nat
  micros_lt : micros < instantCount
  deriving DecidableEq, Repr

namespace Instant

theorem instantCount_pos : 0 < instantCount := by decide

@[ext] theorem ext {a b : Instant} (h : a.micros = b.micros) : a = b := by
  cases a
  cases b
  cases h
  rfl

instance : LE Instant := ⟨fun a b => a.micros ≤ b.micros⟩

instance : LT Instant := ⟨fun a b => a.micros < b.micros⟩

instance (a b : Instant) : Decidable (a ≤ b) := inferInstanceAs (Decidable (a.micros ≤ b.micros))

instance (a b : Instant) : Decidable (a < b) := inferInstanceAs (Decidable (a.micros < b.micros))

theorem le_def {a b : Instant} : a ≤ b ↔ a.micros ≤ b.micros := Iff.rfl

theorem lt_def {a b : Instant} : a < b ↔ a.micros < b.micros := Iff.rfl

/-- `self + timedelta(seconds=seconds)`, which raises `OverflowError` past the end
of the calendar. -/
def add (t : Instant) (seconds : Nat) : Except PyException Instant :=
  if h : t.micros + seconds * microsPerSecond < instantCount then
    .ok ⟨t.micros + seconds * microsPerSecond, h⟩
  else .error .overflowError

/-- `min(a, b)`: the first argument unless the second one is smaller. -/
def min (a b : Instant) : Instant := if b < a then b else a

/-- `self - other >= timedelta(seconds=seconds)`. A negative difference has not
elapsed. -/
def elapsed (t other : Instant) (seconds : Nat) : Prop :=
  other.micros + seconds * microsPerSecond ≤ t.micros

instance (t other : Instant) (seconds : Nat) : Decidable (t.elapsed other seconds) :=
  inferInstanceAs (Decidable (_ ≤ _))

/-- The start of the year 1970, in microseconds of the calendar. -/
def epochMicros : Nat := 62135596800000000

/-- Division rounded to the nearest number, ties to the even one, as for doubles. -/
def roundHalfEven (num den : Nat) : Nat :=
  let quotient := num / den
  if 2 * (num % den) < den ∨ 2 * (num % den) = den ∧ quotient % 2 = 0 then quotient else quotient + 1

/-- The whole seconds of the double nearest to that many microseconds. Below
one second more digits are kept than a double has, which changes no whole part. -/
def wholeSeconds (micros : Nat) : Nat :=
  let scale := 2 ^ (52 - Nat.log2 (micros / microsPerSecond))
  roundHalfEven (micros * scale) microsPerSecond / scale

/-- `int(self.timestamp())`, which goes through a double and cuts towards zero. -/
def timestamp (t : Instant) : Int :=
  if epochMicros ≤ t.micros then wholeSeconds (t.micros - epochMicros)
  else -wholeSeconds (epochMicros - t.micros)

/-- Rounding to a double can reach the next second, but never passes it. -/
theorem wholeSeconds_le (micros : Nat) : wholeSeconds micros ≤ micros / microsPerSecond + 1 := by
  unfold wholeSeconds
  generalize hScale : 2 ^ (52 - Nat.log2 (micros / microsPerSecond)) = scale
  have hPos : 0 < scale := by rw [← hScale]; exact Nat.two_pow_pos _
  have hRound : roundHalfEven (micros * scale) microsPerSecond ≤ micros * scale / microsPerSecond + 1 := by
    dsimp only [roundHalfEven]
    split_ifs <;> omega
  have hMicros : micros < (micros / microsPerSecond + 1) * microsPerSecond := by
    rw [Nat.mul_comm]
    exact Nat.lt_mul_div_succ micros (by decide)
  have hBelow : micros * scale / microsPerSecond < (micros / microsPerSecond + 1) * scale := by
    rw [Nat.div_lt_iff_lt_mul (by decide)]
    calc micros * scale < (micros / microsPerSecond + 1) * microsPerSecond * scale :=
          Nat.mul_lt_mul_of_pos_right hMicros hPos
      _ = (micros / microsPerSecond + 1) * scale * microsPerSecond := Nat.mul_right_comm _ _ _
  refine Nat.div_le_of_le_mul ?_
  calc roundHalfEven (micros * scale) microsPerSecond ≤ micros * scale / microsPerSecond + 1 := hRound
    _ ≤ (micros / microsPerSecond + 1) * scale := hBelow
    _ = scale * (micros / microsPerSecond + 1) := Nat.mul_comm _ _

/-- From 1970 on a timestamp is a number of at most twelve digits. -/
theorem exists_timestamp {t : Instant} (h : epochMicros ≤ t.micros) :
    ∃ n : Nat, t.timestamp = n ∧ n < 10 ^ 12 := by
  refine ⟨wholeSeconds (t.micros - epochMicros), if_pos h, ?_⟩
  have hBound := wholeSeconds_le (t.micros - epochMicros)
  have hLast := t.micros_lt
  simp only [instantCount, epochMicros, microsPerSecond] at *
  omega

/-- The sum is the one of the microseconds whenever there is one. -/
theorem add_eq_ok_iff {t u : Instant} {seconds : Nat} :
    t.add seconds = .ok u ↔ u.micros = t.micros + seconds * microsPerSecond := by
  unfold add
  split_ifs with h
  · rw [Except.ok.injEq, Instant.ext_iff, eq_comm]
  · have hBound := u.micros_lt
    constructor
    · intro hEq
      cases hEq
    · intro hEq
      omega

/-- Addition succeeds as long as the sum is a date of the calendar. -/
theorem exists_add_iff {t : Instant} {seconds : Nat} :
    (∃ u, t.add seconds = .ok u) ↔ t.micros + seconds * microsPerSecond < instantCount := by
  constructor
  · rintro ⟨u, h⟩
    have hBound := u.micros_lt
    rw [add_eq_ok_iff] at h
    omega
  · intro h
    exact ⟨⟨_, h⟩, add_eq_ok_iff.mpr rfl⟩

theorem micros_min (a b : Instant) : (min a b).micros = Nat.min a.micros b.micros := by
  unfold min
  split_ifs with h
  · rw [lt_def] at h
    exact (Nat.min_eq_right (by omega)).symm
  · rw [lt_def] at h
    exact (Nat.min_eq_left (by omega)).symm

end Instant
end SoftwareHub.Python
