import SoftwareHub.Python.DateTime
import SoftwareHub.Python.Exceptions

/-! Dates without a time of day: their order, the next one, and the UTC days of
aware values. Ordinals count the dates in their order, which turns comparisons of
dates into those of numbers. -/
namespace SoftwareHub.Python

/-- A `date`: the three fields, with the range checks of its constructor as fields
of the structure. -/
@[ext] structure CalendarDate where
  year : Nat
  month : Nat
  day : Nat
  year_range : 1 ≤ year ∧ year ≤ 9999
  month_range : 1 ≤ month ∧ month ≤ 12
  day_range : 1 ≤ day ∧ day ≤ daysInMonth year month

instance : DecidableEq CalendarDate := fun _ _ => decidable_of_iff _ CalendarDate.ext_iff.symm

namespace CalendarDate

/-- The constructor of `date`, where `none` is its `ValueError` for fields out of
range. -/
def mk? (date : Nat × Nat × Nat) : Option CalendarDate :=
  if h : (1 ≤ date.1 ∧ date.1 ≤ 9999) ∧ (1 ≤ date.2.1 ∧ date.2.1 ≤ 12) ∧
      (1 ≤ date.2.2 ∧ date.2.2 ≤ daysInMonth date.1 date.2.1) then
    some ⟨date.1, date.2.1, date.2.2, h.1, h.2.1, h.2.2⟩
  else none

/-- `date.fromisoformat(text)`; `none` is the `ValueError`. The length is that of
the UTF-8 form, of which the end may be anything once the day is read. -/
def fromisoformat (text : PyStr) : Option CalendarDate := do
  let s ← DateTime.utf8Codes text
  if s.length = 7 ∨ s.length = 8 ∨ s.length = 10 then (DateTime.parseDate s).bind mk? else none

/-- The date after a date, as its three fields: the next day, the next month or the
next year. -/
def nextFields (date : CalendarDate) : Nat × Nat × Nat :=
  if date.day < daysInMonth date.year date.month then (date.year, date.month, date.day + 1)
  else if date.month < 12 then (date.year, date.month + 1, 1)
  else (date.year + 1, 1, 1)

/-- `date + timedelta(days=1)`, which raises `OverflowError` after the last date of
the calendar. -/
def nextDay (date : CalendarDate) : Except PyException CalendarDate :=
  match mk? date.nextFields with
  | some next => .ok next
  | none => .error .overflowError

/-- The last date of the calendar. -/
def last : CalendarDate := ⟨9999, 12, 31, by decide, by decide, by decide⟩

/-- `date.toordinal()`: the first of January of the year one is day 1. -/
def ordinal (date : CalendarDate) : Nat := DateTime.toOrdinal (date.year, date.month, date.day)

/-- Dates are compared by year, month and day. -/
instance : LE CalendarDate where
  le a b := a.year < b.year ∨ a.year = b.year ∧ (a.month < b.month ∨ a.month = b.month ∧ a.day ≤ b.day)

theorem le_def {a b : CalendarDate} :
    a ≤ b ↔ a.year < b.year ∨ a.year = b.year ∧ (a.month < b.month ∨ a.month = b.month ∧ a.day ≤ b.day) := Iff.rfl

/-- `datetime.combine(date, time.min, tzinfo=UTC)`, the aware value at which the day
begins. -/
def midnight (date : CalendarDate) : DateTime where
  year := date.year
  month := date.month
  day := date.day
  hour := 0
  minute := 0
  second := 0
  microsecond := 0
  utcoffset := some 0
  year_range := date.year_range
  month_range := date.month_range
  day_range := date.day_range
  clock_range := by decide
  offset_range := by simp [dayMicros]

/-- `value.date()`: the date that the value itself shows, whatever its offset from
UTC. -/
def ofDateTime (d : DateTime) : CalendarDate := ⟨d.year, d.month, d.day, d.year_range, d.month_range, d.day_range⟩

end CalendarDate

namespace DateTime

/-- A month starts where the one before it ends. -/
theorem daysBeforeMonth_succ {year month : Nat} (h : 1 ≤ month) :
    daysBeforeMonth year (month + 1) = daysBeforeMonth year month + daysInMonth year month := by
  have hTail : (List.range (month + 1)).tail = (List.range month).tail ++ [month] := by
    rw [List.range_succ, List.tail_append_of_ne_nil (by simp; omega)]
  rw [daysBeforeMonth, daysBeforeMonth, hTail, List.map_append, List.sum_append]
  simp

/-- All days of a month come before the later months of its year. -/
theorem daysBeforeMonth_add_le {year first second : Nat} (h : 1 ≤ first) (hLess : first < second) :
    daysBeforeMonth year first + daysInMonth year first ≤ daysBeforeMonth year second := by
  induction second, hLess using Nat.le_induction with
  | base => rw [daysBeforeMonth_succ h]
  | succ second hLater ih =>
      rw [daysBeforeMonth_succ (by omega)]
      omega

/-- The thirteenth month would start after the 365 or 366 days of the year. -/
theorem daysBeforeMonth_end (year : Nat) :
    daysBeforeMonth year 13 = if isLeapYear year then 366 else 365 := by
  unfold daysBeforeMonth
  cases h : isLeapYear year <;> simp [List.range_succ, daysInMonth, h]

theorem daysBeforeYear_succ {year : Nat} (h : 1 ≤ year) :
    daysBeforeYear (year + 1) = daysBeforeYear year + daysBeforeMonth year 13 := by
  obtain ⟨n, rfl⟩ : ∃ n, year = n + 1 := ⟨year - 1, by omega⟩
  have hLeap : isLeapYear (n + 1) = true ↔ 4 ∣ n + 1 ∧ (¬100 ∣ n + 1 ∨ 400 ∣ n + 1) := by
    simp [isLeapYear, Nat.dvd_iff_mod_eq_zero]
  rw [daysBeforeMonth_end, daysBeforeYear, daysBeforeYear, Nat.add_sub_cancel, Nat.add_sub_cancel,
    @Nat.succ_div n 4, @Nat.succ_div n 100, @Nat.succ_div n 400]
  simp only [hLeap]
  have hOrder : n / 100 ≤ n / 4 := Nat.div_le_div_left (by decide) (by decide)
  generalize n / 4 = a at hOrder ⊢
  generalize n / 100 = b at hOrder ⊢
  generalize n / 400 = c
  by_cases h4 : 4 ∣ n + 1
  · by_cases h100 : 100 ∣ n + 1
    · by_cases h400 : 400 ∣ n + 1
      · simp only [h4, h100, h400, if_true, true_and, or_true]
        omega
      · simp only [h4, h100, h400, if_true, if_false, true_and, not_true, or_false]
        omega
    · have h400 : ¬400 ∣ n + 1 := fun h => h100 ((by decide : 100 ∣ 400).trans h)
      simp only [h4, h100, h400, if_true, if_false, true_and, not_false_eq_true, true_or]
      omega
  · have h100 : ¬100 ∣ n + 1 := fun h => h4 ((by decide : 4 ∣ 100).trans h)
    have h400 : ¬400 ∣ n + 1 := fun h => h4 ((by decide : 4 ∣ 400).trans h)
    simp only [h4, h100, h400, if_false, false_and]
    omega

/-- All days of a year come before the later years. -/
theorem daysBeforeYear_add_le {first second : Nat} (h : 1 ≤ first) (hLess : first < second) :
    daysBeforeYear first + daysBeforeMonth first 13 ≤ daysBeforeYear second := by
  induction second, hLess using Nat.le_induction with
  | base => rw [daysBeforeYear_succ h]
  | succ second hLater ih =>
      rw [daysBeforeYear_succ (by omega)]
      omega

end DateTime

namespace CalendarDate

open DateTime

theorem ordinal_eq (date : CalendarDate) :
    date.ordinal = daysBeforeYear date.year + daysBeforeMonth date.year date.month + date.day := rfl

/-- A date lies within its year: after the days of the years before it, and not
after its last one. -/
theorem ordinal_le_year (date : CalendarDate) :
    daysBeforeYear date.year < date.ordinal ∧
      date.ordinal ≤ daysBeforeYear date.year + daysBeforeMonth date.year 13 := by
  have hMonth := @daysBeforeMonth_add_le date.year date.month 13 date.month_range.1 (by have := date.month_range; omega)
  have hDay := date.day_range
  rw [ordinal_eq]
  omega

/-- The earlier of two dates has the smaller ordinal. The cases follow the field
that decides. -/
theorem ordinal_lt {a b : CalendarDate}
    (h : a.year < b.year ∨ a.year = b.year ∧ (a.month < b.month ∨ a.month = b.month ∧ a.day < b.day)) :
    a.ordinal < b.ordinal := by
  rcases h with hYear | ⟨hYear, hMonth | ⟨hMonth, hDay⟩⟩
  · have hYears := daysBeforeYear_add_le a.year_range.1 hYear
    have hFirst := a.ordinal_le_year
    have hSecond := b.ordinal_le_year
    omega
  · have hMonths := @daysBeforeMonth_add_le a.year a.month b.month a.month_range.1 hMonth
    have hDay := a.day_range
    have hLater := b.day_range
    rw [ordinal_eq, ordinal_eq, ← hYear]
    omega
  · rw [ordinal_eq, ordinal_eq, ← hYear, ← hMonth]
    omega

/-- The lexicographic order of the three fields is the order of the ordinals. -/
theorem le_iff_ordinal_le {a b : CalendarDate} : a ≤ b ↔ a.ordinal ≤ b.ordinal := by
  constructor
  · intro h
    by_cases hSame : a.year = b.year ∧ a.month = b.month ∧ a.day = b.day
    · rw [ordinal_eq, ordinal_eq, hSame.1, hSame.2.1, hSame.2.2]
    · rw [le_def] at h
      exact (ordinal_lt (by omega)).le
  · intro h
    by_contra hNot
    rw [le_def] at hNot
    have hLess := @ordinal_lt b a (by omega)
    omega

theorem mk?_eq_some {date : Nat × Nat × Nat} {found : CalendarDate} (h : mk? date = some found) :
    found.year = date.1 ∧ found.month = date.2.1 ∧ found.day = date.2.2 := by
  unfold mk? at h
  split_ifs at h
  cases h
  exact ⟨rfl, rfl, rfl⟩

/-- The next date has the next ordinal, over the ends of months and years. -/
theorem ordinal_nextDay {date next : CalendarDate} (h : date.nextDay = .ok next) : next.ordinal = date.ordinal + 1 := by
  unfold nextDay at h
  split at h
  · rename_i found hFound
    cases h
    obtain ⟨hYear, hMonth, hDay⟩ := mk?_eq_some hFound
    have hDayRange := date.day_range
    have hMonthRange := date.month_range
    rw [ordinal_eq, ordinal_eq, hYear, hMonth, hDay, nextFields]
    split_ifs with hInside hBefore
    · dsimp only
      omega
    · dsimp only
      rw [daysBeforeMonth_succ date.month_range.1]
      omega
    · dsimp only
      have hLast : date.month = 12 := by omega
      have hEnd := @daysBeforeMonth_succ date.year 12 (by decide)
      have hFirst : daysBeforeMonth (date.year + 1) 1 = 0 := rfl
      rw [daysBeforeYear_succ date.year_range.1, hFirst, hEnd, ← hLast]
      omega
  · cases h

/-- Only the last date of the calendar has no next one. -/
theorem nextDay_cases (date : CalendarDate) :
    (date = last ∧ date.nextDay = .error .overflowError) ∨ (date ≠ last ∧ ∃ next, date.nextDay = .ok next) := by
  by_cases hLast : date = last
  · subst hLast
    exact Or.inl ⟨rfl, rfl⟩
  · right
    refine ⟨hLast, ?_⟩
    have hYear := date.year_range
    have hMonth := date.month_range
    have hDay := date.day_range
    have hSome : ∃ next, mk? date.nextFields = some next := by
      have hFirst : 1 ≤ daysInMonth date.year (date.month + 1) ∧ 1 ≤ daysInMonth (date.year + 1) 1 := by
        unfold daysInMonth
        constructor <;> split_ifs <;> omega
      rw [nextFields]
      split_ifs with hInside hBefore
      · exact ⟨_, dif_pos ⟨hYear, hMonth, by dsimp only; omega⟩⟩
      · exact ⟨_, dif_pos ⟨hYear, by dsimp only; omega, le_refl 1, hFirst.1⟩⟩
      · have hEarlier : date.year ≠ 9999 := by
          intro hEnd
          have hDecember : date.month = 12 := by omega
          refine hLast ?_
          have hDays : daysInMonth date.year date.month = 31 := by rw [hDecember]; rfl
          have hFinal : date.day = 31 := by omega
          cases date
          dsimp only at hEnd hDecember hFinal
          subst hEnd hDecember hFinal
          rfl
        exact ⟨_, dif_pos ⟨by dsimp only; omega, ⟨le_refl 1, by dsimp only; omega⟩, le_refl 1, hFirst.2⟩⟩
    obtain ⟨next, hNext⟩ := hSome
    exact ⟨next, by rw [nextDay, hNext]⟩

/-- The point in time at which a day begins in UTC, in microseconds of the
calendar. -/
theorem instant_midnight (date : CalendarDate) : date.midnight.instant = (date.ordinal : Int) * dayMicros := by
  simp [instant, localMicros, midnight, ordinal]

/-- The moments of a day in UTC: from its midnight on, and less than a day later. -/
theorem instant_range {d : DateTime} (h : d.utcoffset = some 0) :
    ((ofDateTime d).ordinal : Int) * dayMicros ≤ d.instant ∧ d.instant < ((ofDateTime d).ordinal + 1 : Int) * dayMicros := by
  have hClock := d.clock_range
  have hInstant : d.instant = ((ofDateTime d).ordinal : Int) * dayMicros +
      (((d.hour * 60 + d.minute) * 60 + d.second) * 1000000 + d.microsecond : Nat) := by
    rw [instant, localMicros, h]
    simp [ordinal, ofDateTime]
  rw [hInstant, dayMicros]
  push_cast
  omega

/-- A moment is not before the midnight of a date if and only if its own date is not
before that date. -/
theorem midnight_le_iff {date : CalendarDate} {d : DateTime} (h : d.utcoffset = some 0) :
    date.midnight.instant ≤ d.instant ↔ date ≤ ofDateTime d := by
  have hRange := instant_range h
  rw [le_iff_ordinal_le, instant_midnight]
  rw [dayMicros] at hRange ⊢
  omega

/-- A moment is before the midnight of the next date if and only if its own date is
not after that date. With the other half this makes the half-open interval of the
filters. -/
theorem lt_midnight_iff {date next : CalendarDate} (hNext : date.nextDay = .ok next) {d : DateTime}
    (h : d.utcoffset = some 0) : d.instant < next.midnight.instant ↔ ofDateTime d ≤ date := by
  have hRange := instant_range h
  rw [le_iff_ordinal_le, instant_midnight, ordinal_nextDay hNext]
  rw [dayMicros] at hRange ⊢
  push_cast
  omega

end CalendarDate
end SoftwareHub.Python
