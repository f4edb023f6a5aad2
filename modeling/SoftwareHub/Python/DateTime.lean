import SoftwareHub.Python.Codec

/-! The `datetime` operations of the services, as CPython computes them:
`isoformat`, `fromisoformat` and the conversion of an aware value to UTC, with the
proof that a value in UTC is read back. -/
namespace SoftwareHub.Python

/-- The leap years of the proleptic Gregorian calendar. -/
def isLeapYear (year : Nat) : Bool := year % 4 == 0 && (year % 100 != 0 || year % 400 == 0)

/-- The length of a month; a number that is no month has no days. -/
def daysInMonth (year month : Nat) : Nat :=
  if month = 2 then if isLeapYear year then 29 else 28
  else if month = 4 ∨ month = 6 ∨ month = 9 ∨ month = 11 then 30
  else 31

/-- Microseconds of one day, the scale on which points in time are compared. -/
def dayMicros : Int := 86400000000

/-- A `datetime`. The offset from UTC is in microseconds; a naive value has none. -/
structure DateTime where
  year : Nat
  month : Nat
  day : Nat
  hour : Nat
  minute : Nat
  second : Nat
  microsecond : Nat
  utcoffset : Option Int
  year_range : 1 ≤ year ∧ year ≤ 9999
  month_range : 1 ≤ month ∧ month ≤ 12
  day_range : 1 ≤ day ∧ day ≤ daysInMonth year month
  clock_range : hour < 24 ∧ minute < 60 ∧ second < 60 ∧ microsecond < 1000000
  offset_range : ∀ offset ∈ utcoffset, -dayMicros < offset ∧ offset < dayMicros
  deriving DecidableEq

/-- The fields of a time of day, in the ranges the parser has checked or not. -/
structure Clock where
  hour : Nat
  minute : Nat
  second : Nat
  microsecond : Nat
  deriving DecidableEq

namespace DateTime

/-- The constructor of `datetime`, where `none` is its `ValueError` for fields out
of range. -/
def mk? (date : Nat × Nat × Nat) (clock : Clock) (utcoffset : Option Int) : Option DateTime :=
  let (year, month, day) := date
  if h : (1 ≤ year ∧ year ≤ 9999) ∧ (1 ≤ month ∧ month ≤ 12) ∧
      (1 ≤ day ∧ day ≤ daysInMonth year month) ∧
      (clock.hour < 24 ∧ clock.minute < 60 ∧ clock.second < 60 ∧ clock.microsecond < 1000000) ∧
      (∀ offset ∈ utcoffset, -dayMicros < offset ∧ offset < dayMicros) then
    some {
      year := year
      month := month
      day := day
      hour := clock.hour
      minute := clock.minute
      second := clock.second
      microsecond := clock.microsecond
      utcoffset := utcoffset
      year_range := h.1
      month_range := h.2.1
      day_range := h.2.2.1
      clock_range := h.2.2.2.1
      offset_range := h.2.2.2.2 }
  else none

/-- The days before the first of January of a year. Ordinals count from the first of
January of the year one, which is day 1. -/
def daysBeforeYear (year : Nat) : Nat :=
  (year - 1) * 365 + (year - 1) / 4 - (year - 1) / 100 + (year - 1) / 400

/-- The days of a year before the first of a month. -/
def daysBeforeMonth (year month : Nat) : Nat :=
  ((List.range month).tail.map (daysInMonth year)).sum

/-- `date(year, month, day).toordinal()`. -/
def toOrdinal (date : Nat × Nat × Nat) : Nat :=
  daysBeforeYear date.1 + daysBeforeMonth date.1 date.2.1 + date.2.2

/-- The month and day of a zero-based day of a year, month by month. -/
def monthDay (year : Nat) : List Nat → Nat → Nat × Nat
  | [], n => (12, n + 1)
  | month :: months, n =>
      if n < daysInMonth year month then (month, n + 1)
      else monthDay year months (n - daysInMonth year month)

/-- `date.fromordinal(ordinal)`, by cycles of 400, 100, 4 and 1 years. -/
def ofOrdinal (ordinal : Nat) : Nat × Nat × Nat :=
  let n := ordinal - 1
  let (n400, n) := (n / 146097, n % 146097)
  let (n100, n) := (n / 36524, n % 36524)
  let (n4, n) := (n / 1461, n % 1461)
  let (n1, n) := (n / 365, n % 365)
  let year := n400 * 400 + n100 * 100 + n4 * 4 + n1 + 1
  if n1 = 4 ∨ n100 = 4 then (year - 1, 12, 31)
  else (year, monthDay year ((List.range 13).tail) n)

/-- Microseconds since the start of the calendar, as the clock of the value shows them. -/
def localMicros (d : DateTime) : Int :=
  (toOrdinal (d.year, d.month, d.day) : Int) * dayMicros +
    (((d.hour * 60 + d.minute) * 60 + d.second) * 1000000 + d.microsecond : Nat)

/-- The point in time of an aware value, the order of `datetime` comparison. -/
def instant (d : DateTime) : Int := d.localMicros - d.utcoffset.getD 0

/-- `astimezone(UTC)` of an aware value; `none` is the `OverflowError` of a
result outside of the years 1 to 9999. Naive values have been refused by the callers. -/
def astimezoneUtc (d : DateTime) : Option DateTime :=
  match d.utcoffset with
  | none => some d
  | some offset =>
      if offset = 0 then some d
      else
        let micros := d.localMicros - offset
        let ordinal := micros / dayMicros
        let rest := (micros % dayMicros).toNat
        if ordinal < 1 then none
        else mk? (ofOrdinal ordinal.toNat)
          ⟨rest / 3600000000, rest / 60000000 % 60, rest / 1000000 % 60, rest % 1000000⟩ (some 0)

/-- `HH:MM:SS[.ffffff]`; a whole second is written without a fraction. -/
def formatClock (clock : Clock) : PyStr :=
  padded 2 clock.hour ++ 0x3A :: padded 2 clock.minute ++ 0x3A :: padded 2 clock.second ++
    (if clock.microsecond = 0 then [] else 0x2E :: padded 6 clock.microsecond)

/-- `±HH:MM[:SS[.ffffff]]`, the offset that follows the clock time of an aware
value. -/
def formatOffset (offset : Int) : PyStr :=
  let size := offset.natAbs
  let (seconds, micros) := (size / 1000000, size % 1000000)
  (if offset < 0 then 0x2D else 0x2B) :: (padded 2 (seconds / 3600) ++ 0x3A :: padded 2 (seconds / 60 % 60) ++
    (if seconds % 60 = 0 ∧ micros = 0 then [] else 0x3A :: padded 2 (seconds % 60) ++
      (if micros = 0 then [] else 0x2E :: padded 6 micros)))

/-- `YYYY-MM-DD`, with leading zeros. -/
def formatDate (year month day : Nat) : PyStr :=
  padded 4 year ++ 0x2D :: padded 2 month ++ 0x2D :: padded 2 day

/-- `value.isoformat()`: the date, the letter `T`, the clock time and the offset of
an aware value. -/
def isoformat (d : DateTime) : PyStr :=
  formatDate d.year d.month d.day ++ 0x54 ::
    (formatClock ⟨d.hour, d.minute, d.second, d.microsecond⟩ ++ (d.utcoffset.map formatOffset).getD [])

/-- A fixed number of ASCII digits and the text behind them, or a failure when one
of them is missing. -/
def takeDigits (count : Nat) (s : PyStr) : Option (Nat × PyStr) :=
  let (digits, rest) := s.splitAt count
  if digits.length = count ∧ digits.all isDigit then some (digitsValue (digits.map (· - 0x30)), rest)
  else none

/-- The separator of two fields, which stands between all of them or between none. -/
def skipSeparator (separator : Option Nat) (s : PyStr) : Option PyStr :=
  match separator with
  | none => some s
  | some c => match s with
    | head :: rest => if head = c then some rest else none
    | [] => none

/-- What stands behind a field of a clock time. The last character before the
end is not looked at; `more` only says that there is one, or that the text goes on. -/
inductive FieldEnd
  | finished (more : Bool)
  | next (rest : PyStr)

/-- The end of hours or minutes; `stop` is the character behind the clock time. -/
def fieldEnd (separated : Bool) (stop : Nat) : PyStr → Option FieldEnd
  | [] => some (.finished (stop != 0))
  | [c] => some (.finished (c != 0))
  | c :: rest =>
      if separated then if c = 0x3A then some (.next rest) else none
      else if c = 0x2E ∨ c = 0x2C then none
      else some (.next (c :: rest))

/-- The end of the seconds, behind which only a fraction can stand. -/
def secondEnd (separated : Bool) (stop : Nat) : PyStr → Option FieldEnd
  | [] => some (.finished (stop != 0))
  | [c] => some (.finished (c != 0))
  | c :: rest =>
      if c = 0x2E ∨ c = 0x2C then some (.next rest)
      else if separated then none
      else some (.next (c :: rest))

/-- The fraction of a second: the first six digits count, later digits are skipped.
The text is read as UTF-8 with a terminating zero, of which some checks only see the
zero. -/
def parseFraction (stop : Nat) (s : PyStr) : Option (Nat × Bool) := do
  let count := min 6 s.length
  let (value, rest) ← takeDigits count s
  return (value * 10 ^ (6 - count), (rest.dropWhile isDigit).headD stop != 0)

/-- `HH[:?MM[:?SS[{.,}f+]]]`, and whether something is left over. -/
def parseClock (stop : Nat) (s : PyStr) : Option (Clock × Bool) := do
  let (hour, rest) ← takeDigits 2 s
  let separated := rest.head? == some 0x3A
  match ← fieldEnd separated stop rest with
  | .finished more => return (⟨hour, 0, 0, 0⟩, more)
  | .next rest =>
      let (minute, rest) ← takeDigits 2 rest
      match ← fieldEnd separated stop rest with
      | .finished more => return (⟨hour, minute, 0, 0⟩, more)
      | .next rest =>
          let (second, rest) ← takeDigits 2 rest
          match ← secondEnd separated stop rest with
          | .finished more => return (⟨hour, minute, second, 0⟩, more)
          | .next rest =>
              let (microsecond, more) ← parseFraction stop rest
              return (⟨hour, minute, second, microsecond⟩, more)

/-- The characters that start an offset: `+`, `-` and `Z`. -/
def isZoneMark (c : Nat) : Bool := c == 0x2B || c == 0x2D || c == 0x5A

/-- The offset of a zone in microseconds. One of less than a second counts as that
of UTC. -/
def zoneOffset (mark : Nat) (offset : Clock) : Int :=
  let seconds := (offset.hour * 60 + offset.minute) * 60 + offset.second
  let micros : Int := if seconds = 0 then 0 else seconds * 1000000 + offset.microsecond
  if mark = 0x2D then -micros else micros

/-- A clock time and the offset behind it, if there is one. What is left over
between the two is not looked at. -/
def parseTime (s : PyStr) : Option (Clock × Option Int) := do
  let (text, zone) := s.span fun c => !isZoneMark c
  let (clock, more) ← parseClock (zone.headD 0) text
  match zone with
  | [] => if more then none else return (clock, none)
  | mark :: rest =>
      if mark = 0x5A then
        if rest.headD 0 = 0 then return (clock, some 0) else none
      else
        let (offset, more) ← parseClock 0 rest
        if offset.hour < 24 ∧ offset.minute < 60 ∧ offset.second < 60 ∧ more = false then
          return (clock, some (zoneOffset mark offset))
        else none

/-- The date of a day of an ISO week; the first week of a year is the one with its
first Thursday. -/
def ofIsoWeek (year week day : Nat) : Option (Nat × Nat × Nat) :=
  let first := toOrdinal (year, 1, 1)
  let long := first % 7 = 4 ∨ (first % 7 = 3 ∧ isLeapYear year)
  if 1 ≤ year ∧ 1 ≤ week ∧ (week ≤ 52 ∨ (week = 53 ∧ long)) ∧ 1 ≤ day ∧ day ≤ 7 then
    let weekday := (first + 6) % 7
    let monday := if 3 < weekday then first - weekday + 7 else first - weekday
    some (ofOrdinal (monday + (week - 1) * 7 + day - 1))
  else none

/-- `YYYY-MM-DD`, `YYYYMMDD`, `YYYY-Www[-D]` or `YYYYWww[D]`. What follows the
day is not looked at. -/
def parseDate (s : PyStr) : Option (Nat × Nat × Nat) := do
  let (year, rest) ← takeDigits 4 s
  let separator := if rest.head? = some 0x2D then some 0x2D else none
  let rest ← skipSeparator separator rest
  match rest with
  | 0x57 :: rest =>
      let (week, rest) ← takeDigits 2 rest
      if rest = [] then ofIsoWeek year week 1
      else
        let rest ← skipSeparator separator rest
        let (day, _) ← takeDigits 1 rest
        ofIsoWeek year week day
  | rest =>
      let (month, rest) ← takeDigits 2 rest
      let rest ← skipSeparator separator rest
      let (day, _) ← takeDigits 2 rest
      return (year, month, day)

/-- How many bytes of the text belong to the date. The character behind them is the
separator, whatever it is. -/
def dateLength (s : PyStr) : Option Nat :=
  if s.length = 7 then some 7
  else if s[4]? = some 0x2D then
    if s[5]? = some 0x57 then
      if s[8]? = some 0x2D then
        if s.length = 9 then none
        else if (s[10]?.map isDigit) = some true then some 8
        else some 10
      else some 8
    else some 10
  else if s[4]? = some 0x57 then
    let last := 7 + ((s.drop 7).takeWhile isDigit).length
    if last < 9 then some last else if last % 2 = 0 then some 7 else some 8
  else some 8

/-- The number of bytes of the character that starts with this byte. -/
def characterLength (lead : Nat) : Nat :=
  if lead < 0x80 then 1 else if lead / 0x10 = 0xE then 3 else if lead / 0x10 = 0xF then 4 else 2

/-- `24:00` is midnight of the next day, as long as there is one. No day belongs to
the month 0. -/
def normalizeMidnight (date : Nat × Nat × Nat) (clock : Clock) : (Nat × Nat × Nat) × Clock :=
  let (year, month, day) := date
  let last := if month = 0 then 0 else daysInMonth year month
  if clock = ⟨24, 0, 0, 0⟩ ∧ month ≤ 12 ∧ day ≤ last then
    if day < last then ((year, month, day + 1), ⟨0, 0, 0, 0⟩)
    else if month < 12 then ((year, month + 1, 1), ⟨0, 0, 0, 0⟩)
    else ((year + 1, 1, 1), ⟨0, 0, 0, 0⟩)
  else (date, clock)

/-- `_sanitize_isoformat_str`: a lone surrogate may stand for the separator and is
replaced by `T`. -/
def sanitizeIsoformat (s : PyStr) : PyStr :=
  match [7, 8, 10].find? fun position => s[position]?.any isSurrogate with
  | some position => s.set position 0x54
  | none => s

/-- The bytes of the UTF-8 form of a text, one number each. A surrogate has no such
form. -/
def utf8Codes (s : PyStr) : Option PyStr := (encodeUtf8 s).map (·.map UInt8.toNat)

/-- `datetime.fromisoformat(text)`; `none` is the `ValueError`. -/
def fromisoformat (text : PyStr) : Option DateTime :=
  if text.length < 7 then none
  else do
    let s ← utf8Codes (sanitizeIsoformat text)
    let length ← dateLength s
    let date ← parseDate (s.take length)
    if s.length ≤ length then mk? date ⟨0, 0, 0, 0⟩ none
    else
      let (clock, utcoffset) ← parseTime (s.drop (length + characterLength (s.getD length 0)))
      let (date, clock) := normalizeMidnight date clock
      mk? date clock utcoffset

theorem length_decimal_le {n width : Nat} (hWidth : 0 < width) (h : n < 10 ^ width) :
    (decimal n).length ≤ width := by
  unfold decimal
  split
  · exact hWidth
  · rw [List.length_map, List.length_reverse]
    exact (Nat.digits_length_le_iff (by decide) n).mpr h

/-- A number that fits the width is written with exactly that many digits. -/
theorem length_padded {n width : Nat} (hWidth : 0 < width) (h : n < 10 ^ width) :
    (padded width n).length = width := by
  have := length_decimal_le hWidth h
  simp [padded]
  omega

theorem isDigit_of_mem_padded {width n c : Nat} (h : c ∈ padded width n) : isDigit c = true := by
  simp only [padded, List.mem_append, List.mem_replicate] at h
  rcases h with ⟨-, rfl⟩ | h
  · rfl
  · exact isDigit_of_mem_decimal h

/-- The leading zeros change nothing: the digits have the value of the number. -/
theorem digitsValue_padded (width n : Nat) : digitsValue ((padded width n).map (· - 0x30)) = n := by
  have hZeros (count : Nat) : digitsValue (List.replicate count 0) = 0 := by
    induction count with
    | zero => rfl
    | succ count ih => rw [List.replicate_succ', digitsValue_append, ih]; rfl
  rw [padded, List.map_append, digitsValue_append, List.map_replicate, hZeros]
  exact digitsValue_decimal n

/-- A number of fixed width is read back, whatever follows it. -/
theorem takeDigits_padded (width : Nat) {n : Nat} (hWidth : 0 < width) (h : n < 10 ^ width)
    (rest : PyStr) : takeDigits width (padded width n ++ rest) = some (n, rest) := by
  have hLength := length_padded hWidth h
  have hDigits : (padded width n).all isDigit = true :=
    List.all_eq_true.mpr fun c hc => isDigit_of_mem_padded hc
  rw [takeDigits, List.splitAt_eq, List.take_left' hLength, List.drop_left' hLength]
  simp [hLength, hDigits, digitsValue_padded]

theorem takeDigits_padded_end (width : Nat) {n : Nat} (hWidth : 0 < width) (h : n < 10 ^ width) :
    takeDigits width (padded width n) = some (n, []) := by
  simpa using takeDigits_padded width hWidth h []

theorem padded_ne_nil {width n : Nat} (hWidth : 0 < width) (h : n < 10 ^ width) : padded width n ≠ [] := by
  have hLength := length_padded hWidth h
  intro hNil
  rw [hNil, List.length_nil] at hLength
  omega

/-- The six digits of a fraction are read back. -/
theorem parseFraction_padded {n : Nat} (h : n < 1000000) (stop : Nat) :
    parseFraction stop (padded 6 n) = some (n, stop != 0) := by
  have hLength : (padded 6 n).length = 6 := length_padded (by decide) h
  simp [parseFraction, hLength, takeDigits_padded_end 6 (by decide) h]

theorem fieldEnd_colon {text : PyStr} (h : text ≠ []) (stop : Nat) :
    fieldEnd true stop (0x3A :: text) = some (.next text) := by
  cases text with
  | nil => exact (h rfl).elim
  | cons c rest => rfl

theorem secondEnd_point {text : PyStr} (h : text ≠ []) (stop : Nat) :
    secondEnd true stop (0x2E :: text) = some (.next text) := by
  cases text with
  | nil => exact (h rfl).elim
  | cons c rest => rfl

/-- A written clock time is read to its end, with or without a fraction. -/
theorem parseClock_formatClock {clock : Clock} (h : clock.hour < 24 ∧ clock.minute < 60 ∧
    clock.second < 60 ∧ clock.microsecond < 1000000) (stop : Nat) :
    parseClock stop (formatClock clock) = some (clock, stop != 0) := by
  obtain ⟨hour, minute, second, microsecond⟩ := clock
  obtain ⟨hHour, hMinute, hSecond, hMicro⟩ := h
  dsimp only at hHour hMinute hSecond hMicro
  have hHours : hour < 60 := by omega
  have hField {n : Nat} (hn : n < 60) (rest : PyStr) : takeDigits 2 (padded 2 n ++ rest) = some (n, rest) :=
    takeDigits_padded 2 (by decide) (by omega) rest
  have hColon {n : Nat} (hn : n < 60) (rest : PyStr) :
      fieldEnd true stop (0x3A :: (padded 2 n ++ rest)) = some (.next (padded 2 n ++ rest)) :=
    fieldEnd_colon (by simp [padded_ne_nil (by decide : 0 < 2) (by omega : n < 10 ^ 2)]) stop
  by_cases hWhole : microsecond = 0
  · have hSeconds := hField hSecond []
    have hEnd := hColon hSecond []
    rw [List.append_nil] at hSeconds hEnd
    subst hWhole
    simp [parseClock, formatClock, hField hHours, hField hMinute, hColon hMinute, hSeconds, hEnd, secondEnd]
  · have hPoint := secondEnd_point (padded_ne_nil (by decide : 0 < 6) (by omega : microsecond < 10 ^ 6)) stop
    simp [parseClock, formatClock, hField hHours, hField hMinute, hColon hMinute, hField hSecond,
      hColon hSecond, hWhole, hPoint, parseFraction_padded hMicro]

/-- Nothing in a written clock time can be taken for the start of an offset. -/
theorem isZoneMark_of_mem_formatClock {clock : Clock} {c : Nat} (h : c ∈ formatClock clock) :
    isZoneMark c = false := by
  have hDigit (hc : isDigit c = true) : isZoneMark c = false := by
    simp only [isDigit, Bool.and_eq_true, decide_eq_true_eq] at hc
    simp only [isZoneMark, Bool.or_eq_false_iff, beq_eq_false_iff_ne]
    omega
  simp only [formatClock, List.mem_append, List.mem_cons] at h
  rcases h with ((h | rfl | h) | rfl | h) | h
  · exact hDigit (isDigit_of_mem_padded h)
  · rfl
  · exact hDigit (isDigit_of_mem_padded h)
  · rfl
  · exact hDigit (isDigit_of_mem_padded h)
  · split at h
    · cases h
    · rcases List.mem_cons.mp h with rfl | h
      · rfl
      · exact hDigit (isDigit_of_mem_padded h)

/-- A written clock time with the offset of UTC is read back. -/
theorem parseTime_utc {clock : Clock} (h : clock.hour < 24 ∧ clock.minute < 60 ∧
    clock.second < 60 ∧ clock.microsecond < 1000000) :
    parseTime (formatClock clock ++ formatOffset 0) = some (clock, some 0) := by
  have hOffset : formatOffset 0 = py "+00:00" := by decide
  have hZone : parseClock 0 (py "00:00") = some (⟨0, 0, 0, 0⟩, false) := by decide
  have hText : ∀ c ∈ formatClock clock, (!isZoneMark c) = true := fun c hc => by
    simp [isZoneMark_of_mem_formatClock hc]
  have hSpan : (formatClock clock ++ formatOffset 0).span (fun c => !isZoneMark c) =
      (formatClock clock, 0x2B :: py "00:00") := by
    rw [hOffset, List.span_eq_takeWhile_dropWhile, List.takeWhile_append_of_pos hText,
      List.dropWhile_append_of_pos hText]
    have hMark : py "+00:00" = 0x2B :: py "00:00" := by decide
    simp [hMark, isZoneMark]
  rw [parseTime, hSpan]
  simp [parseClock_formatClock h, hZone, zoneOffset]

/-- A written date is read back; the format with separators is the one that is
recognised. -/
theorem parseDate_formatDate {year month day : Nat} (hYear : year < 10000) (hMonth : month < 100)
    (hDay : day < 100) : parseDate (formatDate year month day) = some (year, month, day) := by
  have hYears (rest : PyStr) : takeDigits 4 (padded 4 year ++ rest) = some (year, rest) :=
    takeDigits_padded 4 (by decide) (by omega) rest
  have hMonths (rest : PyStr) : takeDigits 2 (padded 2 month ++ rest) = some (month, rest) :=
    takeDigits_padded 2 (by decide) (by omega) rest
  have hDays : takeDigits 2 (padded 2 day) = some (day, []) :=
    takeDigits_padded_end 2 (by decide) (by omega)
  have hMonthLength : (padded 2 month).length = 2 := length_padded (by decide) (by omega)
  obtain ⟨c, rest, hHead⟩ : ∃ c rest, padded 2 month = c :: rest := by
    cases hEq : padded 2 month with
    | nil => simp [hEq] at hMonthLength
    | cons c rest => exact ⟨c, rest, rfl⟩
  have hWeek : c ≠ 0x57 := by
    rintro rfl
    have hDigit : isDigit 0x57 = true := isDigit_of_mem_padded (hHead ▸ List.mem_cons_self)
    exact absurd hDigit (by decide)
  simp only [hHead, List.cons_append] at hMonths
  simp only [parseDate, formatDate, hHead, List.append_assoc, List.cons_append]
  simp [hYears, skipSeparator, hMonths, hDays, hWeek]

/-- The ten characters of a written date are recognised as such, so that the next
one is the separator. -/
theorem dateLength_formatDate {year month day : Nat} (hYear : year < 10000) (hMonth : month < 100)
    (hDay : day < 100) (rest : PyStr) :
    dateLength (formatDate year month day ++ rest) = some 10 ∧
      (formatDate year month day).length = 10 := by
  have hYears : (padded 4 year).length = 4 := length_padded (by decide) (by omega)
  have hMonths : (padded 2 month).length = 2 := length_padded (by decide) (by omega)
  have hDays : (padded 2 day).length = 2 := length_padded (by decide) (by omega)
  have hLength : (formatDate year month day).length = 10 := by
    simp [formatDate, hYears, hMonths, hDays]
  obtain ⟨c, tail, hHead⟩ : ∃ c tail, padded 2 month = c :: tail := by
    cases hEq : padded 2 month with
    | nil => simp [hEq] at hMonths
    | cons c rest => exact ⟨c, rest, rfl⟩
  have hFourth : (formatDate year month day ++ rest)[4]? = some 0x2D := by
    simp [formatDate, hYears]
  have hFifth : (formatDate year month day ++ rest)[5]? = some c := by
    simp [formatDate, List.getElem?_append, hYears, hHead]
  have hWeek : c ≠ 0x57 := by
    rintro rfl
    have hDigit : isDigit 0x57 = true := isDigit_of_mem_padded (hHead ▸ List.mem_cons_self)
    exact absurd hDigit (by decide)
  refine ⟨?_, hLength⟩
  rw [dateLength, hFourth, hFifth, List.length_append, hLength]
  rw [if_neg (by omega), if_pos rfl, if_neg (by simpa using hWeek)]

theorem daysInMonth_le (year month : Nat) : daysInMonth year month ≤ 31 := by
  unfold daysInMonth
  split_ifs <;> omega

theorem utf8Codes_of_ascii {s : PyStr} (h : ∀ c ∈ s, c < 0x80) : utf8Codes s = some s := by
  have hScalar : s.all isScalar = true := List.all_eq_true.mpr fun c hc => isScalar_of_lt (h c hc)
  have hChar : ∀ c ∈ s, (utf8Char c).map UInt8.toNat = [c] := by
    intro c hc
    rw [utf8Char, if_pos (h c hc), List.map_singleton, UInt8.toNat_ofNat_of_lt' ((h c hc).trans (by decide))]
  rw [utf8Codes, encodeUtf8, if_pos hScalar, Option.map_some, List.map_flatMap]
  simp [List.flatMap_congr hChar]

/-- An ASCII text has no surrogate to replace. -/
theorem sanitizeIsoformat_of_ascii {s : PyStr} (h : ∀ c ∈ s, c < 0x80) : sanitizeIsoformat s = s := by
  have hNone : [7, 8, 10].find? (fun position => s[position]?.any isSurrogate) = none := by
    rw [List.find?_eq_none]
    intro position _ hAny
    obtain ⟨c, hChar, hSurrogate⟩ := Option.any_eq_true _ _ |>.mp hAny
    have hSmall := h c (List.mem_of_getElem? hChar)
    simp only [isSurrogate, Bool.and_eq_true, decide_eq_true_eq] at hSurrogate
    omega
  rw [sanitizeIsoformat, hNone]

theorem isDigit_lt {c : Nat} (h : isDigit c = true) : c < 0x80 := by
  simp only [isDigit, Bool.and_eq_true, decide_eq_true_eq] at h
  omega

/-- What `isoformat` writes of a value in UTC is ASCII, and so the same in
characters and in bytes. -/
theorem isoformat_ascii {d : DateTime} (h : d.utcoffset = some 0) : ∀ c ∈ d.isoformat, c < 0x80 := by
  have hOffset : ∀ c ∈ formatOffset 0, c < 0x80 := by decide
  have hDigits {width n : Nat} : ∀ c ∈ padded width n, c < 0x80 := fun c hc => isDigit_lt (isDigit_of_mem_padded hc)
  have hFraction : ∀ c ∈ (if d.microsecond = 0 then [] else 0x2E :: padded 6 d.microsecond), c < 0x80 := by
    split_ifs
    · exact fun c hc => (List.not_mem_nil hc).elim
    · exact List.forall_mem_cons.mpr ⟨by decide, hDigits⟩
  simp only [isoformat, formatDate, formatClock, h, Option.map_some, Option.getD_some, List.forall_mem_append,
    List.forall_mem_cons]
  exact ⟨⟨⟨hDigits, by decide, hDigits⟩, by decide, hDigits⟩, by decide,
    ⟨⟨⟨hDigits, by decide, hDigits⟩, by decide, hDigits⟩, hFraction⟩, hOffset⟩

/-- A value in UTC survives `isoformat` and `fromisoformat`, microseconds included. -/
theorem fromisoformat_isoformat {d : DateTime} (h : d.utcoffset = some 0) :
    fromisoformat d.isoformat = some d := by
  obtain ⟨year, month, day, hour, minute, second, microsecond, utcoffset, hYear, hMonth, hDay, hClock,
    hOffset⟩ := d
  subst h
  have hDayLe := daysInMonth_le year month
  have hSmall : year < 10000 ∧ month < 100 ∧ day < 100 := by omega
  obtain ⟨hLength, hDate⟩ := dateLength_formatDate hSmall.1 hSmall.2.1 hSmall.2.2
    (0x54 :: (formatClock ⟨hour, minute, second, microsecond⟩ ++ formatOffset 0))
  have hText : isoformat ⟨year, month, day, hour, minute, second, microsecond, some 0, hYear, hMonth,
      hDay, hClock, hOffset⟩ = formatDate year month day ++
        0x54 :: (formatClock ⟨hour, minute, second, microsecond⟩ ++ formatOffset 0) := rfl
  have hTime : parseTime (formatClock ⟨hour, minute, second, microsecond⟩ ++ formatOffset 0) =
      some (⟨hour, minute, second, microsecond⟩, some 0) := parseTime_utc hClock
  have hDrop (text : PyStr) : (formatDate year month day ++ 0x54 :: text).drop (10 + 1) = text := by
    rw [← List.drop_drop, List.drop_left' hDate]
    rfl
  have hMidnight : normalizeMidnight (year, month, day) ⟨hour, minute, second, microsecond⟩ =
      ((year, month, day), ⟨hour, minute, second, microsecond⟩) := by
    have : hour ≠ 24 := by omega
    simp [normalizeMidnight, this]
  have hAscii := @isoformat_ascii ⟨year, month, day, hour, minute, second, microsecond, some 0, hYear, hMonth, hDay,
    hClock, hOffset⟩ rfl
  have hLong : ¬(formatDate year month day ++ 0x54 :: (formatClock ⟨hour, minute, second, microsecond⟩ ++
      formatOffset 0)).length < 7 := by
    rw [List.length_append, hDate]
    omega
  have hSeparator (text : PyStr) : characterLength ((formatDate year month day ++ 0x54 :: text).getD 10 0) = 1 := by
    rw [List.getD_eq_getElem?_getD, List.getElem?_append_right hDate.le, hDate]
    rfl
  rw [fromisoformat, sanitizeIsoformat_of_ascii hAscii, utf8Codes_of_ascii hAscii, hText, if_neg hLong]
  simp only [Option.bind_eq_bind, Option.bind_some, hLength, List.take_left' hDate,
    parseDate_formatDate hSmall.1 hSmall.2.1 hSmall.2.2, hSeparator]
  rw [if_neg (by simp [hDate]), hDrop, hTime]
  simp only [Option.bind_some, hMidnight]
  rw [mk?, dif_pos ⟨hYear, hMonth, hDay, hClock, hOffset⟩]

end DateTime
end SoftwareHub.Python
