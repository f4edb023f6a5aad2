import SoftwareHub.Python.CalendarDate
import SoftwareHub.Semantics.Program
import Mathlib.Data.List.Sort

/-! The filters of the audit page, from the query string to the rows, and which
queries are answered exactly. -/
namespace SoftwareHub.Core

open SoftwareHub.Python SoftwareHub.Semantics

/-- The columns of a row of `audit_logs` that the filters read. -/
structure AuditLog where
  id : Nat
  userId : Option Int
  action : PyStr
  entityType : Option PyStr
  result : PyStr
  timestamp : DateTime

/-- `AuditFilters` of the repository. -/
structure AuditFilters where
  action : Option PyStr
  result : Option PyStr
  userId : Option Int
  entityType : Option PyStr
  startedAt : Option DateTime
  endedBefore : Option DateTime

/-- The parameters of the query string; `result` is one of the stored values or unknown. -/
structure AuditQuery where
  dateFrom : Option PyStr
  dateTo : Option PyStr
  action : Option PyStr
  result : Option PyStr
  userId : Option PyStr
  entityType : Option PyStr
  page : Option PyStr

/-- `raw or None`: an empty parameter is one that was not given. -/
def given (raw : Option PyStr) : Option PyStr := raw.filter (· ≠ [])

def startFormatError : PyStr := py "Дата початку має бути у форматі РРРР-ММ-ДД."

def endFormatError : PyStr := py "Дата завершення має бути у форматі РРРР-ММ-ДД."

def dateOrderError : PyStr := py "Дата початку не може бути пізнішою за дату завершення."

/-- The first block of `_date_bounds`: midnight of the first date, or a message. -/
def startBound (rawStart : Option PyStr) : Option DateTime × List PyStr :=
  match given rawStart with
  | none => (none, [])
  | some text => match CalendarDate.fromisoformat text with
    | some date => (some date.midnight, [])
    | none => (none, [startFormatError])

/-- The second block: midnight after the last date, or a message. Its handler
catches `ValueError`, which `OverflowError` is not. -/
def endBound (rawEnd : Option PyStr) : Except PyException (Option DateTime × List PyStr) :=
  match given rawEnd with
  | none => .ok (none, [])
  | some text => match CalendarDate.fromisoformat text with
    | some date => do
        let next ← date.nextDay
        return (some next.midnight, [])
    | none => .ok (none, [endFormatError])

def orderErrors : Option DateTime → Option DateTime → List PyStr
  | some startedAt, some endedBefore => if endedBefore.instant ≤ startedAt.instant then [dateOrderError] else []
  | _, _ => []

/-- `_date_bounds`, with the message about the order of the two. -/
def dateBounds (rawStart rawEnd : Option PyStr) :
    Except PyException (Option DateTime × Option DateTime × List PyStr) := do
  let ended ← endBound rawEnd
  return ((startBound rawStart).1, ended.1,
    (startBound rawStart).2 ++ ended.2 ++ orderErrors (startBound rawStart).1 ended.1)

/-- `_optional_positive_int`: a text that is no positive number is ignored. -/
def optionalPositiveInt (raw : Option PyStr) : Option Int :=
  match raw with
  | none => none
  | some text => if strip text = [] then none else (parseInt text).filter (0 < ·)

/-- `pagination_page`: a number between 1 and 100,000, whatever was asked for. -/
def paginationPage (raw : Option PyStr) : Int :=
  match raw.bind parseInt with
  | none => 1
  | some page => min (max page 1) 100000

def auditResults : List PyStr := [py "success", py "failure"]

/-- The `WHERE` clause on the timestamp: from the first bound on, and before the
second. -/
def inBounds (startedAt endedBefore : Option DateTime) (timestamp : DateTime) : Bool :=
  startedAt.all (fun bound => bound.instant ≤ timestamp.instant) && endedBefore.all fun bound => timestamp.instant < bound.instant

/-- The whole `WHERE` clause for one row. -/
def AuditFilters.accepts (filters : AuditFilters) (row : AuditLog) : Bool :=
  filters.action.all (row.action == ·) && filters.result.all (row.result == ·) &&
    filters.userId.all (row.userId == some ·) && filters.entityType.all (row.entityType == some ·) &&
    inBounds filters.startedAt filters.endedBefore row.timestamp

/-- `ORDER BY timestamp DESC, id DESC`, which no two rows tie in. -/
def notOlder (first second : AuditLog) : Prop :=
  second.timestamp.instant < first.timestamp.instant ∨
    second.timestamp.instant = first.timestamp.instant ∧ second.id ≤ first.id

instance (first second : AuditLog) : Decidable (notOlder first second) := inferInstanceAs (Decidable (_ ∨ _))

/-- `list_page`: the numbers are bound first. SQLite binds integers of 64 bits with
a sign. -/
def listPage (page perPage : Int) (filters : AuditFilters) (rows : List AuditLog) :
    Except PyException (List AuditLog × Nat) := do
  bindAll (filters.userId.toList ++ [perPage, (page - 1) * perPage])
  let found := rows.filter filters.accepts
  return (((found.insertionSort notOlder).drop ((page - 1) * perPage).toNat).take perPage.toNat, found.length)

/-- The filters `audit_log` builds of a query and its bounds. -/
def auditFilters (query : AuditQuery) (startedAt endedBefore : Option DateTime) : AuditFilters where
  action := given query.action
  result := (given query.result).filter (· ∈ auditResults)
  userId := optionalPositiveInt query.userId
  entityType := given query.entityType
  startedAt := startedAt
  endedBefore := endedBefore

/-- `audit_log`: the rows of the page, their total number and the messages. -/
def auditLog (query : AuditQuery) (rows : List AuditLog) :
    Except PyException ((List AuditLog × Nat) × List PyStr) := do
  let bounds ← dateBounds query.dateFrom query.dateTo
  let snapshot ← listPage (paginationPage query.page) 50 (auditFilters query bounds.1 bounds.2.1) rows
  return (snapshot, bounds.2.2)

/-- The dates that the query names reach up to the day of a moment and down to it. -/
def Between (rawStart rawEnd : Option PyStr) (timestamp : DateTime) : Prop :=
  (∀ text ∈ given rawStart, ∃ date, CalendarDate.fromisoformat text = some date ∧ date ≤ .ofDateTime timestamp) ∧
    ∀ text ∈ given rawEnd, ∃ date, CalendarDate.fromisoformat text = some date ∧ .ofDateTime timestamp ≤ date

/-- The filters of a query are total and exact: the page is answered, and it shows
the rows that the query names and no others. -/
structure ExactFilters (query : AuditQuery) : Prop where
  total : ∃ bounds, dateBounds query.dateFrom query.dateTo = .ok bounds
  exact : ∀ startedAt endedBefore, dateBounds query.dateFrom query.dateTo = .ok (startedAt, endedBefore, []) →
    ∀ timestamp : DateTime, timestamp.utcoffset = some 0 →
      (inBounds startedAt endedBefore timestamp = true ↔ Between query.dateFrom query.dateTo timestamp)
  bindable : ∀ id, optionalPositiveInt query.userId = some id → isBindable id = true
  answered : ∀ rows, ∃ page, auditLog query rows = .ok page

theorem endBound_of_date {rawEnd : Option PyStr} {text : PyStr} {date : CalendarDate} (hGiven : given rawEnd = some text)
    (hDate : CalendarDate.fromisoformat text = some date) :
    endBound rawEnd = (date.nextDay >>= fun next => .ok (some next.midnight, [])) := by
  unfold endBound
  rw [hGiven]
  dsimp only
  rw [hDate]
  rfl

/-- Only the last date of the calendar makes the parsing of the end raise. -/
theorem endBound_cases (rawEnd : Option PyStr) :
    ((given rawEnd).bind CalendarDate.fromisoformat = some .last ∧ endBound rawEnd = .error .overflowError) ∨
      ((given rawEnd).bind CalendarDate.fromisoformat ≠ some .last ∧ ∃ ended, endBound rawEnd = .ok ended) := by
  cases hGiven : given rawEnd with
  | none =>
      refine Or.inr ⟨nofun, (none, []), ?_⟩
      unfold endBound
      rw [hGiven]
  | some text =>
      rw [Option.bind_some]
      cases hDate : CalendarDate.fromisoformat text with
      | none =>
          refine Or.inr ⟨nofun, (none, [endFormatError]), ?_⟩
          unfold endBound
          rw [hGiven]
          dsimp only
          rw [hDate]
      | some date =>
          rw [endBound_of_date hGiven hDate]
          rcases date.nextDay_cases with ⟨rfl, hNext⟩ | ⟨hOther, next, hNext⟩
          · exact Or.inl ⟨rfl, by rw [hNext]; rfl⟩
          · exact Or.inr ⟨fun hLast => hOther (Option.some.inj hLast), _, except_bind_ok hNext _⟩

section Exactness

variable {timestamp : DateTime} (hUtc : timestamp.utcoffset = some 0)

include hUtc

theorem startBound_iff {rawStart : Option PyStr} (h : (startBound rawStart).2 = []) :
    (startBound rawStart).1.all (fun bound => bound.instant ≤ timestamp.instant) = true ↔
      ∀ text ∈ given rawStart, ∃ date, CalendarDate.fromisoformat text = some date ∧ date ≤ .ofDateTime timestamp := by
  unfold startBound at h ⊢
  cases hGiven : given rawStart with
  | none => simp
  | some text =>
      rw [hGiven] at h
      dsimp only at h ⊢
      cases hDate : CalendarDate.fromisoformat text with
      | none =>
          rw [hDate] at h
          cases h
      | some date =>
          have hIff := @CalendarDate.midnight_le_iff date timestamp hUtc
          simp [hDate, hIff]

theorem endBound_iff {rawEnd : Option PyStr} {ended : Option DateTime × List PyStr} (h : endBound rawEnd = .ok ended)
    (hErrors : ended.2 = []) :
    ended.1.all (fun bound => timestamp.instant < bound.instant) = true ↔
      ∀ text ∈ given rawEnd, ∃ date, CalendarDate.fromisoformat text = some date ∧ .ofDateTime timestamp ≤ date := by
  cases hGiven : given rawEnd with
  | none =>
      unfold endBound at h
      rw [hGiven] at h
      cases h
      simp
  | some text =>
      cases hDate : CalendarDate.fromisoformat text with
      | none =>
          unfold endBound at h
          rw [hGiven] at h
          dsimp only at h
          rw [hDate] at h
          cases h
          cases hErrors
      | some date =>
          rw [endBound_of_date hGiven hDate] at h
          obtain ⟨next, hNext, h⟩ := except_bind_eq_ok h
          cases h
          have hIff := CalendarDate.lt_midnight_iff hNext hUtc
          simp [hDate, hIff]

/-- The bounds hold the days from the first date to the last one, both of them
whole. -/
theorem inBounds_iff {rawStart rawEnd : Option PyStr} {startedAt endedBefore : Option DateTime}
    (h : dateBounds rawStart rawEnd = .ok (startedAt, endedBefore, [])) :
    inBounds startedAt endedBefore timestamp = true ↔ Between rawStart rawEnd timestamp := by
  obtain ⟨ended, hEnded, h⟩ := except_bind_eq_ok h
  have hFields := Except.ok.inj h
  rw [Prod.mk.injEq, Prod.mk.injEq, List.append_eq_nil_iff, List.append_eq_nil_iff] at hFields
  obtain ⟨hStart, hEnd, ⟨hStartErrors, hEndErrors⟩, -⟩ := hFields
  rw [inBounds, Bool.and_eq_true, Between, ← hStart, ← hEnd, startBound_iff hUtc hStartErrors,
    endBound_iff hUtc hEnded hEndErrors]

end Exactness

/-- Page numbers and page sizes can always be bound, because the number of the page
is limited. -/
theorem isBindable_page (raw : Option PyStr) : isBindable ((paginationPage raw - 1) * 50) = true := by
  have hRange : 1 ≤ paginationPage raw ∧ paginationPage raw ≤ 100000 := by
    unfold paginationPage
    split <;> omega
  rw [isBindable_iff]
  omega

theorem optionalPositiveInt_eq_some_iff {raw : Option PyStr} {id : Int} :
    optionalPositiveInt raw = some id ↔ ∃ text, raw = some text ∧ strip text ≠ [] ∧ parseInt text = some id ∧ 0 < id := by
  cases raw with
  | none => simp [optionalPositiveInt]
  | some text =>
      unfold optionalPositiveInt
      by_cases hBlank : strip text = []
      · simp [hBlank]
      · simp [hBlank, Option.filter_eq_some_iff]

/-- The page is there when its parameters can be bound, and only then. -/
theorem listPage_cases (page perPage : Int) (filters : AuditFilters) (rows : List AuditLog) :
    ((∀ value ∈ filters.userId.toList ++ [perPage, (page - 1) * perPage], isBindable value = true) ∧
      ∃ snapshot, listPage page perPage filters rows = .ok snapshot) ∨
    ((∃ value ∈ filters.userId.toList ++ [perPage, (page - 1) * perPage], isBindable value = false) ∧
      listPage page perPage filters rows = .error .overflowError) := by
  by_cases h : ∀ value ∈ filters.userId.toList ++ [perPage, (page - 1) * perPage], isBindable value = true
  · exact Or.inl ⟨h, _, except_bind_ok (require_ok h) _⟩
  · refine Or.inr ⟨by simpa using h, ?_⟩
    unfold listPage bindAll require
    rw [if_neg h]
    rfl

/-- The filters of a query are total and exact unless the end is the last date
of the calendar or the user number is beyond 64 bits. -/
theorem exactFilters_iff (query : AuditQuery) :
    ExactFilters query ↔
      (given query.dateTo).bind CalendarDate.fromisoformat ≠ some .last ∧
        ∀ text id, query.userId = some text → parseInt text = some id → id < 2 ^ 63 := by
  constructor
  · intro h
    constructor
    · intro hLast
      obtain ⟨bounds, hBounds⟩ := h.total
      obtain ⟨ended, hEnded, -⟩ := except_bind_eq_ok hBounds
      rcases endBound_cases query.dateTo with ⟨-, hError⟩ | ⟨hOther, -⟩
      · rw [hError] at hEnded
        cases hEnded
      · exact hOther hLast
    · intro text id hText hId
      by_contra hLarge
      have hSome : optionalPositiveInt query.userId = some id := by
        refine optionalPositiveInt_eq_some_iff.mpr ⟨text, hText, fun hBlank => ?_, hId, by omega⟩
        rw [parseInt_of_blank hBlank] at hId
        cases hId
      have hBindable := h.bindable id hSome
      rw [isBindable_iff] at hBindable
      omega
  · rintro ⟨hOther, hSmall⟩
    obtain ⟨ended, hEnded⟩ : ∃ ended, endBound query.dateTo = .ok ended := by
      rcases endBound_cases query.dateTo with ⟨hLast, -⟩ | ⟨-, hSome⟩
      · exact (hOther hLast).elim
      · exact hSome
    have hBindable : ∀ id, optionalPositiveInt query.userId = some id → isBindable id = true := by
      intro id hId
      obtain ⟨text, hText, -, hParsed, hPositive⟩ := optionalPositiveInt_eq_some_iff.mp hId
      have hBelow := hSmall text id hText hParsed
      rw [isBindable_iff]
      omega
    have hBounds := @except_bind_ok _ _ _ _ _ hEnded fun ended => .ok ((startBound query.dateFrom).1, ended.1,
      (startBound query.dateFrom).2 ++ ended.2 ++ orderErrors (startBound query.dateFrom).1 ended.1)
    refine ⟨⟨_, hBounds⟩, fun startedAt endedBefore hNone timestamp hUtc => inBounds_iff hUtc hNone, hBindable,
      fun rows => ?_⟩
    rcases listPage_cases (paginationPage query.page) 50 (auditFilters query (startBound query.dateFrom).1 ended.1) rows with
      ⟨-, snapshot, hSnapshot⟩ | ⟨⟨value, hValue, hLarge⟩, -⟩
    · exact ⟨_, (except_bind_ok hBounds _).trans (except_bind_ok hSnapshot _)⟩
    · refine absurd hLarge ?_
      rw [Bool.not_eq_false]
      rcases List.mem_append.mp hValue with hId | hPage
      · exact hBindable value (Option.mem_toList.mp hId)
      · rcases List.mem_pair.mp hPage with rfl | rfl
        · decide
        · exact isBindable_page query.page

/-- A day on which the range starts and ends, and a user. -/
def sampleQuery : AuditQuery where
  dateFrom := some (py "2026-07-20")
  dateTo := some (py "2026-07-20")
  action := none
  result := none
  userId := some (py "7")
  entityType := none
  page := none

/-- The end of the calendar, and a number of 64 bits without room for the sign. -/
def lastQuery : AuditQuery :=
  { sampleQuery with dateTo := some (py "9999-12-31"), userId := some (py "9223372036854775808") }

theorem exactFilters_sample : ExactFilters sampleQuery := by
  refine (exactFilters_iff sampleQuery).mpr ⟨by decide, fun text id hText hId => ?_⟩
  cases hText
  have hSeven : parseInt (py "7") = some 7 := by decide
  rw [hSeven] at hId
  cases hId
  decide

/-- For this query the parsing of the end raises, and so would the binding of the
user number. -/
theorem last_query_fails :
    dateBounds lastQuery.dateFrom lastQuery.dateTo = .error .overflowError ∧
      optionalPositiveInt lastQuery.userId = some 9223372036854775808 ∧ isBindable 9223372036854775808 = false ∧
      (∀ rows, auditLog lastQuery rows = .error .overflowError) ∧
      (∀ rows, auditLog { lastQuery with dateTo := none } rows = .error .overflowError) ∧ ¬ExactFilters lastQuery := by
  have hBounds : dateBounds lastQuery.dateFrom lastQuery.dateTo = .error .overflowError := by
    have hLast : (given lastQuery.dateTo).bind CalendarDate.fromisoformat = some .last := by decide
    rcases endBound_cases lastQuery.dateTo with ⟨-, hError⟩ | ⟨hOther, -⟩
    · rw [dateBounds, hError]
      rfl
    · exact (hOther hLast).elim
  have hId : optionalPositiveInt lastQuery.userId = some 9223372036854775808 := by decide
  refine ⟨hBounds, hId, by decide, fun rows => ?_, fun rows => ?_, fun h => ?_⟩
  · rw [auditLog, hBounds]
    rfl
  · have hStart : ∃ bounds, dateBounds lastQuery.dateFrom none = .ok bounds := ⟨_, rfl⟩
    obtain ⟨bounds, hOpen⟩ := hStart
    rcases listPage_cases (paginationPage none) 50 (auditFilters lastQuery bounds.1 bounds.2.1) rows with
      ⟨hAll, -⟩ | ⟨-, hError⟩
    · have hMem : (9223372036854775808 : Int) ∈ (auditFilters lastQuery bounds.1 bounds.2.1).userId.toList := by
        rw [auditFilters, hId]
        exact List.mem_singleton_self _
      exact absurd (hAll _ (List.mem_append_left _ hMem)) (by decide)
    · refine (except_bind_ok hOpen _).trans ?_
      change (listPage (paginationPage none) 50 (auditFilters lastQuery bounds.1 bounds.2.1) rows >>= fun _ => _) = _
      rw [hError]
      rfl
  · obtain ⟨bounds, hTotal⟩ := h.total
    rw [hBounds] at hTotal
    cases hTotal

end SoftwareHub.Core
