import SoftwareHub.Auth.Lockout
import SoftwareHub.Auth.SessionRequests

/-! An accepted token goes back to one login, and nothing has ended its session
since. Every row of the table carries the history of the steps that followed its
login. -/
namespace SoftwareHub.Auth

open SoftwareHub.Python SoftwareHub.Semantics Program

/-- What a step does to a row that it does not delete. A row that stays live belongs
to a session that the step did not end. -/
inductive RowChange (settings : AuthSettings) (step : SessionStep) (row : UserSession) : UserSession → Prop
  | kept
      (hLive : row.revokedAt = none → ∀ token, token ≠ [] → hashSessionToken token = .ok row.sessionTokenHash →
        ¬Ends token row.userId row.id step) : RowChange settings step row row
  | revoked (now : Instant) : RowChange settings step row { row with revokedAt := some now }
  | touched {token : PyStr} {now idleExpiresAt : Instant} (hUsed : used token step = some now)
      (hToken : hashSessionToken token = .ok row.sessionTokenHash)
      (hIdle : now.add settings.sessionIdleTimeoutSeconds = .ok idleExpiresAt) :
      RowChange settings step row { row with
        lastActivityAt := now
        expiresAt := idleExpiresAt.min row.absoluteExpiresAt }

/-- The request of a step in which a token was accepted. -/
theorem used_eq_some {token : PyStr} {now : Instant} {step : SessionStep} (h : used token step = some now) :
    (∃ ipAddress userAgent, step.request = .authenticate (some token) ipAddress userAgent now) ∧
      ∀ other userId sessionId, ¬Ends other userId sessionId step := by
  obtain ⟨request, before, outcome, after⟩ := step
  unfold used at h
  split at h
  · rename_i presented ipAddress userAgent _ session hRequest hOutcome
    dsimp only at hRequest hOutcome
    subst hRequest
    split_ifs at h with hToken
    subst hToken
    cases h
    exact ⟨⟨ipAddress, userAgent, rfl⟩, fun other userId sessionId => by simp [Ends]⟩
  · cases h

section Service

variable {settings : AuthSettings} {platform : Platform}

/-- How a row of the table after a step came about: from a row before it, or from a
login in it. -/
def RowOrigin (settings : AuthSettings) (step : SessionStep) (row : UserSession) : Prop :=
  (∃ old ∈ step.before.sessions, RowChange settings step old row) ∨
    ∃ attempt credentials rotated after, step.request = .login attempt ∧ issued step = some credentials ∧
      RecordCreated settings credentials.user.id attempt.now attempt.token rotated credentials after row

/-- A step that cannot end a session keeps the rows that it leaves. -/
theorem rowOrigin_of_mem {step : SessionStep} {row : UserSession} (hRow : row ∈ step.before.sessions)
    (h : ∀ token userId sessionId, ¬Ends token userId sessionId step) : RowOrigin settings step row :=
  .inl ⟨row, hRow, .kept fun _ token _ _ => h token _ _⟩

theorem step_login (attempt : LoginAttempt) {s : Accounts} (hKeyed : s.Keyed) {step : SessionStep}
    (hStep : step = answer (SessionRequest.perform settings platform) (.login attempt) s) :
    step.after.Keyed ∧ ∀ row ∈ step.after.sessions, RowOrigin settings step row := by
  have hSame := @sessions_login settings platform attempt s
  rcases hLogin : login settings platform attempt s with ⟨outcome, after⟩
  rw [hLogin] at hSame
  have hPerform : SessionRequest.perform settings platform
      (.login attempt) s = (outcome.map .credentials, after) := by
    simp [SessionRequest.perform, hLogin]
  rw [answer_of_run hPerform] at hStep
  subst hStep
  by_cases hSuccess : ∃ credentials, outcome = .ok (some credentials)
  · obtain ⟨credentials, rfl⟩ := hSuccess
    obtain ⟨saved, rotated, record, hSaved, hRotated, hCreated⟩ := login_eq_ok_some hKeyed hLogin
    have hSavedKeyed : saved.Keyed := ⟨hSaved ▸ hKeyed.ids, hSaved ▸ hKeyed.hashes⟩
    refine ⟨(hRotated.keyed hSavedKeyed).recordCreated hCreated, fun row hRow => ?_⟩
    dsimp only at hRow
    rw [hCreated.after_eq] at hRow
    rcases List.mem_append.mp hRow with hOld | hNew
    · obtain ⟨old, hMem, rfl | ⟨rfl, hLive⟩⟩ := hRotated.rows hSavedKeyed hOld
      · exact .inl ⟨old, hSaved ▸ hMem, .revoked _⟩
      · exact .inl ⟨row, hSaved ▸ hMem, .kept hLive⟩
    · obtain rfl := List.mem_singleton.mp hNew
      exact .inr ⟨attempt, credentials, rotated, after, rfl, rfl, hCreated⟩
  · have hSessions := hSame fun credentials hEq => hSuccess ⟨credentials, hEq⟩
    dsimp only at hSessions
    refine ⟨⟨hSessions ▸ hKeyed.ids, hSessions ▸ hKeyed.hashes⟩, fun row hRow => ?_⟩
    refine rowOrigin_of_mem (hSessions ▸ hRow) fun token userId sessionId => ?_
    cases outcome with
    | error e => simp [Ends, Except.map]
    | ok credentials =>
        cases credentials with
        | none => simp [Ends, Except.map]
        | some credentials => exact (hSuccess ⟨credentials, rfl⟩).elim

theorem step_authenticate (rawToken ipAddress userAgent : Option PyStr) (now : Instant) {s : Accounts}
    (hKeyed : s.Keyed) {step : SessionStep}
    (hStep : step = answer (SessionRequest.perform settings platform)
      (.authenticate rawToken ipAddress userAgent now) s) :
    step.after.Keyed ∧ ∀ row ∈ step.after.sessions, RowOrigin settings step row := by
  rcases hRun : authenticate settings rawToken ipAddress userAgent now s with ⟨outcome, after⟩
  have hPerform : SessionRequest.perform settings platform
      (.authenticate rawToken ipAddress userAgent now) s = (outcome.map .session, after) := by
    simp [SessionRequest.perform, hRun]
  rw [answer_of_run hPerform] at hStep
  subst hStep
  have hNever (token : PyStr) (userId sessionId : Nat) : ¬Ends token userId sessionId
      ⟨.authenticate rawToken ipAddress userAgent now, s, outcome.map .session, after⟩ := by simp [Ends]
  cases outcome with
  | error e =>
      obtain rfl := authenticate_eq_error hRun
      exact ⟨hKeyed, fun row hRow => rowOrigin_of_mem hRow hNever⟩
  | ok result =>
      rcases authenticate_eq_ok hKeyed hRun with ⟨rfl, rfl⟩ | ⟨token, session, record, rfl, rfl, hAccepted⟩
      · exact ⟨hKeyed, fun row hRow => rowOrigin_of_mem hRow hNever⟩
      · obtain ⟨touched, hTouch, rfl, -⟩ := hAccepted.touched
        rcases touch_eq_ok hTouch with rfl | ⟨idleExpiresAt, hIdle, rfl⟩
        · refine ⟨hKeyed.saveSession hAccepted.mem rfl rfl, fun row hRow => ?_⟩
          rcases Accounts.mem_saveSession rfl hRow with rfl | ⟨hOld, -⟩
          · exact rowOrigin_of_mem hAccepted.mem hNever
          · exact rowOrigin_of_mem hOld hNever
        · refine ⟨hKeyed.saveSession hAccepted.mem rfl rfl, fun row hRow => ?_⟩
          rcases @Accounts.mem_saveSession _ record { record with
            lastActivityAt := now
            expiresAt := idleExpiresAt.min record.absoluteExpiresAt } _ rfl hRow with rfl | ⟨hOld, -⟩
          · exact .inl ⟨record, hAccepted.mem, .touched (by simp [used, Except.map]) hAccepted.tokenHash hIdle⟩
          · exact rowOrigin_of_mem hOld hNever

theorem step_revoke (rawToken ipAddress : Option PyStr) (now : Instant) {s : Accounts} (hKeyed : s.Keyed)
    {step : SessionStep}
    (hStep : step = answer (SessionRequest.perform settings platform) (.revoke rawToken ipAddress now) s) :
    step.after.Keyed ∧ ∀ row ∈ step.after.sessions, RowOrigin settings step row := by
  rcases hRun : revoke settings rawToken ipAddress now s with ⟨outcome, after⟩
  have hPerform : SessionRequest.perform settings platform
      (.revoke rawToken ipAddress now) s = (outcome.map .revoked, after) := by
    simp [SessionRequest.perform, hRun]
  rw [answer_of_run hPerform] at hStep
  subst hStep
  cases outcome with
  | error e =>
      obtain rfl := revoke_eq_error hRun
      exact ⟨hKeyed, fun row hRow => rowOrigin_of_mem hRow fun token userId sessionId => by simp [Ends, Except.map]⟩
  | ok found =>
      have hRevoked := revoke_eq_ok hKeyed hRun
      refine ⟨hRevoked.keyed hKeyed, fun row hRow => ?_⟩
      obtain ⟨old, hMem, rfl | ⟨rfl, hLive⟩⟩ := hRevoked.rows hKeyed hRow
      · exact .inl ⟨old, hMem, .revoked _⟩
      · exact .inl ⟨row, hMem, .kept hLive⟩

/-- A row that survives a revocation for its user was the exempt one. -/
theorem mem_revokeAllForUser {userId : Nat} {now : Instant} {exceptSessionId : Option Nat} {accounts : Accounts}
    {row : UserSession} (h : row ∈ (accounts.revokeAllForUser userId now exceptSessionId).sessions) :
    ∃ old ∈ accounts.sessions, row = { old with revokedAt := some now } ∨
      row = old ∧ (old.revokedAt = none → ¬(userId = old.userId ∧ exceptSessionId ≠ some old.id)) := by
  obtain ⟨old, hOld, rfl⟩ := mem_updateRows.mp h
  refine ⟨old, hOld, ?_⟩
  split_ifs with hCovered
  · exact .inl rfl
  · refine .inr ⟨rfl, fun hLive ⟨hUser, hExcept⟩ => hCovered ⟨hUser.symm, hLive, fun id hId => ?_⟩⟩
    rintro rfl
    exact hExcept hId

/-- The keys hold after any call, and every row has its origin. -/
theorem step_sessions (request : SessionRequest) {s : Accounts} (hKeyed : s.Keyed) {step : SessionStep}
    (hStep : step = answer (SessionRequest.perform settings platform) request s) :
    step.after.Keyed ∧ ∀ row ∈ step.after.sessions, RowOrigin settings step row := by
  cases request with
  | login attempt => exact step_login attempt hKeyed hStep
  | authenticate rawToken ipAddress userAgent now =>
      exact step_authenticate rawToken ipAddress userAgent now hKeyed hStep
  | revoke rawToken ipAddress now => exact step_revoke rawToken ipAddress now hKeyed hStep
  | revokeAllForUser userId exceptSessionId now =>
      subst hStep
      refine ⟨hKeyed.revokeAllForUser userId now exceptSessionId, fun row hRow => ?_⟩
      obtain ⟨old, hMem, rfl | ⟨rfl, hLive⟩⟩ := mem_revokeAllForUser hRow
      · exact .inl ⟨old, hMem, .revoked _⟩
      · exact .inl ⟨row, hMem, .kept fun hNone token _ _ => hLive hNone⟩
  | changePassword username newPassword salt now =>
      rcases @changePassword_run settings platform username newPassword salt now s with ⟨e, hRun⟩ | ⟨user, hRun, -⟩
      · have hPerform : SessionRequest.perform settings platform
            (.changePassword username newPassword salt now) s = (.error e, s) := by
          simp [SessionRequest.perform, hRun, Except.map]
        rw [answer_of_run hPerform] at hStep
        subst hStep
        exact ⟨hKeyed, fun row hRow => rowOrigin_of_mem hRow fun token userId sessionId => by simp [Ends]⟩
      · have hPerform : SessionRequest.perform settings platform
            (.changePassword username newPassword salt now) s =
              (.ok (.user user), (s.saveUser user).revokeAllForUser user.id now none) := by
          simp [SessionRequest.perform, hRun, Except.map]
        rw [answer_of_run hPerform] at hStep
        subst hStep
        have hSaved : (s.saveUser user).Keyed := ⟨hKeyed.ids, hKeyed.hashes⟩
        refine ⟨hSaved.revokeAllForUser user.id now none, fun row hRow => ?_⟩
        obtain ⟨old, hMem, rfl | ⟨rfl, hLive⟩⟩ := mem_revokeAllForUser hRow
        · exact .inl ⟨old, hMem, .revoked _⟩
        · exact .inl ⟨row, hMem, .kept fun hNone token _ _ hEnds => hLive hNone ⟨hEnds, by simp⟩⟩
  | cleanupExpired now =>
      subst hStep
      refine ⟨hKeyed.deleteExpired now, fun row hRow => ?_⟩
      refine rowOrigin_of_mem (mem_deleteRows.mp hRow).1 fun token userId sessionId => ?_
      simp [Ends, answer]
  | setActive userId isActive now =>
      subst hStep
      refine ⟨⟨hKeyed.ids, hKeyed.hashes⟩, fun row hRow => ?_⟩
      exact rowOrigin_of_mem hRow fun token userId sessionId => by simp [Ends, answer]

end Service

/-- When the token was last accepted, or else created. -/
def lastUse (token : PyStr) (created : Instant) (later : List SessionStep) : Instant :=
  (later.filterMap (used token)).getLastD created

/-- What is known of a row after the steps that followed its login: none of them
ended it while it is live, and its deadline follows from its last use. -/
structure RowHistory (settings : AuthSettings) (credentials : SessionCredentials) (login : SessionStep)
    (later : List SessionStep) (row : UserSession) : Prop where
  issued : issued login = some credentials
  tokenHash : hashSessionToken credentials.token = .ok row.sessionTokenHash
  userId : row.userId = credentials.user.id
  absolute : row.absoluteExpiresAt.micros =
    login.request.now.micros + settings.sessionAbsoluteTimeoutSeconds * microsPerSecond
  expiresAt_le : row.expiresAt ≤ row.absoluteExpiresAt
  idle : row.expiresAt.micros ≤ row.lastActivityAt.micros + settings.sessionIdleTimeoutSeconds * microsPerSecond
  activity : row.lastActivityAt ∈ login.request.now :: later.filterMap (used credentials.token)
  live : row.revokedAt = none → credentials.token ≠ [] →
    ∀ step ∈ later, ¬Ends credentials.token row.userId row.id step

namespace RowHistory

variable {settings : AuthSettings} {credentials : SessionCredentials} {login : SessionStep}
  {later : List SessionStep} {row after : UserSession}

theorem created {attempt : LoginAttempt} {rotated accounts : Accounts} (hRequest : login.request = .login attempt)
    (hIssued : Auth.issued login = some credentials)
    (h : RecordCreated settings credentials.user.id attempt.now attempt.token rotated credentials accounts row) :
    RowHistory settings credentials login [] row := by
  have hOrder := Nat.mul_le_mul_right microsPerSecond settings.idle_lt_absolute.le
  have hAbsolute := h.absolute
  have hExpires := h.expiresAt
  exact {
    issued := hIssued
    tokenHash := by rw [h.token, h.tokenHash]
    userId := h.userId
    absolute := by rw [hRequest]; exact hAbsolute
    expiresAt_le := by rw [Instant.le_def]; omega
    idle := by rw [h.lastActivityAt]; exact hExpires.le
    activity := by rw [hRequest, h.lastActivityAt]; exact List.mem_cons_self
    live := by simp }

/-- One more step, in which the row may have changed. -/
theorem next (h : RowHistory settings credentials login later row) {step : SessionStep}
    (hChange : RowChange settings step row after)
    (hToken : ∀ token now, used token step = some now → hashSessionToken token = .ok row.sessionTokenHash →
      token = credentials.token) : RowHistory settings credentials login (later ++ [step]) after := by
  have hActivity : row.lastActivityAt ∈ login.request.now :: (later ++ [step]).filterMap (used credentials.token) := by
    rw [List.filterMap_append]
    exact List.mem_append_left _ h.activity
  cases hChange with
  | kept hLive =>
      refine { h with activity := hActivity, live := fun hNone hNe other hOther => ?_ }
      rcases List.mem_append.mp hOther with hPast | hLast
      · exact h.live hNone hNe other hPast
      · rw [List.mem_singleton.mp hLast]
        exact hLive hNone _ hNe h.tokenHash
  | revoked now => exact { h with activity := hActivity, live := fun hNone => by cases hNone }
  | @touched token now idleExpiresAt hUsed hHash hIdle =>
      obtain rfl := hToken token now hUsed hHash
      rw [Instant.add_eq_ok_iff] at hIdle
      have hMin := Instant.micros_min idleExpiresAt row.absoluteExpiresAt
      refine { h with expiresAt_le := ?_, idle := ?_, activity := ?_, live := fun hNone hNe other hOther => ?_ }
      · rw [Instant.le_def, hMin]
        exact Nat.min_le_right _ _
      · rw [hMin, ← hIdle]
        exact Nat.min_le_left _ _
      · rw [List.filterMap_append]
        exact List.mem_cons_of_mem _ (List.mem_append_right _ (by simp [hUsed]))
      · rcases List.mem_append.mp hOther with hPast | hLast
        · exact h.live hNone hNe other hPast
        · rw [List.mem_singleton.mp hLast]
          exact (used_eq_some hUsed).2 _ _ _

end RowHistory

/-- The two steps did not issue the same token. -/
def IssuedApart (first second : SessionStep) : Prop :=
  ∀ old ∈ issued first, ∀ new ∈ issued second, old.token ≠ new.token

instance : Std.Symm IssuedApart := ⟨fun _ _ h new hNew old hOld => (h old hOld new hNew).symm⟩

/-- The clock does not go back, generated tokens are fresh, and no two of the
tokens that occur have the same hash. -/
structure SessionRun (settings : AuthSettings) (platform : Platform) (accounts : Accounts)
    (requests : List SessionRequest) : Prop where
  empty : accounts.sessions = []
  clock : requests.Pairwise fun first second => first.now ≤ second.now
  fresh : (trace (SessionRequest.perform settings platform) accounts requests).Pairwise IssuedApart
  injective : ∀ first ∈ requests.flatMap SessionRequest.tokens, ∀ second ∈ requests.flatMap SessionRequest.tokens,
    ∀ tokenHash, hashSessionToken first = .ok tokenHash → hashSessionToken second = .ok tokenHash → first = second

/-- Every row goes back to a login of the past, and has the history of the steps
since. -/
structure SessionHistory (settings : AuthSettings) (requests : List SessionRequest) (past : List SessionStep)
    (accounts : Accounts) : Prop where
  keyed : accounts.Keyed
  rows : ∀ row ∈ accounts.sessions, ∃ earlier login later credentials, past = earlier ++ login :: later ∧
    credentials.token ∈ requests.flatMap SessionRequest.tokens ∧ RowHistory settings credentials login later row

/-- The login at the origin of an accepted token, and the steps since, none of which
ended the session. -/
structure SoundUse (settings : AuthSettings) (token : PyStr) (session : AuthenticatedSession) (now : Instant)
    (accounts : Accounts) (login : SessionStep) (later : List SessionStep) : Prop where
  created : ∃ credentials, issued login = some credentials ∧ credentials.token = token ∧
    credentials.user.id = session.user.id
  absolute : now.micros < login.request.now.micros + settings.sessionAbsoluteTimeoutSeconds * microsPerSecond
  idle : now.micros < (lastUse token login.request.now later).micros +
    settings.sessionIdleTimeoutSeconds * microsPerSecond
  user : accounts.user? session.user.id = some session.user
  active : session.user.isActive = true
  notEnded : ∀ step ∈ later, ¬Ends token session.user.id session.sessionId step

/-- In a list in order every element is at most the last one. -/
theorem le_getLastD {times : List Instant} {first t : Instant}
    (h : (first :: times).Pairwise fun a b => a ≤ b) (ht : t ∈ first :: times) : t ≤ times.getLastD first := by
  induction times generalizing first t with
  | nil =>
      rw [List.mem_singleton.mp ht]
      exact Nat.le_refl _
  | cons second times ih =>
      obtain ⟨hFirst, hRest⟩ := List.pairwise_cons.mp h
      rw [List.getLastD_cons]
      rcases List.mem_cons.mp ht with rfl | ht
      · exact Nat.le_trans (hFirst second (by simp)) (ih hRest (by simp))
      · exact ih hRest ht

section Run

variable {settings : AuthSettings} {platform : Platform} {accounts : Accounts} {requests : List SessionRequest}

namespace SessionRun

theorem history (h : SessionRun settings platform accounts requests) {earlier later : List SessionStep}
    {step : SessionStep}
    (hTrace : trace (SessionRequest.perform settings platform) accounts requests = earlier ++ step :: later) :
    SessionHistory settings requests earlier step.before ∧
      SessionHistory settings requests (earlier ++ [step]) step.after := by
  have hStart : SessionHistory settings requests [] accounts := by
    refine ⟨⟨?_, ?_⟩, ?_⟩
    · simp [h.empty]
    · simp [h.empty]
    · simp [h.empty]
  refine history_of_invariant (fun request hRequest past s hPast => ?_) hStart hTrace
  have hTokens : ∀ token ∈ request.tokens, token ∈ requests.flatMap SessionRequest.tokens :=
    fun token hToken => List.mem_flatMap.mpr ⟨request, hRequest, hToken⟩
  obtain ⟨hKeyed, hRows⟩ := @step_sessions settings platform request s hPast.keyed _ rfl
  refine ⟨hKeyed, fun row hRow => ?_⟩
  rcases hRows row hRow with ⟨old, hOld, hChange⟩ | ⟨attempt, credentials, rotated, after, hLogin, hIssued, hCreated⟩
  · obtain ⟨earlier, login, later, credentials, rfl, hToken, hOldHistory⟩ := hPast.rows old hOld
    refine ⟨earlier, login, later ++ [answer (SessionRequest.perform settings platform) request s], credentials,
      by simp, hToken, hOldHistory.next hChange fun token now hUsed hHash => ?_⟩
    -- the presented token has the hash of the row, so it is the token of the login
    obtain ⟨⟨ipAddress, userAgent, hAuthenticate⟩, -⟩ := used_eq_some hUsed
    have hPresented : token ∈ request.tokens := by
      have hEq : request = .authenticate (some token) ipAddress userAgent now := hAuthenticate
      simp [hEq, SessionRequest.tokens]
    exact h.injective _ (hTokens token hPresented) _ hToken _ hHash hOldHistory.tokenHash
  · refine ⟨past, _, [], credentials, rfl, hTokens _ ?_, .created hLogin hIssued hCreated⟩
    have hEq : request = .login attempt := hLogin
    simp [hEq, SessionRequest.tokens, hCreated.token]

/-- The steps of a run are in the order of the clock. -/
theorem sorted (h : SessionRun settings platform accounts requests) :
    (trace (SessionRequest.perform settings platform) accounts requests).Pairwise fun first second =>
      first.request.now ≤ second.request.now := by
  have hMap := map_request_trace (SessionRequest.perform settings platform) accounts requests
  have hClock := h.clock
  rw [← hMap] at hClock
  simpa only [List.pairwise_map] using hClock

theorem lastActivity_le (h : SessionRun settings platform accounts requests) {token : PyStr}
    {earlier later rest : List SessionStep} {login : SessionStep} {t : Instant}
    (hTrace : trace (SessionRequest.perform settings platform) accounts requests = earlier ++ login :: later ++ rest)
    (ht : t ∈ login.request.now :: later.filterMap (used token)) : t ≤ lastUse token login.request.now later := by
  have hSorted := h.sorted
  rw [hTrace, List.append_assoc, List.pairwise_append] at hSorted
  obtain ⟨-, hSorted, -⟩ := hSorted
  have hLater : (login :: later).Pairwise fun first second => first.request.now ≤ second.request.now :=
    hSorted.sublist (by simp)
  obtain ⟨hFirst, hRest⟩ := List.pairwise_cons.mp hLater
  have hTime {step : SessionStep} {now : Instant} (hUsed : used token step = some now) : step.request.now = now := by
    obtain ⟨⟨ipAddress, userAgent, hRequest⟩, -⟩ := used_eq_some hUsed
    rw [hRequest]
    rfl
  refine le_getLastD (List.pairwise_cons.mpr ⟨fun now hNow => ?_, ?_⟩) ht
  · obtain ⟨step, hStep, hUsed⟩ := List.mem_filterMap.mp hNow
    rw [← hTime hUsed]
    exact hFirst step hStep
  · refine hRest.filterMap _ fun first second hLe a ha b hb => ?_
    rw [← hTime ha, ← hTime hb]
    exact hLe

/-- Two logins of a run that issued the same token are one and the same step. -/
theorem login_eq (h : SessionRun settings platform accounts requests) {first second : SessionStep}
    {old new : SessionCredentials}
    (hFirst : first ∈ trace (SessionRequest.perform settings platform) accounts requests)
    (hSecond : second ∈ trace (SessionRequest.perform settings platform) accounts requests)
    (hOld : issued first = some old) (hNew : issued second = some new) (hToken : old.token = new.token) :
    first = second := by
  by_contra hNe
  exact h.fresh.forall hFirst hSecond hNe old hOld new hNew hToken

theorem soundUse (h : SessionRun settings platform accounts requests) {past future : List SessionStep}
    {accepted : SessionStep} {token : PyStr} {ipAddress userAgent : Option PyStr} {now : Instant}
    {session : AuthenticatedSession}
    (hTrace : trace (SessionRequest.perform settings platform) accounts requests = past ++ accepted :: future)
    (hRequest : accepted.request = .authenticate (some token) ipAddress userAgent now)
    (hOutcome : accepted.outcome = .ok (.session (some session))) :
    ∃ earlier login later, past = earlier ++ login :: later ∧
      SoundUse settings token session now accepted.before login later ∧
      ∀ other ∈ earlier ++ later, ∀ credentials ∈ issued other, credentials.token ≠ token := by
  obtain ⟨hBefore, -⟩ := h.history hTrace
  have hMem : accepted ∈ trace (SessionRequest.perform settings platform) accounts requests := by simp [hTrace]
  have hStep := eq_answer_of_mem_trace _ hMem
  rw [hRequest] at hStep
  have hInput : token ∈ requests.flatMap SessionRequest.tokens := by
    refine List.mem_flatMap.mpr ⟨accepted.request, ?_, by simp [hRequest, SessionRequest.tokens]⟩
    rw [← map_request_trace (SessionRequest.perform settings platform) accounts requests]
    exact List.mem_map_of_mem hMem
  -- the row the token was accepted for
  obtain ⟨record, hAccepted⟩ : ∃ record, Accepted settings token now accepted.before session accepted.after record := by
    rcases hRun : authenticate settings (some token) ipAddress userAgent now accepted.before with ⟨outcome, after⟩
    have hPerform : SessionRequest.perform settings platform (.authenticate (some token) ipAddress userAgent now)
        accepted.before = (outcome.map .session, after) := by
      simp [SessionRequest.perform, hRun]
    rw [answer_of_run hPerform] at hStep
    have hResult : outcome.map SessionAnswer.session = .ok (.session (some session)) := by
      rw [← hOutcome, hStep]
    have hAfter : accepted.after = after := by rw [hStep]
    obtain rfl : outcome = .ok (some session) := by
      cases outcome with
      | error e => cases hResult
      | ok result => cases hResult; rfl
    rcases authenticate_eq_ok hBefore.keyed hRun with ⟨hNone, -⟩ | ⟨other, found, record, hToken, hSession, hRow⟩
    · cases hNone
    · cases hToken
      cases hSession
      exact ⟨record, hAfter ▸ hRow⟩
  obtain ⟨earlier, login, later, credentials, rfl, hKnown, hHistory⟩ := hBefore.rows record hAccepted.mem
  obtain rfl : credentials.token = token :=
    h.injective _ hKnown _ hInput _ hHistory.tokenHash hAccepted.tokenHash
  have hUserId : record.userId = session.user.id := by
    have hFind := List.find?_some hAccepted.user
    exact (by simpa using hFind : session.user.id = record.userId).symm
  have hSessionId : session.sessionId = record.id := by
    obtain ⟨touched, hTouch, -, hId⟩ := hAccepted.touched
    rcases touch_eq_ok hTouch with rfl | ⟨idleExpiresAt, -, rfl⟩
    · exact hId
    · exact hId
  have hLast := h.lastActivity_le hTrace hHistory.activity
  have hIdle := hAccepted.idle
  have hAbsolute := hAccepted.absolute
  refine ⟨earlier, login, later, rfl, ?_, fun other hOther found hFound hToken => ?_⟩
  · exact {
      created := ⟨credentials, hHistory.issued, rfl, hHistory.userId.symm.trans hUserId⟩
      absolute := by
        rw [← hHistory.absolute]
        exact hAbsolute
      idle := by
        have hRow := hHistory.idle
        rw [Instant.lt_def] at hIdle
        rw [Instant.le_def] at hLast
        omega
      user := hUserId ▸ hAccepted.user
      active := hAccepted.active
      notEnded := by
        rw [← hUserId, hSessionId]
        exact hHistory.live hAccepted.live hAccepted.token_ne }
  · have hFresh := h.fresh
    rw [hTrace, List.append_assoc, List.pairwise_append] at hFresh
    obtain ⟨-, hRest, hAcross⟩ := hFresh
    rcases List.mem_append.mp hOther with hEarlier | hLater
    · exact hAcross other hEarlier login (by simp) found hFound credentials hHistory.issued hToken
    · rw [List.cons_append, List.pairwise_cons] at hRest
      exact hRest.1 other (by simp [hLater]) credentials hHistory.issued found hFound hToken.symm

end SessionRun

/-- In every run an accepted token was created by exactly one login for its
user, is within both timeouts, belongs to an active user and was not ended
since; deadlines are ordered, and the absolute one of a session never changes. -/
theorem sessions_sound (h : SessionRun settings platform accounts requests) :
    (∀ past accepted future token ipAddress userAgent now session,
      trace (SessionRequest.perform settings platform) accounts requests = past ++ accepted :: future →
      accepted.request = .authenticate (some token) ipAddress userAgent now →
      accepted.outcome = .ok (.session (some session)) →
      ∃ earlier login later, past = earlier ++ login :: later ∧
        SoundUse settings token session now accepted.before login later ∧
        ∀ other ∈ earlier ++ later, ∀ credentials ∈ issued other, credentials.token ≠ token) ∧
      (∀ step ∈ trace (SessionRequest.perform settings platform) accounts requests,
        ∀ row ∈ step.after.sessions, row.expiresAt ≤ row.absoluteExpiresAt) ∧
      ∀ first ∈ trace (SessionRequest.perform settings platform) accounts requests,
        ∀ second ∈ trace (SessionRequest.perform settings platform) accounts requests,
        ∀ row ∈ first.after.sessions, ∀ later ∈ second.after.sessions,
          row.sessionTokenHash = later.sessionTokenHash → row.absoluteExpiresAt = later.absoluteExpiresAt := by
  have hRows {step : SessionStep} (hStep : step ∈ trace (SessionRequest.perform settings platform) accounts requests)
      {row : UserSession} (hRow : row ∈ step.after.sessions) : ∃ login credentials,
        login ∈ trace (SessionRequest.perform settings platform) accounts requests ∧
        credentials.token ∈ requests.flatMap SessionRequest.tokens ∧
        ∃ later, RowHistory settings credentials login later row := by
    obtain ⟨past, future, hTrace⟩ := List.append_of_mem hStep
    obtain ⟨earlier, login, later, credentials, hPast, hToken, hHistory⟩ := (h.history hTrace).2.rows row hRow
    refine ⟨login, credentials, ?_, hToken, later, hHistory⟩
    have hPrefix : login ∈ past ++ [step] := by simp [hPast]
    rw [hTrace, ← List.singleton_append, ← List.append_assoc]
    exact List.mem_append_left _ hPrefix
  refine ⟨fun _ _ _ _ _ _ _ _ => h.soundUse, fun step hStep row hRow => ?_,
    fun first hFirst second hSecond row hRow later hLater hHash => ?_⟩
  · obtain ⟨_, _, -, -, _, hHistory⟩ := hRows hStep hRow
    exact hHistory.expiresAt_le
  · obtain ⟨login, old, hLogin, hOld, _, hHistory⟩ := hRows hFirst hRow
    obtain ⟨other, new, hOther, hNew, _, hLaterHistory⟩ := hRows hSecond hLater
    have hToken := h.injective _ hOld _ hNew _ hHistory.tokenHash (hHash ▸ hLaterHistory.tokenHash)
    obtain rfl := h.login_eq hLogin hOther hHistory.issued hLaterHistory.issued hToken
    rw [Instant.ext_iff, hHistory.absolute, hLaterHistory.absolute]

end Run

/-- Whether a request was answered with a session. -/
def isAccepted : Except PyException SessionAnswer → Bool
  | .ok (.session session) => session.isSome
  | _ => false

/-- A login, and the use of its token a minute later. -/
def sampleRequests : List SessionRequest :=
  [.login (sampleAttempt (py "correct horse battery staple") sampleNow),
    .authenticate (some (py "dG9rZW4tMDAwMQ")) none none ⟨63920404860000000, by decide⟩]

theorem sessions_sound_sample : ∃ past accepted session,
    trace (SessionRequest.perform sampleSettings samplePlatform) sampleAccounts sampleRequests = past ++ [accepted] ∧
      accepted.outcome = .ok (.session (some session)) ∧
      ∃ earlier login later, past = earlier ++ login :: later ∧
        SoundUse sampleSettings (py "dG9rZW4tMDAwMQ") session ⟨63920404860000000, by decide⟩ accepted.before login
          later := by
  have hRun : SessionRun sampleSettings samplePlatform sampleAccounts sampleRequests := {
    empty := rfl
    clock := by decide
    fresh := by simp [sampleRequests, IssuedApart, issued, answer]
    injective := by simp [sampleRequests, SessionRequest.tokens, sampleAttempt] }
  have hAccepted : isAccepted (answer (SessionRequest.perform sampleSettings samplePlatform)
      (.authenticate (some (py "dG9rZW4tMDAwMQ")) none none ⟨63920404860000000, by decide⟩)
      (SessionRequest.perform sampleSettings samplePlatform
        (.login (sampleAttempt (py "correct horse battery staple") sampleNow)) sampleAccounts).2).outcome = true := by
    decide +kernel
  unfold isAccepted at hAccepted
  split at hAccepted
  · rename_i session hOutcome
    obtain ⟨session, rfl⟩ := Option.isSome_iff_exists.mp hAccepted
    have hTrace : trace (SessionRequest.perform sampleSettings samplePlatform) sampleAccounts sampleRequests =
        [answer (SessionRequest.perform sampleSettings samplePlatform)
          (.login (sampleAttempt (py "correct horse battery staple") sampleNow)) sampleAccounts] ++
        [answer (SessionRequest.perform sampleSettings samplePlatform)
          (.authenticate (some (py "dG9rZW4tMDAwMQ")) none none ⟨63920404860000000, by decide⟩)
          (SessionRequest.perform sampleSettings samplePlatform
            (.login (sampleAttempt (py "correct horse battery staple") sampleNow)) sampleAccounts).2] := by
      simp only [sampleRequests, trace_cons, trace_nil, List.singleton_append]
    obtain ⟨earlier, login, later, hPast, hSound, -⟩ :=
      (sessions_sound hRun).1 _ _ [] (py "dG9rZW4tMDAwMQ") none none _ session hTrace rfl hOutcome
    exact ⟨_, _, session, hTrace, hOutcome, earlier, login, later, hPast, hSound⟩
  · cases hAccepted

end SoftwareHub.Auth
