import SoftwareHub.Auth.LoginOutcome
import SoftwareHub.Auth.SessionSoundness

/-! A session in use does not expire before its absolute deadline. Its stored
deadline lags behind the last use by less than the touch interval. -/
namespace SoftwareHub.Auth

open SoftwareHub.Python SoftwareHub.Semantics Program

section Service

variable {settings : AuthSettings} {platform : Platform}

/-- What a call makes of a row that it leaves in the table: the row itself, a
revoked one, or one with its activity written. -/
inductive Survives (settings : AuthSettings) (now : Instant) (row : UserSession) : UserSession → Prop
  | kept : Survives settings now row row
  | revoked : Survives settings now row { row with revokedAt := some now }
  | touched {idleExpiresAt : Instant} (hIdle : now.add settings.sessionIdleTimeoutSeconds = .ok idleExpiresAt) :
      Survives settings now row { row with
        lastActivityAt := now
        expiresAt := idleExpiresAt.min row.absoluteExpiresAt }

variable {now : Instant} {s : Accounts} {row : UserSession}

/-- Saving one row leaves the others as they are, and a version of the row itself. -/
theorem survives_saveSession (hKeyed : s.Keyed) (hRow : row ∈ s.sessions) {record changed : UserSession}
    (hRecord : record ∈ s.sessions) (hId : changed.id = record.id) (hChanged : Survives settings now record changed) :
    ∃ fate ∈ (s.saveSession changed).sessions, Survives settings now row fate := by
  by_cases hSame : row.id = changed.id
  · obtain rfl : row = record := List.inj_on_of_nodup_map hKeyed.ids hRow hRecord (hSame.trans hId)
    exact ⟨changed, mem_updateRows.mpr ⟨row, hRow, (if_pos hSame).symm⟩, hChanged⟩
  · exact ⟨row, mem_updateRows.mpr ⟨row, hRow, (if_neg hSame).symm⟩, .kept⟩

theorem survives_tokenRevoked {rawToken : Option PyStr} {after : Accounts} (hKeyed : s.Keyed) (hRow : row ∈ s.sessions)
    (h : TokenRevoked rawToken now s after) : ∃ fate ∈ after.sessions, Survives settings now row fate := by
  cases h with
  | absent => exact ⟨row, hRow, .kept⟩
  | live hRecord => exact survives_saveSession hKeyed hRow hRecord rfl .revoked

theorem survives_revokeAllForUser (userId : Nat) (exceptSessionId : Option Nat) (hRow : row ∈ s.sessions) :
    ∃ fate ∈ (s.revokeAllForUser userId now exceptSessionId).sessions, Survives settings now row fate := by
  by_cases hCovered : row.userId = userId ∧ row.revokedAt = none ∧ ∀ id ∈ exceptSessionId, row.id ≠ id
  · exact ⟨_, mem_updateRows.mpr ⟨row, hRow, (if_pos hCovered).symm⟩, .revoked⟩
  · exact ⟨row, mem_updateRows.mpr ⟨row, hRow, (if_neg hCovered).symm⟩, .kept⟩

theorem survives_login (attempt : LoginAttempt) (hKeyed : s.Keyed) (hRow : row ∈ s.sessions) :
    ∃ fate ∈ (login settings platform attempt s).2.sessions, Survives settings attempt.now row fate := by
  by_cases hSuccess : ∃ credentials, (login settings platform attempt s).1 = .ok (some credentials)
  · obtain ⟨credentials, hOk⟩ := hSuccess
    have hRun : login settings platform attempt s = (.ok (some credentials), (login settings platform attempt s).2) := by
      rw [← hOk]
    obtain ⟨saved, rotated, record, hSaved, hRotated, hCreated⟩ := login_eq_ok_some hKeyed hRun
    have hSavedKeyed : saved.Keyed := ⟨hSaved ▸ hKeyed.ids, hSaved ▸ hKeyed.hashes⟩
    obtain ⟨fate, hFate, hSurvives⟩ := survives_tokenRevoked hSavedKeyed (hSaved ▸ hRow) hRotated
    refine ⟨fate, ?_, hSurvives⟩
    rw [hCreated.after_eq]
    exact List.mem_append_left _ hFate
  · rw [sessions_login fun credentials hOk => hSuccess ⟨credentials, hOk⟩]
    exact ⟨row, hRow, .kept⟩

theorem survives_authenticate (rawToken ipAddress userAgent : Option PyStr) (hKeyed : s.Keyed) (hRow : row ∈ s.sessions) :
    ∃ fate ∈ (authenticate settings rawToken ipAddress userAgent now s).2.sessions, Survives settings now row fate := by
  rcases hRun : authenticate settings rawToken ipAddress userAgent now s with ⟨outcome, after⟩
  cases outcome with
  | error e =>
      obtain rfl := authenticate_eq_error hRun
      exact ⟨row, hRow, .kept⟩
  | ok result =>
      rcases authenticate_eq_ok hKeyed hRun with ⟨-, rfl⟩ | ⟨token, session, record, -, -, hAccepted⟩
      · exact ⟨row, hRow, .kept⟩
      · obtain ⟨touched, hTouch, rfl, -⟩ := hAccepted.touched
        rcases touch_eq_ok hTouch with rfl | ⟨idleExpiresAt, hIdle, rfl⟩
        · exact survives_saveSession hKeyed hRow hAccepted.mem rfl .kept
        · exact survives_saveSession hKeyed hRow hAccepted.mem rfl (.touched hIdle)

/-- Only the cleaning up of expired sessions deletes a row. -/
theorem survives_perform (request : SessionRequest) (hKeyed : s.Keyed) (hRow : row ∈ s.sessions)
    (hIdle : request.now < row.expiresAt) (hAbsolute : request.now < row.absoluteExpiresAt) :
    ∃ fate ∈ (SessionRequest.perform settings platform request s).2.sessions, Survives settings request.now row fate := by
  cases request with
  | login attempt =>
      rw [SessionRequest.perform, map_apply]
      exact survives_login attempt hKeyed hRow
  | authenticate rawToken ipAddress userAgent now =>
      rw [SessionRequest.perform, map_apply]
      exact survives_authenticate rawToken ipAddress userAgent hKeyed hRow
  | revoke rawToken ipAddress now =>
      rw [SessionRequest.perform, map_apply]
      rcases hRun : revoke settings rawToken ipAddress now s with ⟨outcome, after⟩
      cases outcome with
      | error e =>
          obtain rfl := revoke_eq_error hRun
          exact ⟨row, hRow, .kept⟩
      | ok found => exact survives_tokenRevoked hKeyed hRow (revoke_eq_ok hKeyed hRun)
  | revokeAllForUser userId exceptSessionId now =>
      rw [SessionRequest.perform, map_apply]
      exact survives_revokeAllForUser userId exceptSessionId hRow
  | changePassword username newPassword salt now =>
      rw [SessionRequest.perform, map_apply]
      rcases @changePassword_run settings platform username newPassword salt now s with ⟨e, hRun⟩ | ⟨user, hRun, -⟩
      · rw [hRun]
        exact ⟨row, hRow, .kept⟩
      · rw [hRun]
        exact @survives_revokeAllForUser settings now (s.saveUser user) row user.id none hRow
  | cleanupExpired now =>
      rw [SessionRequest.perform, map_apply]
      refine ⟨row, mem_deleteRows.mpr ⟨hRow, ?_⟩, .kept⟩
      intro hExpired
      rcases hExpired with h | h
      · exact absurd hIdle (Nat.not_lt.mpr h)
      · exact absurd hAbsolute (Nat.not_lt.mpr h)
  | setActive userId isActive now => exact ⟨row, hRow, .kept⟩

/-- What a call makes of the user table: nothing, or one changed row under its own
id. -/
inductive UsersChanged (users : List User) : List User → Prop
  | kept : UsersChanged users users
  | saved {row changed : User} (hRow : row ∈ users) (hId : changed.id = row.id) (hUsername : changed.username = row.username) :
      UsersChanged users (updateRows (fun other => other.id = changed.id) (fun _ => changed) users)
  | switched (userId : Nat) (isActive : Bool) :
      UsersChanged users (updateRows (fun row => row.id = userId) (fun row => { row with isActive := isActive }) users)

theorem UsersChanged.ids {users after : List User} (h : UsersChanged users after) :
    after.map User.id = users.map User.id := by
  cases h with
  | kept => rfl
  | saved => exact map_updateRows fun _ _ h => h.symm
  | switched => exact map_updateRows fun _ _ _ => rfl

theorem usersChanged_login (attempt : LoginAttempt) : UsersChanged s.users (login settings platform attempt s).2.users := by
  have hEffect := login_effect settings platform attempt s
  generalize (login settings platform attempt s).1 = outcome at hEffect
  generalize (login settings platform attempt s).2 = after at hEffect ⊢
  cases hEffect with
  | unconfigured | unknown | locked | unlockable | incomplete => exact .kept
  | wrong hAccount hUnlocked hVerify hFailed =>
      obtain ⟨hId, hUsername, -⟩ := recordFailure_eq_ok hFailed
      obtain ⟨hLiftId, hLiftUsername, -⟩ := User.liftExpiredLock_fields _
      exact .saved (List.mem_of_find?_eq_some hAccount) (hId.trans hLiftId) (hUsername.trans hLiftUsername)
  | inactive hAccount =>
      obtain ⟨hLiftId, hLiftUsername, -⟩ := User.liftExpiredLock_fields _
      exact .saved (List.mem_of_find?_eq_some hAccount) hLiftId hLiftUsername
  | success hAccount hUnlocked hVerify hActive hComplete =>
      obtain ⟨hLiftId, hLiftUsername, -⟩ := User.liftExpiredLock_fields _
      obtain ⟨passwordHash, hUsers⟩ := completeLogin_users hComplete
      rw [hUsers]
      exact .saved (List.mem_of_find?_eq_some hAccount) hLiftId hLiftUsername

theorem usersChanged_perform (request : SessionRequest) (hKeyed : s.Keyed) :
    UsersChanged s.users (SessionRequest.perform settings platform request s).2.users := by
  cases request with
  | login attempt =>
      rw [SessionRequest.perform, map_apply]
      exact usersChanged_login attempt
  | authenticate rawToken ipAddress userAgent now =>
      rw [SessionRequest.perform, map_apply]
      rcases hRun : authenticate settings rawToken ipAddress userAgent now s with ⟨outcome, after⟩
      cases outcome with
      | error e =>
          obtain rfl := authenticate_eq_error hRun
          exact .kept
      | ok result =>
          rcases authenticate_eq_ok hKeyed hRun with ⟨-, rfl⟩ | ⟨token, session, record, -, -, hAccepted⟩
          · exact .kept
          · obtain ⟨touched, -, rfl, -⟩ := hAccepted.touched
            exact .kept
  | revoke rawToken ipAddress now =>
      rw [SessionRequest.perform, map_apply]
      rcases hRun : revoke settings rawToken ipAddress now s with ⟨outcome, after⟩
      cases outcome with
      | error e =>
          obtain rfl := revoke_eq_error hRun
          exact .kept
      | ok found => cases revoke_eq_ok hKeyed hRun <;> exact .kept
  | revokeAllForUser userId exceptSessionId now => exact .kept
  | changePassword username newPassword salt now =>
      rw [SessionRequest.perform, map_apply]
      rcases @changePassword_run settings platform username newPassword salt now s with
        ⟨e, hRun⟩ | ⟨user, hRun, row, hRow, hId, hUsername⟩
      · rw [hRun]
        exact .kept
      · rw [hRun]
        exact .saved hRow hId hUsername
  | cleanupExpired now => exact .kept
  | setActive userId isActive now => exact .switched userId isActive

/-- No call removes a user, or gives one another id. -/
theorem userIds_perform (request : SessionRequest) (hKeyed : s.Keyed) :
    (SessionRequest.perform settings platform request s).2.users.map User.id = s.users.map User.id :=
  (usersChanged_perform request hKeyed).ids

/-- One use follows the other closely enough: the touch interval earlier than the
idle timeout, and before it. -/
def Close (settings : AuthSettings) (first second : Instant) : Prop :=
  second.micros + settings.sessionTouchIntervalSeconds * microsPerSecond ≤
      first.micros + settings.sessionIdleTimeoutSeconds * microsPerSecond ∧
    second.micros < first.micros + settings.sessionIdleTimeoutSeconds * microsPerSecond

instance (settings : AuthSettings) (first second : Instant) : Decidable (Close settings first second) :=
  inferInstanceAs (Decidable (_ ∧ _))

/-- The live row of a token that was last used at `last`. The recorded activity
may be older than that, but by less than the touch interval. -/
structure Lasting (settings : AuthSettings) (token : PyStr) (userId stop : Nat) (last : Instant) (s : Accounts)
    (row : UserSession) : Prop where
  mem : row ∈ s.sessions
  tokenHash : hashSessionToken token = .ok row.sessionTokenHash
  userId : row.userId = userId
  live : row.revokedAt = none
  absolute : row.absoluteExpiresAt.micros = stop
  deadline : min (row.lastActivityAt.micros + settings.sessionIdleTimeoutSeconds * microsPerSecond) stop ≤
    row.expiresAt.micros
  lag : last.micros ≤ row.lastActivityAt.micros ∨
    last.micros < row.lastActivityAt.micros + settings.sessionTouchIntervalSeconds * microsPerSecond

variable {token : PyStr} {userId stop : Nat} {last : Instant}

/-- The next use comes before the stored deadline, although that one may lag
behind. -/
theorem Lasting.lt_expiresAt (h : Lasting settings token userId stop last s row) {next : Instant}
    (hClose : Close settings last next) (hStop : next.micros < stop) : next < row.expiresAt := by
  have hActivity : next.micros < row.lastActivityAt.micros + settings.sessionIdleTimeoutSeconds * microsPerSecond := by
    rcases h.lag with hLag | hLag
    · exact hClose.2.trans_le (Nat.add_le_add_right hLag _)
    · have hFirst := hClose.1
      omega
  rw [Instant.lt_def]
  exact (lt_min hActivity hStop).trans_le h.deadline

/-- A call that is no use of the token leaves the row lasting. -/
theorem Lasting.survives (h : Lasting settings token userId stop last s row) {t : Instant} {after : Accounts}
    {fate : UserSession} (hLast : last ≤ t) (hMem : fate ∈ after.sessions) (hFate : Survives settings t row fate)
    (hLive : fate.revokedAt = none) : Lasting settings token userId stop last after fate := by
  cases hFate with
  | kept => exact { h with mem := hMem }
  | revoked => cases hLive
  | @touched idleExpiresAt hIdle =>
      rw [Instant.add_eq_ok_iff] at hIdle
      exact {
        mem := hMem
        tokenHash := h.tokenHash
        userId := h.userId
        live := h.live
        absolute := h.absolute
        deadline := by rw [Instant.micros_min, hIdle, h.absolute]
        lag := Or.inl hLast }

/-- The secrets of settings under which a login succeeded. -/
theorem exists_secrets_of_login {attempt : LoginAttempt} {credentials : SessionCredentials} {after : Accounts}
    (h : login settings platform attempt s = (.ok (some credentials), after)) :
    ∃ appSecret csrfSecret, settings.appSecretKey = some appSecret ∧ settings.csrfSecret = some csrfSecret := by
  obtain ⟨hashes, hHashes, -⟩ := lift_bind_eq_ok h
  obtain ⟨secrets, hSecrets, -⟩ := except_bind_eq_ok hHashes
  unfold requireSecrets at hSecrets
  split at hSecrets
  · rename_i appSecret csrfSecret hApp hCsrf
    exact ⟨appSecret, csrfSecret, hApp, hCsrf⟩
  · cases hSecrets

theorem exists_clientHashes_of_texts {appSecret csrfSecret : PyStr} (hApp : settings.appSecretKey = some appSecret)
    (hCsrf : settings.csrfSecret = some csrfSecret) {ipAddress userAgent : Option PyStr}
    (hTexts : ∀ text, ipAddress = some text ∨ userAgent = some text → text.all isScalar = true) :
    ∃ hashes, clientHashes settings ipAddress userAgent = .ok hashes := by
  have hScalar := settings.secrets_scalar appSecret (.inl hApp)
  obtain ⟨ipHash, hIp⟩ := exists_hmacIdentifier hScalar (by decide : (py "client-ip").all isScalar)
    fun text h => hTexts text (.inl h)
  obtain ⟨agentHash, hAgent⟩ := exists_hmacIdentifier hScalar (by decide : (py "user-agent").all isScalar)
    fun text h => hTexts text (.inr h)
  have hRequire : requireSecrets settings = .ok (appSecret, csrfSecret) := by rw [requireSecrets, hApp, hCsrf]
  exact ⟨(ipHash, agentHash), (except_bind_ok hRequire _).trans <| (except_bind_ok hIp _).trans <|
    except_bind_ok hAgent _⟩

/-- Activity is written when the touch interval has passed, and only then. -/
theorem exists_touch (record : UserSession) {t : Instant} (hCalendar : InCalendar t settings.sessionIdleTimeoutSeconds) :
    ∃ touched, touch settings record t = .ok touched ∧ Survives settings t record touched ∧
      touched.revokedAt = record.revokedAt ∧ touched.id = record.id ∧
      (t.micros ≤ touched.lastActivityAt.micros ∨
        t.micros < touched.lastActivityAt.micros + settings.sessionTouchIntervalSeconds * microsPerSecond) := by
  unfold touch
  by_cases hElapsed : t.elapsed record.lastActivityAt settings.sessionTouchIntervalSeconds
  · obtain ⟨idleExpiresAt, hIdle⟩ := Instant.exists_add_iff.mpr hCalendar
    rw [if_pos hElapsed]
    exact ⟨_, except_bind_ok hIdle _, .touched hIdle, rfl, rfl, Or.inl le_rfl⟩
  · rw [if_neg hElapsed]
    exact ⟨record, rfl, .kept, rfl, rfl, Or.inr (Nat.lt_of_not_le hElapsed)⟩

/-- A live row within its deadlines is accepted, and its activity is written when
that is due. -/
theorem exists_authenticate {appSecret csrfSecret : PyStr} (hApp : settings.appSecretKey = some appSecret)
    (hCsrf : settings.csrfSecret = some csrfSecret) (hKeyed : s.Keyed)
    (h : Lasting settings token userId stop last s row) (hToken : token ≠ []) {user : User}
    (hUser : s.user? userId = some user) (hActive : user.isActive = true) {ipAddress userAgent : Option PyStr}
    (hTexts : ∀ text, ipAddress = some text ∨ userAgent = some text → text.all isScalar = true) {t : Instant}
    (hIdle : t < row.expiresAt) (hStop : t.micros < stop)
    (hCalendar : InCalendar t settings.sessionIdleTimeoutSeconds) :
    ∃ session after touched, authenticate settings (some token) ipAddress userAgent t s = (.ok (some session), after) ∧
      Lasting settings token userId stop t after touched := by
  obtain ⟨⟨ipHash, userAgentHash⟩, hHashes⟩ := exists_clientHashes_of_texts hApp hCsrf hTexts
  obtain ⟨touched, hTouch, hSurvives, hLive, hId, hLag⟩ := @exists_touch settings row t hCalendar
  have hFind := hKeyed.getByTokenHash_eq_some_iff.mpr ⟨h.mem, rfl⟩
  have hAlive : ¬(row.revokedAt ≠ none ∨ row.expiresAt ≤ t ∨ row.absoluteExpiresAt ≤ t) := by
    intro hDead
    rcases hDead with hDead | hDead | hDead
    · exact hDead h.live
    · exact absurd hIdle (Nat.not_lt.mpr hDead)
    · have hDead : row.absoluteExpiresAt.micros ≤ t.micros := hDead
      rw [h.absolute] at hDead
      omega
  have hUser : s.user? row.userId = some user := by rw [h.userId, hUser]
  obtain ⟨session, hRecord⟩ : ∃ session, authenticateRecord settings row.sessionTokenHash ipAddress userAgent t s =
      (.ok (some session), s.saveSession touched) := by
    unfold authenticateRecord
    rw [read_bind, hFind]
    refine ⟨{
      sessionId := touched.id
      user := user
      expiresAt := touched.expiresAt
      absoluteExpiresAt := touched.absoluteExpiresAt
      ipChanged := changed touched.ipHash ipHash
      userAgentChanged := changed touched.userAgentHash userAgentHash
      csrfSecretHash := touched.csrfSecretHash }, (congrFun (if_neg hAlive) s).trans ?_⟩
    rw [read_bind, hUser]
    refine (congrFun (if_neg (not_not_intro hActive)) s).trans ?_
    rw [hTouch, lift_ok_bind, write_bind, hHashes, lift_ok_bind]
    rfl
  refine ⟨session, s.saveSession touched, touched, ?_, ?_⟩
  · unfold authenticate
    refine (congrFun (if_neg hToken) s).trans ?_
    rw [h.tokenHash, lift_ok_bind]
    exact atomically_ok hRecord
  · have hMem : touched ∈ (s.saveSession touched).sessions :=
      mem_updateRows.mpr ⟨row, h.mem, (if_pos hId.symm).symm⟩
    cases hSurvives with
    | kept => exact { h with mem := hMem, lag := hLag }
    | revoked => cases hLive.trans h.live
    | @touched idleExpiresAt hSum =>
        rw [Instant.add_eq_ok_iff] at hSum
        exact {
          mem := hMem
          tokenHash := h.tokenHash
          userId := h.userId
          live := h.live
          absolute := h.absolute
          deadline := by rw [Instant.micros_min, hSum, h.absolute]
          lag := Or.inl le_rfl }

/-- When the call presents the token, if it does. -/
def calledAt (token : PyStr) : SessionRequest → Option Instant
  | .authenticate (some presented) _ _ now => if presented = token then some now else none
  | _ => none

theorem calledAt_eq_some {request : SessionRequest} {t : Instant} (h : calledAt token request = some t) :
    ∃ ipAddress userAgent, request = .authenticate (some token) ipAddress userAgent t := by
  unfold calledAt at h
  split at h
  · split_ifs at h with hToken
    cases h
    exact ⟨_, _, by rw [hToken]⟩
  · cases h

/-- The step leaves the session unrevoked and its user active. Request texts are
decoded ones, without lone surrogates. -/
structure Undisturbed (token : PyStr) (userId : Nat) (step : SessionStep) : Prop where
  live : ∀ row ∈ step.after.sessions, hashSessionToken token = .ok row.sessionTokenHash → row.revokedAt = none
  active : ∀ user ∈ step.after.users, user.id = userId → user.isActive = true
  decoded : ∀ ipAddress userAgent now, step.request = .authenticate (some token) ipAddress userAgent now →
    ∀ text, ipAddress = some text ∨ userAgent = some text → text.all isScalar = true

/-- A state in which the token is good until its next use. -/
structure InUse (settings : AuthSettings) (token : PyStr) (userId stop : Nat) (last : Instant) (s : Accounts) : Prop where
  keyed : s.Keyed
  row : ∃ row, Lasting settings token userId stop last s row
  user : userId ∈ s.users.map User.id
  active : ∀ user ∈ s.users, user.id = userId → user.isActive = true

theorem InUse.exists_user (h : InUse settings token userId stop last s) :
    ∃ user, s.user? userId = some user ∧ user.isActive = true := by
  obtain ⟨found, hFound, hId⟩ := List.mem_map.mp h.user
  have hSome : (s.user? userId).isSome = true := List.find?_isSome.mpr ⟨found, hFound, decide_eq_true hId⟩
  obtain ⟨user, hUser⟩ := Option.isSome_iff_exists.mp hSome
  have hUserId := List.find?_some hUser
  exact ⟨user, hUser, h.active user (List.mem_of_find?_eq_some hUser) (of_decide_eq_true hUserId)⟩

section Configured

variable {appSecret csrfSecret : PyStr} (hApp : settings.appSecretKey = some appSecret)
  (hCsrf : settings.csrfSecret = some csrfSecret) (hToken : token ≠ [])

include hApp hCsrf hToken in
/-- A use of the token that is close enough is accepted. -/
theorem InUse.accepts (h : InUse settings token userId stop last s) {t : Instant} (hClose : Close settings last t)
    (hStop : t.micros < stop) (hCalendar : InCalendar t settings.sessionIdleTimeoutSeconds)
    {ipAddress userAgent : Option PyStr}
    (hTexts : ∀ text, ipAddress = some text ∨ userAgent = some text → text.all isScalar = true) :
    ∃ session after touched, authenticate settings (some token) ipAddress userAgent t s = (.ok (some session), after) ∧
      Lasting settings token userId stop t after touched := by
  obtain ⟨row, hLasting⟩ := h.row
  obtain ⟨user, hUser, hActive⟩ := h.exists_user
  exact exists_authenticate hApp hCsrf h.keyed hLasting hToken hUser hActive hTexts
    (hLasting.lt_expiresAt hClose hStop) hStop hCalendar

include hApp hCsrf hToken in
/-- After such a use the token is good until the next one. -/
theorem InUse.call (h : InUse settings token userId stop last s) {request : SessionRequest} {t : Instant}
    (hCall : calledAt token request = some t) (hClose : Close settings last t) (hStop : t.micros < stop)
    (hCalendar : InCalendar t settings.sessionIdleTimeoutSeconds)
    (hStep : Undisturbed token userId (answer (SessionRequest.perform settings platform) request s)) :
    InUse settings token userId stop t (SessionRequest.perform settings platform request s).2 := by
  obtain ⟨ipAddress, userAgent, rfl⟩ := calledAt_eq_some hCall
  obtain ⟨session, after, touched, hRun, hLasting⟩ :=
    h.accepts hApp hCsrf hToken hClose hStop hCalendar (hStep.decoded ipAddress userAgent t rfl)
  have hAfter : (SessionRequest.perform settings platform (.authenticate (some token) ipAddress userAgent t) s).2 =
      after := by rw [SessionRequest.perform, map_apply, hRun]
  exact {
    keyed := (@step_sessions settings platform _ s h.keyed _ rfl).1
    row := ⟨touched, hAfter ▸ hLasting⟩
    user := by rw [userIds_perform _ h.keyed]; exact h.user
    active := hStep.active }

/-- Another call, before the next use of the token, leaves it in use. -/
theorem InUse.other (h : InUse settings token userId stop last s) {request : SessionRequest} {next : Instant}
    (hLast : last ≤ request.now) (hNext : request.now ≤ next) (hClose : Close settings last next)
    (hStop : next.micros < stop)
    (hStep : Undisturbed token userId (answer (SessionRequest.perform settings platform) request s)) :
    InUse settings token userId stop last (SessionRequest.perform settings platform request s).2 := by
  obtain ⟨row, hLasting⟩ := h.row
  have hIdle : request.now < row.expiresAt :=
    Nat.lt_of_le_of_lt hNext (hLasting.lt_expiresAt hClose hStop)
  have hAbsolute : request.now < row.absoluteExpiresAt := by
    rw [Instant.lt_def, hLasting.absolute]
    exact Nat.lt_of_le_of_lt hNext hStop
  obtain ⟨fate, hFate, hSurvives⟩ :=
    @survives_perform settings platform s row request h.keyed hLasting.mem hIdle hAbsolute
  have hHash : fate.sessionTokenHash = row.sessionTokenHash := by cases hSurvives <;> rfl
  have hLive := hStep.live fate hFate (hHash ▸ hLasting.tokenHash)
  exact {
    keyed := (@step_sessions settings platform _ s h.keyed _ rfl).1
    row := ⟨fate, hLasting.survives hLast hFate hSurvives hLive⟩
    user := by rw [userIds_perform _ h.keyed]; exact h.user
    active := hStep.active }

include hApp hCsrf hToken in
/-- Over a run whose uses of the token are close to each other it stays in use. The
induction is on the requests. -/
theorem InUse.run (later : List SessionRequest) (h : InUse settings token userId stop last s) {t : Instant}
    (hClock : (last :: (later.map SessionRequest.now ++ [t])).Pairwise fun first second => first ≤ second)
    (hSteps : ∀ step ∈ trace (SessionRequest.perform settings platform) s later, Undisturbed token userId step)
    (hClose : List.IsChain (Close settings) (last :: (later.filterMap (calledAt token) ++ [t])))
    (hStop : t.micros < stop) (hCalendar : InCalendar t settings.sessionIdleTimeoutSeconds) :
    ∃ latest, InUse settings token userId stop latest (final (SessionRequest.perform settings platform) s later) ∧
      Close settings latest t := by
  induction later generalizing s last with
  | nil => exact ⟨last, h, (List.isChain_cons_cons.mp hClose).1⟩
  | cons request later ih =>
      have hStep := hSteps _ List.mem_cons_self
      have hRest : ∀ step ∈ trace (SessionRequest.perform settings platform)
          (SessionRequest.perform settings platform request s).2 later, Undisturbed token userId step :=
        fun step hStep => hSteps step (List.mem_cons_of_mem _ hStep)
      obtain ⟨hLast, hLater⟩ := List.pairwise_cons.mp hClock
      obtain ⟨hNow, hTail⟩ := List.pairwise_cons.mp hLater
      rcases hCall : calledAt token request with _ | used
      · rw [List.filterMap_cons_none hCall] at hClose
        obtain ⟨next, times, hTimes⟩ : ∃ next times, later.filterMap (calledAt token) ++ [t] = next :: times :=
          List.exists_cons_of_ne_nil (by simp)
        have hFirst := hClose
        rw [hTimes] at hFirst
        have hCloseNext := (List.isChain_cons_cons.mp hFirst).1
        have hNextMem : next ∈ later.map SessionRequest.now ++ [t] := by
          have hMem : next ∈ later.filterMap (calledAt token) ++ [t] := by
            rw [hTimes]
            exact List.mem_cons_self
          rcases List.mem_append.mp hMem with hUsed | hEnd
          · obtain ⟨other, hOther, hCalled⟩ := List.mem_filterMap.mp hUsed
            obtain ⟨ipAddress, userAgent, rfl⟩ := calledAt_eq_some hCalled
            exact List.mem_append_left _ (List.mem_map_of_mem hOther)
          · exact List.mem_append_right _ hEnd
        have hNextStop : next.micros < stop := by
          rcases List.mem_append.mp hNextMem with hMem | hEnd
          · have hOrder : next ≤ t := (List.pairwise_append.mp hTail).2.2 next hMem t (List.mem_singleton_self t)
            exact Nat.lt_of_le_of_lt hOrder hStop
          · rwa [List.mem_singleton.mp hEnd]
        have hOther := h.other (hLast _ List.mem_cons_self) (hNow next hNextMem) hCloseNext hNextStop hStep
        have hTailClock := List.pairwise_cons.mpr ⟨fun time hTime => hLast time (List.mem_cons_of_mem _ hTime), hTail⟩
        exact ih hOther hTailClock hRest hClose
      · obtain ⟨ipAddress, userAgent, rfl⟩ := calledAt_eq_some hCall
        rw [List.filterMap_cons_some hCall, List.cons_append] at hClose
        obtain ⟨hCloseCall, hCloseRest⟩ := List.isChain_cons_cons.mp hClose
        have hBefore : used ≤ t := hNow t (by simp)
        have hCallCalendar : InCalendar used settings.sessionIdleTimeoutSeconds :=
          Nat.lt_of_le_of_lt (Nat.add_le_add_right hBefore _) hCalendar
        have hNext := h.call hApp hCsrf hToken hCall hCloseCall (Nat.lt_of_le_of_lt hBefore hStop) hCallCalendar hStep
        exact ih hNext hLater hRest hCloseRest

end Configured

/-- After the login the token is in use. -/
theorem InUse.of_login {attempt : LoginAttempt} {credentials : SessionCredentials} {after : Accounts}
    (hKeyed : s.Keyed) (h : login settings platform attempt s = (.ok (some credentials), after))
    (hActive : ∀ user ∈ after.users, user.id = credentials.user.id → user.isActive = true) :
    InUse settings credentials.token credentials.user.id
      (attempt.now.micros + settings.sessionAbsoluteTimeoutSeconds * microsPerSecond) attempt.now after := by
  obtain ⟨saved, rotated, record, hSaved, hRotated, hCreated⟩ := login_eq_ok_some hKeyed h
  have hSavedKeyed : saved.Keyed := ⟨hSaved ▸ hKeyed.ids, hSaved ▸ hKeyed.hashes⟩
  have hMem : record ∈ after.sessions := by
    rw [hCreated.after_eq]
    exact List.mem_append_right _ (List.mem_singleton_self record)
  have hUser : credentials.user.id ∈ after.users.map User.id := by
    have hEffect := login_effect settings platform attempt s
    rw [h] at hEffect
    cases hEffect with
    | @success user _ _ hAccount hUnlocked hVerify hUserActive hComplete =>
        obtain ⟨passwordHash, hUsers⟩ := completeLogin_users hComplete
        have hId : credentials.user.id = user.id := by
          obtain ⟨_, -, hComplete⟩ := lift_bind_eq_ok hComplete
          rw [write_bind] at hComplete
          obtain ⟨_, _, -, hCreate⟩ := bind_eq_ok hComplete
          rw [(createRecord_eq_ok hCreate).1]
          exact user.liftExpiredLock_fields.1
        rw [hUsers, Accounts.ids_saveUser, hId]
        exact List.mem_map_of_mem (List.mem_of_find?_eq_some hAccount)
  exact {
    keyed := (hRotated.keyed hSavedKeyed).recordCreated hCreated
    row := ⟨record, {
      mem := hMem
      tokenHash := by rw [hCreated.token, hCreated.tokenHash]
      userId := hCreated.userId
      live := hCreated.revokedAt
      absolute := hCreated.absolute
      deadline := by
        rw [hCreated.lastActivityAt, hCreated.expiresAt]
        exact min_le_left _ _
      lag := Or.inl (by rw [hCreated.lastActivityAt]) }⟩
    user := hUser
    active := hActive }

end Service

section Run

variable {settings : AuthSettings} {platform : Platform} {accounts : Accounts} {requests : List SessionRequest}

theorem keyed_final (hKeyed : accounts.Keyed) :
    (final (SessionRequest.perform settings platform) accounts requests).Keyed := by
  apply final_of_invariant hKeyed
  intro request _ s hKeyed
  exact (@step_sessions settings platform request s hKeyed _ rfl).1

/-- A step that issued a token was a successful login. -/
theorem issued_eq_some {step : SessionStep} {credentials : SessionCredentials} (h : issued step = some credentials) :
    ∃ attempt, step.request = .login attempt ∧ step.outcome = .ok (.credentials (some credentials)) := by
  obtain ⟨request, before, outcome, after⟩ := step
  unfold issued at h
  split at h
  · rename_i attempt found hRequest hOutcome
    exact ⟨attempt, hRequest, hOutcome.trans (by rw [h])⟩
  · cases h

/-- From a login on, as long as its session is not revoked and its user stays
active, uses of the token that follow each other closely are accepted up to the
absolute deadline. -/
theorem session_in_use_lasts (hKeyed : accounts.Keyed)
    (hClock : requests.Pairwise fun first second => first.now ≤ second.now) {past later future : List SessionStep}
    {start use : SessionStep} {credentials : SessionCredentials} {ipAddress userAgent : Option PyStr} {now : Instant}
    (hTrace : trace (SessionRequest.perform settings platform) accounts requests =
      past ++ start :: (later ++ use :: future))
    (hIssued : issued start = some credentials) (hToken : credentials.token ≠ [])
    (hUse : use.request = .authenticate (some credentials.token) ipAddress userAgent now)
    (hTexts : ∀ text, ipAddress = some text ∨ userAgent = some text → text.all isScalar = true)
    (hUndisturbed : ∀ step ∈ start :: later, Undisturbed credentials.token credentials.user.id step)
    (hClose : List.IsChain (Close settings) (start.request.now ::
      ((later.map Step.request).filterMap (calledAt credentials.token) ++ [now])))
    (hAbsolute : now.micros < start.request.now.micros + settings.sessionAbsoluteTimeoutSeconds * microsPerSecond)
    (hCalendar : InCalendar now settings.sessionIdleTimeoutSeconds) :
    ∃ session, use.outcome = .ok (.session (some session)) := by
  -- the requests of the run, step by step
  obtain ⟨first, second, rfl, -, hSecond⟩ := trace_split hTrace
  obtain ⟨request, third, rfl⟩ : ∃ request third, second = request :: third := by
    cases second with
    | nil => cases hSecond
    | cons request third => exact ⟨request, third, rfl⟩
  obtain ⟨rfl, hThird⟩ := List.cons.inj hSecond
  obtain ⟨between, last, rfl, rfl, hLast⟩ := trace_split hThird
  obtain ⟨call, rest, rfl⟩ : ∃ call rest, last = call :: rest := by
    cases last with
    | nil => cases hLast
    | cons call rest => exact ⟨call, rest, rfl⟩
  obtain ⟨rfl, -⟩ := List.cons.inj hLast
  rw [map_request_trace] at hClose
  obtain ⟨attempt, hRequest, hOutcome⟩ := issued_eq_some hIssued
  obtain rfl : request = .login attempt := hRequest
  obtain rfl : call = .authenticate (some credentials.token) ipAddress userAgent now := hUse
  -- the login
  generalize hState : final (SessionRequest.perform settings platform) accounts first = s at *
  have hStateKeyed : s.Keyed := hState ▸ keyed_final hKeyed
  obtain ⟨after, hLogin⟩ : ∃ after, login settings platform attempt s = (.ok (some credentials), after) := by
    rcases hRun : login settings platform attempt s with ⟨outcome, after⟩
    have hPerformed : (SessionRequest.perform settings platform (.login attempt) s).1 =
        .ok (.credentials (some credentials)) := hOutcome
    rw [SessionRequest.perform, map_apply, hRun] at hPerformed
    cases outcome with
    | error e => cases hPerformed
    | ok answer =>
        cases hPerformed
        exact ⟨after, rfl⟩
  have hAfter : (SessionRequest.perform settings platform (.login attempt) s).2 = after := by
    rw [SessionRequest.perform, map_apply, hLogin]
  obtain ⟨appSecret, csrfSecret, hApp, hCsrf⟩ := exists_secrets_of_login hLogin
  have hFirst := (hUndisturbed _ List.mem_cons_self).active
  rw [answer, hAfter] at hFirst
  have hBegin := InUse.of_login hStateKeyed hLogin hFirst
  -- the steps up to the use
  have hOrder : (attempt.now :: (between.map SessionRequest.now ++ [now])).Pairwise fun first second => first ≤ second := by
    have hSuffix := (List.pairwise_append.mp hClock).2.1
    have hMap : ((SessionRequest.login attempt :: (between ++ .authenticate (some credentials.token) ipAddress userAgent now ::
        rest)).map SessionRequest.now).Pairwise fun first second => first ≤ second := List.pairwise_map.mpr hSuffix
    rw [List.map_cons, List.map_append, List.map_cons] at hMap
    have hEnd : List.Sublist [now] (now :: rest.map SessionRequest.now) := List.singleton_sublist.mpr List.mem_cons_self
    exact List.Pairwise.sublist ((hEnd.append_left _).cons_cons _) hMap
  obtain ⟨latest, hInUse, hLatest⟩ := hBegin.run hApp hCsrf hToken between hOrder
    (fun step hStep => hUndisturbed step (List.mem_cons_of_mem _ (hAfter ▸ hStep))) hClose hAbsolute hCalendar
  obtain ⟨session, done, touched, hRun, -⟩ :=
    hInUse.accepts hApp hCsrf hToken hLatest hAbsolute hCalendar hTexts
  refine ⟨session, ?_⟩
  rw [hAfter]
  change (SessionRequest.perform settings platform (.authenticate (some credentials.token) ipAddress userAgent now)
    (final (SessionRequest.perform settings platform) after between)).1 = _
  rw [SessionRequest.perform, map_apply, hRun]
  rfl

end Run

def sampleToken : PyStr := py "dG9rZW4tMDAwMQ"

/-- A login and one use of its token. -/
def loginThenUse (start use : Instant) : List SessionRequest :=
  [.login (sampleAttempt (py "correct horse battery staple") start), .authenticate (some sampleToken) none none use]

/-- The first answer of such a run. -/
def loginStep (settings : AuthSettings) (start : Instant) : SessionStep :=
  answer (SessionRequest.perform settings samplePlatform)
    (.login (sampleAttempt (py "correct horse battery staple") start)) sampleAccounts

/-- The second answer of such a run. -/
def useStep (settings : AuthSettings) (start use : Instant) : SessionStep :=
  answer (SessionRequest.perform settings samplePlatform) (.authenticate (some sampleToken) none none use)
    (loginStep settings start).after

theorem trace_loginThenUse (settings : AuthSettings) (start use : Instant) :
    trace (SessionRequest.perform settings samplePlatform) sampleAccounts (loginThenUse start use) =
      [] ++ loginStep settings start :: ([] ++ useStep settings start use :: []) := rfl

/-- A check that evaluates: the session is unrevoked and everybody active. -/
theorem undisturbed_loginStep {settings : AuthSettings} {start : Instant} (token : PyStr) (userId : Nat)
    (hLive : ∀ row ∈ (loginStep settings start).after.sessions, row.revokedAt = none)
    (hActive : ∀ user ∈ (loginStep settings start).after.users, user.isActive = true) :
    Undisturbed token userId (loginStep settings start) where
  live row hRow _ := hLive row hRow
  active user hUser _ := hActive user hUser
  decoded := nofun

/-- The shortest timeouts that the validation accepts, and no touch interval. -/
def shortSettings : AuthSettings :=
  { sampleSettings with
    sessionIdleTimeoutSeconds := 299
    sessionAbsoluteTimeoutSeconds := 300
    sessionTouchIntervalSeconds := 0
    idle_range := by decide
    absolute_range := by decide
    touch_range := by decide
    idle_lt_absolute := by decide
    touch_lt_idle := by decide }

/-- The last moment from which the absolute timeout is still a date. -/
def lateStart : Instant := ⟨315537897299999999, by decide⟩

def lateUse : Instant := ⟨315537897309999999, by decide⟩

/-- The new idle deadline would lie after the year 9999, and the use raises although
the session has not ended. -/
theorem use_fails_at_calendar_end :
    ∃ start use credentials, trace (SessionRequest.perform shortSettings samplePlatform) sampleAccounts
        (loginThenUse lateStart lateUse) = [start, use] ∧
      issued start = some credentials ∧
      use.request = .authenticate (some credentials.token) none none lateUse ∧
      Undisturbed credentials.token credentials.user.id start ∧
      Close shortSettings start.request.now lateUse ∧
      lateUse.micros < start.request.now.micros + shortSettings.sessionAbsoluteTimeoutSeconds * microsPerSecond ∧
      use.outcome = .error .overflowError := by
  have hIssued : (issued (loginStep shortSettings lateStart)).map (·.token) = some sampleToken := by decide +kernel
  obtain ⟨credentials, hCredentials, hToken⟩ := Option.map_eq_some_iff.mp hIssued
  have hUndisturbed : Undisturbed credentials.token credentials.user.id (loginStep shortSettings lateStart) :=
    undisturbed_loginStep _ _ (by decide +kernel) (by decide +kernel)
  exact ⟨loginStep shortSettings lateStart, useStep shortSettings lateStart lateUse, credentials,
    trace_loginThenUse shortSettings lateStart lateUse, hCredentials,
    by rw [hToken]; rfl, hUndisturbed, ⟨by decide, by decide⟩, by decide, by decide +kernel⟩

/-- The token at half a minute, a thousand and two thousand seconds after noon. The
first use is too early to be written, and the last one after the deadline of the login. -/
def earlierUses : List Instant :=
  [⟨63920404830000000, by decide⟩, ⟨63920405800000000, by decide⟩, ⟨63920406800000000, by decide⟩]

def sampleUse : Instant := ⟨63920408400000000, by decide⟩

/-- A use of the token, without client data. -/
def useRequest (use : Instant) : SessionRequest := .authenticate (some sampleToken) none none use

/-- The answers between the login and the last use. -/
def earlierSteps : List SessionStep :=
  trace (SessionRequest.perform sampleSettings samplePlatform) (loginStep sampleSettings sampleNow).after
    (earlierUses.map useRequest)

/-- The answer to the last use. -/
def lastStep : SessionStep :=
  answer (SessionRequest.perform sampleSettings samplePlatform) (useRequest sampleUse)
    (final (SessionRequest.perform sampleSettings samplePlatform) (loginStep sampleSettings sampleNow).after
      (earlierUses.map useRequest))

/-- None of the uses revokes the session or switches its user off. -/
theorem undisturbed_earlierSteps (userId : Nat) : ∀ step ∈ earlierSteps, Undisturbed sampleToken userId step := by
  have hLive : ∀ step ∈ earlierSteps, ∀ row ∈ step.after.sessions, row.revokedAt = none := by decide +kernel
  have hActive : ∀ step ∈ earlierSteps, ∀ user ∈ step.after.users, user.isActive = true := by decide +kernel
  have hRequests : earlierSteps.map Step.request = earlierUses.map useRequest := map_request_trace _ _ _
  intro step hStep
  refine ⟨fun row hRow _ => hLive step hStep row hRow, fun user hUser _ => hActive step hStep user hUser, ?_⟩
  intro ipAddress userAgent now hRequest text hText
  have hMem : step.request ∈ earlierUses.map useRequest := hRequests ▸ List.mem_map_of_mem hStep
  obtain ⟨use, -, hUse⟩ := List.mem_map.mp hMem
  cases hUse.trans hRequest
  rcases hText with hText | hText
  · cases hText
  · cases hText

/-- The idle timeout is half an hour, and the session is accepted an hour after
its login because it was used in between. -/
theorem session_in_use_lasts_sample :
    sampleSettings.sessionIdleTimeoutSeconds = 1800 ∧ sampleNow.micros + 3600 * microsPerSecond = sampleUse.micros ∧
      ∃ session, lastStep.outcome = .ok (.session (some session)) := by
  refine ⟨rfl, by decide, ?_⟩
  have hKeyed : sampleAccounts.Keyed := ⟨List.nodup_nil, List.nodup_nil⟩
  have hClock : (.login (sampleAttempt (py "correct horse battery staple") sampleNow) ::
      (earlierUses.map useRequest ++ [useRequest sampleUse])).Pairwise fun first second => first.now ≤ second.now := by
    decide
  have hTrace : trace (SessionRequest.perform sampleSettings samplePlatform) sampleAccounts
      (.login (sampleAttempt (py "correct horse battery staple") sampleNow) ::
        (earlierUses.map useRequest ++ [useRequest sampleUse])) =
      [] ++ loginStep sampleSettings sampleNow :: (earlierSteps ++ lastStep :: []) := trace_cons_concat _ _ _ _ _
  have hIssued : (issued (loginStep sampleSettings sampleNow)).map (·.token) = some sampleToken := by decide +kernel
  obtain ⟨credentials, hCredentials, hToken⟩ := Option.map_eq_some_iff.mp hIssued
  have hLogin : Undisturbed credentials.token credentials.user.id (loginStep sampleSettings sampleNow) :=
    undisturbed_loginStep _ _ (by decide +kernel) (by decide +kernel)
  have hUndisturbed : ∀ step ∈ loginStep sampleSettings sampleNow :: earlierSteps,
      Undisturbed credentials.token credentials.user.id step :=
    List.forall_mem_cons.mpr ⟨hLogin, hToken ▸ undisturbed_earlierSteps _⟩
  have hUse : lastStep.request = .authenticate (some credentials.token) none none sampleUse := by
    rw [hToken]
    rfl
  have hClose : List.IsChain (Close sampleSettings) (sampleNow ::
      ((earlierSteps.map Step.request).filterMap (calledAt credentials.token) ++ [sampleUse])) := by
    rw [hToken, earlierSteps, map_request_trace]
    decide
  exact session_in_use_lasts hKeyed hClock hTrace hCredentials (by rw [hToken]; decide) hUse (by simp) hUndisturbed
    hClose (by decide) (by decide)

end SoftwareHub.Auth
