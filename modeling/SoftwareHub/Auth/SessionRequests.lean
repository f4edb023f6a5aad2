import SoftwareHub.Auth.Login
import SoftwareHub.Semantics.Trace

/-! The calls that create, use and end sessions, and what each of them does to the
rows of the session table. -/
namespace SoftwareHub.Auth

open SoftwareHub.Python SoftwareHub.Semantics Program

/-- A call of one of the services, with the reading of its clock. Nothing in
the program switches an account off; `setActive` is that change of the row. -/
inductive SessionRequest
  | login (attempt : LoginAttempt)
  | authenticate (rawToken ipAddress userAgent : Option PyStr) (now : Instant)
  | revoke (rawToken ipAddress : Option PyStr) (now : Instant)
  | revokeAllForUser (userId : Nat) (exceptSessionId : Option Nat) (now : Instant)
  | changePassword (username newPassword salt : PyStr) (now : Instant)
  | cleanupExpired (now : Instant)
  | setActive (userId : Nat) (isActive : Bool) (now : Instant)

/-- What the calls return. -/
inductive SessionAnswer
  | credentials (credentials : Option SessionCredentials)
  | session (session : Option AuthenticatedSession)
  | revoked (found : Bool)
  | count (count : Nat)
  | user (user : User)
  | done
  deriving DecidableEq

def Accounts.setActive (userId : Nat) (isActive : Bool) (accounts : Accounts) : Accounts :=
  { accounts with
    users := updateRows (fun row => row.id = userId) (fun row => { row with isActive := isActive }) accounts.users }

namespace SessionRequest

/-- The reading of the clock that a call brings along. -/
def now : SessionRequest → Instant
  | login attempt => attempt.now
  | authenticate _ _ _ now => now
  | revoke _ _ now => now
  | revokeAllForUser _ _ now => now
  | changePassword _ _ _ now => now
  | cleanupExpired now => now
  | setActive _ _ now => now

/-- The tokens that a call draws or presents. -/
def tokens : SessionRequest → List PyStr
  | login attempt => attempt.token :: attempt.previousSessionToken.toList
  | authenticate rawToken _ _ _ => rawToken.toList
  | revoke rawToken _ _ => rawToken.toList
  | _ => []

def perform (settings : AuthSettings) (platform : Platform) : SessionRequest → AuthProgram SessionAnswer
  | login attempt => .credentials <$> Auth.login settings platform attempt
  | authenticate rawToken ipAddress userAgent now =>
      .session <$> Auth.authenticate settings rawToken ipAddress userAgent now
  | revoke rawToken ipAddress now => .revoked <$> Auth.revoke settings rawToken ipAddress now
  | revokeAllForUser userId exceptSessionId now => .count <$> Auth.revokeAllForUser userId exceptSessionId now
  | changePassword username newPassword salt now =>
      .user <$> Auth.changePassword settings platform username newPassword salt now
  | cleanupExpired now => .count <$> Auth.cleanupExpired now
  | setActive userId isActive _ => do
      write (Accounts.setActive userId isActive)
      return .done

end SessionRequest

abbrev SessionStep : Type := Step SessionRequest Accounts PyException SessionAnswer

/-- The session that a login created, for the step of a successful login. -/
def issued (step : SessionStep) : Option SessionCredentials :=
  match step.request, step.outcome with
  | .login _, .ok (.credentials credentials) => credentials
  | _, _ => none

/-- When the token was accepted, for a step that accepted it. -/
def used (token : PyStr) (step : SessionStep) : Option Instant :=
  match step.request, step.outcome with
  | .authenticate (some presented) _ _ now, .ok (.session (some _)) => if presented = token then some now else none
  | _, _ => none

/-- The step revoked the token, was a successful login that presented it,
revoked the sessions of its user without exempting it, or changed the password
of its user. -/
def Ends (token : PyStr) (userId sessionId : Nat) (step : SessionStep) : Prop :=
  match step.request, step.outcome with
  | .revoke presented _ _, .ok _ => presented = some token
  | .login attempt, .ok (.credentials (some _)) => attempt.previousSessionToken = some token
  | .revokeAllForUser id exceptSessionId _, .ok _ => id = userId ∧ exceptSessionId ≠ some sessionId
  | .changePassword _ _ _ _, .ok (.user user) => user.id = userId
  | _, _ => False

/-- The primary key and the unique index of the session table. -/
structure Accounts.Keyed (accounts : Accounts) : Prop where
  ids : (accounts.sessions.map UserSession.id).Nodup
  hashes : (accounts.sessions.map UserSession.sessionTokenHash).Nodup

/-- Saving a changed row replaces that row only. -/
theorem Accounts.mem_saveSession {accounts : Accounts} {record changed row : UserSession}
    (hId : changed.id = record.id) (hRow : row ∈ (accounts.saveSession changed).sessions) :
    row = changed ∨ row ∈ accounts.sessions ∧ row ≠ record := by
  obtain ⟨old, hOld, rfl⟩ := mem_updateRows.mp hRow
  split_ifs with hSame
  · exact .inl rfl
  · refine .inr ⟨hOld, ?_⟩
    rintro rfl
    exact hSame hId.symm

namespace Accounts.Keyed

variable {accounts : Accounts}

theorem getByTokenHash_eq_some_iff (h : accounts.Keyed) {tokenHash : PyStr} {row : UserSession} :
    accounts.getByTokenHash tokenHash = some row ↔ row ∈ accounts.sessions ∧ row.sessionTokenHash = tokenHash :=
  find?_eq_some_iff_of_nodup h.hashes

/-- A saved row keeps its id and its hash, and so the table its keys. -/
theorem saveSession (h : accounts.Keyed) {record changed : UserSession} (hRecord : record ∈ accounts.sessions)
    (hId : changed.id = record.id) (hHash : changed.sessionTokenHash = record.sessionTokenHash) :
    (accounts.saveSession changed).Keyed := by
  constructor
  · rw [Accounts.saveSession, map_updateRows fun _ _ hSame => hSame.symm]
    exact h.ids
  · rw [Accounts.saveSession, map_updateRows]
    · exact h.hashes
    · intro row hRow hSame
      rw [List.inj_on_of_nodup_map h.ids hRow hRecord (hSame.trans hId), hHash]

theorem revokeAllForUser (h : accounts.Keyed) (userId : Nat) (now : Instant) (exceptSessionId : Option Nat) :
    (accounts.revokeAllForUser userId now exceptSessionId).Keyed := by
  constructor
  · rw [Accounts.revokeAllForUser, map_updateRows]
    · exact h.ids
    · exact fun _ _ _ => rfl
  · rw [Accounts.revokeAllForUser, map_updateRows]
    · exact h.hashes
    · exact fun _ _ _ => rfl

theorem deleteExpired (h : accounts.Keyed) (now : Instant) : (accounts.deleteExpired now).Keyed :=
  ⟨h.ids.sublist (List.filter_sublist.map _), h.hashes.sublist (List.filter_sublist.map _)⟩

/-- The row of a new session has an id and a hash of its own. -/
theorem recordCreated (h : accounts.Keyed) {settings : AuthSettings} {userId : Nat} {now : Instant}
    {rawToken : PyStr} {credentials : SessionCredentials} {after : Accounts} {record : UserSession}
    (hCreated : RecordCreated settings userId now rawToken accounts credentials after record) : after.Keyed := by
  rw [hCreated.after_eq]
  refine ⟨nodup_append_nextId h.ids hCreated.id, ?_⟩
  rw [List.map_append, List.nodup_append]
  refine ⟨h.hashes, by simp, fun tokenHash hStored other hOther => ?_⟩
  rintro rfl
  obtain ⟨stored, hMem, hHash⟩ := List.mem_map.mp hStored
  have hFind : accounts.getByTokenHash record.sessionTokenHash = some stored := by
    rw [h.getByTokenHash_eq_some_iff, hHash]
    exact ⟨hMem, by simpa using hOther⟩
  rw [hCreated.fresh] at hFind
  cases hFind

end Accounts.Keyed

/-- What revoking a presented token does: nothing when it leads to no live row, and
else a time of revocation. -/
inductive TokenRevoked (rawToken : Option PyStr) (now : Instant) (accounts : Accounts) : Accounts → Prop
  | absent
      (hDead : ∀ token ∈ rawToken, token ≠ [] → ∀ row ∈ accounts.sessions,
        hashSessionToken token = .ok row.sessionTokenHash → row.revokedAt ≠ none) :
      TokenRevoked rawToken now accounts accounts
  | live {token : PyStr} {record : UserSession} (hRecord : record ∈ accounts.sessions) (hRaw : rawToken = some token)
      (hHash : hashSessionToken token = .ok record.sessionTokenHash) :
      TokenRevoked rawToken now accounts (accounts.saveSession { record with revokedAt := some now })

namespace TokenRevoked

variable {rawToken : Option PyStr} {now : Instant} {accounts after : Accounts}

theorem keyed (h : TokenRevoked rawToken now accounts after) (hKeyed : accounts.Keyed) : after.Keyed := by
  cases h with
  | absent => exact hKeyed
  | live hRecord => exact hKeyed.saveSession hRecord rfl rfl

/-- A row is revoked, or it stays; a row of the presented token does not stay live. -/
theorem rows (h : TokenRevoked rawToken now accounts after) (hKeyed : accounts.Keyed) {row : UserSession}
    (hRow : row ∈ after.sessions) :
    ∃ old ∈ accounts.sessions, row = { old with revokedAt := some now } ∨
      row = old ∧ (old.revokedAt = none → ∀ token, token ≠ [] →
        hashSessionToken token = .ok old.sessionTokenHash → rawToken ≠ some token) := by
  cases h with
  | absent hDead =>
      refine ⟨row, hRow, .inr ⟨rfl, fun hLive token hToken hHash hRaw => ?_⟩⟩
      exact hDead token hRaw hToken row hRow hHash hLive
  | @live presented record hRecord hPresented hPresentedHash =>
      rcases @Accounts.mem_saveSession _ record { record with revokedAt := some now } _ rfl hRow with rfl | ⟨hOld, hOther⟩
      · exact ⟨record, hRecord, .inl rfl⟩
      · refine ⟨row, hOld, .inr ⟨rfl, fun _ token _ hHash hRaw => hOther ?_⟩⟩
        obtain rfl : presented = token := Option.some.inj (hPresented.symm.trans hRaw)
        rw [hPresentedHash] at hHash
        exact List.inj_on_of_nodup_map hKeyed.hashes hOld hRecord (Except.ok.inj hHash).symm

end TokenRevoked

/-- A presented token that leads to no live row changes nothing. -/
theorem TokenRevoked.of_getByTokenHash {token tokenHash : PyStr} {now : Instant} {accounts : Accounts}
    (hKeyed : accounts.Keyed) (hHash : hashSessionToken token = .ok tokenHash)
    (hDead : ∀ record, accounts.getByTokenHash tokenHash = some record → record.revokedAt ≠ none) :
    TokenRevoked (some token) now accounts accounts := by
  refine .absent fun other hOther _ row hRow hRowHash => hDead row ?_
  obtain rfl : token = other := Option.some.inj hOther
  rw [hHash] at hRowHash
  exact hKeyed.getByTokenHash_eq_some_iff.mpr ⟨hRow, (Except.ok.inj hRowHash).symm⟩

theorem rotatePrevious_eq_ok {rawToken : Option PyStr} {now : Instant} {accounts after : Accounts}
    (hKeyed : accounts.Keyed) (h : rotatePrevious rawToken now accounts = (.ok (), after)) :
    TokenRevoked rawToken now accounts after := by
  unfold rotatePrevious at h
  split at h
  · cases h
    exact .absent (by simp)
  · split_ifs at h with hToken
    · cases h
      exact .absent (by simp [hToken])
    · obtain ⟨tokenHash, hHash, h⟩ := lift_bind_eq_ok h
      rw [read_bind] at h
      cases hFind : accounts.getByTokenHash tokenHash with
      | none =>
          rw [hFind] at h
          cases h
          exact .of_getByTokenHash hKeyed hHash (by simp [hFind])
      | some record =>
          obtain ⟨hRecord, rfl⟩ := hKeyed.getByTokenHash_eq_some_iff.mp hFind
          rw [hFind] at h
          dsimp only at h
          split_ifs at h with hRevoked
          · cases h
            exact .of_getByTokenHash hKeyed hHash (by simpa [hFind] using hRevoked)
          · cases h
            exact .live hRecord rfl hHash

theorem revoke_eq_ok {settings : AuthSettings} {rawToken ipAddress : Option PyStr} {now : Instant}
    {accounts after : Accounts} {found : Bool} (hKeyed : accounts.Keyed)
    (h : revoke settings rawToken ipAddress now accounts = (.ok found, after)) :
    TokenRevoked rawToken now accounts after := by
  unfold revoke at h
  split at h
  · cases h
    exact .absent (by simp)
  · split_ifs at h with hToken
    · cases h
      exact .absent (by simp [hToken])
    · obtain ⟨tokenHash, hHash, h⟩ := lift_bind_eq_ok h
      obtain ⟨_, -, h⟩ := lift_bind_eq_ok h
      rw [read_bind] at h
      cases hFind : accounts.getByTokenHash tokenHash with
      | none =>
          rw [hFind] at h
          cases h
          exact .of_getByTokenHash hKeyed hHash (by simp [hFind])
      | some record =>
          obtain ⟨hRecord, rfl⟩ := hKeyed.getByTokenHash_eq_some_iff.mp hFind
          rw [hFind] at h
          dsimp only at h
          split_ifs at h with hRevoked
          · cases h
            exact .of_getByTokenHash hKeyed hHash (by simpa [hFind] using hRevoked)
          · cases h
            exact .live hRecord rfl hHash

/-- An accepted token: its row is live and within both deadlines, and its user
active. -/
structure Accepted (settings : AuthSettings) (token : PyStr) (now : Instant) (accounts : Accounts)
    (session : AuthenticatedSession) (after : Accounts) (record : UserSession) : Prop where
  token_ne : token ≠ []
  tokenHash : hashSessionToken token = .ok record.sessionTokenHash
  mem : record ∈ accounts.sessions
  live : record.revokedAt = none
  idle : now < record.expiresAt
  absolute : now < record.absoluteExpiresAt
  user : accounts.user? record.userId = some session.user
  active : session.user.isActive = true
  touched : ∃ touched, touch settings record now = .ok touched ∧ after = accounts.saveSession touched ∧
    session.sessionId = touched.id

section Service

variable {settings : AuthSettings} {platform : Platform}

/-- Touching a row leaves it alone, or moves its activity and its deadline. -/
theorem touch_eq_ok {record touched : UserSession} {now : Instant} (h : touch settings record now = .ok touched) :
    touched = record ∨ ∃ idleExpiresAt, now.add settings.sessionIdleTimeoutSeconds = .ok idleExpiresAt ∧
      touched = { record with
        lastActivityAt := now
        expiresAt := idleExpiresAt.min record.absoluteExpiresAt } := by
  unfold touch at h
  split_ifs at h
  · obtain ⟨idleExpiresAt, hIdle, h⟩ := except_bind_eq_ok h
    cases h
    exact .inr ⟨idleExpiresAt, hIdle, rfl⟩
  · cases h
    exact .inl rfl

theorem authenticateRecord_eq_ok {tokenHash : PyStr} {ipAddress userAgent : Option PyStr} {now : Instant}
    {accounts after : Accounts} {result : Option AuthenticatedSession}
    (h : authenticateRecord settings tokenHash ipAddress userAgent now accounts = (.ok result, after)) :
    result = none ∧ after = accounts ∨ ∃ record user touched session,
      accounts.getByTokenHash tokenHash = some record ∧ record.revokedAt = none ∧ now < record.expiresAt ∧
      now < record.absoluteExpiresAt ∧ accounts.user? record.userId = some user ∧ user.isActive = true ∧
      touch settings record now = .ok touched ∧ after = accounts.saveSession touched ∧ result = some session ∧
      session.user = user ∧ session.sessionId = touched.id := by
  unfold authenticateRecord at h
  rw [read_bind] at h
  cases hFind : accounts.getByTokenHash tokenHash with
  | none =>
      rw [hFind] at h
      cases h
      exact .inl ⟨rfl, rfl⟩
  | some record =>
      rw [hFind] at h
      by_cases hDead : record.revokedAt ≠ none ∨ record.expiresAt ≤ now ∨ record.absoluteExpiresAt ≤ now
      · replace h : (if record.revokedAt ≠ none ∨ record.expiresAt ≤ now ∨ record.absoluteExpiresAt ≤ now
            then pure none else _ : AuthProgram (Option AuthenticatedSession)) accounts = (.ok result, after) := h
        rw [if_pos hDead] at h
        cases h
        exact .inl ⟨rfl, rfl⟩
      · replace h : (if record.revokedAt ≠ none ∨ record.expiresAt ≤ now ∨ record.absoluteExpiresAt ≤ now
            then pure none else _ : AuthProgram (Option AuthenticatedSession)) accounts = (.ok result, after) := h
        rw [if_neg hDead, read_bind] at h
        simp only [not_or, not_not] at hDead
        obtain ⟨hLive, hIdle, hAbsolute⟩ := hDead
        cases hUser : accounts.user? record.userId with
        | none =>
            rw [hUser] at h
            cases h
        | some user =>
            rw [hUser] at h
            replace h : (if ¬user.isActive = true then pure none else _ : AuthProgram (Option AuthenticatedSession))
              accounts = (.ok result, after) := h
            by_cases hActive : user.isActive = true
            · rw [if_neg (not_not_intro hActive)] at h
              obtain ⟨touched, hTouch, h⟩ := lift_bind_eq_ok h
              rw [write_bind] at h
              obtain ⟨⟨ipHash, userAgentHash⟩, -, h⟩ := lift_bind_eq_ok h
              cases h
              exact .inr ⟨record, user, touched, _, rfl, hLive, Nat.lt_of_not_le hIdle, Nat.lt_of_not_le hAbsolute,
                hUser, hActive, hTouch, rfl, rfl, rfl, rfl⟩
            · rw [if_pos hActive] at h
              cases h
              exact .inl ⟨rfl, rfl⟩
/-- What an authentication that returns has done, to the row it accepted or to
none. -/
theorem authenticate_eq_ok {rawToken ipAddress userAgent : Option PyStr} {now : Instant}
    {accounts after : Accounts} {result : Option AuthenticatedSession} (hKeyed : accounts.Keyed)
    (h : authenticate settings rawToken ipAddress userAgent now accounts = (.ok result, after)) :
    result = none ∧ after = accounts ∨
      ∃ token session record, rawToken = some token ∧ result = some session ∧
        Accepted settings token now accounts session after record := by
  unfold authenticate at h
  split at h
  · cases h
    exact .inl ⟨rfl, rfl⟩
  · rename_i token
    split_ifs at h with hToken
    · cases h
      exact .inl ⟨rfl, rfl⟩
    · obtain ⟨tokenHash, hHash, h⟩ := lift_bind_eq_ok h
      rcases authenticateRecord_eq_ok (atomically_eq_ok h) with
        ⟨rfl, rfl⟩ | ⟨record, user, touched, session, hFind, hLive, hIdle, hAbsolute, hUser, hActive, hTouch, rfl,
          rfl, rfl, hId⟩
      · exact .inl ⟨rfl, rfl⟩
      · obtain ⟨hRecord, rfl⟩ := hKeyed.getByTokenHash_eq_some_iff.mp hFind
        refine .inr ⟨token, session, record, rfl, rfl, ?_⟩
        exact {
          token_ne := hToken
          tokenHash := hHash
          mem := hRecord
          live := hLive
          idle := hIdle
          absolute := hAbsolute
          user := hUser
          active := hActive
          touched := ⟨touched, hTouch, rfl, hId⟩ }

/-- An authentication that raises has written nothing. -/
theorem authenticate_eq_error {rawToken ipAddress userAgent : Option PyStr} {now : Instant}
    {accounts after : Accounts} {e : PyException}
    (h : authenticate settings rawToken ipAddress userAgent now accounts = (.error e, after)) : after = accounts := by
  unfold authenticate at h
  split at h
  · cases h
  · split_ifs at h with hToken
    · cases h
    · rename_i token
      cases hHash : hashSessionToken token with
      | error other =>
          rw [hHash] at h
          cases h
          rfl
      | ok tokenHash =>
          rw [hHash] at h
          exact atomically_eq_error h

/-- A raising revocation did not reach the row. -/
theorem revoke_eq_error {rawToken ipAddress : Option PyStr} {now : Instant} {accounts after : Accounts}
    {e : PyException} (h : revoke settings rawToken ipAddress now accounts = (.error e, after)) :
    after = accounts := by
  unfold revoke at h
  split at h
  · cases h
  · split_ifs at h with hToken
    · cases h
    · rename_i token
      cases hHash : hashSessionToken token with
      | error other =>
          rw [hHash] at h
          cases h
          rfl
      | ok tokenHash =>
          cases hClient : clientHashes settings ipAddress none with
          | error other =>
              rw [hHash, hClient] at h
              cases h
              rfl
          | ok hashes =>
              cases hFind : accounts.getByTokenHash tokenHash with
              | none => simp [bind_def, hHash, hClient, hFind] at h
              | some record =>
                  by_cases hRevoked : record.revokedAt = none
                  · simp [bind_def, hHash, hClient, hFind, hRevoked] at h
                  · simp [bind_def, hHash, hClient, hFind, hRevoked] at h

/-- A successful login revokes the token that it presents and adds a row. -/
theorem login_eq_ok_some {attempt : LoginAttempt} {accounts after : Accounts} {credentials : SessionCredentials}
    (hKeyed : accounts.Keyed)
    (h : login settings platform attempt accounts = (.ok (some credentials), after)) :
    ∃ saved rotated record, saved.sessions = accounts.sessions ∧
      TokenRevoked attempt.previousSessionToken attempt.now saved rotated ∧
      RecordCreated settings credentials.user.id attempt.now attempt.token rotated credentials after record := by
  have hEffect := login_effect settings platform attempt accounts
  rw [h] at hEffect
  cases hEffect with
  | @success user _ _ hAccount hUnlocked hVerify hActive hComplete =>
      obtain ⟨passwordHash, -, hComplete⟩ := lift_bind_eq_ok hComplete
      rw [write_bind] at hComplete
      obtain ⟨_, rotated, hRotate, hCreate⟩ := bind_eq_ok hComplete
      obtain ⟨hUser, record, hCreated⟩ := createRecord_eq_ok hCreate
      rw [← hUser] at hCreated
      refine ⟨_, rotated, record, ?_, rotatePrevious_eq_ok ?_ hRotate, hCreated⟩
      · rfl
      · exact ⟨hKeyed.ids, hKeyed.hashes⟩

/-- Any other login leaves the sessions alone. -/
theorem sessions_login {attempt : LoginAttempt} {accounts : Accounts}
    (h : ∀ credentials, (login settings platform attempt accounts).1 ≠ .ok (some credentials)) :
    (login settings platform attempt accounts).2.sessions = accounts.sessions := by
  have hEffect := login_effect settings platform attempt accounts
  generalize (login settings platform attempt accounts).1 = outcome at hEffect h
  generalize (login settings platform attempt accounts).2 = after at hEffect
  cases hEffect with
  | @success user credentials => exact (h credentials rfl).elim
  | unconfigured | unknown | locked | wrong | unlockable | inactive | incomplete => rfl

/-- A password change revokes every session of its user, who keeps the name, or
changes nothing. -/
theorem changePassword_run (username newPassword salt : PyStr) (now : Instant) (accounts : Accounts) :
    (∃ e, changePassword settings platform username newPassword salt now accounts = (.error e, accounts)) ∨
      ∃ user, changePassword settings platform username newPassword salt now accounts =
          (.ok user, (accounts.saveUser user).revokeAllForUser user.id now none) ∧
        ∃ row ∈ accounts.users, user.id = row.id ∧ user.username = row.username := by
  unfold changePassword
  cases hName : normalizeUsername platform username with
  | error e => exact .inl ⟨e, rfl⟩
  | ok normalized =>
      cases hHash : hashPassword settings platform newPassword normalized salt with
      | error e => exact .inl ⟨e, by simp [bind_def, hHash]⟩
      | ok newHash =>
          cases hFind : accounts.getByUsername platform normalized with
          | none =>
              refine .inl ⟨.application .entityNotFound "Administrator was not found.", ?_⟩
              simp [bind_def, hHash, hFind]
          | some user =>
              refine .inr ⟨{ user with
                passwordHash := newHash
                passwordChangedAt := some now
                failedLoginAttempts := 0
                lockedUntil := none }, ?_, user, List.mem_of_find?_eq_some hFind, rfl, rfl⟩
              simp [bind_def, hHash, hFind]

end Service

end SoftwareHub.Auth
