import SoftwareHub.Auth.Accounts

/-! `SessionService`: creating, validating, revoking and cleaning up sessions, and
what each of its calls does when it returns. -/
namespace SoftwareHub.Auth

open SoftwareHub.Python SoftwareHub.Semantics Program

/-- What a login returns: the raw token, which is returned exactly once. -/
structure SessionCredentials where
  token : PyStr
  user : User
  expiresAt : Instant
  absoluteExpiresAt : Instant
  deriving DecidableEq, Repr

/-- What a successful validation returns. -/
structure AuthenticatedSession where
  sessionId : Nat
  user : User
  expiresAt : Instant
  absoluteExpiresAt : Instant
  ipChanged : Bool
  userAgentChanged : Bool
  csrfSecretHash : PyStr
  deriving DecidableEq, Repr

section Service

variable (settings : AuthSettings)

/-- Both secrets, or the `RuntimeError` of an installation without them. -/
def requireSecrets : Except PyException (PyStr × PyStr) :=
  match settings.appSecretKey, settings.csrfSecret with
  | some appSecret, some csrfSecret => .ok (appSecret, csrfSecret)
  | _, _ => .error (.runtimeError "Session authentication requires app_secret_key and csrf_secret.")

def clientHashes (ipAddress userAgent : Option PyStr) : Except PyException (Option PyStr × Option PyStr) := do
  let (appSecret, _) ← requireSecrets settings
  return (← hmacIdentifier appSecret (py "client-ip") ipAddress,
    ← hmacIdentifier appSecret (py "user-agent") userAgent)

/-- `SessionRepository.add`; the token hash is unique, and a second one violates the
index. -/
def addSession (session : UserSession) : AuthProgram Unit := do
  if (← read (Accounts.getByTokenHash session.sessionTokenHash)).isSome then raise .integrityError
  else write fun accounts => { accounts with
    sessions := accounts.sessions ++ [{ session with id := nextId UserSession.id accounts.sessions }] }

/-- The row of a new session, with both deadlines. Its id is chosen by the
database. -/
def newRecord (userId : Nat) (ipAddress userAgent : Option PyStr) (now : Instant) (rawToken : PyStr) :
    Except PyException UserSession := do
  let (_, csrfSecret) ← requireSecrets settings
  let tokenHash ← hashSessionToken rawToken
  let (ipHash, userAgentHash) ← clientHashes settings ipAddress userAgent
  let absoluteExpiresAt ← now.add settings.sessionAbsoluteTimeoutSeconds
  let idleExpiresAt ← now.add settings.sessionIdleTimeoutSeconds
  let csrfSecretHash ← deriveCsrfSecretHash csrfSecret tokenHash
  return {
    id := 0
    sessionTokenHash := tokenHash
    userId := userId
    createdAt := now
    lastActivityAt := now
    expiresAt := idleExpiresAt.min absoluteExpiresAt
    absoluteExpiresAt := absoluteExpiresAt
    revokedAt := none
    userAgentHash := userAgentHash
    ipHash := ipHash
    csrfSecretHash := csrfSecretHash }

/-- The part of `create` inside the transaction. -/
def createRecord (user : User) (ipAddress userAgent : Option PyStr) (now : Instant) (rawToken : PyStr) :
    AuthProgram SessionCredentials := do
  let record ← lift (newRecord settings user.id ipAddress userAgent now rawToken)
  addSession record
  return ⟨rawToken, user, record.expiresAt, record.absoluteExpiresAt⟩

/-- The deadline moves when the touch interval has passed since it last did, but not
past the absolute one. -/
def touch (record : UserSession) (now : Instant) : Except PyException UserSession := do
  if now.elapsed record.lastActivityAt settings.sessionTouchIntervalSeconds then
    let idleExpiresAt ← now.add settings.sessionIdleTimeoutSeconds
    return { record with
      lastActivityAt := now
      expiresAt := idleExpiresAt.min record.absoluteExpiresAt }
  else return record

def changed (stored current : Option PyStr) : Bool :=
  stored.isSome && current.isSome && stored != current

/-- The validation of a token by its hash: the row, its deadlines, its user, and the
activity to write. -/
def authenticateRecord (tokenHash : PyStr) (ipAddress userAgent : Option PyStr) (now : Instant) :
    AuthProgram (Option AuthenticatedSession) := do
  match ← read (Accounts.getByTokenHash tokenHash) with
  | none => return none
  | some record =>
      if record.revokedAt ≠ none ∨ record.expiresAt ≤ now ∨ record.absoluteExpiresAt ≤ now then return none
      else match ← read (Accounts.user? record.userId) with
        | none => raise .attributeError
        | some user =>
            if ¬user.isActive then return none
            else do
              let record ← lift (touch settings record now)
              write (Accounts.saveSession record)
              let (ipHash, userAgentHash) ← lift (clientHashes settings ipAddress userAgent)
              return some {
                sessionId := record.id
                user := user
                expiresAt := record.expiresAt
                absoluteExpiresAt := record.absoluteExpiresAt
                ipChanged := changed record.ipHash ipHash
                userAgentChanged := changed record.userAgentHash userAgentHash
                csrfSecretHash := record.csrfSecretHash }

/-- `authenticate`, in one transaction. -/
def authenticate (rawToken ipAddress userAgent : Option PyStr) (now : Instant) :
    AuthProgram (Option AuthenticatedSession) :=
  match rawToken with
  | none => return none
  | some token =>
      if token = [] then return none
      else do
        let tokenHash ← lift (hashSessionToken token)
        atomically (authenticateRecord settings tokenHash ipAddress userAgent now)

/-- `revoke`, which tells whether there was a live session to revoke. -/
def revoke (rawToken ipAddress : Option PyStr) (now : Instant) : AuthProgram Bool :=
  match rawToken with
  | none => return false
  | some token =>
      if token = [] then return false
      else do
        let tokenHash ← lift (hashSessionToken token)
        let _ ← lift (clientHashes settings ipAddress none)
        match ← read (Accounts.getByTokenHash tokenHash) with
        | none => return false
        | some record =>
            if record.revokedAt ≠ none then return false
            else do
              write (Accounts.saveSession { record with revokedAt := some now })
              return true

/-- `revoke_all_for_user` of the service, with the number of revoked sessions. -/
def revokeAllForUser (userId : Nat) (exceptSessionId : Option Nat) (now : Instant) : AuthProgram Nat := do
  let count ← read fun accounts => accounts.sessions.countP fun row =>
    row.userId = userId ∧ row.revokedAt = none ∧ ∀ id ∈ exceptSessionId, row.id ≠ id
  write (Accounts.revokeAllForUser userId now exceptSessionId)
  return count

/-- `cleanup_expired`, with the number of deleted sessions. -/
def cleanupExpired (now : Instant) : AuthProgram Nat := do
  let count ← read fun accounts => accounts.sessions.countP fun row =>
    row.expiresAt ≤ now ∨ row.absoluteExpiresAt ≤ now
  write (Accounts.deleteExpired now)
  return count

end Service

/-- The row behind the credentials of a new session, and what it is known to hold. -/
structure RecordCreated (settings : AuthSettings) (userId : Nat) (now : Instant) (rawToken : PyStr)
    (accounts : Accounts) (credentials : SessionCredentials) (after : Accounts) (record : UserSession) : Prop where
  after_eq : after = { accounts with sessions := accounts.sessions ++ [record] }
  id : record.id = nextId UserSession.id accounts.sessions
  tokenHash : hashSessionToken rawToken = .ok record.sessionTokenHash
  fresh : accounts.getByTokenHash record.sessionTokenHash = none
  userId : record.userId = userId
  createdAt : record.createdAt = now
  lastActivityAt : record.lastActivityAt = now
  absolute : record.absoluteExpiresAt.micros =
    now.micros + settings.sessionAbsoluteTimeoutSeconds * microsPerSecond
  expiresAt : record.expiresAt.micros = now.micros + settings.sessionIdleTimeoutSeconds * microsPerSecond
  revokedAt : record.revokedAt = none
  token : credentials.token = rawToken
  deadlines : credentials.expiresAt = record.expiresAt ∧ credentials.absoluteExpiresAt = record.absoluteExpiresAt

section Service

variable {settings : AuthSettings}

/-- The idle timeout ends before the absolute one, so that it is the first deadline
of a new session. -/
theorem micros_min_deadlines {now idle absolute : Instant}
    (hIdle : now.add settings.sessionIdleTimeoutSeconds = .ok idle)
    (hAbsolute : now.add settings.sessionAbsoluteTimeoutSeconds = .ok absolute) :
    (idle.min absolute).micros = now.micros + settings.sessionIdleTimeoutSeconds * microsPerSecond := by
  rw [Instant.add_eq_ok_iff] at hIdle hAbsolute
  have hOrder := Nat.mul_le_mul_right microsPerSecond settings.idle_lt_absolute.le
  rw [Instant.micros_min, hIdle, hAbsolute]
  exact Nat.min_eq_left (by omega)

theorem addSession_run (session : UserSession) (accounts : Accounts) : addSession session accounts =
    if (accounts.getByTokenHash session.sessionTokenHash).isSome then (.error .integrityError, accounts)
    else (.ok (), { accounts with
      sessions := accounts.sessions ++ [{ session with id := nextId UserSession.id accounts.sessions }] }) := by
  cases h : accounts.getByTokenHash session.sessionTokenHash <;> simp [addSession, bind_def, h]

theorem newRecord_eq_ok {userId : Nat} {ipAddress userAgent : Option PyStr} {now : Instant}
    {rawToken : PyStr} {record : UserSession}
    (h : newRecord settings userId ipAddress userAgent now rawToken = .ok record) :
    hashSessionToken rawToken = .ok record.sessionTokenHash ∧ record.userId = userId ∧
      record.createdAt = now ∧ record.lastActivityAt = now ∧ record.revokedAt = none ∧
      record.absoluteExpiresAt.micros =
        now.micros + settings.sessionAbsoluteTimeoutSeconds * microsPerSecond ∧
      record.expiresAt.micros = now.micros + settings.sessionIdleTimeoutSeconds * microsPerSecond := by
  obtain ⟨secrets, -, h⟩ := except_bind_eq_ok h
  obtain ⟨tokenHash, hToken, h⟩ := except_bind_eq_ok h
  obtain ⟨hashes, -, h⟩ := except_bind_eq_ok h
  obtain ⟨absolute, hAbsolute, h⟩ := except_bind_eq_ok h
  obtain ⟨idle, hIdle, h⟩ := except_bind_eq_ok h
  obtain ⟨csrfSecretHash, -, h⟩ := except_bind_eq_ok h
  cases h
  exact ⟨hToken, rfl, rfl, rfl, rfl, Instant.add_eq_ok_iff.mp hAbsolute, micros_min_deadlines hIdle hAbsolute⟩

theorem createRecord_eq_ok {user : User} {ipAddress userAgent : Option PyStr} {now : Instant}
    {rawToken : PyStr} {accounts after : Accounts} {credentials : SessionCredentials}
    (h : createRecord settings user ipAddress userAgent now rawToken accounts = (.ok credentials, after)) :
    credentials.user = user ∧
      ∃ record, RecordCreated settings user.id now rawToken accounts credentials after record := by
  obtain ⟨record, hRecord, h⟩ := lift_bind_eq_ok h
  obtain ⟨_, t, hAdd, h⟩ := bind_eq_ok h
  cases h
  obtain ⟨hToken, hUser, hCreated, hActivity, hRevoked, hAbsolute, hExpires⟩ := newRecord_eq_ok hRecord
  rw [addSession_run] at hAdd
  have hFresh : accounts.getByTokenHash record.sessionTokenHash = none := by
    cases hFind : accounts.getByTokenHash record.sessionTokenHash with
    | none => rfl
    | some stored => simp [hFind] at hAdd
  rw [hFresh] at hAdd
  cases hAdd
  refine ⟨rfl, { record with id := nextId UserSession.id accounts.sessions }, ?_⟩
  exact {
    after_eq := rfl
    id := rfl
    tokenHash := hToken
    fresh := hFresh
    userId := hUser
    createdAt := hCreated
    lastActivityAt := hActivity
    absolute := hAbsolute
    expiresAt := hExpires
    revokedAt := hRevoked
    token := rfl
    deadlines := ⟨rfl, rfl⟩ }

/-- Creation succeeds with both secrets, decoded request text, a fresh token
and a deadline the calendar still has. -/
theorem exists_createRecord {appSecret csrfSecret : PyStr} (hApp : settings.appSecretKey = some appSecret)
    (hCsrf : settings.csrfSecret = some csrfSecret) {ipAddress userAgent : Option PyStr}
    (hIp : ∀ text ∈ ipAddress, text.all isScalar = true) (hAgent : ∀ text ∈ userAgent, text.all isScalar = true)
    {rawToken tokenHash : PyStr} (hToken : hashSessionToken rawToken = .ok tokenHash) {now : Instant}
    (hTime : now.micros + settings.sessionAbsoluteTimeoutSeconds * microsPerSecond < instantCount)
    (user : User) {accounts : Accounts} (hFresh : accounts.getByTokenHash tokenHash = none) :
    ∃ credentials after,
      createRecord settings user ipAddress userAgent now rawToken accounts = (.ok credentials, after) := by
  have hAppScalar := settings.secrets_scalar appSecret (.inl hApp)
  have hCsrfScalar := settings.secrets_scalar csrfSecret (.inr hCsrf)
  have hRequire : requireSecrets settings = .ok (appSecret, csrfSecret) := by simp [requireSecrets, hApp, hCsrf]
  obtain ⟨ipHash, hIpHash⟩ := exists_hmacIdentifier hAppScalar (by decide : (py "client-ip").all isScalar) hIp
  obtain ⟨agentHash, hAgentHash⟩ :=
    exists_hmacIdentifier hAppScalar (by decide : (py "user-agent").all isScalar) hAgent
  have hTokenScalar : tokenHash.all isScalar = true := by
    obtain ⟨data, -, hEq⟩ := except_bind_eq_ok hToken
    cases hEq
    exact List.all_eq_true.mpr fun c hc => by
      have hHex := Sha256.isLowerHex_of_mem_hexdigest hc
      simp only [isLowerHex, isDigit, Bool.or_eq_true, Bool.and_eq_true, decide_eq_true_eq] at hHex
      exact isScalar_of_lt (by omega)
  have hSome : ∀ text ∈ some tokenHash, text.all isScalar = true := by simpa using hTokenScalar
  obtain ⟨csrfHash, hCsrfHash⟩ :=
    exists_hmacIdentifier hCsrfScalar (by decide : (py "csrf-session").all isScalar) hSome
  obtain ⟨absolute, hAbsolute⟩ := Instant.exists_add_iff.mpr hTime
  obtain ⟨idle, hIdle⟩ : ∃ idle, now.add settings.sessionIdleTimeoutSeconds = .ok idle := by
    have hOrder := Nat.mul_le_mul_right microsPerSecond settings.idle_lt_absolute.le
    exact Instant.exists_add_iff.mpr (by omega)
  have hHashes : clientHashes settings ipAddress userAgent = .ok (ipHash, agentHash) := by
    simp [clientHashes, hRequire, hIpHash, hAgentHash, bind, Except.bind, pure, Except.pure]
  have hDerive : deriveCsrfSecretHash csrfSecret tokenHash = .ok (csrfHash.getD []) := by
    simp [deriveCsrfSecretHash, hCsrfHash, bind, Except.bind, pure, Except.pure]
  obtain ⟨record, hRecord, hHash⟩ : ∃ record, newRecord settings user.id ipAddress userAgent now rawToken =
      .ok record ∧ record.sessionTokenHash = tokenHash := by
    refine ⟨{
      id := 0
      sessionTokenHash := tokenHash
      userId := user.id
      createdAt := now
      lastActivityAt := now
      expiresAt := idle.min absolute
      absoluteExpiresAt := absolute
      revokedAt := none
      userAgentHash := agentHash
      ipHash := ipHash
      csrfSecretHash := csrfHash.getD [] }, ?_, rfl⟩
    exact (except_bind_ok hRequire _).trans <| (except_bind_ok hToken _).trans <|
      (except_bind_ok hHashes _).trans <| (except_bind_ok hAbsolute _).trans <|
      (except_bind_ok hIdle _).trans <| except_bind_ok hDerive _
  exact ⟨_, _, by simp only [createRecord, hRecord, bind_def, lift_apply, addSession_run, hHash, hFresh]; rfl⟩

end Service

end SoftwareHub.Auth
