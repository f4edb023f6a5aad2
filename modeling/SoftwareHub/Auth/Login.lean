import SoftwareHub.Auth.Sessions

/-! `AuthService`: login with lockout, changing a password, and everything that an
attempt can do to the accounts. -/
namespace SoftwareHub.Auth

open SoftwareHub.Python SoftwareHub.Semantics Program

/-- Everything one login attempt brings along: the submitted form, the request
metadata, the reading of the clock and the random values drawn. Decoded request
text has no lone surrogates, and a generated token is plain ASCII. -/
structure LoginAttempt where
  username : PyStr
  password : PyStr
  ipAddress : Option PyStr
  userAgent : Option PyStr
  previousSessionToken : Option PyStr
  now : Instant
  token : PyStr
  salt : PyStr
  request_scalar : ∀ text, ipAddress = some text ∨ userAgent = some text ∨ previousSessionToken = some text →
    text.all isScalar = true
  token_scalar : token.all isScalar = true

section Service

variable (settings : AuthSettings) (platform : Platform)

/-- `PasswordService.validate`. The messages name the bounds in force. -/
def validatePassword (password username : PyStr) : Except PyException Unit := do
  require (settings.passwordMinLength ≤ password.length)
    (.validationError s!"Password must contain at least {settings.passwordMinLength} characters.")
  require (password.length ≤ settings.passwordMaxLength)
    (.validationError s!"Password must contain at most {settings.passwordMaxLength} characters.")
  require (password = strip password) (.validationError "Password cannot start or end with whitespace.")
  require (platform.casefold password ≠ platform.casefold username)
    (.validationError "Password cannot be identical to the username.")

/-- `PasswordService.hash`, which checks the policy first. -/
def hashPassword (password username salt : PyStr) : Except PyException PyStr := do
  validatePassword settings platform password username
  return platform.hash password salt

/-- The lock of the row ends after this moment. -/
def User.Locked (user : User) (now : Instant) : Prop := ∃ deadline ∈ user.lockedUntil, now < deadline

instance (user : User) (now : Instant) : Decidable (user.Locked now) :=
  match h : user.lockedUntil with
  | none => .isFalse (by simp [User.Locked, h])
  | some deadline => decidable_of_iff (now < deadline) (by simp [User.Locked, h])

/-- An expired lock is lifted and its failures are forgotten. -/
def User.liftExpiredLock (user : User) : User :=
  match user.lockedUntil with
  | none => user
  | some _ => { user with lockedUntil := none, failedLoginAttempts := 0 }

/-- One more failure on the row; the last one allowed starts the lock. -/
def recordFailure (user : User) (now : Instant) : Except PyException User := do
  let failures := user.failedLoginAttempts + 1
  if settings.loginMaxFailedAttempts ≤ failures then
    let deadline ← now.add settings.loginLockoutSeconds
    return { user with failedLoginAttempts := failures, lockedUntil := some deadline }
  else return { user with failedLoginAttempts := failures }

/-- Revoke the session that the client presented, if it is a live one. -/
def rotatePrevious (previousSessionToken : Option PyStr) (now : Instant) : AuthProgram Unit :=
  match previousSessionToken with
  | none => return ()
  | some token =>
      if token = [] then return ()
      else do
        let previousHash ← lift (hashSessionToken token)
        match ← read (Accounts.getByTokenHash previousHash) with
        | none => return ()
        | some previous =>
            if previous.revokedAt ≠ none then return ()
            else write (Accounts.saveSession { previous with revokedAt := some now })

/-- The hash to store after a login: one made under other parameters is replaced by
a new one. -/
def currentHash (attempt : LoginAttempt) (user : User) : Except PyException PyStr :=
  if platform.needsRehash user.passwordHash then
    hashPassword settings platform attempt.password user.username attempt.salt
  else .ok user.passwordHash

/-- The part of `login` after a valid password of an active account: the row is
cleared, and a session created. -/
def completeLogin (attempt : LoginAttempt) (user : User) : AuthProgram SessionCredentials := do
  let passwordHash ← lift (currentHash settings platform attempt user)
  let user := { user with
    passwordHash := passwordHash
    failedLoginAttempts := 0
    lockedUntil := none
    lastLoginAt := some attempt.now }
  write (Accounts.saveUser user)
  rotatePrevious attempt.previousSessionToken attempt.now
  createRecord settings user attempt.ipAddress attempt.userAgent attempt.now attempt.token

/-- The account that an attempt is about, looked up by its normalised name. -/
def LoginAttempt.account (attempt : LoginAttempt) (accounts : Accounts) : Option User :=
  accounts.getByUsername platform (normalized platform attempt.username)

/-- The transaction of `login`: the lock, the password, and what follows. -/
def loginTransaction (attempt : LoginAttempt) : AuthProgram (Option SessionCredentials) := do
  match ← read (attempt.account platform) with
  | none => return none
  | some user =>
      if user.Locked attempt.now then return none
      else
        let user := user.liftExpiredLock
        if platform.verify user.passwordHash attempt.password then
          if user.isActive then
            return some (← completeLogin settings platform attempt user)
          else do
            write (Accounts.saveUser user)
            return none
        else do
          let user ← lift (recordFailure settings user attempt.now)
          write (Accounts.saveUser user)
          return none

/-- `AuthService.login`, which asks for the secrets before anything else. -/
def login (attempt : LoginAttempt) : AuthProgram (Option SessionCredentials) := do
  let _ ← lift (clientHashes settings attempt.ipAddress attempt.userAgent)
  atomically (loginTransaction settings platform attempt)

/-- `[a-z0-9](?:[a-z0-9._-]{1,98}[a-z0-9])?`, the pattern of the normalised name. -/
def isUsername (s : PyStr) : Bool :=
  let isEnd (c : Nat) := isDigit c || (0x61 ≤ c && c ≤ 0x7A)
  match s with
  | [] => false
  | [c] => isEnd c
  | first :: rest => isEnd first && 2 ≤ rest.length && rest.length ≤ 99 && isEnd (rest.getLastD 0) &&
      rest.dropLast.all fun c => isEnd c || c = 0x2E || c = 0x5F || c = 0x2D

def normalizeUsername (username : PyStr) : Except PyException PyStr := do
  require (isUsername (normalized platform username) = true) (.validationError
    "Username must contain 3 to 100 lowercase letters, digits, dots, underscores or hyphens.")
  return normalized platform username

/-- `change_password`: a new hash, and all sessions of the account revoked. -/
def changePassword (username newPassword salt : PyStr) (now : Instant) : AuthProgram User := do
  let normalized ← lift (normalizeUsername platform username)
  let newHash ← lift (hashPassword settings platform newPassword normalized salt)
  match ← read (Accounts.getByUsername platform normalized) with
  | none => raise (.application .entityNotFound "Administrator was not found.")
  | some user =>
      let user := { user with
        passwordHash := newHash
        passwordChangedAt := some now
        failedLoginAttempts := 0
        lockedUntil := none }
      write (Accounts.saveUser user)
      write (Accounts.revokeAllForUser user.id now none)
      return user

/-- Everything that an attempt can do to the accounts: nothing, a failure on the
row, or a completed login. -/
inductive LoginEffect (attempt : LoginAttempt) (accounts : Accounts) :
    Except PyException (Option SessionCredentials) → Accounts → Prop
  | unconfigured {e : PyException}
      (hHashes : clientHashes settings attempt.ipAddress attempt.userAgent = .error e) :
      LoginEffect attempt accounts (.error e) accounts
  | unknown (hAccount : attempt.account platform accounts = none) :
      LoginEffect attempt accounts (.ok none) accounts
  | locked {user : User} (hAccount : attempt.account platform accounts = some user)
      (hLocked : user.Locked attempt.now) : LoginEffect attempt accounts (.ok none) accounts
  | wrong {user failed : User} (hAccount : attempt.account platform accounts = some user)
      (hUnlocked : ¬user.Locked attempt.now)
      (hVerify : platform.verify user.passwordHash attempt.password = false)
      (hFailed : recordFailure settings user.liftExpiredLock attempt.now = .ok failed) :
      LoginEffect attempt accounts (.ok none) (accounts.saveUser failed)
  | unlockable {user : User} {e : PyException} (hAccount : attempt.account platform accounts = some user)
      (hUnlocked : ¬user.Locked attempt.now)
      (hVerify : platform.verify user.passwordHash attempt.password = false)
      (hFailed : recordFailure settings user.liftExpiredLock attempt.now = .error e) :
      LoginEffect attempt accounts (.error e) accounts
  | inactive {user : User} (hAccount : attempt.account platform accounts = some user)
      (hUnlocked : ¬user.Locked attempt.now)
      (hVerify : platform.verify user.passwordHash attempt.password = true) (hInactive : user.isActive = false) :
      LoginEffect attempt accounts (.ok none) (accounts.saveUser user.liftExpiredLock)
  | incomplete {user : User} {e : PyException} {after : Accounts}
      (hAccount : attempt.account platform accounts = some user) (hUnlocked : ¬user.Locked attempt.now)
      (hVerify : platform.verify user.passwordHash attempt.password = true) (hActive : user.isActive = true)
      (hComplete : completeLogin settings platform attempt user.liftExpiredLock accounts = (.error e, after)) :
      LoginEffect attempt accounts (.error e) accounts
  | success {user : User} {credentials : SessionCredentials} {after : Accounts}
      (hAccount : attempt.account platform accounts = some user) (hUnlocked : ¬user.Locked attempt.now)
      (hVerify : platform.verify user.passwordHash attempt.password = true) (hActive : user.isActive = true)
      (hComplete : completeLogin settings platform attempt user.liftExpiredLock accounts = (.ok credentials, after)) :
      LoginEffect attempt accounts (.ok (some credentials)) after

theorem User.liftExpiredLock_fields (user : User) : user.liftExpiredLock.id = user.id ∧
    user.liftExpiredLock.username = user.username ∧ user.liftExpiredLock.passwordHash = user.passwordHash ∧
    user.liftExpiredLock.isActive = user.isActive ∧ user.liftExpiredLock.lockedUntil = none := by
  cases h : user.lockedUntil <;> simp [User.liftExpiredLock, h]

/-- Every attempt has one of these effects, whatever the tables hold. -/
theorem login_effect (attempt : LoginAttempt) (accounts : Accounts) :
    LoginEffect settings platform attempt accounts (login settings platform attempt accounts).1
      (login settings platform attempt accounts).2 := by
  cases hHashes : clientHashes settings attempt.ipAddress attempt.userAgent with
  | error e =>
      have hRun : login settings platform attempt accounts = (.error e, accounts) := by
        simp [login, bind_def, hHashes]
      rw [hRun]
      exact .unconfigured hHashes
  | ok hashes =>
      have hRun : login settings platform attempt accounts =
          atomically (loginTransaction settings platform attempt) accounts := by
        simp [login, bind_def, hHashes]
      rw [hRun]
      cases hAccount : attempt.account platform accounts with
      | none =>
          have hBody : loginTransaction settings platform attempt accounts = (.ok none, accounts) := by
            simp [loginTransaction, bind_def, hAccount]
          rw [atomically_ok hBody]
          exact .unknown hAccount
      | some user =>
          obtain ⟨-, -, hHash, hIsActive, -⟩ := user.liftExpiredLock_fields
          by_cases hLocked : user.Locked attempt.now
          · have hBody : loginTransaction settings platform attempt accounts = (.ok none, accounts) := by
              simp [loginTransaction, bind_def, hAccount, hLocked]
            rw [atomically_ok hBody]
            exact .locked hAccount hLocked
          · cases hVerify : platform.verify user.passwordHash attempt.password with
            | false =>
                cases hFailed : recordFailure settings user.liftExpiredLock attempt.now with
                | error e =>
                    have hBody : loginTransaction settings platform attempt accounts = (.error e, accounts) := by
                      simp [loginTransaction, bind_def, hAccount, hLocked, hHash, hVerify, hFailed]
                    rw [atomically_error hBody]
                    exact .unlockable hAccount hLocked hVerify hFailed
                | ok failed =>
                    have hBody : loginTransaction settings platform attempt accounts =
                        (.ok none, accounts.saveUser failed) := by
                      simp [loginTransaction, bind_def, hAccount, hLocked, hHash, hVerify, hFailed]
                    rw [atomically_ok hBody]
                    exact .wrong hAccount hLocked hVerify hFailed
            | true =>
                cases hActive : user.isActive with
                | false =>
                    have hBody : loginTransaction settings platform attempt accounts =
                        (.ok none, accounts.saveUser user.liftExpiredLock) := by
                      simp [loginTransaction, bind_def, hAccount, hLocked, hHash, hVerify, hIsActive, hActive]
                    rw [atomically_ok hBody]
                    exact .inactive hAccount hLocked hVerify hActive
                | true =>
                    rcases hComplete : completeLogin settings platform attempt user.liftExpiredLock accounts with
                      ⟨outcome, after⟩
                    cases outcome with
                    | error e =>
                        have hBody : loginTransaction settings platform attempt accounts = (.error e, after) := by
                          simp [loginTransaction, bind_def, hAccount, hLocked, hHash, hVerify, hIsActive, hActive,
                            hComplete]
                        rw [atomically_error hBody]
                        exact .incomplete hAccount hLocked hVerify hActive hComplete
                    | ok credentials =>
                        have hBody : loginTransaction settings platform attempt accounts =
                            (.ok (some credentials), after) := by
                          simp [loginTransaction, bind_def, hAccount, hLocked, hHash, hVerify, hIsActive, hActive,
                            hComplete]
                        rw [atomically_ok hBody]
                        exact .success hAccount hLocked hVerify hActive hComplete

end Service

end SoftwareHub.Auth
