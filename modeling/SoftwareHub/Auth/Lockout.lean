import SoftwareHub.Auth.Login
import SoftwareHub.Semantics.Trace

/-! The lock of an account bounds the passwords that can be guessed. An allowance of
guesses is attached to the row, and every wrong guess uses up one of them. -/
namespace SoftwareHub.Auth

open SoftwareHub.Python SoftwareHub.Semantics Program

theorem rotatePrevious_users (previous : Option PyStr) (now : Instant) (accounts : Accounts) :
    (rotatePrevious previous now accounts).2.users = accounts.users := by
  unfold rotatePrevious
  split
  · rfl
  · split_ifs
    · rfl
    · rename_i token hToken
      cases hHash : hashSessionToken token with
      | error e => simp [bind_def]
      | ok tokenHash =>
          cases hFind : accounts.getByTokenHash tokenHash with
          | none => simp [bind_def, hFind]
          | some session =>
              by_cases hRevoked : session.revokedAt = none
              · simp [bind_def, hFind, hRevoked, Accounts.saveSession]
              · simp [bind_def, hFind, hRevoked]

section Service

variable {settings : AuthSettings} {platform : Platform}

/-- A completed login clears the counter and the lock of its own row and leaves all
other rows alone. -/
theorem completeLogin_users {attempt : LoginAttempt} {user : User} {accounts after : Accounts}
    {credentials : SessionCredentials}
    (h : completeLogin settings platform attempt user accounts = (.ok credentials, after)) :
    ∃ passwordHash, after.users = (accounts.saveUser { user with
      passwordHash := passwordHash
      failedLoginAttempts := 0
      lockedUntil := none
      lastLoginAt := some attempt.now }).users := by
  obtain ⟨passwordHash, -, h⟩ := lift_bind_eq_ok h
  rw [write_bind] at h
  obtain ⟨_, u, hRotate, h⟩ := bind_eq_ok h
  obtain ⟨-, record, hRecord⟩ := createRecord_eq_ok h
  refine ⟨passwordHash, ?_⟩
  have hUsers := rotatePrevious_users attempt.previousSessionToken attempt.now (accounts.saveUser { user with
    passwordHash := passwordHash
    failedLoginAttempts := 0
    lockedUntil := none
    lastLoginAt := some attempt.now })
  rw [hRotate] at hUsers
  rw [hRecord.after_eq]
  exact hUsers

/-- Revoking the session that the client presented cannot fail on decoded text. -/
theorem exists_rotatePrevious {previous : Option PyStr} (hPrevious : ∀ text ∈ previous, text.all isScalar = true)
    (now : Instant) (accounts : Accounts) : ∃ after, rotatePrevious previous now accounts = (.ok (), after) ∧
      ∀ tokenHash, accounts.getByTokenHash tokenHash = none → after.getByTokenHash tokenHash = none := by
  cases previous with
  | none => exact ⟨accounts, rfl, fun _ h => h⟩
  | some token =>
      by_cases hToken : token = []
      · exact ⟨accounts, by simp [rotatePrevious, hToken], fun _ h => h⟩
      · have hHash : hashSessionToken token = .ok (Sha256.hexdigest (token.flatMap utf8Char)) := by
          simp [hashSessionToken, encode_eq_ok (hPrevious token rfl), bind, Except.bind, pure, Except.pure]
        cases hFind : accounts.getByTokenHash (Sha256.hexdigest (token.flatMap utf8Char)) with
        | none => exact ⟨accounts, by simp [rotatePrevious, hToken, hHash, bind_def, hFind], fun _ h => h⟩
        | some session =>
            by_cases hRevoked : session.revokedAt = none
            · refine ⟨accounts.saveSession { session with revokedAt := some now },
                by simp [rotatePrevious, hToken, hHash, bind_def, hFind, hRevoked], fun tokenHash hNone => ?_⟩
              simp only [Accounts.getByTokenHash, List.find?_eq_none, decide_eq_true_eq] at hNone ⊢
              intro row hRow
              obtain ⟨old, hOld, rfl⟩ := mem_updateRows.mp hRow
              split_ifs
              · exact hNone session (List.mem_of_find?_eq_some hFind)
              · exact hNone old hOld
            · exact ⟨accounts, by simp [rotatePrevious, hToken, hHash, bind_def, hFind, hRevoked], fun _ h => h⟩

/-- With both secrets the client data of an attempt can be hashed. -/
theorem exists_clientHashes {appSecret csrfSecret : PyStr} (hApp : settings.appSecretKey = some appSecret)
    (hCsrf : settings.csrfSecret = some csrfSecret) (attempt : LoginAttempt) :
    ∃ hashes, clientHashes settings attempt.ipAddress attempt.userAgent = .ok hashes := by
  have hScalar := settings.secrets_scalar appSecret (.inl hApp)
  obtain ⟨ipHash, hIp⟩ := exists_hmacIdentifier hScalar (by decide : (py "client-ip").all isScalar)
    fun text h => attempt.request_scalar text (.inl h)
  obtain ⟨agentHash, hAgent⟩ := exists_hmacIdentifier hScalar (by decide : (py "user-agent").all isScalar)
    fun text h => attempt.request_scalar text (.inr (.inl h))
  have hRequire : requireSecrets settings = .ok (appSecret, csrfSecret) := by simp [requireSecrets, hApp, hCsrf]
  exact ⟨(ipHash, agentHash), (except_bind_ok hRequire _).trans <| (except_bind_ok hIp _).trans <|
    except_bind_ok hAgent _⟩

/-- One account among all rows: a saved row is found under its own id, and the
others as they were. -/
theorem Accounts.user?_saveUser (user : User) (accounts : Accounts) (id : Nat) :
    (accounts.saveUser user).user? id =
      (accounts.user? id).map fun row => if row.id = user.id then user else row :=
  find?_updateRows (fun _ h => by simp [h]) accounts.users

theorem Accounts.ids_saveUser (user : User) (accounts : Accounts) :
    (accounts.saveUser user).users.map User.id = accounts.users.map User.id :=
  map_updateRows fun _ _ h => h.symm

/-- The account of an attempt is the one with its id. -/
theorem LoginAttempt.user?_of_account {attempt : LoginAttempt} {accounts : Accounts}
    (hIds : (accounts.users.map User.id).Nodup) {user : User}
    (h : attempt.account platform accounts = some user) : accounts.user? user.id = some user :=
  (find?_eq_some_iff_of_nodup hIds).mpr ⟨List.mem_of_find?_eq_some h, rfl⟩

/-- The attempt checked a wrong password for the account while it was not locked. -/
def wrongGuess (platform : Platform) (userId : Nat)
    (step : Step LoginAttempt Accounts PyException (Option SessionCredentials)) : Bool :=
  match step.request.account platform step.before with
  | none => false
  | some user => user.id = userId ∧ ¬user.Locked step.request.now ∧
      platform.verify user.passwordHash step.request.password = false

/-- The moment lies in the half-open interval of that many seconds from the start. -/
def inWindow (start : Int) (seconds : Nat) (now : Instant) : Bool :=
  start ≤ now.micros ∧ (now.micros : Int) < start + (seconds * microsPerSecond : Nat)

/-- How many wrong guesses the row still admits before `stop`: none while a lock
lasts until then, and else what its counter leaves. -/
def allowance (settings : AuthSettings) (stop : Int) (user : User) : Nat :=
  match user.lockedUntil with
  | some deadline => if stop ≤ deadline.micros then 0 else settings.loginMaxFailedAttempts
  | none => max (settings.loginMaxFailedAttempts - user.failedLoginAttempts) 1

theorem allowance_le (stop : Int) (user : User) :
    allowance settings stop user ≤ settings.loginMaxFailedAttempts := by
  have hRange := settings.attempts_range.1
  unfold allowance
  split
  · split_ifs <;> omega
  · omega

/-- What an attempt without success does to the row of one account. The flag says
whether it was a wrong guess. -/
inductive RowEffect (settings : AuthSettings) (now : Instant) (row : User) : Bool → User → Prop
  | untouched : RowEffect settings now row false row
  | lifted (hUnlocked : ¬row.Locked now) : RowEffect settings now row false row.liftExpiredLock
  | failed {failed : User} (hUnlocked : ¬row.Locked now)
      (hFailed : recordFailure settings row.liftExpiredLock now = .ok failed) :
      RowEffect settings now row true failed

theorem recordFailure_eq_ok {user failed : User} {now : Instant}
    (h : recordFailure settings user now = .ok failed) :
    failed.id = user.id ∧ failed.username = user.username ∧ failed.passwordHash = user.passwordHash ∧
      failed.failedLoginAttempts = user.failedLoginAttempts + 1 ∧
      (settings.loginMaxFailedAttempts ≤ user.failedLoginAttempts + 1 →
        ∃ deadline, now.add settings.loginLockoutSeconds = .ok deadline ∧ failed.lockedUntil = some deadline) ∧
      (¬settings.loginMaxFailedAttempts ≤ user.failedLoginAttempts + 1 →
        failed.lockedUntil = user.lockedUntil) := by
  dsimp only [recordFailure] at h
  split_ifs at h with hMax
  · obtain ⟨deadline, hDeadline, h⟩ := except_bind_eq_ok h
    cases h
    exact ⟨rfl, rfl, rfl, rfl, fun _ => ⟨deadline, hDeadline, rfl⟩, fun hNot => (hNot hMax).elim⟩
  · cases h
    exact ⟨rfl, rfl, rfl, rfl, fun h => (hMax h).elim, fun _ => rfl⟩

/-- A failure can be recorded when the lock that it may start ends within the
calendar. -/
theorem exists_recordFailure {now : Instant}
    (hCalendar : now.micros + settings.loginLockoutSeconds * microsPerSecond < instantCount) (user : User) :
    ∃ failed, recordFailure settings user now = .ok failed := by
  obtain ⟨deadline, hDeadline⟩ := Instant.exists_add_iff.mpr hCalendar
  dsimp only [recordFailure]
  split_ifs
  · exact ⟨_, except_bind_ok hDeadline _⟩
  · exact ⟨_, rfl⟩

theorem RowEffect.fields {now : Instant} {row after : User} {guess : Bool}
    (h : RowEffect settings now row guess after) : after.id = row.id ∧ after.passwordHash = row.passwordHash := by
  obtain ⟨hId, -, hHash, -⟩ := row.liftExpiredLock_fields
  cases h with
  | untouched => exact ⟨rfl, rfl⟩
  | lifted => exact ⟨hId, hHash⟩
  | failed _ hFailed =>
      obtain ⟨hFailedId, -, hFailedHash, -⟩ := recordFailure_eq_ok hFailed
      exact ⟨hFailedId.trans hId, hFailedHash.trans hHash⟩

/-- With both secrets, and a lock that ends within the calendar, an attempt acts on
a row in one of these ways. -/
theorem rowEffect_of_login {appSecret csrfSecret : PyStr} (hApp : settings.appSecretKey = some appSecret)
    (hCsrf : settings.csrfSecret = some csrfSecret) {attempt : LoginAttempt}
    (hCalendar : attempt.now.micros + settings.loginLockoutSeconds * microsPerSecond < instantCount)
    {accounts : Accounts} (hIds : (accounts.users.map User.id).Nodup) {userId : Nat} {row : User}
    (hRow : accounts.user? userId = some row)
    (hNoSuccess : ∀ user, attempt.account platform accounts = some user → user.id = userId →
      ∀ credentials, (login settings platform attempt accounts).1 ≠ .ok (some credentials)) :
    ((login settings platform attempt accounts).2.users.map User.id).Nodup ∧
      ∃ after, (login settings platform attempt accounts).2.user? userId = some after ∧
        RowEffect settings attempt.now row
          (wrongGuess platform userId (answer (login settings platform) attempt accounts)) after := by
  have hRowId : row.id = userId := by simpa using List.find?_some hRow
  obtain ⟨hashes, hHashes⟩ := exists_clientHashes hApp hCsrf attempt
  -- the row an attempt writes back is the one of its own account
  have hOwn {user : User} (hAccount : attempt.account platform accounts = some user) (hId : user.id = userId) :
      user = row := by
    have hFind := LoginAttempt.user?_of_account hIds hAccount
    rw [hId, hRow] at hFind
    exact (Option.some.inj hFind).symm
  have hSaved {stored : User} (hId : stored.id = userId) :
      (accounts.saveUser stored).user? userId = some stored := by
    rw [Accounts.user?_saveUser, hRow, Option.map_some, if_pos (hRowId.trans hId.symm)]
  have hKept {stored : User} (hId : stored.id ≠ userId) :
      (accounts.saveUser stored).user? userId = some row := by
    rw [Accounts.user?_saveUser, hRow, Option.map_some, if_neg fun h => hId (h.symm.trans hRowId)]
  have hGuess : wrongGuess platform userId (answer (login settings platform) attempt accounts) =
      match attempt.account platform accounts with
      | none => false
      | some user => user.id = userId ∧ ¬user.Locked attempt.now ∧
          platform.verify user.passwordHash attempt.password = false := rfl
  rw [hGuess]
  have hEffect := login_effect settings platform attempt accounts
  generalize (login settings platform attempt accounts).1 = outcome at hEffect hNoSuccess
  generalize (login settings platform attempt accounts).2 = after at hEffect
  cases hEffect with
  | unconfigured hError => simp [hHashes] at hError
  | unknown hAccount => exact ⟨hIds, row, hRow, by simpa [hAccount] using RowEffect.untouched⟩
  | locked hAccount hLocked =>
      exact ⟨hIds, row, hRow, by simpa [hAccount, hLocked] using RowEffect.untouched⟩
  | unlockable hAccount hUnlocked hVerify hFailed =>
      obtain ⟨failed, hOk⟩ := exists_recordFailure hCalendar _
      rw [hOk] at hFailed
      cases hFailed
  | incomplete hAccount hUnlocked hVerify hActive hComplete =>
      exact ⟨hIds, row, hRow, by simpa [hAccount, hVerify] using RowEffect.untouched⟩
  | @wrong user failed hAccount hUnlocked hVerify hFailed =>
      have hFailedId : failed.id = user.id :=
        (recordFailure_eq_ok hFailed).1.trans user.liftExpiredLock_fields.1
      refine ⟨by rwa [Accounts.ids_saveUser], ?_⟩
      by_cases hId : user.id = userId
      · obtain rfl := hOwn hAccount hId
        refine ⟨failed, hSaved (hFailedId.trans hId), ?_⟩
        simpa [hAccount, hId, hUnlocked, hVerify] using RowEffect.failed hUnlocked hFailed
      · exact ⟨row, hKept fun h => hId (hFailedId.symm.trans h), by simpa [hAccount, hId] using RowEffect.untouched⟩
  | @inactive user hAccount hUnlocked hVerify hInactive =>
      have hLiftId : user.liftExpiredLock.id = user.id := user.liftExpiredLock_fields.1
      refine ⟨by rwa [Accounts.ids_saveUser], ?_⟩
      by_cases hId : user.id = userId
      · obtain rfl := hOwn hAccount hId
        refine ⟨user.liftExpiredLock, hSaved (hLiftId.trans hId), ?_⟩
        simpa [hAccount, hVerify] using RowEffect.lifted hUnlocked
      · exact ⟨row, hKept fun h => hId (hLiftId.symm.trans h), by simpa [hAccount, hId] using RowEffect.untouched⟩
  | @success user credentials _ hAccount hUnlocked hVerify hActive hComplete =>
      have hId : user.id ≠ userId := fun hId => hNoSuccess user hAccount hId credentials rfl
      obtain ⟨passwordHash, hUsers⟩ := completeLogin_users hComplete
      have hLiftId : user.liftExpiredLock.id = user.id := user.liftExpiredLock_fields.1
      refine ⟨by rw [hUsers, Accounts.ids_saveUser]; exact hIds, row, ?_, ?_⟩
      · rw [Accounts.user?, hUsers]
        exact hKept fun h => hId (hLiftId.symm.trans h)
      · simpa [hAccount, hId] using RowEffect.untouched

/-- Before `stop`, at most a lockout away, a wrong guess uses up one of the guesses
that the row admits. -/
theorem RowEffect.allowance_le {now : Instant} {row after : User} {guess : Bool}
    (h : RowEffect settings now row guess after) {stop : Int} (hNow : (now.micros : Int) < stop)
    (hStop : stop ≤ now.micros + (settings.loginLockoutSeconds * microsPerSecond : Nat)) :
    guess.toNat + allowance settings stop after ≤ allowance settings stop row := by
  have hRange := settings.attempts_range.1
  -- an expired lock leaves the full allowance
  have hExpired {deadline : Instant} (hLock : row.lockedUntil = some deadline) (hUnlocked : ¬row.Locked now) :
      allowance settings stop row = settings.loginMaxFailedAttempts := by
    have hDeadline : ¬now < deadline := fun h => hUnlocked ⟨deadline, hLock, h⟩
    rw [Instant.lt_def] at hDeadline
    rw [allowance, hLock]
    exact if_neg (by omega)
  cases h with
  | untouched => simp
  | lifted hUnlocked =>
      cases hLock : row.lockedUntil with
      | none => simp [User.liftExpiredLock, hLock]
      | some deadline =>
          rw [hExpired hLock hUnlocked]
          simpa using Auth.allowance_le stop _
  | failed hUnlocked hFailed =>
      obtain ⟨-, -, -, hCount, hLocks, hStays⟩ := recordFailure_eq_ok hFailed
      have hLifted : row.liftExpiredLock.lockedUntil = none := row.liftExpiredLock_fields.2.2.2.2
      have hBefore : max (settings.loginMaxFailedAttempts - row.liftExpiredLock.failedLoginAttempts) 1 ≤
          allowance settings stop row := by
        cases hLock : row.lockedUntil with
        | none => simp [User.liftExpiredLock, hLock, allowance]
        | some deadline =>
            rw [hExpired hLock hUnlocked]
            omega
      by_cases hMax : settings.loginMaxFailedAttempts ≤ row.liftExpiredLock.failedLoginAttempts + 1
      · obtain ⟨deadline, hDeadline, hLock⟩ := hLocks hMax
        rw [Instant.add_eq_ok_iff] at hDeadline
        have hNone : allowance settings stop after = 0 := by
          rw [allowance, hLock]
          exact if_pos (by omega)
        simp only [hNone, Bool.toNat_true]
        omega
      · have hSome : allowance settings stop after =
            max (settings.loginMaxFailedAttempts - after.failedLoginAttempts) 1 := by
          rw [allowance, hStays hMax, hLifted]
        simp only [hSome, hCount, Bool.toNat_true]
        omega

/-- A run of attempts in which nobody gets into the account. The clock does not go
back, and every lock ends within the calendar. -/
structure Guessing (settings : AuthSettings) (platform : Platform) (userId : Nat) (accounts : Accounts)
    (attempts : List LoginAttempt) : Prop where
  ids : (accounts.users.map User.id).Nodup
  clock : attempts.Pairwise fun earlier later => earlier.now ≤ later.now
  calendar : ∀ attempt ∈ attempts,
    attempt.now.micros + settings.loginLockoutSeconds * microsPerSecond < instantCount
  noSuccess : ∀ step ∈ trace (login settings platform) accounts attempts, ∀ user,
    step.request.account platform step.before = some user → user.id = userId →
      ∀ credentials, step.outcome ≠ .ok (some credentials)

section Run

variable {appSecret csrfSecret : PyStr} (hApp : settings.appSecretKey = some appSecret)
  (hCsrf : settings.csrfSecret = some csrfSecret) {userId : Nat}

include hApp hCsrf in
/-- The first attempt acts on the row, and the others are a run from there. -/
theorem Guessing.step {accounts : Accounts} {attempt : LoginAttempt} {attempts : List LoginAttempt}
    (h : Guessing settings platform userId accounts (attempt :: attempts)) {row : User}
    (hRow : accounts.user? userId = some row) :
    Guessing settings platform userId (login settings platform attempt accounts).2 attempts ∧
      ∃ after, (login settings platform attempt accounts).2.user? userId = some after ∧
        RowEffect settings attempt.now row
          (wrongGuess platform userId (answer (login settings platform) attempt accounts)) after := by
  obtain ⟨hIds, after, hAfter, hEffect⟩ := rowEffect_of_login hApp hCsrf (h.calendar attempt (by simp)) h.ids hRow
    (h.noSuccess (answer (login settings platform) attempt accounts) (by simp))
  refine ⟨?_, after, hAfter, hEffect⟩
  exact {
    ids := hIds
    clock := (List.pairwise_cons.mp h.clock).2
    calendar := fun other hm => h.calendar other (by simp [hm])
    noSuccess := fun step hm => h.noSuccess step (by simp [hm]) }

include hApp hCsrf in
/-- From the start of the interval on, the allowance bounds the wrong guesses. The
induction is on the attempts. -/
theorem Guessing.countP_le_allowance {accounts : Accounts} {attempts : List LoginAttempt}
    (h : Guessing settings platform userId accounts attempts) {row : User}
    (hRow : accounts.user? userId = some row) {start : Int}
    (hStart : ∀ attempt ∈ attempts, start ≤ attempt.now.micros) :
    (trace (login settings platform) accounts attempts).countP (fun step =>
      wrongGuess platform userId step && inWindow start settings.loginLockoutSeconds step.request.now) ≤
      allowance settings (start + (settings.loginLockoutSeconds * microsPerSecond : Nat)) row := by
  induction attempts generalizing accounts row with
  | nil => simp [trace]
  | cons attempt attempts ih =>
      obtain ⟨hRest, after, hAfter, hEffect⟩ := h.step hApp hCsrf hRow
      have hTail := ih hRest hAfter fun other hm => hStart other (by simp [hm])
      have hHere := hStart attempt (by simp)
      rw [trace_cons, List.countP_cons]
      by_cases hStop : (attempt.now.micros : Int) < start + (settings.loginLockoutSeconds * microsPerSecond : Nat)
      · have hSpent := hEffect.allowance_le hStop (by omega)
        have hInside : inWindow start settings.loginLockoutSeconds
            (answer (login settings platform) attempt accounts).request.now = true := by
          simpa [inWindow, answer] using ⟨hHere, hStop⟩
        rw [hInside, Bool.and_true]
        cases hGuess : wrongGuess platform userId (answer (login settings platform) attempt accounts) with
        | false =>
            rw [hGuess, Bool.toNat_false] at hSpent
            rw [if_neg Bool.false_ne_true]
            omega
        | true =>
            rw [hGuess, Bool.toNat_true] at hSpent
            rw [if_pos rfl]
            omega
      · -- all that follows is later than the interval
        have hLate : ∀ other ∈ attempt :: attempts,
            inWindow start settings.loginLockoutSeconds other.now = false := by
          intro other hOther
          have hOrder : attempt.now ≤ other.now := by
            rcases List.mem_cons.mp hOther with rfl | hOther
            · exact le_refl other.now.micros
            · exact (List.pairwise_cons.mp h.clock).1 other hOther
          rw [Instant.le_def] at hOrder
          simp only [inWindow, decide_eq_false_iff_not]
          omega
        have hNone : ((trace (login settings platform) (login settings platform attempt accounts).2 attempts).countP
            fun step => wrongGuess platform userId step &&
              inWindow start settings.loginLockoutSeconds step.request.now) = 0 := by
          rw [List.countP_eq_zero]
          intro step hStep
          have hRequest : step.request ∈ attempts := by
            rw [← map_request_trace (login settings platform) (login settings platform attempt accounts).2 attempts]
            exact List.mem_map.mpr ⟨step, hStep, rfl⟩
          simp [hLate step.request (by simp [hRequest])]
        simp [hNone, answer, hLate attempt (by simp)]

include hApp hCsrf in
/-- No interval of the length of the lock admits more wrong guesses than the
setting. The attempts before it cannot add to the allowance. -/
theorem Guessing.countP_le {accounts : Accounts} {attempts : List LoginAttempt}
    (h : Guessing settings platform userId accounts attempts) {row : User}
    (hRow : accounts.user? userId = some row) (start : Int) :
    (trace (login settings platform) accounts attempts).countP (fun step =>
      wrongGuess platform userId step && inWindow start settings.loginLockoutSeconds step.request.now) ≤
      settings.loginMaxFailedAttempts := by
  induction attempts generalizing accounts row with
  | nil => simp
  | cons attempt attempts ih =>
      by_cases hStart : start ≤ attempt.now.micros
      · have hAll : ∀ other ∈ attempt :: attempts, start ≤ other.now.micros := by
          intro other hOther
          rcases List.mem_cons.mp hOther with rfl | hOther
          · exact hStart
          · have hOrder := (List.pairwise_cons.mp h.clock).1 other hOther
            rw [Instant.le_def] at hOrder
            omega
        exact (h.countP_le_allowance hApp hCsrf hRow hAll).trans (allowance_le _ row)
      · -- an attempt before the interval does not count
        obtain ⟨hRest, after, hAfter, -⟩ := h.step hApp hCsrf hRow
        have hOutside : inWindow start settings.loginLockoutSeconds attempt.now = false := by
          simp only [inWindow, decide_eq_false_iff_not]
          omega
        rw [trace_cons, List.countP_cons]
        simpa [answer, hOutside] using ih hRest hAfter

include hApp hCsrf in
theorem Guessing.final {accounts : Accounts} {attempts : List LoginAttempt}
    (h : Guessing settings platform userId accounts attempts) {row : User}
    (hRow : accounts.user? userId = some row) :
    ((final (login settings platform) accounts attempts).users.map User.id).Nodup ∧
      ∃ last, (final (login settings platform) accounts attempts).user? userId = some last ∧
        last.passwordHash = row.passwordHash := by
  induction attempts generalizing accounts row with
  | nil => exact ⟨h.ids, row, hRow, rfl⟩
  | cons attempt attempts ih =>
      obtain ⟨hRest, after, hAfter, hEffect⟩ := h.step hApp hCsrf hRow
      obtain ⟨hIds, last, hLast, hHash⟩ := ih hRest hAfter
      exact ⟨hIds, last, hLast, hHash.trans hEffect.fields.2⟩

include hApp hCsrf in
/-- A locked account answers every attempt with a failure and stays as it is, the
right password included. -/
theorem login_of_locked {attempt : LoginAttempt} {accounts : Accounts} {user : User}
    (hAccount : attempt.account platform accounts = some user) (hLocked : user.Locked attempt.now) :
    login settings platform attempt accounts = (.ok none, accounts) := by
  obtain ⟨hashes, hHashes⟩ := exists_clientHashes hApp hCsrf attempt
  have hBody : loginTransaction settings platform attempt accounts = (.ok none, accounts) := by
    simp [loginTransaction, bind_def, hAccount, hLocked]
  simpa [login, bind_def, hHashes] using atomically_ok hBody

include hApp hCsrf in
/-- An unlocked active account accepts its password, and the row is cleared. -/
theorem login_of_unlocked {attempt : LoginAttempt} {accounts : Accounts}
    (hIds : (accounts.users.map User.id).Nodup) {user : User}
    (hAccount : attempt.account platform accounts = some user) (hUnlocked : ¬user.Locked attempt.now)
    (hActive : user.isActive = true) (hVerify : platform.verify user.passwordHash attempt.password = true)
    (hRehash : platform.needsRehash user.passwordHash = false)
    (hFresh : ∀ tokenHash, hashSessionToken attempt.token = .ok tokenHash →
      accounts.getByTokenHash tokenHash = none)
    (hCalendar : attempt.now.micros + settings.sessionAbsoluteTimeoutSeconds * microsPerSecond < instantCount) :
    ∃ credentials after cleared, login settings platform attempt accounts = (.ok (some credentials), after) ∧
      credentials.token = attempt.token ∧ after.user? user.id = some cleared ∧
      cleared.failedLoginAttempts = 0 ∧ cleared.lockedUntil = none := by
  obtain ⟨hLiftId, hUsername, hHash, hIsActive, -⟩ := user.liftExpiredLock_fields
  obtain ⟨hashes, hHashes⟩ := exists_clientHashes hApp hCsrf attempt
  have hToken := hashSessionToken_eq_ok attempt.token_scalar
  let written : User := { user.liftExpiredLock with
    failedLoginAttempts := 0
    lockedUntil := none
    lastLoginAt := some attempt.now }
  obtain ⟨rotated, hRotate, hNone⟩ := exists_rotatePrevious
    (fun text h => attempt.request_scalar text (.inr (.inr h))) attempt.now (accounts.saveUser written)
  obtain ⟨credentials, after, hCreate⟩ := exists_createRecord hApp hCsrf
    (fun text h => attempt.request_scalar text (.inl h)) (fun text h => attempt.request_scalar text (.inr (.inl h)))
    hToken hCalendar written (hNone _ (hFresh _ hToken))
  have hComplete : completeLogin settings platform attempt user.liftExpiredLock accounts = (.ok credentials, after) := by
    have hCurrent : currentHash settings platform attempt user.liftExpiredLock =
        .ok user.liftExpiredLock.passwordHash := by
      simp [currentHash, hHash, hRehash]
    rw [completeLogin, hCurrent]
    exact (bind_ok hRotate _).trans hCreate
  have hBody : loginTransaction settings platform attempt accounts = (.ok (some credentials), after) := by
    simp [loginTransaction, bind_def, hAccount, hUnlocked, hHash, hVerify, hIsActive, hActive, hComplete]
  have hLogin : login settings platform attempt accounts = (.ok (some credentials), after) := by
    simpa [login, bind_def, hHashes] using atomically_ok hBody
  obtain ⟨-, record, hRecord⟩ := createRecord_eq_ok hCreate
  obtain ⟨passwordHash, hUsers⟩ := completeLogin_users hComplete
  refine ⟨credentials, after, { written with passwordHash := passwordHash }, hLogin, hRecord.token, ?_, rfl, rfl⟩
  rw [Accounts.user?, hUsers]
  refine (Accounts.user?_saveUser _ accounts user.id).trans ?_
  rw [LoginAttempt.user?_of_account hIds hAccount, Option.map_some, if_pos hLiftId.symm]

include hApp hCsrf in
/-- While nobody gets in, every half-open interval of the length of the lock
sees at most the allowed number of wrong guesses. Whatever happened, a locked
account refuses without a trace and an unlocked one accepts its password. -/
theorem guessing_bounded {accounts : Accounts} {attempts : List LoginAttempt}
    (h : Guessing settings platform userId accounts attempts) {row : User}
    (hRow : accounts.user? userId = some row) {password salt : PyStr}
    (hHash : row.passwordHash = platform.hash password salt) :
    (∀ start : Int, (trace (login settings platform) accounts attempts).countP (fun step =>
        wrongGuess platform userId step && inWindow start settings.loginLockoutSeconds step.request.now) ≤
        settings.loginMaxFailedAttempts) ∧
      ∀ attempt user, attempt.account platform (final (login settings platform) accounts attempts) = some user →
        user.id = userId →
        (user.Locked attempt.now → login settings platform attempt (final (login settings platform) accounts attempts) =
          (.ok none, final (login settings platform) accounts attempts)) ∧
        (¬user.Locked attempt.now → user.isActive = true →
          platform.verify user.passwordHash attempt.password = true →
          (∀ tokenHash, hashSessionToken attempt.token = .ok tokenHash →
            (final (login settings platform) accounts attempts).getByTokenHash tokenHash = none) →
          attempt.now.micros + settings.sessionAbsoluteTimeoutSeconds * microsPerSecond < instantCount →
          ∃ credentials after cleared,
            login settings platform attempt (final (login settings platform) accounts attempts) =
              (.ok (some credentials), after) ∧ credentials.token = attempt.token ∧
            after.user? userId = some cleared ∧ cleared.failedLoginAttempts = 0 ∧ cleared.lockedUntil = none) := by
  refine ⟨h.countP_le hApp hCsrf hRow, fun attempt user hAccount hId =>
    ⟨login_of_locked hApp hCsrf hAccount, fun hUnlocked hActive hVerify hFresh hCalendar => ?_⟩⟩
  obtain ⟨hIds, last, hLast, hLastHash⟩ := h.final hApp hCsrf hRow
  have hUser : user = last := by
    have hFind := LoginAttempt.user?_of_account hIds hAccount
    rw [hId, hLast] at hFind
    exact (Option.some.inj hFind).symm
  have hRehash : platform.needsRehash user.passwordHash = false := by
    rw [hUser, hLastHash, hHash]
    exact platform.needsRehash_hash password salt
  obtain ⟨credentials, after, cleared, hLogin, hToken, hCleared, hFields⟩ :=
    login_of_unlocked hApp hCsrf hIds hAccount hUnlocked hActive hVerify hRehash hFresh hCalendar
  exact ⟨credentials, after, cleared, hLogin, hToken, hId ▸ hCleared, hFields⟩

end Run

end Service

/-- The default settings, with secrets of their own. -/
def sampleSettings : AuthSettings where
  appSecretKey := some (py "an application secret of this test")
  csrfSecret := some (py "a CSRF secret for the same small test")
  sessionIdleTimeoutSeconds := 1800
  sessionAbsoluteTimeoutSeconds := 43200
  sessionTouchIntervalSeconds := 60
  loginMaxFailedAttempts := 5
  loginLockoutSeconds := 900
  passwordMinLength := 12
  passwordMaxLength := 1024
  secrets_scalar := by
    rintro secret (h | h)
    · cases h
      decide
    · cases h
      decide
  secrets_ne := by
    rintro secret ⟨h₁, h₂⟩
    rw [← h₁] at h₂
    revert h₂
    decide
  idle_range := by decide
  absolute_range := by decide
  touch_range := by decide
  attempts_range := by decide
  lockout_range := by decide
  idle_lt_absolute := by decide
  touch_lt_idle := by decide
  password_range := by decide

/-- The settings of an installation without secrets, which the validation accepts
outside of production. -/
def unconfiguredSettings : AuthSettings :=
  { sampleSettings with
    appSecretKey := none
    csrfSecret := none
    secrets_scalar := by simp
    secrets_ne := by simp }

/-- Folds ASCII text, and marks a password instead of hashing it, so that samples
can be run. -/
def samplePlatform : Platform where
  casefold := List.map asciiLower
  hash password _ := 0x24 :: password
  verify passwordHash password := passwordHash = 0x24 :: password
  needsRehash passwordHash := passwordHash.head? ≠ some 0x24
  verify_hash := by simp
  needsRehash_hash := by simp

def sampleUser : User where
  id := 1
  username := py "admin"
  passwordHash := 0x24 :: py "correct horse battery staple"
  isActive := true
  failedLoginAttempts := 0
  lockedUntil := none
  passwordChangedAt := none
  lastLoginAt := none

def sampleAccounts : Accounts := ⟨[sampleUser], []⟩

def sampleAttempt (password : PyStr) (now : Instant) : LoginAttempt where
  username := py "Admin"
  password := password
  ipAddress := none
  userAgent := none
  previousSessionToken := none
  now := now
  token := py "dG9rZW4tMDAwMQ"
  salt := []
  request_scalar := by simp
  token_scalar := by decide

def sampleNow : Instant := ⟨63920404800000000, by decide⟩

/-- The last second of the year 9999. -/
def lastNow : Instant := ⟨315537897599000000, by decide⟩

/-- Without the secrets the password of an active, unlocked account is not
accepted. In the last second of the calendar no lock can begin, and every guess
is checked. -/
theorem login_bound_fails :
    login unconfiguredSettings samplePlatform (sampleAttempt (py "correct horse battery staple") sampleNow)
        sampleAccounts = (.error (.runtimeError
          "Session authentication requires app_secret_key and csrf_secret."), sampleAccounts) ∧
      (trace (login sampleSettings samplePlatform) sampleAccounts
        (List.replicate 9 (sampleAttempt (py "wrong") lastNow))).countP (fun step =>
          wrongGuess samplePlatform 1 step && inWindow lastNow.micros 900 step.request.now) = 9 := by
  decide

/-- Five wrong guesses at noon, and one more while the account is locked. -/
def lockingAttempts : List LoginAttempt := List.replicate 6 (sampleAttempt (py "wrong") sampleNow)

/-- No interval sees more than five of them, and the lock refuses the password itself. -/
theorem guessing_bounded_sample :
    (∀ start : Int, (trace (login sampleSettings samplePlatform) sampleAccounts lockingAttempts).countP (fun step =>
        wrongGuess samplePlatform 1 step && inWindow start 900 step.request.now) ≤ 5) ∧
      login sampleSettings samplePlatform (sampleAttempt (py "correct horse battery staple") sampleNow)
          (final (login sampleSettings samplePlatform) sampleAccounts lockingAttempts) =
        (.ok none, final (login sampleSettings samplePlatform) sampleAccounts lockingAttempts) := by
  have hNone : ∀ step ∈ trace (login sampleSettings samplePlatform) sampleAccounts lockingAttempts,
      step.outcome = .ok none := by decide +kernel
  have hGuessing : Guessing sampleSettings samplePlatform 1 sampleAccounts lockingAttempts := {
    ids := by decide
    clock := by decide
    calendar := by decide
    noSuccess := by
      intro step hStep user _ _ credentials hSome
      rw [hNone step hStep] at hSome
      cases hSome }
  obtain ⟨hBound, hAfter⟩ := @guessing_bounded sampleSettings samplePlatform _ _ rfl rfl 1 _ _ hGuessing sampleUser rfl
    (py "correct horse battery staple") [] rfl
  refine ⟨hBound, ?_⟩
  have hLocked : ((sampleAttempt (py "correct horse battery staple") sampleNow).account samplePlatform
      (final (login sampleSettings samplePlatform) sampleAccounts lockingAttempts)).any
        (fun user => decide (user.id = 1 ∧ user.Locked sampleNow)) = true := by decide +kernel
  obtain ⟨user, hUser, hLocks⟩ := (Option.any_eq_true _ _).mp hLocked
  obtain ⟨hId, hLock⟩ := of_decide_eq_true hLocks
  exact (hAfter _ user hUser hId).1 hLock

end SoftwareHub.Auth
