import SoftwareHub.Auth.Lockout
import SoftwareHub.Auth.SessionRequests

/-! What a login answers. The password of an old hash is checked against the
policy in force before it is hashed again, and the deadlines of a lock and of a
session must be dates of the calendar. -/
namespace SoftwareHub.Auth

open SoftwareHub.Python SoftwareHub.Semantics Program

/-- The policy of `PasswordService.validate`, as a condition on the two texts. -/
structure MeetsPolicy (settings : AuthSettings) (platform : Platform) (password username : PyStr) : Prop where
  minimum : settings.passwordMinLength ≤ password.length
  maximum : password.length ≤ settings.passwordMaxLength
  stripped : password = strip password
  distinct : platform.casefold password ≠ platform.casefold username

/-- The date that many seconds later exists, so that the addition does not raise. -/
def InCalendar (now : Instant) (seconds : Nat) : Prop := now.micros + seconds * microsPerSecond < instantCount

instance (now : Instant) (seconds : Nat) : Decidable (InCalendar now seconds) := inferInstanceAs (Decidable (_ < _))

section Service

variable (settings : AuthSettings) (platform : Platform) (attempt : LoginAttempt) (accounts : Accounts)

/-- The account exists, is active and not locked, and the password is its own. -/
def Entitled : Prop := ∃ user, attempt.account platform accounts = some user ∧ user.isActive = true ∧
  ¬user.Locked attempt.now ∧ platform.verify user.passwordHash attempt.password = true

/-- The login returns, with credentials exactly for those entitled to them. -/
def LoginDecides : Prop := ∃ answer, (login settings platform attempt accounts).1 = .ok answer ∧
  (answer.isSome = true ↔ Entitled platform attempt accounts)

/-- What the login of an active account with its password goes through: the policy
for a new hash, a free token and a deadline in the calendar. -/
structure CanComplete (user : User) : Prop where
  policy : platform.needsRehash user.passwordHash = true →
    MeetsPolicy settings platform attempt.password user.username
  deadline : InCalendar attempt.now settings.sessionAbsoluteTimeoutSeconds
  fresh : ∀ tokenHash, hashSessionToken attempt.token = .ok tokenHash → accounts.getByTokenHash tokenHash = none

/-- Nothing stands in the way of an answer for an unlocked account. -/
def Answerable : Prop := ∀ user, attempt.account platform accounts = some user → ¬user.Locked attempt.now →
  (platform.verify user.passwordHash attempt.password = true → user.isActive = true →
    CanComplete settings platform attempt accounts user) ∧
  (platform.verify user.passwordHash attempt.password = false →
    settings.loginMaxFailedAttempts ≤ user.liftExpiredLock.failedLoginAttempts + 1 →
    InCalendar attempt.now settings.loginLockoutSeconds)

variable {settings platform attempt accounts}

theorem validatePassword_eq_ok_iff {password username : PyStr} :
    validatePassword settings platform password username = .ok () ↔ MeetsPolicy settings platform password username := by
  constructor
  · intro h
    obtain ⟨_, hMinimum, h⟩ := except_bind_eq_ok h
    obtain ⟨_, hMaximum, h⟩ := except_bind_eq_ok h
    obtain ⟨_, hStripped, hDistinct⟩ := except_bind_eq_ok h
    exact ⟨require_eq_ok_iff.mp hMinimum, require_eq_ok_iff.mp hMaximum, require_eq_ok_iff.mp hStripped,
      require_eq_ok_iff.mp hDistinct⟩
  · intro h
    exact (except_bind_ok (if_pos h.minimum) _).trans <| (except_bind_ok (if_pos h.maximum) _).trans <|
      (except_bind_ok (if_pos h.stripped) _).trans (if_pos h.distinct)

/-- The hash of the account is kept, or the password meets the policy and is hashed
again. -/
theorem exists_currentHash_iff {user : User} :
    (∃ passwordHash, currentHash settings platform attempt user = .ok passwordHash) ↔
      (platform.needsRehash user.passwordHash = true →
        MeetsPolicy settings platform attempt.password user.username) := by
  unfold currentHash
  by_cases hOld : platform.needsRehash user.passwordHash = true
  · rw [if_pos hOld]
    constructor
    · intro h _
      obtain ⟨passwordHash, hHash⟩ := h
      obtain ⟨_, hValid, -⟩ := except_bind_eq_ok hHash
      exact validatePassword_eq_ok_iff.mp hValid
    · intro h
      have hValid := validatePassword_eq_ok_iff.mpr (h hOld)
      exact ⟨_, except_bind_ok hValid _⟩
  · rw [if_neg hOld]
    exact ⟨fun _ h => absurd h hOld, fun _ => ⟨_, rfl⟩⟩

/-- Revoking the previous session frees no token. -/
theorem getByTokenHash_of_revoked {rawToken : Option PyStr} {now : Instant} {before after : Accounts}
    (hKeyed : before.Keyed) (h : TokenRevoked rawToken now before after) {tokenHash : PyStr}
    (hFree : after.getByTokenHash tokenHash = none) : before.getByTokenHash tokenHash = none := by
  cases h with
  | absent => exact hFree
  | @live token record hRecord hRaw hHash =>
      apply List.find?_eq_none.mpr
      intro row hRow
      by_cases hSame : row.id = record.id
      · obtain rfl : row = record := List.inj_on_of_nodup_map hKeyed.ids hRow hRecord hSame
        have hMem : { row with revokedAt := some now } ∈ (before.saveSession { row with revokedAt := some now }).sessions :=
          mem_updateRows.mpr ⟨row, hRow, (if_pos rfl).symm⟩
        have hOther := List.find?_eq_none.mp hFree _ hMem
        exact hOther
      · have hMem : row ∈ (before.saveSession { record with revokedAt := some now }).sessions :=
          mem_updateRows.mpr ⟨row, hRow, (if_neg hSame).symm⟩
        exact List.find?_eq_none.mp hFree _ hMem

/-- The wrong password is counted unless its lock would end after the calendar. -/
theorem exists_recordFailure_of {user : User} {now : Instant}
    (h : settings.loginMaxFailedAttempts ≤ user.failedLoginAttempts + 1 → InCalendar now settings.loginLockoutSeconds) :
    ∃ failed, recordFailure settings user now = .ok failed := by
  by_cases hMax : settings.loginMaxFailedAttempts ≤ user.failedLoginAttempts + 1
  · exact exists_recordFailure (h hMax) user
  · exact ⟨_, if_neg hMax⟩

/-- An expired lock makes no difference to what the password goes through. -/
theorem canComplete_liftExpiredLock {user : User} :
    CanComplete settings platform attempt accounts user.liftExpiredLock ↔
      CanComplete settings platform attempt accounts user := by
  obtain ⟨-, hUsername, hHash, -⟩ := user.liftExpiredLock_fields
  constructor
  · intro h
    exact ⟨by rw [← hUsername, ← hHash]; exact h.policy, h.deadline, h.fresh⟩
  · intro h
    exact ⟨by rw [hUsername, hHash]; exact h.policy, h.deadline, h.fresh⟩

section Configured

variable {appSecret csrfSecret : PyStr} (hApp : settings.appSecretKey = some appSecret)
  (hCsrf : settings.csrfSecret = some csrfSecret)

include hApp hCsrf in
theorem exists_completeLogin {user : User} (h : CanComplete settings platform attempt accounts user) :
    ∃ credentials after, completeLogin settings platform attempt user accounts = (.ok credentials, after) := by
  obtain ⟨passwordHash, hHash⟩ := exists_currentHash_iff.mpr h.policy
  have hToken := hashSessionToken_eq_ok attempt.token_scalar
  let written : User := { user with
    passwordHash := passwordHash
    failedLoginAttempts := 0
    lockedUntil := none
    lastLoginAt := some attempt.now }
  obtain ⟨rotated, hRotate, hNone⟩ := exists_rotatePrevious
    (fun text h => attempt.request_scalar text (.inr (.inr h))) attempt.now (accounts.saveUser written)
  obtain ⟨credentials, after, hCreate⟩ := exists_createRecord hApp hCsrf
    (fun text h => attempt.request_scalar text (.inl h)) (fun text h => attempt.request_scalar text (.inr (.inl h)))
    hToken h.deadline written (hNone _ (h.fresh _ hToken))
  refine ⟨credentials, after, ?_⟩
  rw [completeLogin, hHash]
  exact (bind_ok hRotate _).trans hCreate

theorem canComplete_of_run (hKeyed : accounts.Keyed) {user : User} {credentials : SessionCredentials} {after : Accounts}
    (h : completeLogin settings platform attempt user accounts = (.ok credentials, after)) :
    CanComplete settings platform attempt accounts user := by
  obtain ⟨passwordHash, hHash, h⟩ := lift_bind_eq_ok h
  rw [write_bind] at h
  obtain ⟨_, rotated, hRotate, hCreate⟩ := bind_eq_ok h
  obtain ⟨-, record, hCreated⟩ := createRecord_eq_ok hCreate
  refine ⟨exists_currentHash_iff.mp ⟨passwordHash, hHash⟩, ?_, ?_⟩
  · rw [InCalendar, ← hCreated.absolute]
    exact record.absoluteExpiresAt.micros_lt
  · intro tokenHash hToken
    obtain rfl := Except.ok.inj (hToken.symm.trans hCreated.tokenHash)
    have hKeyedSaved : Accounts.Keyed (accounts.saveUser { user with
      passwordHash := passwordHash
      failedLoginAttempts := 0
      lockedUntil := none
      lastLoginAt := some attempt.now }) := ⟨hKeyed.ids, hKeyed.hashes⟩
    exact getByTokenHash_of_revoked hKeyedSaved (rotatePrevious_eq_ok hKeyedSaved hRotate) hCreated.fresh

include hApp hCsrf in
/-- A login answers as it should if and only if nothing stands in its way, for any
tables, settings and times. -/
theorem login_decides_iff (hKeyed : accounts.Keyed) :
    LoginDecides settings platform attempt accounts ↔ Answerable settings platform attempt accounts := by
  have hEffect := login_effect settings platform attempt accounts
  unfold LoginDecides
  generalize (login settings platform attempt accounts).1 = outcome at hEffect ⊢
  generalize (login settings platform attempt accounts).2 = after at hEffect
  -- a refusal is right for those who are not entitled
  have hRefused (hNot : ¬Entitled platform attempt accounts) :
      ∃ answer : Option SessionCredentials, (Except.ok none : Except PyException _) = .ok answer ∧
        (answer.isSome = true ↔ Entitled platform attempt accounts) :=
    ⟨none, rfl, ⟨nofun, fun h => absurd h hNot⟩⟩
  have hRaised (e : PyException) : ¬∃ answer : Option SessionCredentials, Except.error e = .ok answer ∧
      (answer.isSome = true ↔ Entitled platform attempt accounts) := by
    intro h
    obtain ⟨answer, hEq, -⟩ := h
    cases hEq
  -- all that follows is about the one account of the attempt
  have hOnly {user : User} (hAccount : attempt.account platform accounts = some user) {P : User → Prop} :
      (∀ other, attempt.account platform accounts = some other → P other) ↔ P user :=
    ⟨fun h => h user hAccount, fun h other hOther => Option.some.inj (hAccount.symm.trans hOther) ▸ h⟩
  have hNotEntitled {user : User} (hAccount : attempt.account platform accounts = some user)
      (h : ¬(user.isActive = true ∧ ¬user.Locked attempt.now ∧
        platform.verify user.passwordHash attempt.password = true)) : ¬Entitled platform attempt accounts := by
    intro hEntitled
    obtain ⟨other, hOther, hRest⟩ := hEntitled
    exact h (Option.some.inj (hAccount.symm.trans hOther) ▸ hRest)
  cases hEffect with
  | unconfigured hHashes =>
      obtain ⟨hashes, hOk⟩ := exists_clientHashes hApp hCsrf attempt
      cases hOk.symm.trans hHashes
  | unknown hAccount =>
      refine iff_of_true (hRefused ?_) fun user hUser => ?_
      · intro h
        obtain ⟨user, hUser, -⟩ := h
        cases hAccount.symm.trans hUser
      · cases hAccount.symm.trans hUser
  | locked hAccount hLocked =>
      refine iff_of_true (hRefused (hNotEntitled hAccount fun h => h.2.1 hLocked)) ((hOnly hAccount).mpr ?_)
      intro hUnlocked
      exact absurd hLocked hUnlocked
  | wrong hAccount hUnlocked hVerify hFailed =>
      refine iff_of_true (hRefused (hNotEntitled hAccount fun h => ?_)) ((hOnly hAccount).mpr fun _ => ⟨?_, ?_⟩)
      · cases hVerify.symm.trans h.2.2
      · intro h
        cases hVerify.symm.trans h
      · intro _ hMax
        obtain ⟨deadline, hDeadline, -⟩ := (recordFailure_eq_ok hFailed).2.2.2.2.1 hMax
        exact Instant.exists_add_iff.mp ⟨deadline, hDeadline⟩
  | unlockable hAccount hUnlocked hVerify hFailed =>
      refine iff_of_false (hRaised _) fun h => ?_
      obtain ⟨failed, hOk⟩ := exists_recordFailure_of (((hOnly hAccount).mp h hUnlocked).2 hVerify)
      cases hOk.symm.trans hFailed
  | inactive hAccount hUnlocked hVerify hInactive =>
      refine iff_of_true (hRefused (hNotEntitled hAccount fun h => ?_)) ((hOnly hAccount).mpr fun _ => ⟨?_, ?_⟩)
      · cases hInactive.symm.trans h.1
      · intro _ hActive
        cases hInactive.symm.trans hActive
      · intro h
        cases hVerify.symm.trans h
  | @incomplete user e _ hAccount hUnlocked hVerify hActive hComplete =>
      refine iff_of_false (hRaised _) fun h => ?_
      have hCan := canComplete_liftExpiredLock.mpr (((hOnly hAccount).mp h hUnlocked).1 hVerify hActive)
      obtain ⟨credentials, done, hOk⟩ := exists_completeLogin hApp hCsrf hCan
      cases hOk.symm.trans hComplete
  | @success user credentials _ hAccount hUnlocked hVerify hActive hComplete =>
      refine iff_of_true ⟨some credentials, rfl, ?_⟩ ((hOnly hAccount).mpr fun _ => ⟨fun _ _ => ?_, ?_⟩)
      · exact ⟨fun _ => ⟨user, hAccount, hActive, hUnlocked, hVerify⟩, fun _ => rfl⟩
      · exact canComplete_liftExpiredLock.mp (canComplete_of_run hKeyed hComplete)
      · intro h
        cases hVerify.symm.trans h

end Configured

end Service

/-- A password of ten characters from before the minimum was twelve. -/
def shortPassword : PyStr := py "battery-10"

/-- Hashes of the old parameters start with another mark. -/
def upgradedPlatform : Platform :=
  { samplePlatform with
    verify := fun passwordHash password => passwordHash = 0x24 :: password ∨ passwordHash = 0x23 :: password
    verify_hash := by simp [samplePlatform]
    needsRehash_hash := samplePlatform.needsRehash_hash }

def oldAccounts : Accounts := ⟨[{ sampleUser with passwordHash := 0x23 :: shortPassword }], []⟩

/-- The old hash verifies, and the login raises because the password no longer meets
the policy. -/
theorem login_raises_for_old_password :
    (login sampleSettings upgradedPlatform (sampleAttempt shortPassword sampleNow) oldAccounts).1 =
        .error (.validationError "Password must contain at least 12 characters.") ∧
      Entitled upgradedPlatform (sampleAttempt shortPassword sampleNow) oldAccounts ∧
      ¬LoginDecides sampleSettings upgradedPlatform (sampleAttempt shortPassword sampleNow) oldAccounts := by
  have hRaised : (login sampleSettings upgradedPlatform (sampleAttempt shortPassword sampleNow) oldAccounts).1 =
      .error (.validationError "Password must contain at least 12 characters.") := by decide
  refine ⟨hRaised, ⟨_, rfl, rfl, by decide, by decide⟩, ?_⟩
  intro h
  obtain ⟨answer, hAnswer, -⟩ := h
  cases hRaised.symm.trans hAnswer

theorem login_decides_iff_sample :
    LoginDecides sampleSettings upgradedPlatform (sampleAttempt shortPassword sampleNow) oldAccounts ↔
      Answerable sampleSettings upgradedPlatform (sampleAttempt shortPassword sampleNow) oldAccounts :=
  login_decides_iff rfl rfl ⟨List.nodup_nil, List.nodup_nil⟩

end SoftwareHub.Auth
