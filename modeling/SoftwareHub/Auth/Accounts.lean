import SoftwareHub.Python.Hmac
import SoftwareHub.Python.Instant
import SoftwareHub.Python.Unicode
import SoftwareHub.Semantics.Program
import SoftwareHub.Semantics.Table

/-! Administrator accounts and their sessions: settings, rows, queries, and the
hashes that stand in for passwords, tokens and client data. -/
namespace SoftwareHub.Auth

open SoftwareHub.Python SoftwareHub.Semantics

/-- The settings that authentication reads, with what their validation checks as
fields of the structure. -/
structure AuthSettings where
  appSecretKey : Option PyStr
  csrfSecret : Option PyStr
  sessionIdleTimeoutSeconds : Nat
  sessionAbsoluteTimeoutSeconds : Nat
  sessionTouchIntervalSeconds : Nat
  loginMaxFailedAttempts : Nat
  loginLockoutSeconds : Nat
  passwordMinLength : Nat
  passwordMaxLength : Nat
  secrets_scalar : ∀ secret, appSecretKey = some secret ∨ csrfSecret = some secret → secret.all isScalar = true
  secrets_ne : ∀ secret, ¬(appSecretKey = some secret ∧ csrfSecret = some secret)
  idle_range : 60 ≤ sessionIdleTimeoutSeconds ∧ sessionIdleTimeoutSeconds ≤ 86400
  absolute_range : 300 ≤ sessionAbsoluteTimeoutSeconds ∧ sessionAbsoluteTimeoutSeconds ≤ 604800
  touch_range : sessionTouchIntervalSeconds ≤ 3600
  attempts_range : 2 ≤ loginMaxFailedAttempts ∧ loginMaxFailedAttempts ≤ 20
  lockout_range : 60 ≤ loginLockoutSeconds ∧ loginLockoutSeconds ≤ 86400
  idle_lt_absolute : sessionIdleTimeoutSeconds < sessionAbsoluteTimeoutSeconds
  touch_lt_idle : sessionTouchIntervalSeconds < sessionIdleTimeoutSeconds
  password_range : 8 ≤ passwordMinLength ∧ passwordMinLength < passwordMaxLength ∧ passwordMaxLength ≤ 4096

/-- A row of `users`, as far as authentication goes. -/
structure User where
  id : Nat
  username : PyStr
  passwordHash : PyStr
  isActive : Bool
  failedLoginAttempts : Nat
  lockedUntil : Option Instant
  passwordChangedAt : Option Instant
  lastLoginAt : Option Instant
  deriving DecidableEq, Repr

/-- A row of `user_sessions`. The token itself is not stored, only its hash. -/
structure UserSession where
  id : Nat
  sessionTokenHash : PyStr
  userId : Nat
  createdAt : Instant
  lastActivityAt : Instant
  expiresAt : Instant
  absoluteExpiresAt : Instant
  revokedAt : Option Instant
  userAgentHash : Option PyStr
  ipHash : Option PyStr
  csrfSecretHash : PyStr
  deriving DecidableEq, Repr

/-- The two tables of users and sessions. -/
structure Accounts where
  users : List User
  sessions : List UserSession
  deriving DecidableEq, Repr

/-- What the services take from third-party code: the Unicode case folding of
the interpreter and an Argon2id hasher for the configured parameters. A
`false` of `verify` is a verification error or an invalid hash. -/
structure Platform where
  casefold : PyStr → PyStr
  hash : PyStr → PyStr → PyStr
  verify : PyStr → PyStr → Bool
  needsRehash : PyStr → Bool
  verify_hash : ∀ password salt, verify (hash password salt) password = true
  needsRehash_hash : ∀ password salt, needsRehash (hash password salt) = false

abbrev AuthProgram (α : Type) : Type := Program Accounts PyException α

/-- `username.strip().casefold()`, under which an account is looked up. -/
def normalized (platform : Platform) (username : PyStr) : PyStr := platform.casefold (strip username)

namespace Accounts

/-- `get_by_username`: SQLite's `lower` only knows ASCII letters. -/
def getByUsername (platform : Platform) (username : PyStr) (accounts : Accounts) : Option User :=
  accounts.users.find? fun user => user.username.map asciiLower = normalized platform username

def user? (id : Nat) (accounts : Accounts) : Option User := accounts.users.find? fun user => user.id = id

/-- The row of a changed object is written back in its place. -/
def saveUser (user : User) (accounts : Accounts) : Accounts :=
  { accounts with users := updateRows (fun row => row.id = user.id) (fun _ => user) accounts.users }

/-- The session with a token hash, which is unique. -/
def getByTokenHash (tokenHash : PyStr) (accounts : Accounts) : Option UserSession :=
  accounts.sessions.find? fun session => session.sessionTokenHash = tokenHash

def saveSession (session : UserSession) (accounts : Accounts) : Accounts :=
  { accounts with
    sessions := updateRows (fun row => row.id = session.id) (fun _ => session) accounts.sessions }

/-- `revoke_all_for_user` of the repository, with one session that may be exempt. -/
def revokeAllForUser (userId : Nat) (now : Instant) (exceptSessionId : Option Nat) (accounts : Accounts) :
    Accounts :=
  { accounts with
    sessions := updateRows
      (fun row => row.userId = userId ∧ row.revokedAt = none ∧ ∀ id ∈ exceptSessionId, row.id ≠ id)
      (fun row => { row with revokedAt := some now }) accounts.sessions }

/-- `delete_expired`: the rows past their deadline are gone, revoked or not. -/
def deleteExpired (now : Instant) (accounts : Accounts) : Accounts :=
  { accounts with
    sessions := deleteRows (fun row => row.expiresAt ≤ now ∨ row.absoluteExpiresAt ≤ now) accounts.sessions }

end Accounts

/-- `text.encode("utf-8")`, which raises on a lone surrogate. -/
def encode (text : PyStr) : Except PyException Bytes :=
  match encodeUtf8 text with
  | some data => .ok data
  | none => .error .unicodeEncodeError

/-- The hash of a token, by which its session is found. -/
def hashSessionToken (token : PyStr) : Except PyException PyStr := do
  return Sha256.hexdigest (← encode token)

/-- `hmac_identifier`: client data is stored as a keyed hash only. -/
def hmacIdentifier (secret purpose : PyStr) (value : Option PyStr) : Except PyException (Option PyStr) :=
  match value with
  | none => .ok none
  | some value =>
      if strip value = [] then .ok none
      else do
        let payload ← encode (purpose ++ 0 :: strip value)
        return some (Hmac.hexdigest (← encode secret) payload)

/-- The secret of the CSRF tokens of a session, derived from its token hash. -/
def deriveCsrfSecretHash (csrfSecret sessionTokenHash : PyStr) : Except PyException PyStr := do
  return (← hmacIdentifier csrfSecret (py "csrf-session") (some sessionTokenHash)).getD []

theorem encode_eq_ok {text : PyStr} (h : text.all isScalar = true) :
    encode text = .ok (text.flatMap utf8Char) := by
  simp [encode, encodeUtf8, h]

theorem hashSessionToken_eq_ok {token : PyStr} (h : token.all isScalar = true) :
    hashSessionToken token = .ok (Sha256.hexdigest (token.flatMap utf8Char)) :=
  except_bind_ok (encode_eq_ok h) _

/-- Text without surrogates is hashed without an error, an absent one to nothing. -/
theorem exists_hmacIdentifier {secret purpose : PyStr} {value : Option PyStr}
    (hSecret : secret.all isScalar = true) (hPurpose : purpose.all isScalar = true)
    (hValue : ∀ text ∈ value, text.all isScalar = true) :
    ∃ identifier, hmacIdentifier secret purpose value = .ok identifier := by
  cases value with
  | none => exact ⟨none, rfl⟩
  | some text =>
      have hStrip : (strip text).all isScalar = true := by
        rw [List.all_eq_true] at *
        exact fun c hc => List.all_eq_true.mp (hValue text rfl) c
          (List.dropWhile_sublist _ |>.mem (List.rdropWhile_prefix _ _ |>.sublist.mem hc))
      have hPayload : (purpose ++ 0 :: strip text).all isScalar = true := by
        simp only [List.all_append, List.all_cons, hPurpose, hStrip, Bool.true_and, Bool.and_true]
        decide
      simp only [hmacIdentifier, encode_eq_ok hPayload, encode_eq_ok hSecret, bind, Except.bind, pure, Except.pure]
      split_ifs
      · exact ⟨none, rfl⟩
      · exact ⟨_, rfl⟩

end SoftwareHub.Auth
