import SoftwareHub.Python.Base64
import SoftwareHub.Python.Hmac
import SoftwareHub.Python.Instant

/-! `app.core.csrf`: signed login and session tokens, how they are issued and how
they are verified. -/
namespace SoftwareHub.Core

open SoftwareHub.Python

/-- The settings that the token service reads, with what their validation checks. -/
structure CsrfSettings where
  csrfSecret : Option PyStr
  csrfTokenTtlSeconds : Nat
  csrfTokenMaxLength : Nat
  loginCsrfTtlSeconds : Nat
  ttl_range : 300 ≤ csrfTokenTtlSeconds ∧ csrfTokenTtlSeconds ≤ 43200
  length_range : 128 ≤ csrfTokenMaxLength ∧ csrfTokenMaxLength ≤ 2048
  login_ttl_range : 60 ≤ loginCsrfTtlSeconds ∧ loginCsrfTtlSeconds ≤ 3600

/-- A `CSRFError` with its reason, or any other exception. -/
inductive CsrfFailure where
  | rejected (reason : String)
  | raised (e : PyException)
  deriving DecidableEq, Repr

/-- `_TOKEN_MAC_BYTES`, the length of a SHA-256 digest. -/
def tokenMacBytes : Nat := 32

def maxFutureSkewSeconds : Int := 60

/-- The named groups of `_TOKEN_PATTERN`: the time, the nonce and the MAC. -/
structure TokenParts where
  issuedAt : PyStr
  nonce : PyStr
  mac : PyStr
  deriving DecidableEq, Repr

/-- What the groups of `_TOKEN_PATTERN` accept. -/
def TokenParts.Matches (parts : TokenParts) : Prop :=
  (1 ≤ parts.issuedAt.length ∧ parts.issuedAt.length ≤ 12 ∧ parts.issuedAt.all isDigit) ∧
    (32 ≤ parts.nonce.length ∧ parts.nonce.length ≤ 128 ∧ parts.nonce.all Base64.isUrlSafe) ∧
    parts.mac.length = 43 ∧ parts.mac.all Base64.isUrlSafe

instance (parts : TokenParts) : Decidable parts.Matches := inferInstanceAs (Decidable (_ ∧ _ ∧ _ ∧ _))

/-- The four dotted segments of a token; no group contains a dot. -/
def tokenText (issuedAt nonce mac : PyStr) : PyStr :=
  List.intercalate [0x2E] [py "v1", issuedAt, nonce, mac]

/-- `_TOKEN_PATTERN.fullmatch`. -/
def matchToken (token : PyStr) : Option TokenParts :=
  match token.splitOn 0x2E with
  | [version, issuedAt, nonce, mac] =>
      if version = py "v1" ∧ (TokenParts.mk issuedAt nonce mac).Matches then some ⟨issuedAt, nonce, mac⟩
      else none
  | _ => none

/-- `int(match.group("issued_at"))`, of ASCII digits. -/
def TokenParts.issued (parts : TokenParts) : Int := digitsValue (parts.issuedAt.map (· - 0x30))

/-- The text that a MAC covers: version, purpose, time and nonce, with a NUL between
them. All of it is ASCII. -/
def macPayload (purpose : PyStr) (issuedAt : Int) (nonce : PyStr) : PyStr :=
  List.intercalate [0] [py "v1", purpose, intRepr issuedAt, nonce]

/-- The MAC of one token under a key. -/
def mac (key : Bytes) (purpose : PyStr) (issuedAt : Int) (nonce : PyStr) : Bytes :=
  Hmac.digest key ((macPayload purpose issuedAt nonce).map UInt8.ofNat)

/-- `bytes.fromhex`; blanks may stand between the pairs. -/
def fromhex : PyStr → Option Bytes
  | [] => some []
  | c :: rest =>
      if (9 ≤ c ∧ c ≤ 13) ∨ c = 0x20 then fromhex rest
      else match rest with
        | [] => none
        | d :: rest => do
            let high ← hexValue? c
            let low ← hexValue? d
            return UInt8.ofNat (high * 16 + low) :: (← fromhex rest)
where
  hexValue? (c : Nat) : Option Nat :=
    if 0x30 ≤ c ∧ c ≤ 0x39 then some (c - 0x30)
    else if 0x61 ≤ c ∧ c ≤ 0x66 then some (c - 0x57)
    else if 0x41 ≤ c ∧ c ≤ 0x46 then some (c - 0x37)
    else none

/-- `hmac.compare_digest` of two strings, the first of them ASCII. -/
def compareNonce (nonce : PyStr) (expectedNonce : Option PyStr) : Except CsrfFailure Unit :=
  match expectedNonce with
  | none => .ok ()
  | some expected =>
      if expected.any (0x80 ≤ ·) then .error (.raised .typeError)
      else if nonce = expected then .ok ()
      else .error (.rejected "context_mismatch")

section Service

variable (settings : CsrfSettings)

/-- The key of the login tokens, from the setting of that name. -/
def globalKey : Except CsrfFailure Bytes :=
  match settings.csrfSecret with
  | none => .error (.raised (.runtimeError "CSRF protection requires csrf_secret."))
  | some secret => match encodeUtf8 secret with
    | none => .error (.raised .unicodeEncodeError)
    | some key => .ok key

/-- The key of the tokens of one session, from the secret stored with it. -/
def sessionKey (csrfSecretHash : PyStr) : Except CsrfFailure Bytes :=
  match fromhex csrfSecretHash with
  | none => .error (.rejected "invalid_session_context")
  | some key =>
      if key.length ≠ tokenMacBytes then .error (.rejected "invalid_session_context") else .ok key

/-- The text of a token, with the time in whole seconds. -/
def issue (now : Instant) (key : Bytes) (purpose nonce : PyStr) : PyStr :=
  tokenText (intRepr now.timestamp) nonce (Base64.encode (mac key purpose now.timestamp nonce))

/-- `_verify`: the pattern, the age, the nonce and the MAC, in this order. -/
def verify (now : Instant) (token : Option PyStr) (key : Bytes) (purpose : PyStr) (ttlSeconds : Nat)
    (expectedNonce : Option PyStr) : Except CsrfFailure Unit :=
  let token := token.getD []
  if token = [] then .error (.rejected "missing")
  else if settings.csrfTokenMaxLength < token.length then .error (.rejected "oversized")
  else match matchToken token with
    | none => .error (.rejected "malformed")
    | some parts => match Base64.decode parts.mac with
      | none => .error (.rejected "malformed")
      | some suppliedMac =>
          if suppliedMac.length ≠ tokenMacBytes then .error (.rejected "malformed")
          else
            let age := now.timestamp - parts.issued
            if age < -maxFutureSkewSeconds then .error (.rejected "issued_in_future")
            else if ttlSeconds < age then .error (.rejected "expired")
            else do
              compareNonce parts.nonce expectedNonce
              if suppliedMac = mac key purpose parts.issued parts.nonce then .ok ()
              else .error (.rejected "signature_mismatch")

structure LoginCsrfContext where
  cookieValue : PyStr
  token : PyStr
  maxAge : Nat
  deriving DecidableEq, Repr

/-- `issue_login_context`, where the nonce is the generated one. -/
def issueLoginContext (now : Instant) (nonce : PyStr) : Except CsrfFailure LoginCsrfContext := do
  let key ← globalKey settings
  return ⟨nonce, issue now key (py "login") nonce, settings.loginCsrfTtlSeconds⟩

/-- `verify_login_token`: the cookie must be there, and its nonce is the one of the
token. -/
def verifyLoginToken (now : Instant) (cookieValue token : Option PyStr) : Except CsrfFailure Unit :=
  let cookie := cookieValue.getD []
  if cookie = [] then .error (.rejected "login_cookie_missing")
  else do
    let key ← globalKey settings
    verify settings now token key (py "login") settings.loginCsrfTtlSeconds (some cookie)

def issueSessionToken (now : Instant) (csrfSecretHash nonce : PyStr) : Except CsrfFailure PyStr := do
  let key ← sessionKey csrfSecretHash
  return issue now key (py "session") nonce

/-- `verify_session_token`, where the key ties the token to the session. -/
def verifySessionToken (now : Instant) (csrfSecretHash : PyStr) (token : Option PyStr) :
    Except CsrfFailure Unit := do
  let key ← sessionKey csrfSecretHash
  verify settings now token key (py "session") settings.csrfTokenTtlSeconds none

end Service

end SoftwareHub.Core
