import SoftwareHub.Core.Csrf
import SoftwareHub.Python.DateTime
import SoftwareHub.Semantics.Program

/-! Issued tokens are accepted exactly within their lifetime, and no MAC can be
moved to another key, purpose, time or nonce. -/
namespace SoftwareHub.Core

open SoftwareHub.Python SoftwareHub.Semantics

/-- Issued texts match the pattern, and their groups are the parts they were written
from. -/
theorem matchToken_tokenText {issuedAt nonce mac : PyStr}
    (h : (TokenParts.mk issuedAt nonce mac).Matches) :
    matchToken (tokenText issuedAt nonce mac) = some ⟨issuedAt, nonce, mac⟩ := by
  obtain ⟨⟨-, -, hDigits⟩, ⟨-, -, hNonce⟩, -, hMac⟩ := id h
  have hDigit {c : Nat} (hc : isDigit c = true) : c ≠ 0x2E := by
    rintro rfl
    exact absurd hc (by decide)
  have hUrlSafe {c : Nat} (hc : Base64.isUrlSafe c = true) : c ≠ 0x2E := by
    rintro rfl
    exact absurd hc (by decide)
  have hDot : ∀ part ∈ [py "v1", issuedAt, nonce, mac], 0x2E ∉ part := by
    simp only [List.forall_mem_cons]
    refine ⟨by decide, fun hc => ?_, fun hc => ?_, fun hc => ?_, by simp⟩
    · exact hDigit (List.all_eq_true.mp hDigits _ hc) rfl
    · exact hUrlSafe (List.all_eq_true.mp hNonce _ hc) rfl
    · exact hUrlSafe (List.all_eq_true.mp hMac _ hc) rfl
  rw [matchToken, tokenText, List.splitOn_intercalate 0x2E hDot (by simp)]
  exact if_pos ⟨rfl, h⟩

theorem matches_of_matchToken {token : PyStr} {parts : TokenParts} (h : matchToken token = some parts) :
    parts.Matches := by
  unfold matchToken at h
  split at h
  · split_ifs at h with hMatches
    cases h
    exact hMatches.2
  · cases h

theorem length_mac (key : Bytes) (purpose : PyStr) (issuedAt : Int) (nonce : PyStr) :
    (mac key purpose issuedAt nonce).length = tokenMacBytes := Hmac.length_digest _ _

theorem length_tokenText (issuedAt nonce mac : PyStr) :
    (tokenText issuedAt nonce mac).length = issuedAt.length + nonce.length + mac.length + 5 := by
  simp [tokenText, List.intercalate, py]
  omega

/-- A nonce of the length `secrets.token_urlsafe` produces. -/
structure IsNonce (nonce : PyStr) : Prop where
  length : nonce.length = 43
  urlSafe : nonce.all Base64.isUrlSafe = true

/-- The parts of a token issued from 1970 on, in the form that the pattern asks
for. -/
theorem issue_parts {now : Instant} (hNow : Instant.epochMicros ≤ now.micros) (key : Bytes) (purpose : PyStr)
    {nonce : PyStr} (hNonce : IsNonce nonce) :
    ∃ parts, matchToken (issue now key purpose nonce) = some parts ∧ parts.issued = now.timestamp ∧
      parts.nonce = nonce ∧ Base64.decode parts.mac = some (mac key purpose now.timestamp nonce) ∧
      (issue now key purpose nonce).length ≤ 128 ∧ issue now key purpose nonce ≠ [] := by
  obtain ⟨n, hTimestamp, hSmall⟩ := Instant.exists_timestamp hNow
  have hDecimal : intRepr now.timestamp = decimal n := by rw [hTimestamp]; rfl
  have hLength : (decimal n).length ≤ 12 := DateTime.length_decimal_le (by decide) hSmall
  have hPositive : 1 ≤ (decimal n).length := List.length_pos_iff.mpr (decimal_ne_nil n)
  have hMacLength : (Base64.encode (mac key purpose now.timestamp nonce)).length = 43 := by
    rw [Base64.length_encode, length_mac]
    rfl
  have hMatches : (TokenParts.mk (decimal n) nonce (Base64.encode (mac key purpose now.timestamp nonce))).Matches :=
    ⟨⟨hPositive, hLength, List.all_eq_true.mpr fun c hc => isDigit_of_mem_decimal hc⟩,
      ⟨by rw [hNonce.length]; decide, by rw [hNonce.length]; decide, hNonce.urlSafe⟩, hMacLength,
      List.all_eq_true.mpr (Base64.isUrlSafe_of_mem_encode _)⟩
  refine ⟨_, by rw [issue, hDecimal]; exact matchToken_tokenText hMatches, ?_, rfl, Base64.decode_encode _, ?_, ?_⟩
  · simp only [TokenParts.issued, digitsValue_decimal, hTimestamp]
  · rw [issue, hDecimal, length_tokenText, hMacLength, hNonce.length]
    omega
  · rw [issue, ne_eq, ← List.length_eq_zero_iff, length_tokenText]
    omega

section Service

variable {settings : CsrfSettings}

/-- An ASCII nonce is compared without an error, and accepted when it is the
expected one. -/
theorem compareNonce_eq_ok_iff {nonce : PyStr} (hNonce : nonce.all Base64.isUrlSafe = true)
    {expectedNonce : Option PyStr} :
    compareNonce nonce expectedNonce = .ok () ↔ ∀ expected ∈ expectedNonce, nonce = expected := by
  cases expectedNonce with
  | none => simp [compareNonce]
  | some expected =>
      have hAscii : nonce = expected → expected.any (0x80 ≤ ·) = false := by
        rintro rfl
        rw [List.any_eq_false]
        intro c hc
        have hSafe := List.all_eq_true.mp hNonce c hc
        simp only [Base64.isUrlSafe, isDigit, Bool.or_eq_true, Bool.and_eq_true, decide_eq_true_eq,
          beq_iff_eq] at hSafe
        simp only [decide_eq_true_eq]
        omega
      simp only [compareNonce, Option.mem_def, Option.some.injEq, forall_eq']
      split_ifs with hAny hEq
      · simpa using fun h => by simp [hAscii h] at hAny
      · simp [hEq]
      · simp [hEq]

/-- A token is accepted if and only if it matches the pattern within the size
limit, its age is in range, its nonce is the expected one and its MAC is right. -/
theorem verify_eq_ok_iff {now : Instant} {token : PyStr} {key : Bytes} {purpose : PyStr} {ttlSeconds : Nat}
    {expectedNonce : Option PyStr} :
    verify settings now (some token) key purpose ttlSeconds expectedNonce = .ok () ↔
      token ≠ [] ∧ token.length ≤ settings.csrfTokenMaxLength ∧ ∃ parts, matchToken token = some parts ∧
        Base64.decode parts.mac = some (mac key purpose parts.issued parts.nonce) ∧
        -maxFutureSkewSeconds ≤ now.timestamp - parts.issued ∧ now.timestamp - parts.issued ≤ ttlSeconds ∧
        ∀ expected ∈ expectedNonce, parts.nonce = expected := by
  by_cases hEmpty : token = []
  · simp [verify, hEmpty]
  by_cases hLong : settings.csrfTokenMaxLength < token.length
  · simp [verify, hEmpty, hLong]
  cases hMatch : matchToken token with
  | none => simp [verify, hEmpty, hLong, hMatch]
  | some parts =>
      have hNonce := (matches_of_matchToken hMatch).2.1.2.2
      cases hDecode : Base64.decode parts.mac with
      | none => simp [verify, hEmpty, hLong, hMatch, hDecode]
      | some suppliedMac =>
          simp only [verify, Option.getD_some, hEmpty, hLong, hMatch, hDecode, if_false, ne_eq, not_false_eq_true,
            true_and, Option.some.injEq, exists_eq_left', Nat.not_lt.mp hLong]
          by_cases hLength : suppliedMac.length = tokenMacBytes
          · by_cases hFuture : now.timestamp - parts.issued < -maxFutureSkewSeconds
            · have hNot : ¬-maxFutureSkewSeconds ≤ now.timestamp - parts.issued := by omega
              simp [hLength, hFuture, hNot]
            · by_cases hExpired : (ttlSeconds : Int) < now.timestamp - parts.issued
              · have hNot : ¬now.timestamp - parts.issued ≤ ttlSeconds := by omega
                simp [hLength, hFuture, hExpired, hNot]
              · have hAge : -maxFutureSkewSeconds ≤ now.timestamp - parts.issued ∧
                    now.timestamp - parts.issued ≤ ttlSeconds := by omega
                rw [← compareNonce_eq_ok_iff hNonce]
                cases hCompare : compareNonce parts.nonce expectedNonce with
                | error e => simp [hLength, hFuture, hExpired, bind, Except.bind]
                | ok u => simp [hLength, hFuture, hExpired, hAge, bind, Except.bind]
          · have hNe : suppliedMac ≠ mac key purpose parts.issued parts.nonce := by
              rintro rfl
              exact hLength (length_mac _ _ _ _)
            simp [hLength, hNe]

end Service

theorem zero_not_mem_intRepr (n : Int) : 0 ∉ intRepr n := by
  have hDecimal (n : Nat) : 0 ∉ decimal n := fun h => absurd (isDigit_of_mem_decimal h) (by decide)
  cases n with
  | ofNat n => exact hDecimal n
  | negSucc n => simpa [intRepr] using hDecimal (n + 1)

theorem zero_not_mem_of_urlSafe {nonce : PyStr} (h : nonce.all Base64.isUrlSafe = true) : 0 ∉ nonce :=
  fun hc => absurd (List.all_eq_true.mp h 0 hc) (by decide)

theorem intRepr_injective {m n : Nat} (h : intRepr m = intRepr n) : m = n := by
  have hDecimal : decimal m = decimal n := h
  rw [← digitsValue_decimal m, ← digitsValue_decimal n, hDecimal]

/-- The payload determines the purpose, the time and the nonce: none of them
contains the NUL that separates them. -/
theorem macPayload_injective {purpose purpose' nonce nonce' : PyStr} {issuedAt issuedAt' : Int}
    (hPurpose : 0 ∉ purpose) (hPurpose' : 0 ∉ purpose') (hNonce : 0 ∉ nonce) (hNonce' : 0 ∉ nonce')
    (h : macPayload purpose issuedAt nonce = macPayload purpose' issuedAt' nonce') :
    purpose = purpose' ∧ intRepr issuedAt = intRepr issuedAt' ∧ nonce = nonce' := by
  have hVersion : 0 ∉ py "v1" := by decide
  have hSplit := congrArg (List.splitOn 0) h
  rw [macPayload, macPayload, List.splitOn_intercalate 0 _ (by simp), List.splitOn_intercalate 0 _ (by simp)] at hSplit
  · simpa using hSplit
  · simp only [List.forall_mem_cons]
    exact ⟨hVersion, hPurpose', zero_not_mem_intRepr _, hNonce', by simp⟩
  · simp only [List.forall_mem_cons]
    exact ⟨hVersion, hPurpose, zero_not_mem_intRepr _, hNonce, by simp⟩

/-- ASCII text and its bytes are the same thing, so that the payload may be read off
its bytes. -/
theorem map_ofNat_injective {s t : PyStr} (hs : ∀ c ∈ s, c < 256) (ht : ∀ c ∈ t, c < 256)
    (h : s.map UInt8.ofNat = t.map UInt8.ofNat) : s = t := by
  have hBack {text : PyStr} (hText : ∀ c ∈ text, c < 256) : (text.map UInt8.ofNat).map UInt8.toNat = text := by
    rw [List.map_map]
    refine (List.map_congr_left fun c hc => ?_).trans (List.map_id text)
    simp [Nat.mod_eq_of_lt (hText c hc)]
  rw [← hBack hs, ← hBack ht, h]

theorem macPayload_small {purpose nonce : PyStr} (hPurpose : ∀ c ∈ purpose, c < 256)
    (hNonce : nonce.all Base64.isUrlSafe = true) (issuedAt : Int) :
    ∀ c ∈ macPayload purpose issuedAt nonce, c < 256 := by
  have hVersion : ∀ c ∈ py "v1", c < 256 := by decide
  have hDecimal (n : Nat) : ∀ c ∈ decimal n, c < 256 := by
    intro c hc
    have hDigit := isDigit_of_mem_decimal hc
    simp only [isDigit, Bool.and_eq_true, decide_eq_true_eq] at hDigit
    omega
  have hTime : ∀ c ∈ intRepr issuedAt, c < 256 := by
    cases issuedAt with
    | ofNat n => exact hDecimal n
    | negSucc n => exact List.forall_mem_cons.mpr ⟨by decide, hDecimal (n + 1)⟩
  have hSafe : ∀ c ∈ nonce, c < 256 := by
    intro c hc
    have hChar := List.all_eq_true.mp hNonce c hc
    simp only [Base64.isUrlSafe, isDigit, Bool.or_eq_true, Bool.and_eq_true, decide_eq_true_eq, beq_iff_eq] at hChar
    omega
  simp only [macPayload, List.intercalate, List.intersperse, List.flatten_cons, List.flatten_nil,
    List.append_nil, List.forall_mem_append, List.forall_mem_singleton]
  exact ⟨hVersion, by decide, hPurpose, by decide, hTime, by decide, hSafe⟩

/-- What a token is bound to: the login cookie or the secret of a session. -/
inductive Channel where
  | login (cookie : PyStr)
  | session (csrfSecretHash : PyStr)

namespace Channel

def purpose : Channel → PyStr
  | login _ => py "login"
  | session _ => py "session"

def cookie : Channel → Option PyStr
  | login cookie => some cookie
  | session _ => none

def key (settings : CsrfSettings) : Channel → Except CsrfFailure Bytes
  | login _ => globalKey settings
  | session csrfSecretHash => sessionKey csrfSecretHash

def ttlSeconds (settings : CsrfSettings) : Channel → Nat
  | login _ => settings.loginCsrfTtlSeconds
  | session _ => settings.csrfTokenTtlSeconds

/-- The token of `issue_login_context` or of `issue_session_token`. -/
def issueToken (settings : CsrfSettings) (now : Instant) (nonce : PyStr) : Channel → Except CsrfFailure PyStr
  | login _ => do return (← issueLoginContext settings now nonce).token
  | session csrfSecretHash => issueSessionToken now csrfSecretHash nonce

/-- `verify_login_token` or `verify_session_token`. -/
def verifyToken (settings : CsrfSettings) (now : Instant) (token : PyStr) : Channel → Except CsrfFailure Unit
  | login cookie => verifyLoginToken settings now (some cookie) (some token)
  | session csrfSecretHash => verifySessionToken settings now csrfSecretHash (some token)

variable {settings : CsrfSettings} {channel : Channel}

theorem issueToken_eq_ok {now : Instant} {nonce token : PyStr}
    (h : channel.issueToken settings now nonce = .ok token) :
    ∃ key, channel.key settings = .ok key ∧ token = issue now key channel.purpose nonce := by
  cases channel with
  | login cookie =>
      obtain ⟨context, hContext, h⟩ := except_bind_eq_ok h
      obtain ⟨key, hKey, hContext⟩ := except_bind_eq_ok hContext
      cases hContext
      cases h
      exact ⟨key, hKey, rfl⟩
  | session csrfSecretHash =>
      obtain ⟨key, hKey, h⟩ := except_bind_eq_ok h
      cases h
      exact ⟨key, hKey, rfl⟩

/-- Both kinds of tokens are verified alike, once the cookie and the key are there. -/
theorem verifyToken_eq_ok_iff {now : Instant} {token : PyStr} :
    channel.verifyToken settings now token = .ok () ↔ (∀ cookie ∈ channel.cookie, cookie ≠ []) ∧
      ∃ key, channel.key settings = .ok key ∧
        verify settings now (some token) key channel.purpose (channel.ttlSeconds settings) channel.cookie = .ok () := by
  cases channel with
  | login cookie =>
      by_cases hCookie : cookie = []
      · simp [verifyToken, verifyLoginToken, Channel.cookie, hCookie]
      · cases hKey : globalKey settings <;>
          simp [verifyToken, verifyLoginToken, Channel.cookie, Channel.key, hCookie, hKey, purpose, ttlSeconds,
            bind, Except.bind]
  | session csrfSecretHash =>
      cases hKey : sessionKey csrfSecretHash <;>
        simp [verifyToken, verifySessionToken, Channel.cookie, Channel.key, hKey, purpose, ttlSeconds, bind,
          Except.bind]

theorem purpose_chars : ∀ c ∈ channel.purpose, c ≠ 0 ∧ c < 256 := by
  cases channel with
  | login cookie => exact (by decide : ∀ c ∈ py "login", c ≠ 0 ∧ c < 256)
  | session csrfSecretHash => exact (by decide : ∀ c ∈ py "session", c ≠ 0 ∧ c < 256)

/-- The key and the payload bytes of a MAC, which are all that it depends on. -/
def macInput (key : Bytes) (channel : Channel) (issuedAt : Int) (nonce : PyStr) : Bytes × Bytes :=
  (key, (macPayload channel.purpose issuedAt nonce).map UInt8.ofNat)

/-- Two MACs over the same input belong to one purpose, one time and one nonce under
one key. -/
theorem macInput_injective {key key' : Bytes} {channel channel' : Channel} {m n : Nat} {nonce nonce' : PyStr}
    (hNonce : nonce.all Base64.isUrlSafe = true) (hNonce' : nonce'.all Base64.isUrlSafe = true)
    (h : macInput key channel m nonce = macInput key' channel' n nonce') :
    key = key' ∧ channel.purpose = channel'.purpose ∧ m = n ∧ nonce = nonce' := by
  obtain ⟨hKey, hPayload⟩ := Prod.mk.inj h
  have hText := map_ofNat_injective (macPayload_small (fun c hc => (purpose_chars c hc).2) hNonce m)
    (macPayload_small (fun c hc => (purpose_chars c hc).2) hNonce' n) hPayload
  obtain ⟨hPurpose, hTime, hNonceEq⟩ := macPayload_injective (fun h => (purpose_chars 0 h).1 rfl)
    (fun h => (purpose_chars 0 h).1 rfl) (zero_not_mem_of_urlSafe hNonce) (zero_not_mem_of_urlSafe hNonce') hText
  exact ⟨hKey, hPurpose, intRepr_injective hTime, hNonceEq⟩

end Channel

open Channel in
/-- A token is accepted under its own key exactly while its age in whole
seconds is in range, whatever the size limit. -/
theorem verifyToken_issued_iff {settings : CsrfSettings} {now : Instant}
    (hNow : Instant.epochMicros ≤ now.micros) {nonce : PyStr} (hNonce : IsNonce nonce) {channel : Channel}
    (hCookie : ∀ cookie ∈ channel.cookie, cookie = nonce) {token : PyStr}
    (hIssue : channel.issueToken settings now nonce = .ok token) (later : Instant) :
    channel.verifyToken settings later token = .ok () ↔ -60 ≤ later.timestamp - now.timestamp ∧
      later.timestamp - now.timestamp ≤ channel.ttlSeconds settings := by
  obtain ⟨key, hKey, rfl⟩ := issueToken_eq_ok hIssue
  obtain ⟨parts, hParts, hIssued, hPartsNonce, hMac, hLength, hNil⟩ := issue_parts hNow key channel.purpose hNonce
  have hCookies : ∀ cookie ∈ channel.cookie, cookie ≠ [] := by
    rintro cookie hMem rfl
    have hEmpty := hNonce.length
    simp [← hCookie [] hMem] at hEmpty
  have hFits := hLength.trans settings.length_range.1
  have hExpected : ∀ expected ∈ channel.cookie, nonce = expected := fun cookie hMem => (hCookie cookie hMem).symm
  rw [verifyToken_eq_ok_iff]
  constructor
  · rintro ⟨-, key', hKey', hVerify⟩
    obtain ⟨-, -, found, hFound, -, hPast, hFuture, -⟩ := verify_eq_ok_iff.mp hVerify
    obtain rfl : parts = found := Option.some.inj (hParts.symm.trans hFound)
    rw [hIssued] at hPast hFuture
    exact ⟨hPast, hFuture⟩
  · rintro ⟨hPast, hFuture⟩
    refine ⟨hCookies, key, hKey, verify_eq_ok_iff.mpr ⟨hNil, hFits, parts, hParts, ?_, ?_, ?_, ?_⟩⟩
    · rw [hIssued, hPartsNonce, hMac]
    · rwa [hIssued]
    · rwa [hIssued]
    · rwa [hPartsNonce]

open Channel in
/-- Issued tokens are accepted within their lifetime and not outside. A text with the MAC of an issued
token is only accepted for the key, purpose, time and nonce it was issued for,
as long as HMAC does not collide on the inputs in use. -/
theorem csrf_tokens_bound (settings : CsrfSettings) {now : Instant} (hNow : Instant.epochMicros ≤ now.micros)
    {nonce : PyStr} (hNonce : IsNonce nonce) (channel : Channel) (hCookie : ∀ cookie ∈ channel.cookie, cookie = nonce)
    {token : PyStr} (hIssue : channel.issueToken settings now nonce = .ok token) :
    (∀ later, channel.verifyToken settings later token = .ok () ↔
        -60 ≤ later.timestamp - now.timestamp ∧
          later.timestamp - now.timestamp ≤ channel.ttlSeconds settings) ∧
      ∃ key tag, channel.key settings = .ok key ∧
        (∃ parts, matchToken token = some parts ∧ Base64.decode parts.mac = some tag) ∧
        ∀ (used : Set (Bytes × Bytes)), Set.InjOn (fun input => Hmac.digest input.1 input.2) used →
          macInput key channel now.timestamp nonce ∈ used →
          ∀ other later text, Channel.verifyToken settings later text other = .ok () →
            ∃ key' parts, other.key settings = .ok key' ∧ matchToken text = some parts ∧
              (macInput key' other parts.issued parts.nonce ∈ used → Base64.decode parts.mac = some tag →
                key' = key ∧ other.purpose = channel.purpose ∧ parts.issued = now.timestamp ∧
                  parts.nonce = nonce ∧ ∀ cookie ∈ other.cookie, cookie = nonce) := by
  obtain ⟨key, hKey, rfl⟩ := issueToken_eq_ok hIssue
  obtain ⟨parts, hParts, -, -, hMac, -, -⟩ := issue_parts hNow key channel.purpose hNonce
  refine ⟨verifyToken_issued_iff hNow hNonce hCookie hIssue, key, _, hKey, ⟨parts, hParts, hMac⟩,
    fun used hInjective hUsed => ?_⟩
  · intro other later text hAccept
    obtain ⟨-, key', hKey', hVerify⟩ := verifyToken_eq_ok_iff.mp hAccept
    obtain ⟨-, -, found, hFound, hFoundMac, -, -, hFoundCookie⟩ := verify_eq_ok_iff.mp hVerify
    refine ⟨key', found, hKey', hFound, fun hFoundUsed hSame => ?_⟩
    have hDigest : Hmac.digest (macInput key' other found.issued found.nonce).1
          (macInput key' other found.issued found.nonce).2 =
        Hmac.digest (macInput key channel now.timestamp nonce).1 (macInput key channel now.timestamp nonce).2 :=
      Option.some.inj (hFoundMac.symm.trans hSame)
    have hInput := hInjective hFoundUsed hUsed hDigest
    obtain ⟨n, hTimestamp, -⟩ := Instant.exists_timestamp hNow
    rw [hTimestamp] at hInput
    obtain ⟨rfl, hPurpose, hTime, hNonceEq⟩ :=
      macInput_injective (matches_of_matchToken hFound).2.1.2.2 hNonce.urlSafe hInput
    refine ⟨rfl, hPurpose, ?_, hNonceEq, fun cookie hMem => ?_⟩
    · rw [hTimestamp, TokenParts.issued, hTime]
    · rw [← hNonceEq, hFoundCookie cookie hMem]

/-- The default lifetimes, with a secret of their own. -/
def sampleSettings : CsrfSettings where
  csrfSecret := some (py "a CSRF secret for the same small test")
  csrfTokenTtlSeconds := 7200
  csrfTokenMaxLength := 512
  loginCsrfTtlSeconds := 600
  ttl_range := by decide
  length_range := by decide
  login_ttl_range := by decide

def sampleNonce : PyStr := py "xR3_tN8-qLw0ZbVhK5mJ2yUeCfG7sDaPoI1kT9vBnMQ"

theorem sampleNonce_isNonce : IsNonce sampleNonce := ⟨by decide, by decide⟩

/-- 23 July 2026, 0.9 seconds after noon. -/
def sampleNow : Instant := ⟨63920404800900000, by decide⟩

def sampleKey : Bytes := (py "a CSRF secret for the same small test").flatMap utf8Char

theorem issueToken_sample : Channel.issueToken sampleSettings sampleNow sampleNonce (.login sampleNonce) =
    .ok (issue sampleNow sampleKey (py "login") sampleNonce) := by
  have hKey : globalKey sampleSettings = .ok sampleKey := by decide
  simp [Channel.issueToken, issueLoginContext, hKey, bind, Except.bind, pure, Except.pure]

/-- A login token is still accepted 0.05 seconds after its lifetime, and 60.9
seconds before it was issued. -/
theorem token_outlives_ttl : ∃ token late early,
    Channel.issueToken sampleSettings sampleNow sampleNonce (.login sampleNonce) = .ok token ∧
      sampleNow.micros + 600 * microsPerSecond < late.micros ∧
      Channel.verifyToken sampleSettings late token (.login sampleNonce) = .ok () ∧
      early.micros < sampleNow.micros - 60 * microsPerSecond ∧
      Channel.verifyToken sampleSettings early token (.login sampleNonce) = .ok () := by
  have hAccept := verifyToken_issued_iff (by decide) sampleNonce_isNonce (by simp [Channel.cookie]) issueToken_sample
  refine ⟨_, ⟨63920405400950000, by decide⟩, ⟨63920404740000000, by decide⟩, issueToken_sample, by decide,
    (hAccept _).mpr ?_, by decide, (hAccept _).mpr ?_⟩
  · decide
  · decide

theorem csrf_tokens_bound_sample :
    (∀ later, Channel.verifyToken sampleSettings later (issue sampleNow sampleKey (py "login") sampleNonce)
          (.login sampleNonce) = .ok () ↔
        -60 ≤ later.timestamp - sampleNow.timestamp ∧ later.timestamp - sampleNow.timestamp ≤ (600 : Nat)) ∧
      ∃ key tag, Channel.key sampleSettings (.login sampleNonce) = .ok key ∧
        (∃ parts, matchToken (issue sampleNow sampleKey (py "login") sampleNonce) = some parts ∧
          Base64.decode parts.mac = some tag) ∧
        ∀ (used : Set (Bytes × Bytes)), Set.InjOn (fun input => Hmac.digest input.1 input.2) used →
          Channel.macInput key (.login sampleNonce) sampleNow.timestamp sampleNonce ∈ used →
          ∀ other later text, Channel.verifyToken sampleSettings later text other = .ok () →
            ∃ key' parts, other.key sampleSettings = .ok key' ∧ matchToken text = some parts ∧
              (Channel.macInput key' other parts.issued parts.nonce ∈ used → Base64.decode parts.mac = some tag →
                key' = key ∧ other.purpose = py "login" ∧ parts.issued = sampleNow.timestamp ∧
                  parts.nonce = sampleNonce ∧ ∀ cookie ∈ other.cookie, cookie = sampleNonce) :=
  csrf_tokens_bound sampleSettings (by decide) sampleNonce_isNonce (.login sampleNonce) (by simp [Channel.cookie])
    issueToken_sample

end SoftwareHub.Core
