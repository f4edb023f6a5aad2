import SoftwareHub.Core.CsrfTokens

/-! What the verification of a token raises. Every stage rejects what it does not
understand, except the comparison of the nonce with the login cookie, which takes
ASCII text only. -/
namespace SoftwareHub.Core

open SoftwareHub.Python SoftwareHub.Semantics

/-- It returns or raises `CSRFError`, which the routes answer with a refusal. -/
def FailsClosed (outcome : Except CsrfFailure Unit) : Prop :=
  outcome = .ok () ∨ ∃ reason, outcome = .error (.rejected reason)

theorem failsClosed_rejected (reason : String) : FailsClosed (.error (.rejected reason)) := Or.inr ⟨reason, rfl⟩

theorem not_failsClosed_raised (e : PyException) : ¬FailsClosed (.error (.raised e)) := by
  intro h
  rcases h with h | ⟨reason, h⟩ <;> cases h

def IsAscii (text : PyStr) : Prop := ∀ c ∈ text, c < 0x80

theorem any_high_iff (text : PyStr) : text.any (0x80 ≤ ·) = true ↔ ¬IsAscii text := by
  rw [List.any_eq_true, IsAscii]
  constructor
  · intro h hAscii
    obtain ⟨c, hMem, hHigh⟩ := h
    have hLow := hAscii c hMem
    have hHigh := of_decide_eq_true hHigh
    omega
  · intro h
    obtain ⟨c, hc⟩ := not_forall.mp h
    obtain ⟨hMem, hHigh⟩ := Classical.not_imp.mp hc
    exact ⟨c, hMem, decide_eq_true (Nat.le_of_not_lt hHigh)⟩

/-- The comparison of two strings raises `TypeError` on text that is not ASCII. -/
theorem compareNonce_failsClosed_iff (nonce : PyStr) (expectedNonce : Option PyStr) :
    FailsClosed (compareNonce nonce expectedNonce) ↔ ∀ expected ∈ expectedNonce, IsAscii expected := by
  cases expectedNonce with
  | none =>
      constructor
      · intro _
        nofun
      · intro _
        exact Or.inl rfl
  | some expected =>
      simp only [Option.mem_some_iff, forall_eq']
      rw [compareNonce]
      by_cases hHigh : expected.any (0x80 ≤ ·) = true
      · rw [if_pos hHigh]
        exact ⟨fun h => absurd h (not_failsClosed_raised _), fun h => absurd h ((any_high_iff expected).mp hHigh)⟩
      · rw [if_neg hHigh]
        have hAscii : IsAscii expected := not_not.mp fun h => hHigh ((any_high_iff expected).mpr h)
        constructor
        · intro _
          exact hAscii
        · intro _
          by_cases hEq : nonce = expected
          · rw [if_pos hEq]
            exact Or.inl rfl
          · rw [if_neg hEq]
            exact failsClosed_rejected _

section Service

variable (settings : CsrfSettings) (now : Instant)

/-- The token has the form of one that was issued within its lifetime, whatever its
MAC is. -/
def LooksCurrent (ttlSeconds : Nat) (token : PyStr) : Prop :=
  token.length ≤ settings.csrfTokenMaxLength ∧ ∃ parts, matchToken token = some parts ∧
    -maxFutureSkewSeconds ≤ now.timestamp - parts.issued ∧ now.timestamp - parts.issued ≤ ttlSeconds

variable {settings now}

/-- The MAC of a token that matches is 32 bytes, whatever its letters are, so that
its decoding cannot fail. -/
theorem decode_mac_of_matches {parts : TokenParts} (h : parts.Matches) :
    ∃ suppliedMac, Base64.decode parts.mac = some suppliedMac ∧ suppliedMac.length = tokenMacBytes := by
  obtain ⟨-, -, hLength, hSafe⟩ := h
  have hDecode : Base64.decode parts.mac = Base64.decodePadded (parts.mac ++ [0x3D]) := by
    rw [Base64.decode, hLength]
    rfl
  rw [hDecode]
  exact Base64.exists_decodePadded 10 parts.mac hLength (List.all_eq_true.mp hSafe)

/-- Before the nonce is compared, every refusal is a `CSRFError`. -/
theorem verify_failsClosed_iff {token : Option PyStr} {key : Bytes} {purpose : PyStr} {ttlSeconds : Nat}
    {expectedNonce : Option PyStr} :
    FailsClosed (verify settings now token key purpose ttlSeconds expectedNonce) ↔
      (LooksCurrent settings now ttlSeconds (token.getD []) → ∀ expected ∈ expectedNonce, IsAscii expected) := by
  have hRejected {outcome : Except CsrfFailure Unit} (hNot : ¬LooksCurrent settings now ttlSeconds (token.getD []))
      (h : ∃ reason, outcome = .error (.rejected reason)) : FailsClosed outcome ↔
        (LooksCurrent settings now ttlSeconds (token.getD []) → ∀ expected ∈ expectedNonce, IsAscii expected) :=
    ⟨fun _ hLooks => absurd hLooks hNot, fun _ => Or.inr h⟩
  unfold verify
  by_cases hEmpty : token.getD [] = []
  · rw [if_pos hEmpty]
    apply hRejected _ ⟨_, rfl⟩
    intro hLooks
    obtain ⟨-, parts, hMatch, -⟩ := hLooks
    rw [hEmpty] at hMatch
    cases hMatch
  rw [if_neg hEmpty]
  by_cases hLong : settings.csrfTokenMaxLength < (token.getD []).length
  · rw [if_pos hLong]
    exact hRejected (fun hLooks => absurd hLooks.1 (Nat.not_le.mpr hLong)) ⟨_, rfl⟩
  rw [if_neg hLong]
  rcases hMatch : matchToken (token.getD []) with _ | parts
  · apply hRejected _ ⟨_, rfl⟩
    intro hLooks
    obtain ⟨-, parts, hSome, -⟩ := hLooks
    cases hMatch.symm.trans hSome
  obtain ⟨suppliedMac, hDecode, hLength⟩ := decode_mac_of_matches (matches_of_matchToken hMatch)
  have hParts {P : TokenParts → Prop} (h : ∃ found, matchToken (token.getD []) = some found ∧ P found) : P parts := by
    obtain ⟨found, hFound, hP⟩ := h
    cases hMatch.symm.trans hFound
    exact hP
  simp only [hDecode]
  rw [if_neg (not_not.mpr hLength)]
  by_cases hFuture : now.timestamp - parts.issued < -maxFutureSkewSeconds
  · rw [if_pos hFuture]
    exact hRejected (fun hLooks => absurd (hParts hLooks.2).1 (Int.not_le.mpr hFuture)) ⟨_, rfl⟩
  rw [if_neg hFuture]
  by_cases hExpired : (ttlSeconds : Int) < now.timestamp - parts.issued
  · rw [if_pos hExpired]
    exact hRejected (fun hLooks => absurd (hParts hLooks.2).2 (Int.not_le.mpr hExpired)) ⟨_, rfl⟩
  rw [if_neg hExpired]
  have hLooks : LooksCurrent settings now ttlSeconds (token.getD []) :=
    ⟨Nat.le_of_not_lt hLong, parts, hMatch, Int.not_lt.mp hFuture, Int.not_lt.mp hExpired⟩
  have hCompare := compareNonce_failsClosed_iff parts.nonce expectedNonce
  rcases hOutcome : compareNonce parts.nonce expectedNonce with e | u
  · rw [hOutcome] at hCompare
    exact hCompare.trans ⟨fun h _ => h, fun h => h hLooks⟩
  · rw [hOutcome] at hCompare
    have hAscii := hCompare.mp (Or.inl rfl)
    constructor
    · intro _ _
      exact hAscii
    · intro _
      rw [except_bind_ok rfl]
      by_cases hMac : suppliedMac = mac key purpose parts.issued parts.nonce
      · rw [if_pos hMac]
        exact Or.inl rfl
      · rw [if_neg hMac]
        exact failsClosed_rejected _

/-- Tokens of sessions are compared with no cookie, and always fail closed. -/
theorem verifySessionToken_failsClosed (csrfSecretHash : PyStr) (token : Option PyStr) :
    FailsClosed (verifySessionToken settings now csrfSecretHash token) := by
  have hKey : (∃ key, sessionKey csrfSecretHash = .ok key) ∨
      sessionKey csrfSecretHash = .error (.rejected "invalid_session_context") := by
    rw [sessionKey]
    rcases fromhex csrfSecretHash with _ | key
    · exact Or.inr rfl
    · by_cases hLength : key.length ≠ tokenMacBytes
      · exact Or.inr (if_pos hLength)
      · exact Or.inl ⟨key, if_neg hLength⟩
  rw [verifySessionToken]
  rcases hKey with ⟨key, hKey⟩ | hKey
  · rw [except_bind_ok hKey]
    apply verify_failsClosed_iff.mpr
    intro _ text hText
    cases hText
  · rw [hKey]
    exact failsClosed_rejected _

/-- The secret is set, and it is text that UTF-8 can encode. -/
def HasSecret (settings : CsrfSettings) : Prop := ∃ secret ∈ settings.csrfSecret, ∀ c ∈ secret, isScalar c = true

theorem globalKey_cases : (HasSecret settings ∧ ∃ key, globalKey settings = .ok key) ∨
    ¬HasSecret settings ∧ ∃ e, globalKey settings = .error (.raised e) := by
  rw [HasSecret, globalKey]
  rcases settings.csrfSecret with _ | secret
  · apply Or.inr
    refine ⟨?_, _, rfl⟩
    intro h
    obtain ⟨secret, hMem, -⟩ := h
    cases hMem
  · by_cases hAll : secret.all isScalar = true
    · have hEncode : encodeUtf8 secret = some (secret.flatMap utf8Char) := if_pos hAll
      exact Or.inl ⟨⟨secret, rfl, List.all_eq_true.mp hAll⟩, _, by simp only [hEncode]; rfl⟩
    · have hEncode : encodeUtf8 secret = none := if_neg hAll
      apply Or.inr
      refine ⟨?_, _, by simp only [hEncode]; rfl⟩
      intro h
      obtain ⟨found, hFound, hScalar⟩ := h
      cases hFound
      exact hAll (List.all_eq_true.mpr hScalar)

end Service

/-- The verification of tokens fails closed unless a login cookie comes without a
usable secret, or a cookie that is not ASCII comes with a token that looks current. -/
theorem csrf_fails_closed_iff (settings : CsrfSettings) (now : Instant) (cookieValue token : Option PyStr)
    (csrfSecretHash : PyStr) :
    (FailsClosed (verifyLoginToken settings now cookieValue token) ∧
        FailsClosed (verifySessionToken settings now csrfSecretHash token)) ↔
      (cookieValue.getD [] ≠ [] → HasSecret settings ∧
        (LooksCurrent settings now settings.loginCsrfTtlSeconds (token.getD []) → IsAscii (cookieValue.getD []))) := by
  have hLogin : FailsClosed (verifyLoginToken settings now cookieValue token) ↔
      (cookieValue.getD [] ≠ [] → HasSecret settings ∧
        (LooksCurrent settings now settings.loginCsrfTtlSeconds (token.getD []) → IsAscii (cookieValue.getD []))) := by
    unfold verifyLoginToken
    by_cases hCookie : cookieValue.getD [] = []
    · rw [if_pos hCookie]
      exact ⟨fun _ h => absurd hCookie h, fun _ => failsClosed_rejected _⟩
    rw [if_neg hCookie]
    rcases @globalKey_cases settings with ⟨hSecret, key, hKey⟩ | ⟨hSecret, e, hKey⟩
    · rw [except_bind_ok hKey, verify_failsClosed_iff]
      simp only [Option.mem_some_iff, forall_eq']
      exact ⟨fun h _ => ⟨hSecret, h⟩, fun h => (h hCookie).2⟩
    · rw [hKey]
      exact ⟨fun h => absurd h (not_failsClosed_raised e), fun h => absurd (h hCookie).1 hSecret⟩
  rw [hLogin]
  exact and_iff_left (verifySessionToken_failsClosed csrfSecretHash token)

/-- A token that anybody can write, beside a cookie of one accented letter. -/
theorem login_cookie_raises_typeError :
    verifyLoginToken sampleSettings sampleNow (some [0xE9])
      (some (tokenText (intRepr sampleNow.timestamp) (List.replicate 32 0x41) (List.replicate 43 0x41))) =
        .error (.raised .typeError) ∧
      ¬∀ cookieValue token, FailsClosed (verifyLoginToken sampleSettings sampleNow cookieValue token) := by
  have hRaised : verifyLoginToken sampleSettings sampleNow (some [0xE9])
      (some (tokenText (intRepr sampleNow.timestamp) (List.replicate 32 0x41) (List.replicate 43 0x41))) =
        .error (.raised .typeError) := by decide
  refine ⟨hRaised, ?_⟩
  intro h
  have hFails := h (some [0xE9])
    (some (tokenText (intRepr sampleNow.timestamp) (List.replicate 32 0x41) (List.replicate 43 0x41)))
  rw [hRaised] at hFails
  exact not_failsClosed_raised _ hFails

end SoftwareHub.Core
