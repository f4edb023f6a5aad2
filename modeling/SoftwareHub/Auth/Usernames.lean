import SoftwareHub.Auth.SessionLiveness

/-! Usernames: their grammar, the creation of an account, and its lookup under every
spelling of its name. -/
namespace SoftwareHub.Auth

open SoftwareHub.Python SoftwareHub.Semantics Program

/-- `[a-z0-9._-]`, the characters inside a name. -/
def isUsernameChar (c : Nat) : Bool := isLowerAlnum c || c = 0x2E || c = 0x5F || c = 0x2D

/-- What the error message of `normalize_username` asks for: three to a hundred
characters, with a letter or a digit at either end. -/
structure UsernameText (s : PyStr) : Prop where
  length : 3 ≤ s.length ∧ s.length ≤ 100
  chars : ∀ c ∈ s, isUsernameChar c = true
  head : ∀ c ∈ s.head?, isLowerAlnum c = true
  last : ∀ c ∈ s.getLast?, isLowerAlnum c = true

theorem isUsername_append (first last : Nat) (middle : PyStr) : isUsername (first :: (middle ++ [last])) = true ↔
    isLowerAlnum first = true ∧ (1 ≤ middle.length ∧ middle.length ≤ 98) ∧ isLowerAlnum last = true ∧
      ∀ c ∈ middle, isUsernameChar c = true := by
  have hRun : isUsername (first :: (middle ++ [last])) = (isLowerAlnum first && 2 ≤ (middle ++ [last]).length &&
      (middle ++ [last]).length ≤ 99 && isLowerAlnum ((middle ++ [last]).getLastD 0) &&
      (middle ++ [last]).dropLast.all isUsernameChar) := by
    cases middle <;> rfl
  rw [hRun]
  simp only [List.length_append, List.length_singleton, List.getLastD_concat, List.dropLast_concat, Bool.and_eq_true,
    decide_eq_true_eq, List.all_eq_true]
  constructor
  · rintro ⟨⟨⟨⟨hFirst, hLower⟩, hUpper⟩, hLast⟩, hMiddle⟩
    exact ⟨hFirst, by omega, hLast, hMiddle⟩
  · rintro ⟨hFirst, hLength, hLast, hMiddle⟩
    exact ⟨⟨⟨⟨hFirst, by omega⟩, by omega⟩, hLast⟩, hMiddle⟩

/-- The pattern accepts what it should, and single characters besides. -/
theorem isUsername_iff (s : PyStr) :
    isUsername s = true ↔ UsernameText s ∨ ∃ c, isLowerAlnum c = true ∧ s = [c] := by
  cases s with
  | nil =>
      constructor
      · intro h
        cases h
      · rintro (h | ⟨c, -, hNil⟩)
        · exact absurd h.length.1 (by simp)
        · cases hNil
  | cons first rest =>
      rcases List.eq_nil_or_concat rest with rfl | ⟨middle, last, rfl⟩
      · constructor
        · exact fun h => Or.inr ⟨first, h, rfl⟩
        · rintro (h | ⟨c, hc, hSingle⟩)
          · exact absurd h.length.1 (by simp)
          · cases hSingle
            exact hc
      · rw [List.concat_eq_append, isUsername_append]
        have hEnd : (first :: (middle ++ [last])).getLast? = some last := by
          rw [← List.cons_append, List.getLast?_concat]
        constructor
        · rintro ⟨hFirst, hLength, hLast, hMiddle⟩
          refine Or.inl ⟨by simp only [List.length_cons, List.length_append, List.length_nil]; omega, ?_, ?_, ?_⟩
          · intro c hc
            rcases List.mem_cons.mp hc with rfl | hc
            · simp [isUsernameChar, hFirst]
            · rcases List.mem_append.mp hc with hc | hc
              · exact hMiddle c hc
              · obtain rfl := List.mem_singleton.mp hc
                simp [isUsernameChar, hLast]
          · intro c hc
            obtain rfl : first = c := by simpa using hc
            exact hFirst
          · intro c hc
            obtain rfl : last = c := Option.some.inj (hEnd.symm.trans hc)
            exact hLast
        · rintro (h | ⟨c, -, hSingle⟩)
          · have hLength := h.length
            simp only [List.length_cons, List.length_append, List.length_nil] at hLength
            refine ⟨h.head first rfl, by omega, h.last last hEnd, fun c hc => ?_⟩
            exact h.chars c (by simp [hc])
          · simp at hSingle

theorem isUsernameChar_of_isUsername {s : PyStr} (h : isUsername s = true) : ∀ c ∈ s, isUsernameChar c = true := by
  rcases (isUsername_iff s).mp h with hText | ⟨c, hc, rfl⟩
  · exact hText.chars
  · intro other hOther
    obtain rfl := List.mem_singleton.mp hOther
    simp [isUsernameChar, hc]

/-- A character of a username is visible ASCII and no capital. -/
theorem isUsernameChar_cases {c : Nat} (h : isUsernameChar c = true) :
    c < 0x80 ∧ isSpace c = false ∧ ¬(0x41 ≤ c ∧ c ≤ 0x5A) := by
  have hAll : ∀ c < 0x80, isUsernameChar c = true → isSpace c = false ∧ ¬(0x41 ≤ c ∧ c ≤ 0x5A) := by decide
  have hSmall : c < 0x80 := by
    simp only [isUsernameChar, isLowerAlnum, isDigit, Bool.or_eq_true, Bool.and_eq_true, decide_eq_true_eq] at h
    omega
  exact ⟨hSmall, hAll c hSmall h⟩

theorem asciiLower_of_isUsername {name : PyStr} (h : isUsername name = true) : name.map asciiLower = name := by
  refine (List.map_congr_left fun c hc => ?_).trans (List.map_id name)
  exact if_neg (isUsernameChar_cases (isUsernameChar_of_isUsername h c hc)).2.2

/-- A username is its own normal form. -/
theorem normalized_of_isUsername {platform : Platform} (hFolds : FoldsAscii platform.casefold) {name : PyStr}
    (h : isUsername name = true) : normalized platform name = name := by
  have hChars (c : Nat) (hc : c ∈ name) := isUsernameChar_cases (isUsernameChar_of_isUsername h c hc)
  rw [normalized, strip_of_no_space fun c hc => (hChars c hc).2.1, hFolds name fun c hc => (hChars c hc).1]
  exact asciiLower_of_isUsername h

theorem normalizeUsername_eq_ok_iff {platform : Platform} {username name : PyStr} :
    normalizeUsername platform username = .ok name ↔ isUsername name = true ∧ normalized platform username = name := by
  constructor
  · intro h
    obtain ⟨_, hRequire, h⟩ := except_bind_eq_ok h
    cases h
    exact ⟨require_eq_ok_iff.mp hRequire, rfl⟩
  · rintro ⟨hName, rfl⟩
    rw [normalizeUsername, require, if_pos hName]
    rfl

/-- The row of a new account, active and unlocked. Its id is chosen by the
database. -/
def newUser (users : List User) (username passwordHash : PyStr) (now : Instant) : User where
  id := nextId User.id users
  username := username
  passwordHash := passwordHash
  isActive := true
  failedLoginAttempts := 0
  lockedUntil := none
  passwordChangedAt := some now
  lastLoginAt := none

/-- `UserRepository.add`; the username is unique, and a second one violates the
index. -/
def addUser (username passwordHash : PyStr) (now : Instant) : AuthProgram User := do
  let users ← read Accounts.users
  if ∃ row ∈ users, row.username = username then raise .integrityError
  else do
    let user := newUser users username passwordHash now
    write fun accounts => { accounts with users := accounts.users ++ [user] }
    return user

def usernameExists : PyException := .application .entityConflict "Administrator username already exists."

section Service

variable (settings : AuthSettings) (platform : Platform)

/-- The transaction of `create_admin`: the name must be free under any spelling. -/
def createTransaction (normalized passwordHash : PyStr) (now : Instant) : AuthProgram User := do
  if (← read (Accounts.getByUsername platform normalized)).isSome then raise usernameExists
  else addUser normalized passwordHash now

/-- `create_admin`: the name is normalised, the password hashed, and the row added. -/
def createAdmin (username password salt : PyStr) (now : Instant) : AuthProgram User := do
  let normalized ← lift (normalizeUsername platform username)
  let passwordHash ← lift (hashPassword settings platform password normalized salt)
  tryExcept (atomically (createTransaction platform normalized passwordHash now)) fun e =>
    raise (if e = .integrityError then usernameExists else e)

/-- The creation of an account, or a call about sessions. -/
inductive AccountRequest
  | createAdmin (username password salt : PyStr) (now : Instant)
  | session (request : SessionRequest)

def AccountRequest.perform : AccountRequest → AuthProgram Unit
  | createAdmin username password salt now => do
      let _ ← Auth.createAdmin settings platform username password salt now
      return ()
  | session request => do
      let _ ← request.perform settings platform
      return ()

variable {settings platform}

/-- A creation adds one row under a normal form that no row had, or does nothing. -/
theorem createAdmin_run (username password salt : PyStr) (now : Instant) (accounts : Accounts) :
    (∃ e, createAdmin settings platform username password salt now accounts = (.error e, accounts)) ∨
      ∃ user, createAdmin settings platform username password salt now accounts =
          (.ok user, { accounts with users := accounts.users ++ [user] }) ∧
        normalizeUsername platform username = .ok user.username ∧ user.id = nextId User.id accounts.users ∧
        accounts.getByUsername platform user.username = none := by
  unfold createAdmin
  cases hName : normalizeUsername platform username with
  | error e => exact Or.inl ⟨e, rfl⟩
  | ok name =>
      cases hHash : hashPassword settings platform password name salt with
      | error e => exact Or.inl ⟨e, by simp [bind_def, hHash]⟩
      | ok passwordHash =>
          simp only [bind_def, lift_apply, hHash]
          cases hFind : accounts.getByUsername platform name with
          | some user =>
              have hBody : createTransaction platform name passwordHash now accounts =
                  (.error usernameExists, accounts) := by
                simp [createTransaction, bind_def, hFind]
              exact Or.inl ⟨_, tryExcept_error (atomically_error hBody)⟩
          | none =>
              by_cases hTaken : ∃ row ∈ accounts.users, row.username = name
              · have hBody : createTransaction platform name passwordHash now accounts =
                    (.error .integrityError, accounts) := by
                  simp [createTransaction, addUser, bind_def, hFind, hTaken]
                exact Or.inl ⟨_, tryExcept_error (atomically_error hBody)⟩
              · have hBody : createTransaction platform name passwordHash now accounts =
                    (.ok (newUser accounts.users name passwordHash now),
                      { accounts with users := accounts.users ++ [newUser accounts.users name passwordHash now] }) := by
                  simp [createTransaction, addUser, bind_def, hFind, hTaken]
                exact Or.inr ⟨_, tryExcept_ok (atomically_ok hBody), rfl, rfl, hFind⟩

/-- The ids and names of the user table, which no call but a creation changes. -/
def Accounts.names (accounts : Accounts) : List (Nat × PyStr) :=
  accounts.users.map fun user => (user.id, user.username)

theorem UsersChanged.names {users after : List User} (hIds : (users.map User.id).Nodup) (h : UsersChanged users after) :
    (after.map fun user => (user.id, user.username)) = users.map fun user => (user.id, user.username) := by
  cases h with
  | kept => rfl
  | @saved row changed hRow hId hUsername =>
      refine map_updateRows fun other hOther hSame => ?_
      obtain rfl := List.inj_on_of_nodup_map hIds hOther hRow (hSame.trans hId)
      rw [hId, hUsername]
  | switched => exact map_updateRows fun _ _ _ => rfl

/-- The name belongs to the account: the keys of both tables hold, and of all
names that look the same in lower case it is the only one. -/
structure Accounts.Owned (accounts : Accounts) (name : PyStr) (id : Nat) : Prop where
  keyed : accounts.Keyed
  ids : (accounts.users.map User.id).Nodup
  owner : (id, name) ∈ accounts.names
  only : ∀ entry ∈ accounts.names, entry.2.map asciiLower = name → entry.1 = id

/-- The account is found under every spelling of its name. -/
theorem Accounts.Owned.getByUsername {accounts : Accounts} {name : PyStr} {id : Nat} (h : accounts.Owned name id)
    (hLower : name.map asciiLower = name) {spelling : PyStr} (hSpelling : normalized platform spelling = name) :
    ∃ found, accounts.getByUsername platform spelling = some found ∧ found.id = id ∧ found.username = name := by
  obtain ⟨user, hUser, hEntry⟩ := List.mem_map.mp h.owner
  obtain ⟨rfl, rfl⟩ := Prod.mk.inj hEntry
  cases hFind : accounts.getByUsername platform spelling with
  | none =>
      have hNone := List.find?_eq_none.mp hFind user hUser
      exact absurd hLower (by simpa [hSpelling] using hNone)
  | some found =>
      have hFound := List.mem_of_find?_eq_some hFind
      have hName : found.username.map asciiLower = user.username := by
        rw [← hSpelling]
        simpa using List.find?_some hFind
      have hId := h.only (found.id, found.username) (List.mem_map.mpr ⟨found, hFound, rfl⟩) hName
      obtain rfl := List.inj_on_of_nodup_map h.ids hFound hUser hId
      exact ⟨found, rfl, rfl, rfl⟩

variable {accounts : Accounts}

/-- What the lookup before a creation rules out: a row whose name looks the same in
lower case. -/
theorem lower_ne_of_getByUsername (hFolds : FoldsAscii platform.casefold) {name : PyStr} (hName : isUsername name = true)
    (h : accounts.getByUsername platform name = none) : ∀ entry ∈ accounts.names, entry.2.map asciiLower ≠ name := by
  intro entry hEntry
  obtain ⟨user, hUser, rfl⟩ := List.mem_map.mp hEntry
  have hNone := List.find?_eq_none.mp h user hUser
  rw [normalized_of_isUsername hFolds hName] at hNone
  simpa using hNone

theorem names_add (user : User) :
    ({ accounts with users := accounts.users ++ [user] } : Accounts).names = accounts.names ++ [(user.id, user.username)] := by
  rw [Accounts.names, List.map_append]
  rfl

/-- A successful creation gives the name to the new account. -/
theorem owned_of_createAdmin (hFolds : FoldsAscii platform.casefold) (hKeyed : accounts.Keyed)
    (hIds : (accounts.users.map User.id).Nodup) {username password salt : PyStr} {now : Instant} {user : User}
    {after : Accounts} (h : createAdmin settings platform username password salt now accounts = (.ok user, after)) :
    normalizeUsername platform username = .ok user.username ∧ after.Owned user.username user.id := by
  rcases createAdmin_run username password salt now accounts with
    ⟨e, hRun⟩ | ⟨created, hRun, hName, hId, hFind⟩
  · rw [hRun] at h
    cases h
  · rw [hRun] at h
    cases h
    have hUsername := (normalizeUsername_eq_ok_iff.mp hName).1
    refine ⟨hName, ⟨hKeyed.ids, hKeyed.hashes⟩, nodup_append_nextId hIds hId, ?_, ?_⟩
    · rw [names_add]
      exact List.mem_append_right _ List.mem_cons_self
    · intro entry hEntry hLower
      rw [names_add] at hEntry
      rcases List.mem_append.mp hEntry with hOld | hNew
      · exact absurd hLower (lower_ne_of_getByUsername hFolds hUsername hFind entry hOld)
      · rw [List.mem_singleton.mp hNew]

/-- No call takes the name away or gives it to a second account. -/
theorem owned_perform (hFolds : FoldsAscii platform.casefold) {name : PyStr} {id : Nat} (hLower : name.map asciiLower = name)
    (request : AccountRequest) (h : accounts.Owned name id) :
    (request.perform settings platform accounts).2.Owned name id := by
  cases request with
  | createAdmin username password salt now =>
      rw [AccountRequest.perform, bind_pure_state]
      rcases createAdmin_run username password salt now accounts with
        ⟨e, hRun⟩ | ⟨created, hRun, hName, hId, hFind⟩
      · rw [hRun]
        exact h
      · rw [hRun]
        have hUsername := (normalizeUsername_eq_ok_iff.mp hName).1
        have hFree := lower_ne_of_getByUsername hFolds hUsername hFind
        refine ⟨⟨h.keyed.ids, h.keyed.hashes⟩, nodup_append_nextId h.ids hId, ?_, ?_⟩
        · rw [names_add]
          exact List.mem_append_left _ h.owner
        · intro entry hEntry hSame
          rw [names_add] at hEntry
          rcases List.mem_append.mp hEntry with hOld | hNew
          · exact h.only entry hOld hSame
          · rw [List.mem_singleton.mp hNew] at hSame
            rw [asciiLower_of_isUsername hUsername] at hSame
            exact absurd (hLower.trans hSame.symm) (hFree (id, name) h.owner)
  | session request =>
      rw [AccountRequest.perform, bind_pure_state]
      have hUsers := @usersChanged_perform settings platform accounts request h.keyed
      have hNames := hUsers.names h.ids
      exact {
        keyed := (@step_sessions settings platform request accounts h.keyed _ rfl).1
        ids := by rw [hUsers.ids]; exact h.ids
        owner := by rw [Accounts.names, hNames]; exact h.owner
        only := by rw [Accounts.names, hNames]; exact h.only }

theorem owned_final (hFolds : FoldsAscii platform.casefold) {name : PyStr} {id : Nat} (hLower : name.map asciiLower = name)
    (h : accounts.Owned name id) (requests : List AccountRequest) :
    (final (AccountRequest.perform settings platform) accounts requests).Owned name id := by
  induction requests generalizing accounts with
  | nil => exact h
  | cons request requests ih =>
      rw [final_cons]
      exact ih (owned_perform hFolds hLower request h)

variable (settings platform) in
/-- The rules for one username: which texts are accepted, that the result is
stable, and that an account created under it is found under every spelling of
the same normal form, at any later time. The second lookup is the one of login
and of a password change, which normalize before the repository does. -/
structure UsernameRules (username : PyStr) : Prop where
  grammar : (∃ name, normalizeUsername platform username = .ok name) ↔ UsernameText (normalized platform username)
  fixed : ∀ name, normalizeUsername platform username = .ok name → normalizeUsername platform name = .ok name
  found : ∀ (accounts : Accounts) (password salt : PyStr) (now : Instant) (user : User) (created : Accounts),
    accounts.Keyed → (accounts.users.map User.id).Nodup →
    createAdmin settings platform username password salt now accounts = (.ok user, created) →
    ∀ (requests : List AccountRequest) (spelling : PyStr), normalized platform spelling = normalized platform username →
      ∃ found, found.id = user.id ∧ found.username = user.username ∧
        (final (AccountRequest.perform settings platform) created requests).getByUsername platform spelling = some found ∧
        (final (AccountRequest.perform settings platform) created requests).getByUsername platform
          (normalized platform spelling) = some found

/-- The rules hold of a username exactly when its normal form is not a single
letter or digit, which the pattern accepts. -/
theorem usernameRules_iff (hFolds : FoldsAscii platform.casefold) (username : PyStr) :
    UsernameRules settings platform username ↔
      ∀ c, isLowerAlnum c = true → normalized platform username ≠ [c] := by
  have hAccepted : (∃ name, normalizeUsername platform username = .ok name) ↔
      isUsername (normalized platform username) = true := by
    simp only [normalizeUsername_eq_ok_iff]
    constructor
    · rintro ⟨name, hName, rfl⟩
      exact hName
    · exact fun h => ⟨_, h, rfl⟩
  constructor
  · intro h c hc hSingle
    have hText := h.grammar.mp (hAccepted.mpr ((isUsername_iff _).mpr (Or.inr ⟨c, hc, hSingle⟩)))
    have hLength := hText.length.1
    rw [hSingle, List.length_singleton] at hLength
    omega
  · intro hCondition
    refine ⟨?_, ?_, ?_⟩
    · rw [hAccepted, isUsername_iff]
      exact ⟨fun h => h.resolve_right fun ⟨c, hc, hSingle⟩ => hCondition c hc hSingle, Or.inl⟩
    · intro name hName
      have hText := (normalizeUsername_eq_ok_iff.mp hName).1
      exact normalizeUsername_eq_ok_iff.mpr ⟨hText, normalized_of_isUsername hFolds hText⟩
    · intro accounts password salt now user created hKeyed hIds hCreate requests spelling hSpelling
      obtain ⟨hName, hOwned⟩ := owned_of_createAdmin hFolds hKeyed hIds hCreate
      obtain ⟨hText, hNormal⟩ := normalizeUsername_eq_ok_iff.mp hName
      have hLower := asciiLower_of_isUsername hText
      have hFinal := @owned_final settings platform created hFolds _ _ hLower hOwned requests
      have hSame : normalized platform spelling = user.username := hSpelling.trans hNormal
      obtain ⟨found, hFound, hId, hUsername⟩ := hFinal.getByUsername hLower hSame
      have hAgain : normalized platform (normalized platform spelling) = normalized platform spelling := by
        rw [hSame]
        exact normalized_of_isUsername hFolds hText
      refine ⟨found, hId, hUsername, hFound, ?_⟩
      rw [Accounts.getByUsername, hAgain]
      exact hFound

end Service

/-- One letter is accepted as a username, against the message of the error. -/
theorem single_letter_accepted : normalizeUsername samplePlatform (py " A ") = .ok (py "a") ∧
    ¬UsernameRules sampleSettings samplePlatform (py " A ") := by
  have hNormal : normalized samplePlatform (py " A ") = py "a" := by decide
  refine ⟨by decide, fun h => ?_⟩
  have hLength := (h.grammar.mp ⟨py "a", by decide⟩).length.1
  rw [hNormal] at hLength
  exact absurd hLength (by decide)

theorem usernameRules_sample : UsernameRules sampleSettings samplePlatform (py "  Admin.User  ") := by
  refine (usernameRules_iff (fun _ _ => rfl) _).mpr fun c _ hSingle => ?_
  have hLength : (normalized samplePlatform (py "  Admin.User  ")).length = 10 := by decide
  rw [hSingle] at hLength
  cases hLength

end SoftwareHub.Auth
