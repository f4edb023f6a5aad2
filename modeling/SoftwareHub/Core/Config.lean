import SoftwareHub.Storage.Roots

/-! The checks that settings pass before the application starts, as far as the
storage, the sessions and the backups depend on them. -/
namespace SoftwareHub.Core

open SoftwareHub.Python SoftwareHub.Storage
open SoftwareHub.Backup (Directory)

inductive AppEnvironment where
  | development
  | test
  | production
  deriving DecidableEq, Repr

/-- `AppSettings`, as far as `validate_security_invariants` reads it. -/
structure AppSettings where
  appEnvironment : AppEnvironment
  appDebug : Bool
  appSecretKey : Option PyStr
  csrfSecret : Option PyStr
  csrfTokenTtlSeconds : Nat
  loginCsrfCookieName : PyStr
  sessionCookieName : PyStr
  sessionCookiePath : PyStr
  sessionCookieSecure : Option Bool
  sessionIdleTimeoutSeconds : Nat
  sessionAbsoluteTimeoutSeconds : Nat
  sessionTouchIntervalSeconds : Nat
  passwordMinLength : Nat
  passwordMaxLength : Nat
  argon2TimeCost : Nat
  argon2MemoryCostKib : Nat
  databaseUrl : PyStr
  publicBaseUrl : PyStr
  internalDownloadPrefix : PyStr
  trustedHosts : List PyStr
  storageRoot : AbsolutePath
  temporaryRoot : AbsolutePath
  quarantineRoot : AbsolutePath
  iconsRoot : AbsolutePath
  backupRoot : AbsolutePath

/-- What the checks ask of the libraries and of the file system: how URLs are split,
and where links lead. -/
structure ConfigEnvironment where
  lower : PyStr → PyStr
  /-- `make_url(url).database`. -/
  urlDatabase : PyStr → Option PyStr
  urlScheme : PyStr → PyStr
  /-- `urlsplit(url).hostname`. -/
  urlHostname : PyStr → Option PyStr
  workingDirectory : List PyStr
  links : Links
  tree : Directory

def ConfigEnvironment.resolve (env : ConfigEnvironment) (path : AbsolutePath) : List PyStr :=
  path.resolve env.links env.tree

/-- `Path(text).resolve(strict=False)`. -/
def ConfigEnvironment.resolveText (env : ConfigEnvironment) (text : PyStr) : List PyStr :=
  resolveFrom env.links env.tree (if isAbsolute text then [] else env.workingDirectory) (pathParts text)

def minimumSecretLength : Nat := 32

def defaultArgon2TimeCost : Nat := 3

def defaultArgon2MemoryCostKib : Nat := 65536

def commonWeakSecrets : List PyStr :=
  [py "changeme", py "change-me", py "default", py "password", py "secret", py "software-hub", py "softwarehub"]

/-- `if c: raise ValueError(message)`, the form of every check. -/
def valueErrorIf (c : Prop) [Decidable c] (message : PyStr) : Except PyStr Unit := if c then .error message else .ok ()

theorem valueErrorIf_eq_ok_iff {c : Prop} [Decidable c] {message : PyStr} {u : Unit} :
    valueErrorIf c message = .ok u ↔ ¬c := by
  by_cases h : c <;> simp [valueErrorIf, h]

theorem valueErrorIf_neg {c : Prop} [Decidable c] {message : PyStr} (h : ¬c) : valueErrorIf c message = .ok () :=
  if_neg h

section Checks

variable (env : ConfigEnvironment) (settings : AppSettings)

/-- `_validate_secret`: a secret is long enough and none of the common weak ones. -/
def validateSecret (fieldName : PyStr) : Option PyStr → Except PyStr Unit
  | none => .ok ()
  | some rawValue => do
      let normalized := env.lower (strip rawValue)
      valueErrorIf (rawValue.length < minimumSecretLength) (fieldName ++ py " must contain at least 32 characters.")
      valueErrorIf (normalized ∈ commonWeakSecrets ∨ rawValue.dedup.length < 8) (fieldName ++ py " is too predictable.")

def checkSecrets : Except PyStr Unit := do
  validateSecret env (py "app_secret_key") settings.appSecretKey
  validateSecret env (py "csrf_secret") settings.csrfSecret
  valueErrorIf (settings.appSecretKey ≠ none ∧ settings.appSecretKey = settings.csrfSecret)
    (py "app_secret_key and csrf_secret must be different.")

def checkSessions : Except PyStr Unit := do
  valueErrorIf (settings.sessionAbsoluteTimeoutSeconds ≤ settings.sessionIdleTimeoutSeconds)
    (py "Absolute session lifetime must be longer than the idle timeout.")
  valueErrorIf (settings.sessionTouchIntervalSeconds ≥ settings.sessionIdleTimeoutSeconds)
    (py "Session touch interval must be shorter than the idle timeout.")
  valueErrorIf (settings.passwordMaxLength ≤ settings.passwordMinLength)
    (py "password_max_length must exceed password_min_length.")
  valueErrorIf (settings.csrfTokenTtlSeconds > settings.sessionAbsoluteTimeoutSeconds)
    (py "CSRF token lifetime cannot exceed the absolute session lifetime.")
  valueErrorIf (settings.loginCsrfCookieName = settings.sessionCookieName)
    (py "Login CSRF and session cookies must use different names.")
  valueErrorIf (settings.sessionCookiePath ≠ py "/")
    (py "The session cookie path must cover public download authorization.")
  valueErrorIf (settings.internalDownloadPrefix ∈ [py "/", py "/admin/", py "/download/", py "/static/"])
    (py "internal_download_prefix must use a dedicated internal path.")

/-- The configured directories that must lie below the storage root. -/
def AppSettings.managedStorageRoots : List AbsolutePath :=
  [settings.temporaryRoot, settings.quarantineRoot, settings.iconsRoot]

/-- The checks of the roots: below the storage root, and not the same directory
twice, both after resolution. -/
def checkStorageRoots : Except PyStr Unit := do
  let storageRoot := env.resolve settings.storageRoot
  let managedStorageRoots := settings.managedStorageRoots.map env.resolve
  valueErrorIf (¬managedStorageRoots.Nodup)
    (py "Temporary, quarantine, and icons roots must be distinct.")
  valueErrorIf (∃ managedRoot ∈ managedStorageRoots, managedRoot = storageRoot ∨ ¬storageRoot <+: managedRoot)
    (py "Temporary, quarantine, and icons roots must be descendants of storage_root.")
  let backupRoot := env.resolve settings.backupRoot
  valueErrorIf (backupRoot = storageRoot ∨ storageRoot <+: backupRoot ∨ backupRoot <+: storageRoot)
    (py "backup_root must remain outside storage_root and the roots must be disjoint.")

def checkDatabase : Except PyStr Unit :=
  match env.urlDatabase settings.databaseUrl with
  | none => .ok ()
  | some configuredDatabase =>
      if configuredDatabase ≠ [] ∧ configuredDatabase ≠ py ":memory:" ∧
          env.resolve settings.backupRoot <+: env.resolveText configuredDatabase then
        .error (py "The SQLite database cannot be stored below backup_root.")
      else .ok ()

def checkProduction : Except PyStr Unit := do
  valueErrorIf (settings.appDebug = true)
    (py "Debug mode is forbidden in production.")
  valueErrorIf (settings.appSecretKey = none ∨ settings.csrfSecret = none)
    (py "Production requires app_secret_key and csrf_secret.")
  valueErrorIf (settings.sessionCookieSecure = some false)
    (py "Secure session cookies cannot be disabled in production.")
  valueErrorIf (settings.argon2TimeCost < defaultArgon2TimeCost)
    (py "Production Argon2 time cost is below the approved minimum.")
  valueErrorIf (settings.argon2MemoryCostKib < defaultArgon2MemoryCostKib)
    (py "Production Argon2 memory cost is below the approved minimum.")
  valueErrorIf (py "*" ∈ settings.trustedHosts)
    (py "Wildcard trusted hosts are forbidden in production.")
  valueErrorIf (env.urlScheme settings.publicBaseUrl ≠ py "https")
    (py "Production public_base_url must use HTTPS.")
  valueErrorIf (∃ publicHost ∈ env.urlHostname settings.publicBaseUrl, publicHost ≠ [] ∧ publicHost ∉ settings.trustedHosts)
    (py "The production public host must be included in trusted_hosts.")
  match env.urlDatabase settings.databaseUrl with
  | none => .error (py "Production requires a persistent SQLite database file.")
  | some databaseName =>
      valueErrorIf (databaseName = [] ∨ databaseName = py ":memory:")
        (py "Production requires a persistent SQLite database file.")
      valueErrorIf (isAbsolute databaseName = false)
        (py "Production SQLite database path must be absolute.")

/-- `validate_security_invariants`, check by check in the order of the source. -/
def validateSecurityInvariants : Except PyStr Unit := do
  checkSecrets env settings
  checkSessions settings
  checkStorageRoots env settings
  checkDatabase env settings
  if settings.appEnvironment = .production then checkProduction env settings

variable {env settings}

/-- What is known of the storage roots of accepted settings, and no more. -/
structure RootsAccepted (env : ConfigEnvironment) (settings : AppSettings) : Prop where
  distinct : (settings.managedStorageRoots.map env.resolve).Nodup
  below : ∀ root ∈ settings.managedStorageRoots, ∃ names, names ≠ [] ∧
    env.resolve root = env.resolve settings.storageRoot ++ names
  backup : ¬env.resolve settings.backupRoot <+: env.resolve settings.storageRoot ∧
    ¬env.resolve settings.storageRoot <+: env.resolve settings.backupRoot

theorem checkStorageRoots_eq_ok_iff : checkStorageRoots env settings = .ok () ↔ RootsAccepted env settings := by
  -- A directory other than the root is below it when its path begins with that of the root.
  have hBelow (path : List PyStr) : ¬(path = env.resolve settings.storageRoot ∨ ¬env.resolve settings.storageRoot <+: path) ↔
      ∃ names, names ≠ [] ∧ path = env.resolve settings.storageRoot ++ names := by
    rw [not_or, not_not]
    constructor
    · intro h
      obtain ⟨names, rfl⟩ := h.2
      refine ⟨names, ?_, rfl⟩
      rintro rfl
      exact h.1 (List.append_nil _)
    · rintro ⟨names, hNil, rfl⟩
      exact ⟨fun h => hNil (List.self_eq_append_right.mp h.symm), List.prefix_append _ _⟩
  unfold checkStorageRoots
  constructor
  · intro h
    obtain ⟨_, hDistinct, h⟩ := Semantics.except_bind_eq_ok h
    obtain ⟨_, hManaged, h⟩ := Semantics.except_bind_eq_ok h
    have hBackup := valueErrorIf_eq_ok_iff.mp h
    refine ⟨not_not.mp (valueErrorIf_eq_ok_iff.mp hDistinct), ?_, fun hUnder => hBackup (Or.inr (Or.inr hUnder)),
      fun hUnder => hBackup (Or.inr (Or.inl hUnder))⟩
    intro root hRoot
    apply (hBelow _).mp
    intro hNot
    exact valueErrorIf_eq_ok_iff.mp hManaged ⟨_, List.mem_map_of_mem hRoot, hNot⟩
  · intro h
    have hManaged : ¬∃ managedRoot ∈ settings.managedStorageRoots.map env.resolve,
        managedRoot = env.resolve settings.storageRoot ∨ ¬env.resolve settings.storageRoot <+: managedRoot := by
      rintro ⟨managedRoot, hMem, hNot⟩
      obtain ⟨root, hRoot, rfl⟩ := List.mem_map.mp hMem
      exact (hBelow _).mpr (h.below root hRoot) hNot
    dsimp only
    rw [Semantics.except_bind_ok (valueErrorIf_neg (not_not.mpr h.distinct)),
      Semantics.except_bind_ok (valueErrorIf_neg hManaged)]
    apply valueErrorIf_neg
    rintro (hSame | hUnder | hUnder)
    · exact h.backup.1 (hSame ▸ List.prefix_rfl)
    · exact h.backup.2 hUnder
    · exact h.backup.1 hUnder

theorem rootsAccepted_of_validate (h : validateSecurityInvariants env settings = .ok ()) : RootsAccepted env settings := by
  obtain ⟨_, -, h⟩ := Semantics.except_bind_eq_ok h
  obtain ⟨_, -, h⟩ := Semantics.except_bind_eq_ok h
  obtain ⟨_, hRoots, -⟩ := Semantics.except_bind_eq_ok h
  exact checkStorageRoots_eq_ok_iff.mp hRoots

end Checks

end SoftwareHub.Core
