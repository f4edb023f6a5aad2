import SoftwareHub.Catalog.Slugs
import SoftwareHub.Lifecycle.UploadService

/-! The texts of categories, tags and software entries, and the forms in which they
are stored. -/
namespace SoftwareHub.Editing

open SoftwareHub.Python SoftwareHub.Semantics
open SoftwareHub.Catalog (Slug collapse normalizeOptionalText raisesApplication_normalizeOptionalText)
open SoftwareHub.Lifecycle (SplitUrl normalizeHttpUrl)

/-- What the interpreter and its library answer. -/
structure EditEnvironment where
  unicode : Unicode
  /-- `str.lower`. -/
  lower : PyStr → PyStr
  /-- `urlsplit`, with its `ValueError` already a `ValidationError`. -/
  urlsplit : PyStr → Except PyException SplitUrl

/-- ASCII text is folded and lowered letter by letter, and `urlsplit` raises
nothing but the `ValueError` its callers turn into a `ValidationError`. -/
structure EditEnvironment.Lawful (env : EditEnvironment) : Prop where
  foldsAscii : env.unicode.FoldsAscii
  lowersAscii : ∀ s : PyStr, (∀ c ∈ s, c < 0x80) → env.lower s = s.map asciiLower
  urlsplit : ∀ s, RaisesApplication (env.urlsplit s)

/-- The texts of a software entry, as they are submitted and as they are stored. -/
structure SoftwareTexts where
  name : PyStr
  slug : PyStr
  shortDescription : PyStr
  fullDescription : Option PyStr
  developerName : Option PyStr
  officialWebsiteUrl : Option PyStr
  sourceUrl : Option PyStr
  licenseName : Option PyStr
  supportedOs : Option PyStr
  systemRequirements : Option PyStr
  deriving DecidableEq, Repr

/-- `normalize_name`: single spaces, and a length within the bounds. -/
def normalizeName (value : PyStr) (maxLength : Nat) : Except PyException PyStr := do
  require (collapse value ≠ []) (.validationError "Name cannot be empty.")
  require ((collapse value).length ≤ maxLength) (.validationError s!"Name must not exceed {maxLength} characters.")
  return collapse value

section Fields

variable (env : EditEnvironment)

/-- `normalize_slug` with the name as fallback. -/
def normalizeSlug (value : PyStr) (maxLength : Nat) (fallback : PyStr) : Except PyException PyStr :=
  (Catalog.normalizeSlug env.unicode maxLength value (some fallback)).mapError .validationError

/-- `normalize_short_description`, with the bounds of its own. -/
def normalizeShortDescription (value : PyStr) : Except PyException PyStr := do
  require (collapse value ≠ [] ∧ (collapse value).length ≤ 500)
    (.validationError "Short description must contain 1 to 500 characters.")
  return collapse value

/-- `SoftwareService._normalize_fields`. -/
def normalizeFields (texts : SoftwareTexts) : Except PyException SoftwareTexts := do
  let name ← normalizeName texts.name 180
  let slug ← normalizeSlug env texts.slug 200 name
  let shortDescription ← normalizeShortDescription texts.shortDescription
  let fullDescription ← normalizeOptionalText texts.fullDescription 20000
  let developerName ← normalizeOptionalText texts.developerName 180
  let officialWebsiteUrl ← normalizeHttpUrl env.urlsplit texts.officialWebsiteUrl
  let sourceUrl ← normalizeHttpUrl env.urlsplit texts.sourceUrl
  let licenseName ← normalizeOptionalText texts.licenseName 180
  let supportedOs ← normalizeOptionalText texts.supportedOs 4000
  let systemRequirements ← normalizeOptionalText texts.systemRequirements 8000
  return ⟨name, slug, shortDescription, fullDescription, developerName, officialWebsiteUrl, sourceUrl, licenseName,
    supportedOs, systemRequirements⟩

end Fields

/-- A name with single spaces between its words, neither empty nor too long. -/
structure NormalName (maxLength : Nat) (name : PyStr) : Prop where
  collapsed : collapse name = name
  ne_nil : name ≠ []
  length : name.length ≤ maxLength

/-- Absent, or trimmed, neither empty nor too long. -/
def NormalText (maxLength : Nat) (text : Option PyStr) : Prop :=
  ∀ value ∈ text, strip value = value ∧ value ≠ [] ∧ value.length ≤ maxLength

/-- Absent, or spelled out of an address with one of the two schemes, a host
and no credentials. -/
def SafeUrl (env : EditEnvironment) (url : Option PyStr) : Prop :=
  ∀ value ∈ url, ∃ text parsed, env.urlsplit text = .ok parsed ∧
    (parsed.scheme = py "http" ∨ parsed.scheme = py "https") ∧ parsed.hostname.getD [] ≠ [] ∧
    parsed.username = none ∧ parsed.password = none ∧ value = parsed.unsplit

/-- Every text of a software entry in its normal form. -/
structure NormalTexts (env : EditEnvironment) (texts : SoftwareTexts) : Prop where
  name : NormalName 180 texts.name
  slug : Slug env.unicode 200 texts.slug
  shortDescription : NormalName 500 texts.shortDescription
  fullDescription : NormalText 20000 texts.fullDescription
  developerName : NormalText 180 texts.developerName
  officialWebsiteUrl : SafeUrl env texts.officialWebsiteUrl
  sourceUrl : SafeUrl env texts.sourceUrl
  licenseName : NormalText 180 texts.licenseName
  supportedOs : NormalText 4000 texts.supportedOs
  systemRequirements : NormalText 8000 texts.systemRequirements

section Collapse

/-- Words that were joined by single spaces are split again. -/
theorem splitOnP_intercalate {words : List PyStr} (hWords : ∀ word ∈ words, ∀ c ∈ word, isSpace c = false) (hNe : words ≠ []) :
    ([0x20].intercalate words).splitOnP isSpace = words := by
  induction words with
  | nil => exact (hNe rfl).elim
  | cons word words ih =>
      have hWord := hWords word List.mem_cons_self
      cases words with
      | nil =>
          rw [List.intercalate_singleton]
          exact List.splitOnP_eq_singleton hWord
      | cons next words =>
          rw [List.intercalate_cons_cons, List.append_assoc, List.singleton_append,
            List.splitOnP_append_cons_of_forall_mem hWord 0x20 (by decide),
            ih (fun other hOther => hWords other (List.mem_cons_of_mem _ hOther)) (List.cons_ne_nil _ _)]

/-- The groups between separators have no separator in them. -/
theorem not_of_mem_splitOnP {p : Nat → Bool} {s group : PyStr} (h : group ∈ s.splitOnP p) {c : Nat} (hc : c ∈ group) :
    p c = false := by
  induction s generalizing group with
  | nil =>
      obtain rfl : group = [] := by simpa using h
      cases hc
  | cons head s ih =>
      rw [List.splitOnP_cons_eq_if_modifyHead] at h
      split at h
      · rcases List.mem_cons.mp h with rfl | hRest
        · cases hc
        · exact ih hRest hc
      · rename_i hHead
        obtain ⟨first, rest, hSplit⟩ := List.exists_cons_of_ne_nil (List.splitOnP_ne_nil p s)
        rw [hSplit, List.modifyHead_cons] at h
        rcases List.mem_cons.mp h with rfl | hRest
        · rcases List.mem_cons.mp hc with rfl | hTail
          · simpa using hHead
          · exact ih (hSplit ▸ List.mem_cons_self) hTail
        · exact ih (hSplit ▸ List.mem_cons_of_mem first hRest) hc

theorem collapse_collapse (value : PyStr) : collapse (collapse value) = collapse value := by
  by_cases hNone : words value = []
  · have hEmpty : collapse value = [] := by
      rw [collapse, hNone]
      rfl
    rw [hEmpty]
    rfl
  · have hNonempty : ∀ word ∈ words value, word ≠ [] := by
      intro word hWord
      simpa using (List.mem_filter.mp hWord).2
    have hSplit : (collapse value).splitOnP isSpace = words value :=
      splitOnP_intercalate (fun word hWord c hc => not_of_mem_splitOnP (List.mem_filter.mp hWord).1 hc) hNone
    have hWords : words (collapse value) = words value := by
      rw [words, hSplit, List.filter_eq_self]
      simpa using hNonempty
    rw [collapse, hWords]
    rfl

end Collapse

section Checks

variable {env : EditEnvironment}

/-- A name that is returned is normal. -/
theorem normalizeName_eq_ok {value name : PyStr} {maxLength : Nat} (h : normalizeName value maxLength = .ok name) :
    NormalName maxLength name := by
  obtain ⟨_, hNe, h⟩ := except_bind_eq_ok h
  obtain ⟨_, hLength, h⟩ := except_bind_eq_ok h
  cases h
  exact ⟨collapse_collapse value, require_eq_ok_iff.mp hNe, require_eq_ok_iff.mp hLength⟩

theorem normalizeShortDescription_eq_ok {value text : PyStr} (h : normalizeShortDescription value = .ok text) :
    NormalName 500 text := by
  obtain ⟨_, hBounds, h⟩ := except_bind_eq_ok h
  cases h
  obtain ⟨hNe, hLength⟩ := require_eq_ok_iff.mp hBounds
  exact ⟨collapse_collapse value, hNe, hLength⟩

theorem normalizeOptionalText_eq_ok {value text : Option PyStr} {maxLength : Nat}
    (h : normalizeOptionalText value maxLength = .ok text) : NormalText maxLength text := by
  intro found hFound
  obtain rfl := Option.mem_def.mp hFound
  cases value with
  | none => cases h
  | some value =>
      unfold normalizeOptionalText at h
      dsimp only at h
      split_ifs at h with hEmpty hLong
      · cases h
      · obtain rfl : strip value = found := Option.some.inj (Except.ok.inj h)
        exact ⟨strip_strip value, hEmpty, Nat.le_of_not_lt hLong⟩

/-- A slug that is returned can stand in a path. -/
theorem normalizeSlug_eq_ok (hLaws : env.Lawful) {value fallback slug : PyStr} {maxLength : Nat}
    (h : normalizeSlug env value maxLength fallback = .ok slug) : Slug env.unicode maxLength slug := by
  unfold normalizeSlug at h
  cases hSlug : Catalog.normalizeSlug env.unicode maxLength value (some fallback) with
  | error message =>
      rw [hSlug] at h
      cases h
  | ok found =>
      rw [hSlug] at h
      cases h
      obtain ⟨hShape, hLength⟩ := Catalog.normalizeSlug_eq_ok hSlug
      exact Catalog.slug_of_isSlug hLaws.foldsAscii hShape hLength

/-- An address that is returned is safe. -/
theorem normalizeHttpUrl_eq_ok {value url : Option PyStr} (h : normalizeHttpUrl env.urlsplit value = .ok url) : SafeUrl env url := by
  obtain ⟨text, -, h⟩ := except_bind_eq_ok h
  cases text with
  | none =>
      cases h
      exact nofun
  | some text =>
      obtain ⟨parsed, hParsed, h⟩ := except_bind_eq_ok h
      obtain ⟨_, hScheme, h⟩ := except_bind_eq_ok h
      obtain ⟨_, hCredentials, h⟩ := except_bind_eq_ok h
      obtain ⟨_, -, h⟩ := except_bind_eq_ok h
      cases h
      obtain ⟨hScheme, hHost⟩ := require_eq_ok_iff.mp hScheme
      obtain ⟨hUsername, hPassword⟩ := require_eq_ok_iff.mp hCredentials
      intro found hFound
      obtain rfl := Option.mem_some_iff.mp hFound
      exact ⟨text, parsed, hParsed, hScheme, hHost, hUsername, hPassword, rfl⟩

/-- All texts of an entry are normal, then. -/
theorem normalizeFields_eq_ok (hLaws : env.Lawful) {texts normalized : SoftwareTexts}
    (h : normalizeFields env texts = .ok normalized) : NormalTexts env normalized := by
  obtain ⟨name, hName, h⟩ := except_bind_eq_ok h
  obtain ⟨slug, hSlug, h⟩ := except_bind_eq_ok h
  obtain ⟨shortDescription, hShort, h⟩ := except_bind_eq_ok h
  obtain ⟨fullDescription, hFull, h⟩ := except_bind_eq_ok h
  obtain ⟨developerName, hDeveloper, h⟩ := except_bind_eq_ok h
  obtain ⟨officialWebsiteUrl, hWebsite, h⟩ := except_bind_eq_ok h
  obtain ⟨sourceUrl, hSource, h⟩ := except_bind_eq_ok h
  obtain ⟨licenseName, hLicense, h⟩ := except_bind_eq_ok h
  obtain ⟨supportedOs, hSystems, h⟩ := except_bind_eq_ok h
  obtain ⟨systemRequirements, hRequirements, h⟩ := except_bind_eq_ok h
  cases h
  exact ⟨normalizeName_eq_ok hName, normalizeSlug_eq_ok hLaws hSlug, normalizeShortDescription_eq_ok hShort,
    normalizeOptionalText_eq_ok hFull, normalizeOptionalText_eq_ok hDeveloper, normalizeHttpUrl_eq_ok hWebsite,
    normalizeHttpUrl_eq_ok hSource, normalizeOptionalText_eq_ok hLicense, normalizeOptionalText_eq_ok hSystems,
    normalizeOptionalText_eq_ok hRequirements⟩

/-- A name is refused by an application error. -/
theorem raises_normalizeName (value : PyStr) (maxLength : Nat) : RaisesApplication (normalizeName value maxLength) :=
  .bind (.require rfl) fun _ => .bind (.require rfl) fun _ => .ok _

theorem raises_normalizeSlug (value fallback : PyStr) (maxLength : Nat) :
    RaisesApplication (normalizeSlug env value maxLength fallback) := by
  unfold normalizeSlug
  cases Catalog.normalizeSlug env.unicode maxLength value (some fallback) with
  | error message => exact .error rfl
  | ok slug => exact .ok slug

/-- So is an address: the `ValueError` of `urlsplit` is turned into one. -/
theorem raises_normalizeHttpUrl (hLaws : env.Lawful) (value : Option PyStr) : RaisesApplication (normalizeHttpUrl env.urlsplit value) := by
  apply (raisesApplication_normalizeOptionalText value 2048).bind
  intro text
  cases text with
  | none => exact .ok none
  | some text =>
      exact .bind (hLaws.urlsplit text) fun _ => .bind (.require rfl) fun _ => .bind (.require rfl) fun _ =>
        .bind (.require rfl) fun _ => .ok _

/-- So are the texts of an entry, one after the other. -/
theorem raises_normalizeFields (hLaws : env.Lawful) (texts : SoftwareTexts) : RaisesApplication (normalizeFields env texts) :=
  (raises_normalizeName _ _).bind fun _ => (raises_normalizeSlug _ _ _).bind fun _ =>
    .bind (.bind (.require rfl) fun _ => .ok _) fun _ => (raisesApplication_normalizeOptionalText _ _).bind fun _ =>
      (raisesApplication_normalizeOptionalText _ _).bind fun _ => (raises_normalizeHttpUrl hLaws _).bind fun _ =>
        (raises_normalizeHttpUrl hLaws _).bind fun _ => (raisesApplication_normalizeOptionalText _ _).bind fun _ =>
          (raisesApplication_normalizeOptionalText _ _).bind fun _ => (raisesApplication_normalizeOptionalText _ _).bind fun _ => .ok _

end Checks
end SoftwareHub.Editing
