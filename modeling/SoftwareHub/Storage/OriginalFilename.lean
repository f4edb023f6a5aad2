import SoftwareHub.Python.PurePath
import SoftwareHub.Python.Unicode
import SoftwareHub.Semantics.Program

/-! Filenames submitted by administrators: their normalisation, the checks in their
order, and what an accepted name satisfies. -/
namespace SoftwareHub.Storage

open SoftwareHub.Python SoftwareHub.Semantics

def maximumFilenameLength : Nat := 255

def maximumFilenameBytes : Nat := 255

def windowsReservedNames : List PyStr :=
  [py "con", py "prn", py "aux", py "nul", py "com1", py "com2", py "com3", py "com4", py "com5", py "com6", py "com7",
    py "com8", py "com9", py "lpt1", py "lpt2", py "lpt3", py "lpt4", py "lpt5", py "lpt6", py "lpt7", py "lpt8",
    py "lpt9"]

def deceptiveInnerExtensions : List PyStr :=
  [py ".bat", py ".cmd", py ".com", py ".doc", py ".docm", py ".docx", py ".exe", py ".gif", py ".hta", py ".htm",
    py ".html", py ".iso", py ".jar", py ".jpeg", py ".jpg", py ".js", py ".lnk", py ".msi", py ".pdf", py ".png",
    py ".ps1", py ".py", py ".scr", py ".svg", py ".txt", py ".vbs", py ".xls", py ".xlsm", py ".xlsx", py ".zip"]

def bidiAndFormatControls : List Nat :=
  [0x061C, 0x200B, 0x200C, 0x200D, 0x200E, 0x200F, 0x202A, 0x202B, 0x202C, 0x202D, 0x202E, 0x2060, 0x2066, 0x2067,
    0x2068, 0x2069, 0xFEFF]

/-- What `normalize_original_filename` returns. -/
structure NormalizedFilename where
  value : PyStr
  stem : PyStr
  extension : PyStr
  deriving DecidableEq, Repr

abbrev fileValidationError (message : String) : PyException := .application .fileValidationError message

/-- `text.endswith((".", " "))`. -/
def endsWithDotOrSpace (s : PyStr) : Bool := s.getLast? = some 0x2E ∨ s.getLast? = some 0x20

/-- `normalize_original_filename`, check by check, with the message of each. -/
def normalizeOriginalFilename (unicode : Unicode) (allowedExtensions : List PyStr) (filename : PyStr) :
    Except PyException NormalizedFilename := do
  require (0 ∉ filename) (fileValidationError "The filename is invalid.")
  require (¬endsWithDotOrSpace filename = true)
    (fileValidationError "Trailing dots and spaces are not allowed.")
  let normalized := strip (unicode.nfkc filename)
  require (normalized ≠ [] ∧ normalized ≠ py "." ∧ normalized ≠ py "..")
    (fileValidationError "The filename is empty or invalid.")
  require (normalized.head? ≠ some 0x2E ∧ ¬endsWithDotOrSpace normalized = true)
    (fileValidationError "Hidden filenames and trailing dots are not allowed.")
  require (slash ∉ normalized ∧ 0x5C ∉ normalized)
    (fileValidationError "The filename cannot contain path separators.")
  require (∀ c ∈ normalized, c ∉ bidiAndFormatControls)
    (fileValidationError "The filename contains forbidden Unicode controls.")
  require (∀ c ∈ normalized, (unicode.category c).head? ≠ some 0x43)
    (fileValidationError "The filename contains control characters.")
  require (normalized.length ≤ maximumFilenameLength) (fileValidationError "The filename is too long.")
  match encodeUtf8 normalized with
  | none => .error .unicodeEncodeError
  | some data => do
      require (data.length ≤ maximumFilenameBytes) (fileValidationError "The UTF-8 filename is too long.")
      let extension := unicode.casefold (suffix normalized)
      require (extension ∈ allowedExtensions.map unicode.casefold)
        (fileValidationError "The filename extension is not allowed.")
      let stem := if extension = [] then [] else normalized.take (normalized.length - extension.length)
      require (stem ≠ [] ∧ unicode.casefold stem ∉ windowsReservedNames)
        (fileValidationError "The filename uses a reserved system name.")
      require (∀ inner ∈ (suffixes normalized).dropLast, unicode.casefold inner ∉ deceptiveInnerExtensions)
        (fileValidationError "Deceptive double extensions are not allowed.")
      return ⟨normalized, stem, extension⟩

/-- `normalize_display_filename`: the original name, or another one with the same
extension. -/
def normalizeDisplayFilename (unicode : Unicode) (allowedExtensions : List PyStr) (displayFilename : Option PyStr)
    (original : NormalizedFilename) : Except PyException PyStr :=
  match displayFilename with
  | none => .ok original.value
  | some displayFilename =>
      if strip displayFilename = [] then .ok original.value
      else do
        let normalized ← normalizeOriginalFilename unicode allowedExtensions displayFilename
        require (normalized.extension = original.extension)
          (fileValidationError "The display filename must keep the uploaded extension.")
        return normalized.value

/-- `normalized[:-len(extension)]`, where the extension has been folded before its
length is taken. -/
def cutExtension (normalized extension : PyStr) : PyStr :=
  if extension = [] then [] else normalized.take (normalized.length - extension.length)

/-- The checks on the text alone: its length, its characters, and its last one. -/
structure SafeText (unicode : Unicode) (s : PyStr) : Prop where
  ne_special : s ≠ [] ∧ s ≠ py "." ∧ s ≠ py ".."
  ends : s.head? ≠ some 0x2E ∧ ¬endsWithDotOrSpace s = true
  separators : slash ∉ s ∧ 0x5C ∉ s
  bidi : ∀ c ∈ s, c ∉ bidiAndFormatControls
  category : ∀ c ∈ s, (unicode.category c).head? ≠ some 0x43
  length : s.length ≤ maximumFilenameLength
  bytes : ∃ data, encodeUtf8 s = some data ∧ data.length ≤ maximumFilenameBytes

/-- The checks on the parts of the name: an allowed extension, no device, no
deceptive inner extension. -/
structure AllowedParts (unicode : Unicode) (allowedExtensions : List PyStr) (name : NormalizedFilename) : Prop where
  extension : name.extension = unicode.casefold (suffix name.value)
  stem : name.stem = cutExtension name.value name.extension
  allowed : name.extension ∈ allowedExtensions.map unicode.casefold
  reserved : name.stem ≠ [] ∧ unicode.casefold name.stem ∉ windowsReservedNames
  deceptive : ∀ inner ∈ (suffixes name.value).dropLast, unicode.casefold inner ∉ deceptiveInnerExtensions

/-- What `normalize_original_filename` accepts, and what it returns for it. -/
theorem normalizeOriginalFilename_eq_ok_iff {unicode : Unicode} {allowedExtensions : List PyStr} {filename : PyStr}
    {name : NormalizedFilename} :
    normalizeOriginalFilename unicode allowedExtensions filename = .ok name ↔
      (0 ∉ filename ∧ ¬endsWithDotOrSpace filename = true) ∧ name.value = strip (unicode.nfkc filename) ∧
        SafeText unicode name.value ∧ AllowedParts unicode allowedExtensions name := by
  constructor
  · intro h
    obtain ⟨_, hNul, h⟩ := except_bind_eq_ok h
    obtain ⟨_, hRaw, h⟩ := except_bind_eq_ok h
    obtain ⟨_, hSpecial, h⟩ := except_bind_eq_ok h
    obtain ⟨_, hEnds, h⟩ := except_bind_eq_ok h
    obtain ⟨_, hSeparators, h⟩ := except_bind_eq_ok h
    obtain ⟨_, hBidi, h⟩ := except_bind_eq_ok h
    obtain ⟨_, hCategory, h⟩ := except_bind_eq_ok h
    obtain ⟨_, hLength, h⟩ := except_bind_eq_ok h
    rw [require_eq_ok_iff] at hNul hRaw hSpecial hEnds hSeparators hBidi hCategory hLength
    split at h
    · cases h
    · rename_i data hData
      obtain ⟨_, hBytes, h⟩ := except_bind_eq_ok h
      obtain ⟨_, hAllowed, h⟩ := except_bind_eq_ok h
      obtain ⟨_, hReserved, h⟩ := except_bind_eq_ok h
      obtain ⟨_, hDeceptive, h⟩ := except_bind_eq_ok h
      rw [require_eq_ok_iff] at hBytes hAllowed hReserved hDeceptive
      cases h
      exact ⟨⟨hNul, hRaw⟩, rfl, ⟨hSpecial, hEnds, hSeparators, hBidi, hCategory, hLength, data, hData, hBytes⟩,
        rfl, rfl, hAllowed, hReserved, hDeceptive⟩
  · rintro ⟨⟨hNul, hRaw⟩, hValue, hText, hParts⟩
    obtain ⟨data, hData, hBytes⟩ := hText.bytes
    have hName : name = ⟨strip (unicode.nfkc filename), cutExtension (strip (unicode.nfkc filename))
        (unicode.casefold (suffix (strip (unicode.nfkc filename)))),
        unicode.casefold (suffix (strip (unicode.nfkc filename)))⟩ := by
      cases name
      simp only at hValue
      subst hValue
      rw [NormalizedFilename.mk.injEq]
      exact ⟨rfl, hParts.stem.trans (by rw [hParts.extension]), hParts.extension⟩
    subst hName
    refine (except_bind_ok (require_ok hNul) _).trans ?_
    refine (except_bind_ok (require_ok hRaw) _).trans ?_
    refine (except_bind_ok (require_ok hText.ne_special) _).trans ?_
    refine (except_bind_ok (require_ok hText.ends) _).trans ?_
    refine (except_bind_ok (require_ok hText.separators) _).trans ?_
    refine (except_bind_ok (require_ok hText.bidi) _).trans ?_
    refine (except_bind_ok (require_ok hText.category) _).trans ?_
    refine (except_bind_ok (require_ok hText.length) _).trans ?_
    simp only [hData]
    refine (except_bind_ok (require_ok hBytes) _).trans ?_
    refine (except_bind_ok (require_ok hParts.allowed) _).trans ?_
    refine (except_bind_ok (require_ok hParts.reserved) _).trans ?_
    exact except_bind_ok (require_ok hParts.deceptive) _

/-- An accepted name has no surrogates: their category is one of the refused ones. -/
theorem isScalar_of_normalizeOriginalFilename {unicode : Unicode} {allowedExtensions : List PyStr}
    {filename : PyStr} {normalized : NormalizedFilename} (hText : ∀ c ∈ filename, c < 0x110000)
    (h : normalizeOriginalFilename unicode allowedExtensions filename = .ok normalized) :
    ∀ c ∈ normalized.value, isScalar c = true := by
  obtain ⟨-, hValue, hSafe, -⟩ := normalizeOriginalFilename_eq_ok_iff.mp h
  intro c hc
  have hMem : c ∈ unicode.nfkc filename := by
    rw [hValue] at hc
    exact List.dropWhile_sublist _ |>.mem (List.rdropWhile_prefix _ _ |>.sublist.mem hc)
  have hBelow := unicode.nfkc_codePoint filename hText c hMem
  rw [isScalar, Bool.and_eq_true, decide_eq_true_eq, Bool.not_eq_true']
  refine ⟨hBelow, ?_⟩
  by_contra hSurrogate
  rw [Bool.not_eq_false] at hSurrogate
  have hRefused := hSafe.category c hc
  rw [unicode.category_surrogate c hSurrogate] at hRefused
  exact hRefused rfl

/-- A display name is the original one or a normalised one with its extension. -/
theorem normalizeDisplayFilename_eq_ok {unicode : Unicode} {allowedExtensions : List PyStr}
    {displayFilename : Option PyStr} {original : NormalizedFilename} {value : PyStr}
    (h : normalizeDisplayFilename unicode allowedExtensions displayFilename original = .ok value) :
    value = original.value ∨ ∃ filename name, normalizeOriginalFilename unicode allowedExtensions filename = .ok name ∧
      name.extension = original.extension ∧ name.value = value := by
  cases displayFilename with
  | none =>
      cases h
      exact Or.inl rfl
  | some displayFilename =>
      rw [normalizeDisplayFilename] at h
      split_ifs at h with hBlank
      · cases h
        exact Or.inl rfl
      · obtain ⟨name, hName, h⟩ := except_bind_eq_ok h
        obtain ⟨_, hExtension, h⟩ := except_bind_eq_ok h
        rw [require_eq_ok_iff] at hExtension
        cases h
        exact Or.inr ⟨displayFilename, name, hName, hExtension, rfl⟩

end SoftwareHub.Storage
