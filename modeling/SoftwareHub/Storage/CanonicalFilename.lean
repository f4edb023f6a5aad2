import SoftwareHub.Storage.AllowedExtensions
import SoftwareHub.Storage.OriginalFilename

/-! Accepted filenames as canonical forms: their parts make up the name, and
normalising them again changes nothing. -/
namespace SoftwareHub.Storage

open SoftwareHub.Python SoftwareHub.Semantics

/-- The name, its parts, and the names shown for it belong together: the stem and
the suffix make up the name, and both are found again. -/
structure Canonical (unicode : Unicode) (allowedExtensions : List PyStr) (name : NormalizedFilename) : Prop where
  fixed : normalizeOriginalFilename unicode allowedExtensions name.value = .ok name
  parted : name.value = name.stem ++ suffix name.value
  extension : unicode.casefold (suffix name.value) = name.extension ∧ name.extension ∈ allowedExtensions
  stem : name.stem ≠ []
  plain : ∀ c ∈ name.value, c ≠ slash ∧ c ≠ 0x5C ∧ (unicode.category c).head? ≠ some 0x43 ∧ c ∉ bidiAndFormatControls
  length : name.value.length ≤ maximumFilenameLength
  bytes : ∃ data, encodeUtf8 name.value = some data ∧ data.length ≤ maximumFilenameBytes
  display : ∀ displayFilename value,
    normalizeDisplayFilename unicode allowedExtensions displayFilename name = .ok value →
      unicode.casefold (suffix value) = name.extension

section Accepted

variable {unicode : Unicode} {allowedExtensions : List PyStr} {filename : PyStr} {name : NormalizedFilename}

/-- A name that has been normalised is normalised to itself. -/
theorem normalizeOriginalFilename_value (hLawful : unicode.Lawful)
    (h : normalizeOriginalFilename unicode allowedExtensions filename = .ok name) :
    normalizeOriginalFilename unicode allowedExtensions name.value = .ok name := by
  obtain ⟨-, hValue, hSafe, hParts⟩ := normalizeOriginalFilename_eq_ok_iff.mp h
  have hNormal : unicode.nfkc name.value = name.value := by
    refine hLawful.nfkc_infix name.value (unicode.nfkc filename) ?_ (hLawful.nfkc_idempotent filename)
    rw [hValue]
    exact strip_isInfix _
  have hStrip : strip name.value = name.value := by rw [hValue, strip_strip]
  have hNul : 0 ∉ name.value := by
    intro hMem
    have hCategory := hSafe.category 0 hMem
    rw [hLawful.category_nul] at hCategory
    exact hCategory rfl
  exact normalizeOriginalFilename_eq_ok_iff.mpr
    ⟨⟨hNul, hSafe.ends.2⟩, by rw [hNormal, hStrip], hSafe, hParts⟩

/-- The stem and the suffix make up the name when the fold of the suffix is
as long as the suffix. -/
theorem parted_iff (hSafe : SafeText unicode name.value) (hParts : AllowedParts unicode allowedExtensions name) :
    name.value = name.stem ++ suffix name.value ↔
      (unicode.casefold (suffix name.value)).length = (suffix name.value).length := by
  have hCut : name.extension ≠ [] ∧
      name.stem = name.value.take (name.value.length - name.extension.length) := by
    have hStem := hParts.stem
    rw [cutExtension] at hStem
    split_ifs at hStem with hEmpty
    · exact (hParts.reserved.1 hStem).elim
    · exact ⟨hEmpty, hStem⟩
  obtain ⟨-, hStem⟩ := hCut
  have hShort : name.extension.length < name.value.length := by
    by_contra hLong
    rw [Nat.sub_eq_zero_of_le (Nat.le_of_not_lt hLong), List.take_zero] at hStem
    exact hParts.reserved.1 hStem
  rw [← hParts.extension]
  constructor
  · intro hWhole
    have hLength := congrArg List.length hWhole
    rw [List.length_append, hStem, List.length_take_of_le (Nat.sub_le _ _)] at hLength
    omega
  · intro hLength
    have hEnd : suffix name.value <:+ name.value :=
      suffix_isSuffix hSafe.ne_special.1 hSafe.separators.1 hSafe.ends.1
    rw [hStem, hLength]
    exact (List.suffix_iff_eq_append.mp hEnd).symm

/-- An accepted name is canonical exactly when folding leaves the length of
its last suffix alone: the stem is cut by the length of the folded suffix. -/
theorem canonical_iff_length_casefold (hLawful : unicode.Lawful) (lower repr : PyStr → PyStr) (value : List PyStr)
    (hSettings : validateAllowedExtensions lower repr value = .ok allowedExtensions)
    (h : normalizeOriginalFilename unicode allowedExtensions filename = .ok name) :
    Canonical unicode allowedExtensions name ↔
      (unicode.casefold (suffix (strip (unicode.nfkc filename)))).length =
        (suffix (strip (unicode.nfkc filename))).length := by
  obtain ⟨-, hValue, hSafe, hParts⟩ := normalizeOriginalFilename_eq_ok_iff.mp h
  rw [← hValue]
  constructor
  · intro hCanonical
    exact (parted_iff hSafe hParts).mp hCanonical.parted
  · intro hLength
    have hShape := isExtension_of_validateAllowedExtensions lower repr hSettings
    refine {
      fixed := normalizeOriginalFilename_value hLawful h
      parted := (parted_iff hSafe hParts).mpr hLength
      extension := ⟨hParts.extension.symm, ?_⟩
      stem := hParts.reserved.1
      plain := ?_
      length := hSafe.length
      bytes := hSafe.bytes
      display := ?_ }
    · rw [← map_casefold_of_isExtension hLawful.foldsAscii hShape]
      exact hParts.allowed
    · intro c hc
      exact ⟨fun hSlash => hSafe.separators.1 (hSlash ▸ hc), fun hBackslash => hSafe.separators.2 (hBackslash ▸ hc),
        hSafe.category c hc, hSafe.bidi c hc⟩
    · intro displayFilename shown hShown
      rcases normalizeDisplayFilename_eq_ok hShown with rfl | ⟨source, display, hDisplay, hSame, rfl⟩
      · exact hParts.extension.symm
      · obtain ⟨-, -, -, hDisplayParts⟩ := normalizeOriginalFilename_eq_ok_iff.mp hDisplay
        rw [← hSame, hDisplayParts.extension]

end Accepted

/-- A stylesheet's name in capitals is canonical: its suffix folds to one of the
same length. -/
theorem canonical_sample : Canonical Unicode.sharpS [py ".css"] ⟨py "style.CSS", py "style", py ".css"⟩ :=
  (canonical_iff_length_casefold Unicode.sharpS_lawful id id [py "css"] rfl
    (by decide : normalizeOriginalFilename Unicode.sharpS [py ".css"] (py "style.CSS") =
      .ok ⟨py "style.CSS", py "style", py ".css"⟩)).mpr (by decide)

/-- `ß` folds to two letters, so that the suffix gets longer and the stem loses a
letter of its own. -/
theorem sharpS_stem_is_cut :
    Unicode.sharpS.Lawful ∧ validateAllowedExtensions id id [py "css"] = .ok [py ".css"] ∧
      normalizeOriginalFilename Unicode.sharpS [py ".css"] (py "style.cß") =
        .ok ⟨py "style.cß", py "styl", py ".css"⟩ ∧
      suffix (py "style.cß") = py ".cß" ∧
      py "style.cß" ≠ py "styl" ++ suffix (py "style.cß") ∧
      ¬Canonical Unicode.sharpS [py ".css"] ⟨py "style.cß", py "styl", py ".css"⟩ := by
  have hAccepted : normalizeOriginalFilename Unicode.sharpS [py ".css"] (py "style.cß") =
      .ok ⟨py "style.cß", py "styl", py ".css"⟩ := by decide
  have hParted : py "style.cß" ≠ py "styl" ++ suffix (py "style.cß") := by decide
  exact ⟨Unicode.sharpS_lawful, rfl, hAccepted, by decide, hParted, fun h => hParted h.parted⟩

end SoftwareHub.Storage
