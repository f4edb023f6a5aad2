import SoftwareHub.Python.Unicode
import SoftwareHub.Semantics.Program
import SoftwareHub.Storage.Filename

/-! The upload extensions that an installation allows, and what their validation
establishes for the names compared with them. -/
namespace SoftwareHub.Storage

open SoftwareHub.Python

/-- `^\.[a-z0-9]{1,15}$`, the shape that the settings ask for. -/
def isExtension (candidate : PyStr) : Bool :=
  candidate.head? == some 0x2E && 2 ≤ candidate.length && candidate.length ≤ 16 &&
    (candidate.drop 1).all isExtensionChar

section Validation

-- `str.lower` and `repr` of a text
variable (lower repr : PyStr → PyStr)

def extensionCandidate (extension : PyStr) : PyStr :=
  let candidate := lower (strip extension)
  if candidate.head? = some 0x2E then candidate else 0x2E :: candidate

/-- The validator of the setting. The text of the error is the message of the
`ValueError`. -/
def validateAllowedExtensions (value : List PyStr) : Except PyStr (List PyStr) := do
  if value = [] then
    throw (py "At least one upload extension must be allowed.")
  let normalized ← value.mapM fun extension =>
    if isExtension (extensionCandidate lower extension) then .ok (extensionCandidate lower extension)
    else .error (py "Invalid file extension: " ++ repr extension ++ py ".")
  -- `dict.fromkeys` keeps the first of equal keys
  return normalized.reverse.dedup.reverse

/-- What the settings let through has the shape of an extension. -/
theorem isExtension_of_validateAllowedExtensions {value allowedExtensions : List PyStr}
    (h : validateAllowedExtensions lower repr value = .ok allowedExtensions) :
    ∀ extension ∈ allowedExtensions, isExtension extension = true := by
  intro extension hExtension
  rw [validateAllowedExtensions] at h
  split_ifs at h with hEmpty
  · cases h
  · obtain ⟨normalized, hNormalized, h⟩ := Semantics.except_bind_eq_ok h
    cases h
    rw [List.mem_reverse, List.mem_dedup, List.mem_reverse] at hExtension
    obtain ⟨source, -, hSource⟩ := Semantics.exists_of_mem_except_mapM hNormalized hExtension
    split_ifs at hSource with hShape
    cases hSource
    exact hShape

end Validation

/-- An extension is short ASCII text without capitals, so that casefolding leaves it
alone. -/
theorem char_of_isExtension {extension : PyStr} (h : isExtension extension = true) :
    ∀ c ∈ extension, c < 0x80 ∧ asciiLower c = c ∧ (c = 0x2E ∨ isAsciiAlnum c = true) := by
  rw [isExtension, Bool.and_eq_true, Bool.and_eq_true, Bool.and_eq_true, beq_iff_eq, List.all_eq_true] at h
  obtain ⟨⟨⟨hDot, -⟩, -⟩, hChars⟩ := h
  cases extension with
  | nil => cases hDot
  | cons first rest =>
      rw [List.head?_cons, Option.some.injEq] at hDot
      intro c hc
      rcases List.mem_cons.mp hc with rfl | hc
      · subst hDot
        decide
      · have hChar := hChars c hc
        simp only [isExtensionChar, isDigit, Bool.or_eq_true, Bool.and_eq_true, decide_eq_true_eq] at hChar
        refine ⟨by omega, if_neg (by omega), Or.inr ?_⟩
        simp only [isAsciiAlnum, isDigit, isAsciiLetter, Bool.or_eq_true, Bool.and_eq_true, decide_eq_true_eq]
        omega

theorem length_of_isExtension {extension : PyStr} (h : isExtension extension = true) :
    2 ≤ extension.length ∧ extension.length ≤ 16 := by
  rw [isExtension, Bool.and_eq_true, Bool.and_eq_true, Bool.and_eq_true, decide_eq_true_eq, decide_eq_true_eq] at h
  exact ⟨h.1.1.2, h.1.2⟩

/-- The allowlist is compared as it was configured: folding it changes nothing. -/
theorem map_casefold_of_isExtension {unicode : Unicode} (hFolds : unicode.FoldsAscii) {allowedExtensions : List PyStr}
    (h : ∀ extension ∈ allowedExtensions, isExtension extension = true) :
    allowedExtensions.map unicode.casefold = allowedExtensions := by
  refine (List.map_congr_left fun extension hMem => ?_).trans (List.map_id _)
  have hChars := char_of_isExtension (h extension hMem)
  refine hFolds.casefold_eq (fun c hc => (hChars c hc).1) ?_
  exact (List.map_congr_left fun c hc => (hChars c hc).2.1).trans (List.map_id _)

end SoftwareHub.Storage
