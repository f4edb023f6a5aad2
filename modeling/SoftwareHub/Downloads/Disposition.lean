import SoftwareHub.Downloads.Grant
import SoftwareHub.Python.Unquote
import SoftwareHub.Storage.AllowedExtensions

/-! The two names that a download header carries: an ASCII fallback, and the name
itself in percent-encoding. -/
namespace SoftwareHub.Downloads

open SoftwareHub.Python SoftwareHub.Semantics SoftwareHub.Storage

/-- The characters that may stand in a header between quotation marks, other than
the marks themselves. -/
def isPrintableAscii (c : Nat) : Bool := 0x20 ≤ c && c < 0x7F

theorem isPrintableAscii_of_isAsciiAlnum {c : Nat} (h : isAsciiAlnum c = true) :
    isPrintableAscii c = true ∧ c ≠ 0x22 ∧ c ≠ 0x5C := by
  simp only [isAsciiAlnum, isDigit, isAsciiLetter, Bool.or_eq_true, Bool.and_eq_true, decide_eq_true_eq] at h
  simp only [isPrintableAscii, Bool.and_eq_true, decide_eq_true_eq]
  omega

/-- Quoted text consists of letters, digits, marks and escapes. -/
theorem char_of_quote {s quoted : PyStr} (h : quote [] s = .ok quoted) :
    ∀ c ∈ quoted, isAsciiAlnum c = true ∨ c ∈ py "_.-~%" := by
  intro c hc
  by_contra hOther
  rw [not_or, Bool.not_eq_true] at hOther
  obtain ⟨hAlnum, hMarks⟩ := hOther
  have hMark : c ∉ py "_.-~" := fun h => hMarks (List.mem_append_left (py "%") h)
  have hPercent : c ≠ 0x25 := fun h => hMarks (by rw [h]; decide)
  exact not_mem_quote h (by simp) ⟨hAlnum, hMark, hPercent⟩ hc

theorem isPrintableAscii_of_quote {s quoted : PyStr} (h : quote [] s = .ok quoted) :
    ∀ c ∈ quoted, isPrintableAscii c = true := by
  have hMarks : ∀ c ∈ py "_.-~%", isPrintableAscii c = true := by decide
  intro c hc
  rcases char_of_quote h c hc with hAlnum | hMark
  · exact (isPrintableAscii_of_isAsciiAlnum hAlnum).1
  · exact hMarks c hMark

/-- What the fallback keeps of a stem: printable, and no quote or backslash. -/
theorem char_of_safeStem {s : PyStr} :
    ∀ c ∈ stripChars (py " ._") (s.map fun c => if isAsciiAlnum c ∨ c ∈ py " ._-" then c else 0x5F),
      isPrintableAscii c = true := by
  have hMarks : ∀ c ∈ py " ._-", isPrintableAscii c = true := by decide
  intro c hc
  have hc := (stripOf_isInfix (fun c => c ∈ py " ._") _).mem hc
  obtain ⟨source, -, rfl⟩ := List.mem_map.mp hc
  split_ifs with hKept
  · rcases hKept with hAlnum | hMark
    · exact (isPrintableAscii_of_isAsciiAlnum hAlnum).1
    · exact hMarks source hMark
  · decide

section Fallback

variable {unicode : Unicode} {filename extension : PyStr}

/-- The fallback is a short printable text and the folded suffix. -/
theorem asciiFallback_eq (hSuffix : unicode.casefold (suffix filename) = extension)
    (hExtension : isExtension extension = true) :
    ∃ stem, asciiFallback unicode filename = stem ++ extension ∧ stem ≠ [] ∧
      (∀ c ∈ stem, isPrintableAscii c = true) ∧ (stem ++ extension).length ≤ 150 := by
  have hDownload : ∀ c ∈ py "download", isPrintableAscii c = true := by decide
  have hShort := (length_of_isExtension hExtension).2
  obtain ⟨stem, hStem, hPrintable, hFallback⟩ : ∃ stem, stem ≠ [] ∧ (∀ c ∈ stem, isPrintableAscii c = true) ∧
      asciiFallback unicode filename =
        if 150 < (stem ++ extension).length then py "download" ++ extension else stem ++ extension := by
    unfold asciiFallback
    dsimp only
    rw [hSuffix]
    generalize (if suffix filename = [] then filename
      else filename.take (filename.length - (suffix filename).length)) = sourceStem
    by_cases hEmpty : stripChars (py " ._") ((asciiIgnore (unicode.nfkd sourceStem)).map fun c =>
        if isAsciiAlnum c ∨ c ∈ py " ._-" then c else 0x5F) = []
    · exact ⟨py "download", by decide, hDownload, by rw [if_pos hEmpty]⟩
    · exact ⟨_, hEmpty, char_of_safeStem, by rw [if_neg hEmpty]⟩
  by_cases hLong : 150 < (stem ++ extension).length
  · refine ⟨py "download", hFallback.trans (if_pos hLong), by decide, hDownload, ?_⟩
    rw [List.length_append, (by decide : (py "download").length = 8)]
    omega
  · exact ⟨stem, hFallback.trans (if_neg hLong), hStem, hPrintable, Nat.le_of_not_lt hLong⟩

theorem map_replace_of_isExtension (hExtension : isExtension extension = true) :
    extension.map (fun c => if c = 0x22 ∨ c = 0x5C then 0x5F else c) = extension := by
  refine (List.map_congr_left fun c hc => ?_).trans (List.map_id _)
  refine if_neg ?_
  rcases (char_of_isExtension hExtension c hc).2.2 with rfl | hAlnum
  · decide
  · exact not_or.mpr (isPrintableAscii_of_isAsciiAlnum hAlnum).2

end Fallback

/-- What a download header says about a file: a safe name of bounded length
with the right extension, and an encoding of the whole name. -/
structure Disposition (filename extension header : PyStr) (fallback encoded : PyStr) : Prop where
  form : header = py "attachment; filename=" ++ [0x22] ++ fallback ++ [0x22] ++ py "; filename*=UTF-8''" ++ encoded
  printable : ∀ c ∈ header, isPrintableAscii c = true
  fallback_ne_nil : fallback ≠ []
  fallback_length : fallback.length ≤ 150
  fallback_safe : ∀ c ∈ fallback, isPrintableAscii c = true ∧ c ≠ 0x22 ∧ c ≠ 0x5C
  fallback_extension : extension <:+ fallback
  encoded_safe : ∀ c ∈ encoded, isAsciiAlnum c = true ∨ c ∈ py "_.-~%"
  encoded_inverse : unquote encoded = some filename

/-- The header of an accepted name can always be built, and says what it should. -/
theorem disposition_of_normalizeOriginalFilename {unicode : Unicode} (hFolds : unicode.FoldsAscii)
    (lower repr : PyStr → PyStr) {value allowedExtensions : List PyStr}
    (hSettings : validateAllowedExtensions lower repr value = .ok allowedExtensions) {filename : PyStr}
    (hText : ∀ c ∈ filename, c < 0x110000) {name : NormalizedFilename}
    (h : normalizeOriginalFilename unicode allowedExtensions filename = .ok name) :
    ∃ header fallback encoded, buildContentDisposition unicode name.value = .ok header ∧
      name.extension = unicode.casefold (suffix name.value) ∧
      Disposition name.value name.extension header fallback encoded := by
  obtain ⟨-, -, -, hParts⟩ := normalizeOriginalFilename_eq_ok_iff.mp h
  have hShape := isExtension_of_validateAllowedExtensions lower repr hSettings
  have hAllowed := hParts.allowed
  rw [map_casefold_of_isExtension hFolds hShape] at hAllowed
  have hExtension := hShape name.extension hAllowed
  obtain ⟨encoded, hEncoded⟩ := @exists_quote [] name.value (isScalar_of_normalizeOriginalFilename hText h)
  obtain ⟨stem, hFallback, hStem, hPrintable, hLength⟩ :=
    asciiFallback_eq hParts.extension.symm hExtension
  have hReplaced : (asciiFallback unicode name.value).map (fun c => if c = 0x22 ∨ c = 0x5C then 0x5F else c) =
      stem.map (fun c => if c = 0x22 ∨ c = 0x5C then 0x5F else c) ++ name.extension := by
    rw [hFallback, List.map_append, map_replace_of_isExtension hExtension]
  have hSafe : ∀ c ∈ stem.map (fun c => if c = 0x22 ∨ c = 0x5C then 0x5F else c) ++ name.extension,
      isPrintableAscii c = true ∧ c ≠ 0x22 ∧ c ≠ 0x5C := by
    intro c hc
    rcases List.mem_append.mp hc with hc | hc
    · obtain ⟨source, hSource, rfl⟩ := List.mem_map.mp hc
      split_ifs with hBad
      · decide
      · exact ⟨hPrintable source hSource, not_or.mp hBad⟩
    · rcases (char_of_isExtension hExtension c hc).2.2 with rfl | hAlnum
      · decide
      · exact isPrintableAscii_of_isAsciiAlnum hAlnum
  refine ⟨_, stem.map (fun c => if c = 0x22 ∨ c = 0x5C then 0x5F else c) ++ name.extension, encoded,
    (except_bind_ok hEncoded _).trans (by rw [hReplaced]; rfl), hParts.extension, ?_⟩
  exact {
    form := rfl
    printable := by
      simp only [List.forall_mem_append]
      exact ⟨⟨⟨⟨⟨by decide, by decide⟩, List.forall_mem_append.mp fun c hc => (hSafe c hc).1⟩, by decide⟩, by decide⟩,
        isPrintableAscii_of_quote hEncoded⟩
    fallback_ne_nil := by simp [hStem]
    fallback_length := by rwa [List.length_append, List.length_map, ← List.length_append]
    fallback_safe := hSafe
    fallback_extension := List.suffix_append _ _
    encoded_safe := char_of_quote hEncoded
    encoded_inverse := unquote_quote (by simp) hEncoded }

/-- A Ukrainian name, of which the fallback keeps the version. -/
theorem disposition_sample :
    ∃ header fallback encoded, buildContentDisposition Unicode.ascii (py "утиліта 2.0.EXE") = .ok header ∧
      py ".exe" = Unicode.ascii.casefold (suffix (py "утиліта 2.0.EXE")) ∧
      Disposition (py "утиліта 2.0.EXE") (py ".exe") header fallback encoded :=
  disposition_of_normalizeOriginalFilename Unicode.ascii_foldsAscii id id (rfl : validateAllowedExtensions id id
      [py "exe", py ".zip"] = .ok [py ".exe", py ".zip"])
    (by decide)
    (by decide : normalizeOriginalFilename Unicode.ascii [py ".exe", py ".zip"] (py "  утиліта 2.0.EXE") =
      .ok ⟨py "утиліта 2.0.EXE", py "утиліта 2.0", py ".exe"⟩)

end SoftwareHub.Downloads
