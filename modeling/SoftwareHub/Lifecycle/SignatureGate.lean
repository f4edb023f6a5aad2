import SoftwareHub.Lifecycle.UploadCompensation

/-! The assessment that publishing rebuilds from the stored row is the one the
upload made from the sample. -/
namespace SoftwareHub.Lifecycle

open SoftwareHub.Python SoftwareHub.Storage
open SoftwareHub.Catalog (ReleaseFile)

/-- The types the magic bytes can show. -/
def detectableTypes : List DetectedFileType := [peType, msiType, zipType, sevenZipType]

/-- What the detection answers is one of these types. -/
theorem detectFileType_mem {sample : Bytes} {fileType : DetectedFileType} (h : detectFileType sample = some fileType) :
    fileType ∈ detectableTypes := by
  unfold detectFileType at h
  split_ifs at h <;> cases h <;> decide

/-- The table of media types goes by extension. -/
theorem expectedMime_of_mem {fileType : DetectedFileType} (h : fileType ∈ detectableTypes) :
    expectedMime fileType.extension = some fileType.mimeType :=
  (show ∀ fileType ∈ detectableTypes, expectedMime fileType.extension = some fileType.mimeType by decide) fileType h

/-- No two extensions share a media type. -/
theorem extension_of_expectedMime {fileType : DetectedFileType} {extension : PyStr} (hMem : fileType ∈ detectableTypes)
    (h : expectedMime extension = some fileType.mimeType) : fileType.extension = extension := by
  obtain ⟨found, hFound, hMime⟩ := Option.map_eq_some_iff.mp h
  have hChecked := List.find?_some hFound
  have hExtension : found.extension = extension := of_decide_eq_true hChecked
  have hInjective : ∀ first ∈ detectableTypes, ∀ second ∈ detectableTypes, first.mimeType = second.mimeType →
      first.extension = second.extension := by decide
  rw [← hExtension]
  exact hInjective fileType hMem found (List.mem_of_find?_eq_some hFound) hMime.symm

section Gate

variable {unicode : Unicode}

/-- A stored media type is read back unchanged. -/
theorem casefold_mimeType (hFold : unicode.FoldsAscii) {mimeType : PyStr}
    (h : mimeType ∈ py "application/octet-stream" :: detectableTypes.map (·.mimeType)) :
    unicode.casefold (strip mimeType) = mimeType := by
  have hText : ∀ text ∈ py "application/octet-stream" :: detectableTypes.map (·.mimeType),
      strip text = text ∧ (∀ c ∈ text, c < 0x80) ∧ text.map asciiLower = text := by decide
  obtain ⟨hStrip, hAscii, hLower⟩ := hText mimeType h
  rw [hStrip]
  exact hFold.casefold_eq hAscii hLower

/-- The neutral media type is no evidence for any extension. -/
theorem assessStoredSignature_unknown (hFold : unicode.FoldsAscii) (extension : PyStr) :
    assessStoredSignature unicode extension (py "application/octet-stream") = .unknown := by
  unfold assessStoredSignature
  rw [casefold_mimeType hFold List.mem_cons_self]
  exact if_pos rfl

/-- A detected media type is judged by the extension that it belongs to. -/
theorem assessStoredSignature_detected (hFold : unicode.FoldsAscii) (extension : PyStr) {fileType : DetectedFileType}
    (h : fileType ∈ detectableTypes) : assessStoredSignature unicode extension fileType.mimeType =
      if fileType.extension ≠ unicode.casefold (strip extension) then .mismatch else .isMatch := by
  have hKnown : ∀ fileType ∈ detectableTypes, fileType.mimeType ≠ py "application/octet-stream" := by decide
  unfold assessStoredSignature
  rw [casefold_mimeType hFold (List.mem_cons_of_mem _ (List.mem_map_of_mem h))]
  refine (if_neg (hKnown fileType h)).trans ?_
  by_cases hExtension : fileType.extension = unicode.casefold (strip extension)
  · rw [← hExtension, expectedMime_of_mem h, if_neg (not_not.mpr rfl)]
    exact if_neg (not_not.mpr rfl)
  · rw [if_pos hExtension]
    rcases hMime : expectedMime (unicode.casefold (strip extension)) with _ | mime
    · rfl
    · apply if_pos
      intro hSame
      rw [← hSame] at hMime
      exact hExtension (extension_of_expectedMime h hMime)

end Gate

variable (env : UploadEnvironment)

/-- For every extension, also one without a media type of its own. -/
theorem publish_gate_eq_upload_gate (hFold : env.unicode.FoldsAscii) (extension : PyStr) (sample : Bytes)
    (id releaseId : Nat) (streamed : StreamedUpload) (scanResult : ScanResult) (metadata : UploadMetadata)
    (texts : UploadService.RowTexts) :
    assessStoredSignature env.unicode extension
        (UploadService.newRow env id releaseId streamed (validateFileSignature env.unicode extension sample) scanResult
          metadata texts).detectedMimeType =
      (validateFileSignature env.unicode extension sample).assessment := by
  rcases hDetected : detectFileType sample with _ | fileType
  · have hSignature : validateFileSignature env.unicode extension sample =
        ⟨.unknown, env.unicode.casefold (strip extension), none⟩ := by rw [validateFileSignature, hDetected]
    rw [hSignature]
    exact assessStoredSignature_unknown hFold extension
  · have hMem := detectFileType_mem hDetected
    by_cases hExtension : fileType.extension ≠ env.unicode.casefold (strip extension)
    · have hSignature : validateFileSignature env.unicode extension sample =
          ⟨.mismatch, env.unicode.casefold (strip extension), some fileType⟩ := by
        rw [validateFileSignature, hDetected]
        exact if_pos hExtension
      rw [hSignature]
      exact (assessStoredSignature_detected hFold extension hMem).trans (if_pos hExtension)
    · have hSignature : validateFileSignature env.unicode extension sample =
          ⟨.isMatch, env.unicode.casefold (strip extension), some fileType⟩ := by
        rw [validateFileSignature, hDetected]
        exact if_neg hExtension
      rw [hSignature]
      exact (assessStoredSignature_detected hFold extension hMem).trans (if_neg hExtension)

/-- The streamed copy of an archive. -/
def sampleStreamed : StreamedUpload :=
  ⟨⟨⟨py "tool.iso", py "tool", py ".iso"⟩, py "1.iso", py "2.upload", py "ab/1.iso", [py "2.upload"]⟩, 4, py "0",
    [0x50, 0x4B, 0x03, 0x04]⟩

/-- The texts of its row, under the name of an image of a disk. -/
def sampleTexts : UploadService.RowTexts := ⟨py "tool.iso", py "any", none, none, none, none⟩

theorem publish_gate_eq_upload_gate_custom :
    assessStoredSignature Unicode.ascii (py ".iso")
        (UploadService.newRow sampleUploadEnvironment 1 1 sampleStreamed
          (validateFileSignature Unicode.ascii (py ".iso") [0x50, 0x4B, 0x03, 0x04]) ⟨.clean, none⟩
          sampleUpload.metadata sampleTexts).detectedMimeType =
      (validateFileSignature Unicode.ascii (py ".iso") [0x50, 0x4B, 0x03, 0x04]).assessment :=
  publish_gate_eq_upload_gate sampleUploadEnvironment Unicode.ascii_foldsAscii (py ".iso") [0x50, 0x4B, 0x03, 0x04] 1 1
    sampleStreamed ⟨.clean, none⟩ sampleUpload.metadata sampleTexts

end SoftwareHub.Lifecycle
