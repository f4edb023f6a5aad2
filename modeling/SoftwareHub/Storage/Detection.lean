import SoftwareHub.Storage.Signatures

/-! Detection from the first bytes of a file: reading more of the file never changes
a type that was found. -/
namespace SoftwareHub.Storage

open SoftwareHub.Python

variable {sample rest : Bytes}

/-- A slice that lies within the sample does not see what follows it. -/
theorem slice_append {start count : Nat} (h : start + count ≤ sample.length) :
    ((sample ++ rest).drop start).take count = (sample.drop start).take count := by
  have hStart : start ≤ sample.length := by omega
  have hCount : count ≤ (sample.drop start).length := by
    rw [List.length_drop]
    omega
  rw [List.drop_append_of_le_length hStart, List.take_append_of_le_length hCount]

theorem looksLikePe_iff : looksLikePe sample = true ↔
    64 ≤ sample.length ∧ sample.take 2 = [0x4D, 0x5A] ∧
      64 ≤ littleEndian ((sample.drop 0x3C).take 4) ∧
      littleEndian ((sample.drop 0x3C).take 4) + 4 ≤ sample.length ∧
      (sample.drop (littleEndian ((sample.drop 0x3C).take 4))).take 4 = [0x50, 0x45, 0x00, 0x00] := by
  unfold looksLikePe
  by_cases hHeader : sample.length < 64 ∨ sample.take 2 ≠ [0x4D, 0x5A]
  · rw [if_pos hHeader]
    have hNot : ¬(64 ≤ sample.length ∧ sample.take 2 = [0x4D, 0x5A]) := by
      intro h
      rcases hHeader with hShort | hStart
      · omega
      · exact hStart h.2
    constructor
    · nofun
    · intro h
      exact absurd ⟨h.1, h.2.1⟩ hNot
  · rw [if_neg hHeader]
    have hLong : 64 ≤ sample.length := Nat.le_of_not_lt fun h => hHeader (Or.inl h)
    have hStart : sample.take 2 = [0x4D, 0x5A] := not_not.mp fun h => hHeader (Or.inr h)
    by_cases hOffset : littleEndian ((sample.drop 0x3C).take 4) < 64 ∨
        sample.length < littleEndian ((sample.drop 0x3C).take 4) + 4
    · simp only [if_pos hOffset]
      constructor
      · nofun
      · intro h
        omega
    · simp only [if_neg hOffset, decide_eq_true_eq]
      constructor
      · intro h
        exact ⟨hLong, hStart, by omega, by omega, h⟩
      · intro h
        exact h.2.2.2.2

/-- The header, the offset and the bytes that it points to all lie in the sample, so
that more of the file changes nothing. -/
theorem looksLikePe_append (h : looksLikePe sample = true) : looksLikePe (sample ++ rest) = true := by
  obtain ⟨hLong, hStart, hLow, hHigh, hMark⟩ := looksLikePe_iff.mp h
  have hOffset : ((sample ++ rest).drop 0x3C).take 4 = (sample.drop 0x3C).take 4 := slice_append (by omega)
  apply looksLikePe_iff.mpr
  rw [hOffset, List.length_append, slice_append hHigh, List.take_append_of_le_length (by omega)]
  exact ⟨by omega, hStart, hLow, by omega, hMark⟩

/-- An executable starts with `M`. The first byte tells the four kinds apart, so the
order of the tests is not seen. -/
theorem head_of_looksLikePe (h : looksLikePe sample = true) : sample.head? = some 0x4D := by
  have hStart := (looksLikePe_iff.mp h).2.1
  cases sample with
  | nil => cases hStart
  | cons b bs =>
      rw [List.take_succ_cons] at hStart
      exact congrArg some (List.cons.inj hStart).1

theorem head_of_isPrefixOf {signature : Bytes} {b : UInt8} (hHead : signature.head? = some b)
    (h : signature.isPrefixOf sample = true) : sample.head? = some b := by
  obtain ⟨tail, rfl⟩ := List.isPrefixOf_iff_prefix.mp h
  rw [List.head?_append, hHead]
  rfl

theorem isPrefixOf_append {signature : Bytes} (h : signature.isPrefixOf sample = true) :
    signature.isPrefixOf (sample ++ rest) = true :=
  List.isPrefixOf_iff_prefix.mpr ((List.isPrefixOf_iff_prefix.mp h).trans (List.prefix_append sample rest))

theorem head_of_zip (h : zipSignatures.any (·.isPrefixOf sample) = true) : sample.head? = some 0x50 := by
  obtain ⟨signature, hMem, hPrefix⟩ := List.any_eq_true.mp h
  have hHead : ∀ signature ∈ zipSignatures, signature.head? = some 0x50 := by decide
  exact head_of_isPrefixOf (hHead signature hMem) hPrefix

/-- A file that starts with another byte is no executable. -/
theorem not_looksLikePe {b : UInt8} (hHead : sample.head? = some b) (hb : b ≠ 0x4D) : ¬looksLikePe sample = true := by
  intro h
  exact hb (Option.some.inj (hHead.symm.trans (head_of_looksLikePe h)))

theorem not_isPrefixOf {signature : Bytes} {b c : UInt8} (hHead : sample.head? = some b)
    (hSignature : signature.head? = some c) (hb : b ≠ c) : ¬signature.isPrefixOf sample = true := by
  intro h
  exact hb (Option.some.inj (hHead.symm.trans (head_of_isPrefixOf hSignature h)))

/-- A type that was found in the sample is found in every file that starts with the
sample. -/
theorem detectFileType_append {fileType : DetectedFileType} (h : detectFileType sample = some fileType) :
    detectFileType (sample ++ rest) = some fileType := by
  unfold detectFileType at h
  by_cases hPe : looksLikePe sample = true
  · rw [if_pos hPe] at h
    rw [detectFileType, if_pos (looksLikePe_append hPe), h]
  rw [if_neg hPe] at h
  by_cases hCompound : compoundFileSignature.isPrefixOf sample = true
  · rw [if_pos hCompound] at h
    have hLonger : compoundFileSignature.isPrefixOf (sample ++ rest) = true := isPrefixOf_append hCompound
    have hHead := head_of_isPrefixOf rfl hLonger
    rw [detectFileType, if_neg (not_looksLikePe hHead (by decide)), if_pos hLonger, h]
  rw [if_neg hCompound] at h
  by_cases hSeven : sevenZipSignature.isPrefixOf sample = true
  · rw [if_pos hSeven] at h
    have hLonger : sevenZipSignature.isPrefixOf (sample ++ rest) = true := isPrefixOf_append hSeven
    have hHead := head_of_isPrefixOf rfl hLonger
    rw [detectFileType, if_neg (not_looksLikePe hHead (by decide)),
      if_neg (not_isPrefixOf hHead rfl (by decide)), if_pos hLonger, h]
  rw [if_neg hSeven] at h
  by_cases hZip : zipSignatures.any (·.isPrefixOf sample) = true
  · rw [if_pos hZip] at h
    have hLonger : zipSignatures.any (·.isPrefixOf (sample ++ rest)) = true := by
      obtain ⟨signature, hMem, hPrefix⟩ := List.any_eq_true.mp hZip
      exact List.any_eq_true.mpr ⟨signature, hMem, isPrefixOf_append hPrefix⟩
    have hHead := head_of_zip hLonger
    rw [detectFileType, if_neg (not_looksLikePe hHead (by decide)),
      if_neg (not_isPrefixOf hHead rfl (by decide)), if_neg (not_isPrefixOf hHead rfl (by decide)),
      if_pos hLonger, h]
  · rw [if_neg hZip] at h
    cases h

/-- `sample[start:stop]` of a buffer that has no bytes outside the sample: a read
past its end fails. -/
def checkedSlice (sample : Bytes) (start stop : Nat) : Option Bytes :=
  if start ≤ stop ∧ stop ≤ sample.length then some ((sample.drop start).take (stop - start)) else none

/-- `looksLikePe` with every slice checked. -/
def checkedLooksLikePe (sample : Bytes) : Option Bool :=
  if sample.length < 64 then some false
  else do
    let magic ← checkedSlice sample 0 2
    if magic ≠ [0x4D, 0x5A] then return false
    else
      let offset ← checkedSlice sample 0x3C 0x40
      let peOffset := littleEndian offset
      if peOffset < 64 ∨ sample.length < peOffset + 4 then return false
      else
        let mark ← checkedSlice sample peOffset (peOffset + 4)
        return mark = [0x50, 0x45, 0x00, 0x00]

theorem checkedSlice_eq {start count : Nat} (h : start + count ≤ sample.length) :
    checkedSlice sample start (start + count) = some ((sample.drop start).take count) := by
  rw [checkedSlice, if_pos ⟨by omega, h⟩, Nat.add_sub_cancel_left]

/-- No slice leaves the sample, whatever offset the file claims. -/
theorem checkedLooksLikePe_eq (sample : Bytes) : checkedLooksLikePe sample = some (looksLikePe sample) := by
  unfold checkedLooksLikePe looksLikePe
  by_cases hShort : sample.length < 64
  · rw [if_pos hShort, if_pos (Or.inl hShort)]
  rw [if_neg hShort]
  have hMagic : checkedSlice sample 0 2 = some (sample.take 2) :=
    checkedSlice_eq (show 0 + 2 ≤ sample.length by omega)
  have hOffset : checkedSlice sample 0x3C 0x40 = some ((sample.drop 0x3C).take 4) :=
    checkedSlice_eq (show 0x3C + 4 ≤ sample.length by omega)
  rw [hMagic, hOffset]
  by_cases hStart : sample.take 2 ≠ [0x4D, 0x5A]
  · rw [if_pos (Or.inr hStart)]
    exact if_pos hStart
  rw [if_neg (by rintro (h | h) <;> contradiction)]
  refine (if_neg hStart).trans ?_
  change (if _ then _ else _) = _
  by_cases hRange : littleEndian ((sample.drop 0x3C).take 4) < 64 ∨
      sample.length < littleEndian ((sample.drop 0x3C).take 4) + 4
  · rw [if_pos hRange]
    simp only [if_pos hRange]
    rfl
  · rw [if_neg hRange]
    simp only [if_neg hRange]
    rw [checkedSlice_eq (by omega)]
    rfl

/-- What the bounded sample of an upload can say about the whole file, for a sample
of any length. -/
theorem detection_from_sample (unicode : Unicode) (extension : PyStr) (content sample : Bytes)
    (hPrefix : sample <+: content) :
    (∀ fileType, detectFileType sample = some fileType → detectFileType content = some fileType) ∧
      ((validateFileSignature unicode extension sample).assessment = .unknown ∨
        (validateFileSignature unicode extension sample).assessment =
          (validateFileSignature unicode extension content).assessment) ∧
      checkedLooksLikePe sample = some (looksLikePe sample) := by
  obtain ⟨rest, rfl⟩ := hPrefix
  refine ⟨fun fileType h => detectFileType_append h, ?_, checkedLooksLikePe_eq sample⟩
  rcases hDetected : detectFileType sample with _ | fileType
  · apply Or.inl
    rw [validateFileSignature, hDetected]
  · apply Or.inr
    rw [validateFileSignature, validateFileSignature, hDetected, detectFileType_append hDetected]

theorem detection_from_sample_truncated :
    (∀ fileType, detectFileType [0x50, 0x4B, 0x03, 0x04] = some fileType →
      detectFileType [0x50, 0x4B, 0x03, 0x04, 0x14, 0x00] = some fileType) ∧
      ((validateFileSignature .ascii (py ".zip") [0x50, 0x4B, 0x03, 0x04]).assessment = .unknown ∨
        (validateFileSignature .ascii (py ".zip") [0x50, 0x4B, 0x03, 0x04]).assessment =
          (validateFileSignature .ascii (py ".zip") [0x50, 0x4B, 0x03, 0x04, 0x14, 0x00]).assessment) ∧
      checkedLooksLikePe [0x50, 0x4B, 0x03, 0x04] = some (looksLikePe [0x50, 0x4B, 0x03, 0x04]) :=
  detection_from_sample .ascii (py ".zip") [0x50, 0x4B, 0x03, 0x04, 0x14, 0x00] [0x50, 0x4B, 0x03, 0x04]
    ⟨[0x14, 0x00], rfl⟩

end SoftwareHub.Storage
