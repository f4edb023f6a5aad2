import SoftwareHub.Python.PurePath

/-! The names that the server generates for stored files and temporary uploads, and
the directories into which they are sharded. -/
namespace SoftwareHub.Storage

open SoftwareHub.Python

def isExtensionChar (c : Nat) : Bool := isDigit c || (0x61 ≤ c && c ≤ 0x7A)

/-- `[0-9a-f]{32}\.[a-z0-9]{1,15}`, a generated identifier with the extension of the
upload. -/
def isStorageFilename (filename : PyStr) : Bool :=
  let (identifier, extension) := filename.splitAt 32
  identifier.length == 32 && identifier.all isLowerHex && extension.head? == some 0x2E &&
    2 ≤ extension.length && extension.length ≤ 16 && (extension.drop 1).all isExtensionChar

/-- `[0-9a-f]{32}\.upload`, the name of an upload under way. -/
def isTemporaryFilename (filename : PyStr) : Bool :=
  let (identifier, suffix) := filename.splitAt 32
  identifier.length == 32 && identifier.all isLowerHex && suffix == py ".upload"

theorem isTemporaryFilename_iff (filename : PyStr) : isTemporaryFilename filename = true ↔
    ∃ identifier, filename = identifier ++ py ".upload" ∧ identifier.length = 32 ∧
      ∀ c ∈ identifier, isLowerHex c = true := by
  simp only [isTemporaryFilename, List.splitAt_eq, Bool.and_eq_true, beq_iff_eq, List.all_eq_true]
  constructor
  · rintro ⟨⟨hLength, hHex⟩, hSuffix⟩
    refine ⟨filename.take 32, ?_, hLength, hHex⟩
    rw [← hSuffix, List.take_append_drop]
  · rintro ⟨identifier, rfl, hLength, hHex⟩
    rw [← hLength, List.take_left, List.drop_left]
    exact ⟨⟨rfl, hHex⟩, rfl⟩

/-- The parts of `sharded_relative_path`; `none` is the `FileValidationError`. -/
def shardedRelativePath (filename : PyStr) : Option (List PyStr) :=
  if isStorageFilename filename then
    some [filename.take 2, (filename.drop 2).take 2, filename]
  else none

/-- Sharded paths consist of plain names, which every later check of the path
accepts. -/
theorem plainName_of_mem_shardedRelativePath {filename : PyStr} {parts : List PyStr}
    (h : shardedRelativePath filename = some parts) : ∀ part ∈ parts, PlainName part := by
  unfold shardedRelativePath at h
  split_ifs at h with hName
  rw [Option.some.injEq] at h
  subst h
  simp only [isStorageFilename, List.splitAt_eq, Bool.and_eq_true, beq_iff_eq, List.all_eq_true,
    decide_eq_true_eq] at hName
  obtain ⟨⟨⟨⟨⟨hLength, hIdentifier⟩, hDot⟩, -⟩, hShort⟩, hExtension⟩ := hName
  have hHex (c : Nat) (hc : isLowerHex c = true) : c < 0x80 ∧ c ≠ slash ∧ c ≠ 0 ∧ c ≠ 0x5C ∧ c ≠ 0x2E := by
    simp only [isLowerHex, isDigit, slash, Bool.or_eq_true, Bool.and_eq_true, decide_eq_true_eq] at hc ⊢
    omega
  have hChar : ∀ c ∈ filename, c < 0x80 ∧ c ≠ slash ∧ c ≠ 0 ∧ c ≠ 0x5C := by
    intro c hc
    rw [← List.take_append_drop 32 filename, List.mem_append] at hc
    rcases hc with hc | hc
    · obtain ⟨hSmall, hSlash, hZero, hBackslash, -⟩ := hHex c (hIdentifier c hc)
      exact ⟨hSmall, hSlash, hZero, hBackslash⟩
    · cases hDrop : filename.drop 32 with
      | nil => simp [hDrop] at hc
      | cons head tail =>
          simp only [hDrop, List.head?_cons, Option.some.injEq, List.drop_one, List.tail_cons] at hDot hExtension
          rw [hDrop, List.mem_cons] at hc
          rcases hc with rfl | hc
          · subst hDot
            decide
          · have := hExtension c hc
            simp only [isExtensionChar, isDigit, slash, Bool.or_eq_true, Bool.and_eq_true,
              decide_eq_true_eq] at this ⊢
            omega
  have hPlain (part : PyStr) (hChars : ∀ c ∈ part, c ∈ filename)
      (hHead : ∃ c ∈ part, c ∈ filename.take 32) : PlainName part := by
    have hScalar : ∀ c ∈ part, isScalar c = true := fun c hc => isScalar_of_lt (hChar c (hChars c hc)).1
    obtain ⟨first, hFirst, hTake⟩ := hHead
    have hNotDot := (hHex first (hIdentifier first hTake)).2.2.2.2
    refine ⟨⟨List.ne_nil_of_mem hFirst, fun h => (hChar _ (hChars _ h)).2.1 rfl,
      fun h => (hChar _ (hChars _ h)).2.2.1 rfl, ?_, ?_,
      fsname_of_scalar (List.all_eq_true.mpr hScalar)⟩, hScalar, fun h => (hChar _ (hChars _ h)).2.2.2 rfl⟩
    all_goals
      rintro rfl
      revert hFirst
      simp [py, hNotDot]
  -- the identifier has four characters and more
  rcases filename with _ | ⟨a, _ | ⟨b, _ | ⟨c, _ | ⟨d, rest⟩⟩⟩⟩
  all_goals simp at hLength
  simp only [List.take_succ_cons, List.take_zero, List.drop_succ_cons, List.drop_zero,
    List.forall_mem_cons]
  exact ⟨hPlain _ (by simp) ⟨a, by simp, by simp⟩, hPlain _ (by simp) ⟨c, by simp, by simp⟩,
    hPlain _ (by simp) ⟨a, by simp, by simp⟩, by simp⟩

end SoftwareHub.Storage
