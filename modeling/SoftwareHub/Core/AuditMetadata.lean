import SoftwareHub.Core.Logging

/-! What an audit record may carry besides its columns: the sanitized metadata is
bounded, and sanitizing it again changes nothing. -/
namespace SoftwareHub.Core

open SoftwareHub.Python PyValue

def allowedMetadataKeys : List PyStr :=
  [py "backup_id", py "changed", py "checksum_verified", py "cleared_count", py "current", py "deleted_count",
    py "duplicate_count", py "file_count", py "total_bytes", py "retention_deleted_count", py "orphan_count",
    py "mismatch_count", py "verified_count", py "dry_run", py "file_extension", py "file_size_bytes", py "from",
    py "initial_status", py "physical_file_preserved", py "reason", py "release_id", py "revoked_count",
    py "scanner_status", py "signature_assessment", py "slug", py "software_id", py "storage_area", py "to",
    py "username_hash", py "version"]

def maxMetadataItems : Nat := 24

def maxMetadataStringLength : Nat := 256

def maxMetadataSequenceLength : Nat := 20

/-- `_safe_scalar`, where `none` is `_UNSUPPORTED`. -/
def safeScalar : PyValue → Option Scalar
  | .scalar .none => some .none
  | .scalar (.bool value) => some (.bool value)
  | .scalar (.int value) => some (.int value)
  | .scalar (.float (.finite negative mantissa exponent)) => some (.float (.finite negative mantissa exponent))
  | .scalar (.strEnum value) => some (.str (value.take maxMetadataStringLength))
  | .scalar (.str value) => some (.str (value.take maxMetadataStringLength))
  | _ => none

/-- `_safe_value`: a scalar, or the scalars of a short list. -/
def safeValue : PyValue → Option PyValue
  | .mapping _ => none
  | .bytes _ => none
  | .list items => some (.list ((items.take maxMetadataSequenceLength).filterMap fun item => (safeScalar item).map .scalar))
  | .tuple items => some (.list ((items.take maxMetadataSequenceLength).filterMap fun item => (safeScalar item).map .scalar))
  | value => (safeScalar value).map .scalar

section Sanitization

-- `str.casefold` is that of the tables, `str.lower` a function of its own
variable (unicode : Unicode) (lower : PyStr → PyStr)

/-- The loop of `sanitize_audit_metadata`, which stops at the limit of items. -/
def sanitizeItems (cleaned : List (PyStr × PyValue)) : List (Key × PyValue) → List (PyStr × PyValue)
  | [] => cleaned
  | (key, value) :: items =>
      let normalized := unicode.casefold (strip key.text)
      if maxMetadataItems ≤ cleaned.length then cleaned
      else if normalized ∉ allowedMetadataKeys ∨ isSensitiveKey lower normalized = true then sanitizeItems cleaned items
      else match safeValue value with
        | none => sanitizeItems cleaned items
        | some cleanedValue => sanitizeItems (dictSet cleaned normalized cleanedValue) items

/-- `sanitize_audit_metadata`: an absent mapping is an empty one. -/
def sanitizeAuditMetadata (metadata : Option (List (Key × PyValue))) : List (PyStr × PyValue) :=
  sanitizeItems unicode lower [] (metadata.getD [])

/-- The dictionary of the result, as it is handed on. -/
def asMapping (cleaned : List (PyStr × PyValue)) : List (Key × PyValue) := cleaned.map fun item => (.str item.1, item.2)

end Sanitization

/-- A scalar with a bounded notation. -/
def SafeScalar : Scalar → Prop
  | .none => True
  | .bool _ => True
  | .int _ => True
  | .float value => ∃ negative mantissa exponent, value = .finite negative mantissa exponent
  | .str value => value.length ≤ maxMetadataStringLength
  | .strEnum _ => False

/-- A safe scalar, or a short list of them. -/
inductive SafeValue : PyValue → Prop
  | scalar {value : Scalar} (h : SafeScalar value) : SafeValue (.scalar value)
  | list {values : List Scalar} (hLength : values.length ≤ maxMetadataSequenceLength) (h : ∀ value ∈ values, SafeScalar value) :
      SafeValue (.list (values.map .scalar))

theorem safeScalar_spec {item : PyValue} {value : Scalar} (h : safeScalar item = some value) : SafeScalar value := by
  unfold safeScalar at h
  split at h <;> cases h
  · trivial
  · trivial
  · trivial
  · exact ⟨_, _, _, rfl⟩
  · exact List.length_take_le _ _
  · exact List.length_take_le _ _

/-- A safe scalar is kept as it is. -/
theorem safeScalar_of_safe {value : Scalar} (h : SafeScalar value) : safeScalar (.scalar value) = some value := by
  cases value with
  | none => rfl
  | bool value => rfl
  | int value => rfl
  | float value =>
      obtain ⟨negative, mantissa, exponent, rfl⟩ := h
      rfl
  | str value => rw [safeScalar, List.take_of_length_le h]
  | strEnum value => exact h.elim

/-- The scalars kept of a list are safe, and no more than the limit. -/
theorem safeItems_spec (items : List PyValue) :
    SafeValue (.list ((items.take maxMetadataSequenceLength).filterMap fun item => (safeScalar item).map .scalar)) := by
  have hMap : (items.take maxMetadataSequenceLength).filterMap (fun item => (safeScalar item).map PyValue.scalar) =
      ((items.take maxMetadataSequenceLength).filterMap safeScalar).map .scalar := by
    rw [List.map_filterMap]
  rw [hMap]
  refine .list ((List.length_filterMap_le _ _).trans (List.length_take_le _ _)) fun value hMem => ?_
  obtain ⟨item, -, hItem⟩ := List.mem_filterMap.mp hMem
  exact safeScalar_spec hItem

theorem safeValue_spec {value cleaned : PyValue} (h : safeValue value = some cleaned) : SafeValue cleaned := by
  cases value with
  | mapping entries => cases h
  | bytes data => cases h
  | list items =>
      cases h
      exact safeItems_spec items
  | tuple items =>
      cases h
      exact safeItems_spec items
  | set items => cases h
  | object number => cases h
  | scalar value =>
      have h : (safeScalar (.scalar value)).map PyValue.scalar = some cleaned := h
      obtain ⟨scalar, hScalar, rfl⟩ := Option.map_eq_some_iff.mp h
      exact .scalar (safeScalar_spec hScalar)

/-- A safe value is kept as it is. -/
theorem safeValue_of_safe {value : PyValue} (h : SafeValue value) : safeValue value = some value := by
  cases h with
  | scalar h => exact congrArg (Option.map PyValue.scalar) (safeScalar_of_safe h)
  | @list values hLength h =>
      have hTake : (values.map PyValue.scalar).take maxMetadataSequenceLength = values.map .scalar :=
        List.take_of_length_le (by simpa using hLength)
      have hKeep : (values.map PyValue.scalar).filterMap (fun item => (safeScalar item).map PyValue.scalar) =
          values.map PyValue.scalar := by
        rw [List.filterMap_map]
        refine Eq.trans (List.filterMap_congr fun value hMem => ?_) (congrFun (@List.filterMap_eq_map _ _ PyValue.scalar) values)
        exact congrArg (Option.map PyValue.scalar) (safeScalar_of_safe (h value hMem))
      rw [safeValue, hTake, hKeep]

section Bounds

variable {unicode : Unicode} {lower : PyStr → PyStr}

/-- What holds of the collected items at every turn of the loop: few items, allowed
keys, safe values. -/
structure Cleaned (lower : PyStr → PyStr) (cleaned : List (PyStr × PyValue)) : Prop where
  length : cleaned.length ≤ maxMetadataItems
  nodup : (cleaned.map Prod.fst).Nodup
  keys : ∀ item ∈ cleaned, item.1 ∈ allowedMetadataKeys ∧ isSensitiveKey lower item.1 = false
  values : ∀ item ∈ cleaned, SafeValue item.2

/-- A further item with an allowed key and a safe value keeps this, as long as there
is room. -/
theorem Cleaned.set {cleaned : List (PyStr × PyValue)} (h : Cleaned lower cleaned) (hRoom : cleaned.length < maxMetadataItems)
    {key : PyStr} {value : PyValue} (hKey : key ∈ allowedMetadataKeys ∧ isSensitiveKey lower key = false)
    (hValue : SafeValue value) : Cleaned lower (dictSet cleaned key value) where
  length := (length_dictSet_le cleaned key value).trans hRoom
  nodup := nodup_dictSet h.nodup key value
  keys item hMem := by
    rcases mem_dictSet hMem with hOld | rfl
    · exact h.keys item hOld
    · exact hKey
  values item hMem := by
    rcases mem_dictSet hMem with hOld | rfl
    · exact h.values item hOld
    · exact hValue

theorem Cleaned.sanitizeItems {cleaned : List (PyStr × PyValue)} (h : Cleaned lower cleaned)
    (items : List (Key × PyValue)) : Cleaned lower (sanitizeItems unicode lower cleaned items) := by
  induction items generalizing cleaned with
  | nil => exact h
  | cons item items ih =>
      rw [Core.sanitizeItems]
      split_ifs with hFull hRefused
      · exact h
      · exact ih h
      · rw [not_or, not_not, Bool.not_eq_true] at hRefused
        split
        · exact ih h
        · rename_i value hValue
          exact ih (h.set (Nat.lt_of_not_le hFull) hRefused (safeValue_spec hValue))

/-- Allowed keys are their own normal form, so that they are recognised again. -/
theorem normalized_of_allowed (hFolds : unicode.FoldsAscii) {key : PyStr} (h : key ∈ allowedMetadataKeys) :
    unicode.casefold (strip key) = key := by
  have hAll : ∀ key ∈ allowedMetadataKeys, (∀ c ∈ key, c < 0x80) ∧ key.map asciiLower = key ∧ strip key = key := by
    decide
  obtain ⟨hAscii, hLower, hStrip⟩ := hAll key h
  rw [hStrip]
  exact hFolds.casefold_eq hAscii hLower

/-- Cleaned items pass the loop as they are. The induction is on the items still to
come. -/
theorem sanitizeItems_of_cleaned (hFolds : unicode.FoldsAscii) {done items : List (PyStr × PyValue)}
    (h : Cleaned lower (done ++ items)) :
    sanitizeItems unicode lower done (asMapping items) = done ++ items := by
  induction items generalizing done with
  | nil => rw [List.append_nil]; rfl
  | cons item items ih =>
      have hLength := h.length
      rw [List.length_append, List.length_cons] at hLength
      obtain ⟨hAllowed, hShown⟩ := h.keys item (by simp)
      have hNew : item.1 ∉ done.map Prod.fst := by
        have hNodup := h.nodup
        rw [List.map_append, List.nodup_append] at hNodup
        exact fun hMem => hNodup.2.2 _ hMem item.1 (by simp) rfl
      change sanitizeItems unicode lower done ((.str item.1, item.2) :: asMapping items) = _
      rw [sanitizeItems]
      simp only [Key.text, normalized_of_allowed hFolds hAllowed]
      rw [if_neg (by omega), if_neg (by simp [hAllowed, hShown]), safeValue_of_safe (h.values item (by simp))]
      dsimp only
      rw [dictSet_of_not_mem hNew, ih (by simpa using h)]
      simp

end Bounds

/-- Sanitized metadata is bounded, has approved keys only, and is left alone
when it is sanitized again. -/
theorem sanitizeAuditMetadata_bounded_and_stable {unicode : Unicode} (hFolds : unicode.FoldsAscii)
    (lower : PyStr → PyStr) (metadata : Option (List (Key × PyValue))) :
    Cleaned lower (sanitizeAuditMetadata unicode lower metadata) ∧
      sanitizeAuditMetadata unicode lower (some (asMapping (sanitizeAuditMetadata unicode lower metadata))) =
        sanitizeAuditMetadata unicode lower metadata := by
  have hEmpty : Cleaned lower [] := ⟨by decide, List.nodup_nil, nofun, nofun⟩
  have hCleaned : Cleaned lower (sanitizeAuditMetadata unicode lower metadata) := hEmpty.sanitizeItems _
  exact ⟨hCleaned, sanitizeItems_of_cleaned hFolds (by simpa using hCleaned)⟩

/-- Two spellings of one key, a list with a nested one, and a secret. -/
def sampleMetadata : List (Key × PyValue) :=
  [(.str (py " Slug"), .scalar (.str (py "tool"))), (.str (py "SLUG"), .list [.scalar (.int 1), .list [], .scalar (.float .nan)]),
    (.other (py "version"), .tuple [.scalar (.strEnum (py "1.0")), .bytes []]), (.str (py "password"), .scalar (.str (py "secret")))]

theorem sanitizeAuditMetadata_sample :
    Cleaned (List.map asciiLower) (sanitizeAuditMetadata Unicode.ascii (List.map asciiLower) (some sampleMetadata)) ∧
      sanitizeAuditMetadata Unicode.ascii (List.map asciiLower)
          (some (asMapping (sanitizeAuditMetadata Unicode.ascii (List.map asciiLower) (some sampleMetadata)))) =
        sanitizeAuditMetadata Unicode.ascii (List.map asciiLower) (some sampleMetadata) :=
  sanitizeAuditMetadata_bounded_and_stable Unicode.ascii_foldsAscii (List.map asciiLower) (some sampleMetadata)

end SoftwareHub.Core
