import SoftwareHub.Backup.Manifest

/-! Backup identifiers: how a new one is made, and what the pattern says about every
name it accepts. -/
namespace SoftwareHub.Backup

open SoftwareHub.Python

/-- A fragment of a random UUID: eight hexadecimal digits. -/
structure Token where
  text : PyStr
  length_text : text.length = 8
  lowerHex : ∀ c ∈ text, isLowerHex c = true

/-- `now.strftime("%Y%m%dT%H%M%S%fZ")`. -/
def timestamp (now : DateTime) : PyStr :=
  padded 4 now.year ++ padded 2 now.month ++ padded 2 now.day ++ py "T" ++ padded 2 now.hour ++
    padded 2 now.minute ++ padded 2 now.second ++ padded 6 now.microsecond ++ py "Z"

/-- `_new_backup_id`. -/
def newBackupId (now : DateTime) (token : Token) : PyStr :=
  backupPrefix ++ timestamp now ++ py "-" ++ token.text

/-- The temporary directory of a backup in the making. -/
def temporaryName (backupId hex : PyStr) : PyStr := py "." ++ backupId ++ py ".tmp-" ++ hex

/-- An ASCII digit is a decimal one. -/
theorem isDecimal_of_isDigit {c : Nat} (h : isDigit c = true) : isDecimal c = true := by
  simp only [isDigit, Bool.and_eq_true, decide_eq_true_eq] at h
  have hFirst : (0x30 ≤ c && c < 0x30 + 10) = true := by simp; omega
  simp [isDecimal, decimalValue?, decimalBlocks, hFirst]

/-- A new identifier matches the pattern, whatever the clock says. -/
theorem matches_newBackupId (now : DateTime) (token : Token) :
    fullMatch backupIdPattern (newBackupId now token) = true := by
  have hDigits (width n : Nat) (hWidth : 0 < width) (hn : n < 10 ^ width) :
      fullMatch (List.replicate width isDecimal) (padded width n) = true := by
    have hAll : ∀ c ∈ padded width n, isDecimal c = true := fun c hc =>
      isDecimal_of_isDigit (DateTime.isDigit_of_mem_padded hc)
    have hMatch := fullMatch_replicate hAll
    rwa [DateTime.length_padded hWidth hn] at hMatch
  have hYear := now.year_range
  have hMonth := now.month_range
  have hDay := now.day_range
  have hClock := now.clock_range
  have hDayLe := DateTime.daysInMonth_le now.year now.month
  have hPattern : backupIdPattern = literal backupPrefix ++
      (List.replicate 4 isDecimal ++ (List.replicate 2 isDecimal ++ (List.replicate 2 isDecimal ++
        (literal (py "T") ++ (List.replicate 2 isDecimal ++ (List.replicate 2 isDecimal ++
          (List.replicate 2 isDecimal ++ (List.replicate 6 isDecimal ++ (literal (py "Z") ++
            (literal (py "-") ++ List.replicate 8 isLowerHex)))))))))) := by
    rfl
  have hToken : fullMatch (List.replicate 8 isLowerHex) token.text = true := by
    have hMatch := fullMatch_replicate token.lowerHex
    rwa [token.length_text] at hMatch
  rw [hPattern, newBackupId, timestamp]
  simp only [List.append_assoc]
  refine fullMatch_append (fullMatch_literal _) (fullMatch_append (hDigits 4 _ (by decide) (by omega))
    (fullMatch_append (hDigits 2 _ (by decide) (by omega)) (fullMatch_append (hDigits 2 _ (by decide) (by omega))
    (fullMatch_append (fullMatch_literal _) (fullMatch_append (hDigits 2 _ (by decide) (by omega))
    (fullMatch_append (hDigits 2 _ (by decide) (by omega)) (fullMatch_append (hDigits 2 _ (by decide) (by omega))
    (fullMatch_append (hDigits 6 _ (by decide) (by omega)) (fullMatch_append (fullMatch_literal _)
    (fullMatch_append (fullMatch_literal _) hToken))))))))))

/-- The characters an identifier consists of. -/
theorem backupId_char {s : PyStr} (h : fullMatch backupIdPattern s = true) {c : Nat} (hc : c ∈ s) :
    isSpace c = false ∧ isScalar c = true ∧ c ≠ slash ∧ c ≠ 0 ∧ c ≠ 0x2E := by
  let Plain (c : Nat) : Prop := isSpace c = false ∧ isScalar c = true ∧ c ≠ slash ∧ c ≠ 0 ∧ c ≠ 0x2E
  have hLiteral (text : PyStr) (hText : ∀ c ∈ text, Plain c) (accepts : Nat → Bool)
      (hMem : accepts ∈ literal text) (hAccepts : accepts c = true) : Plain c := by
    obtain ⟨d, hd, rfl⟩ := List.mem_map.mp hMem
    simp only [beq_iff_eq] at hAccepts
    exact hAccepts ▸ hText d hd
  have hDecimal (hAccepts : isDecimal c = true) : Plain c := by
    have hBlocks : ∀ first ∈ decimalBlocks, ∀ i < 10, Plain (first + i) := by decide
    obtain ⟨value, hValue⟩ := Option.isSome_iff_exists.mp hAccepts
    obtain ⟨first, hFind, -⟩ := Option.map_eq_some_iff.mp hValue
    have hRange := List.find?_some hFind
    simp only [Bool.and_eq_true, decide_eq_true_eq] at hRange
    have := hBlocks first (List.mem_of_find?_eq_some hFind) (c - first) (by omega)
    rwa [Nat.add_sub_cancel' hRange.1] at this
  have hHex (hAccepts : isLowerHex c = true) : Plain c := by
    have hSmall : c < 0x80 := by
      simp only [isLowerHex, isDigit, Bool.or_eq_true, Bool.and_eq_true, decide_eq_true_eq] at hAccepts
      omega
    have hAll : ∀ c < 0x80, isLowerHex c = true → Plain c := by decide
    exact hAll c hSmall hAccepts
  obtain ⟨accepts, hMem, hAccepts⟩ := exists_of_fullMatch h c hc
  simp only [backupIdPattern, List.mem_append, List.mem_replicate] at hMem
  rcases hMem with (((((hMem | ⟨-, rfl⟩) | hMem) | ⟨-, rfl⟩) | ⟨-, rfl⟩) | hMem) | ⟨-, rfl⟩
  · exact hLiteral _ (by decide) accepts hMem hAccepts
  · exact hDecimal hAccepts
  · exact hLiteral _ (by decide) accepts hMem hAccepts
  · exact hDecimal hAccepts
  · exact hDecimal hAccepts
  · exact hLiteral _ (by decide) accepts hMem hAccepts
  · exact hHex hAccepts

theorem strip_backupId {s : PyStr} (h : fullMatch backupIdPattern s = true) : strip s = s :=
  strip_of_no_space fun _ hc => (backupId_char h hc).1

/-- An identifier is accepted as it is. -/
theorem safeBackupId_of_match {s : PyStr} (h : fullMatch backupIdPattern s = true) :
    safeBackupId s = .ok s := by
  simp [safeBackupId, strip_backupId h, h]

/-- An identifier is the name of a directory entry. -/
theorem isFileName_backupId {s : PyStr} (h : fullMatch backupIdPattern s = true) : IsFileName s := by
  have hLength : s.length = backupIdPattern.length := by
    simp only [fullMatch, Bool.and_eq_true, beq_iff_eq] at h
    exact h.1.symm
  have hPattern : backupIdPattern.length = 51 := by decide
  refine ⟨?_, fun hc => (backupId_char h hc).2.2.1 rfl, fun hc => (backupId_char h hc).2.2.2.1 rfl, ?_, ?_,
    fsname_of_scalar (List.all_eq_true.mpr fun c hc => (backupId_char h hc).2.1)⟩
  all_goals
    rintro rfl
    rw [hPattern] at hLength
    revert hLength
    decide

end SoftwareHub.Backup
