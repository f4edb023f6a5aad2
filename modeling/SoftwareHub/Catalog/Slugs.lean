import SoftwareHub.Python.Substitution
import SoftwareHub.Python.Unicode
import SoftwareHub.Semantics.Program

/-! The slugs of categories, tags and software: how they are generated and
normalised, and why the result of either is canonical. -/
namespace SoftwareHub.Catalog

open SoftwareHub.Python SoftwareHub.Semantics

/-- The keys of `_TRANSLITERATION` and their Latin spellings, for Ukrainian text. -/
def transliteration : List (Nat × PyStr) :=
  [('а'.toNat, py "a"), ('б'.toNat, py "b"), ('в'.toNat, py "v"), ('г'.toNat, py "h"), ('ґ'.toNat, py "g"),
    ('д'.toNat, py "d"), ('е'.toNat, py "e"), ('є'.toNat, py "ie"), ('ж'.toNat, py "zh"), ('з'.toNat, py "z"),
    ('и'.toNat, py "y"), ('і'.toNat, py "i"), ('ї'.toNat, py "i"), ('й'.toNat, py "i"), ('к'.toNat, py "k"),
    ('л'.toNat, py "l"), ('м'.toNat, py "m"), ('н'.toNat, py "n"), ('о'.toNat, py "o"), ('п'.toNat, py "p"),
    ('р'.toNat, py "r"), ('с'.toNat, py "s"), ('т'.toNat, py "t"), ('у'.toNat, py "u"), ('ф'.toNat, py "f"),
    ('х'.toNat, py "kh"), ('ц'.toNat, py "ts"), ('ч'.toNat, py "ch"), ('ш'.toNat, py "sh"), ('щ'.toNat, py "shch"),
    ('ь'.toNat, []), ('ю'.toNat, py "iu"), ('я'.toNat, py "ia"), ('ъ'.toNat, []), ('ы'.toNat, py "y"),
    ('э'.toNat, py "e"), ('ё'.toNat, py "yo")]

/-- `text.translate(table)`. -/
def translate (table : List (Nat × PyStr)) (s : PyStr) : PyStr := s.flatMap fun c => (table.lookup c).getD [c]

def hyphen : Nat := 0x2D

/-- `[a-z0-9]+(?:-[a-z0-9]+)*`. -/
def isSlug (s : PyStr) : Bool := (s.splitOn hyphen).all fun group => group ≠ [] ∧ group.all isLowerAlnum = true

section Normalization

variable (unicode : Unicode) (maxLength : Nat)

/-- `generate_slug`. The error is the message of the `ValueError`. -/
def generateSlug (value : PyStr) : Except String PyStr :=
  let lowered := translate transliteration (unicode.casefold (strip value))
  let asciiValue := asciiIgnore (unicode.nfkd lowered)
  let generated := stripChars [hyphen] (subRuns (fun c => !isLowerAlnum c) hyphen asciiValue)
  let generated := stripChars [hyphen] ((subRuns (· == hyphen) hyphen generated).take maxLength)
  if generated = [] then .error "Slug could not be generated; enter an explicit ASCII slug."
  else .ok generated

/-- The explicit text, or what is generated in its place from the fallback. -/
def slugCandidate (value : PyStr) (fallback : Option PyStr) : Except String PyStr :=
  match strip value, fallback with
  | [], some fallback => generateSlug unicode maxLength fallback
  | candidate, _ => .ok candidate

/-- The part of `normalize_slug` after the candidate is chosen: its form, its length
and the pattern. -/
def checkSlug (candidate : PyStr) : Except String PyStr :=
  let normalized := (unicode.casefold candidate).map fun c => if c = 0x5F then hyphen else c
  let normalized := stripChars [hyphen] (subRuns (· == hyphen) hyphen normalized)
  if normalized = [] ∨ isSlug normalized = false then
    .error "Slug must contain lowercase ASCII letters, digits, and single hyphens."
  else if maxLength < normalized.length then .error s!"Slug must not exceed {maxLength} characters."
  else .ok normalized

/-- `normalize_slug`: the candidate, and then the checks on it. -/
def normalizeSlug (value : PyStr) (fallback : Option PyStr) : Except String PyStr := do
  let candidate ← slugCandidate unicode maxLength value fallback
  checkSlug unicode maxLength candidate

/-- A slug: groups of letters and digits with one hyphen between them, short
enough, and its own normal form. -/
structure Slug (slug : PyStr) : Prop where
  groups : ∃ groups : List PyStr, groups ≠ [] ∧ (∀ group ∈ groups, group ≠ [] ∧ ∀ c ∈ group, isLowerAlnum c = true) ∧
    slug = [hyphen].intercalate groups
  ne_nil : slug ≠ []
  length : slug.length ≤ maxLength
  fixed : ∀ fallback, normalizeSlug unicode maxLength slug fallback = .ok slug

end Normalization

/-- The pattern in terms of characters and their neighbours: no hyphen at either
end, and none next to another. -/
theorem isSlug_iff {s : PyStr} :
    isSlug s = true ↔ (∀ c ∈ s, isLowerAlnum c = true ∨ c = hyphen) ∧ s ≠ [] ∧ s.head? ≠ some hyphen ∧
      s.getLast? ≠ some hyphen ∧ Single hyphen s := by
  rw [isSlug, List.all_eq_true, ← groups_iff]
  simp only [decide_eq_true_eq, List.all_eq_true]
  constructor
  · intro h
    refine ⟨fun c hc => ?_, fun group hGroup => (h group hGroup).1⟩
    by_cases hHyphen : c = hyphen
    · exact Or.inr hHyphen
    · obtain ⟨group, hGroup, hMem⟩ := exists_mem_group_iff.mpr ⟨hc, hHyphen⟩
      exact Or.inl ((h group hGroup).2 c hMem)
  · rintro ⟨hChars, hGroups⟩ group hGroup
    refine ⟨hGroups group hGroup, fun c hc => ?_⟩
    obtain ⟨hMem, hNe⟩ := exists_mem_group_iff.mp ⟨group, hGroup, hc⟩
    exact (hChars c hMem).resolve_right hNe

/-- The characters of a slug are ASCII, in lower case, no blanks and no underscores,
so that none of the steps changes them. -/
theorem char_of_isLowerAlnum {c : Nat} (h : isLowerAlnum c = true ∨ c = hyphen) :
    c < 0x80 ∧ asciiLower c = c ∧ isSpace c = false ∧ c ≠ 0x5F := by
  have hAll : ∀ c < 0x80, isLowerAlnum c = true ∨ c = hyphen →
      asciiLower c = c ∧ isSpace c = false ∧ c ≠ 0x5F := by decide
  have hBound : c < 0x80 := by
    rcases h with h | rfl
    · simp only [isLowerAlnum, isDigit, Bool.or_eq_true, Bool.and_eq_true, decide_eq_true_eq] at h
      omega
    · decide
  exact ⟨hBound, hAll c hBound h⟩

section Canonical

variable {unicode : Unicode} {maxLength : Nat}

/-- A slug is looked up as it is stored: neither stripping nor folding changes it. -/
theorem casefold_strip_of_isSlug (hFolds : unicode.FoldsAscii) {s : PyStr} (h : isSlug s = true) :
    unicode.casefold (strip s) = s := by
  obtain ⟨hChars, -⟩ := isSlug_iff.mp h
  have hChar : ∀ c ∈ s, c < 0x80 ∧ asciiLower c = c ∧ isSpace c = false ∧ c ≠ 0x5F :=
    fun c hc => char_of_isLowerAlnum (hChars c hc)
  have hLower : s.map asciiLower = s := (List.map_congr_left fun c hc => (hChar c hc).2.1).trans (List.map_id _)
  rw [strip_of_no_space fun c hc => (hChar c hc).2.2.1]
  exact hFolds.casefold_eq (fun c hc => (hChar c hc).1) hLower

/-- A short text that matches the pattern is left alone by all the steps. -/
theorem checkSlug_of_isSlug (hFolds : unicode.FoldsAscii) {s : PyStr} (h : isSlug s = true)
    (hLength : s.length ≤ maxLength) : checkSlug unicode maxLength s = .ok s := by
  obtain ⟨hChars, hNe, hHead, hLast, hSingle⟩ := isSlug_iff.mp h
  have hChar : ∀ c ∈ s, c < 0x80 ∧ asciiLower c = c ∧ isSpace c = false ∧ c ≠ 0x5F :=
    fun c hc => char_of_isLowerAlnum (hChars c hc)
  have hFold : unicode.casefold s = s := by
    refine hFolds.casefold_eq (fun c hc => (hChar c hc).1) ?_
    exact (List.map_congr_left fun c hc => (hChar c hc).2.1).trans (List.map_id _)
  have hReplace : s.map (fun c => if c = 0x5F then hyphen else c) = s :=
    (List.map_congr_left fun c hc => if_neg (hChar c hc).2.2.2).trans (List.map_id _)
  have hTrim : stripChars [hyphen] s = s := by
    refine stripOf_eq_self (fun c hc => ?_) fun c hc => ?_
    · simpa using fun h : c = hyphen => hHead (h ▸ hc)
    · simpa using fun h : c = hyphen => hLast (h ▸ hc)
  unfold checkSlug
  dsimp only
  rw [hFold, hReplace, subRuns_of_single hSingle, hTrim, if_neg (by simp [hNe, h]), if_neg (Nat.not_lt.mpr hLength)]

theorem slug_of_isSlug (hFolds : unicode.FoldsAscii) {s : PyStr} (h : isSlug s = true) (hLength : s.length ≤ maxLength) :
    Slug unicode maxLength s := by
  obtain ⟨hChars, hNe, -⟩ := isSlug_iff.mp h
  refine ⟨⟨s.splitOn hyphen, List.splitOn_ne_nil _ _, ?_, (List.intercalate_splitOn hyphen).symm⟩, hNe, hLength, ?_⟩
  · rw [isSlug, List.all_eq_true] at h
    intro group hGroup
    have hBoth := h group hGroup
    rwa [decide_eq_true_eq, List.all_eq_true] at hBoth
  · intro fallback
    have hStrip : strip s = s := strip_of_no_space fun c hc => (char_of_isLowerAlnum (hChars c hc)).2.2.1
    have hCandidate : slugCandidate unicode maxLength s fallback = .ok s := by
      unfold slugCandidate
      split
      · rename_i hEmpty
        exact (hNe (hStrip.symm.trans hEmpty)).elim
      · rw [hStrip]
    exact (except_bind_ok hCandidate _).trans (checkSlug_of_isSlug hFolds h hLength)

/-- A generated slug matches the pattern and is short enough. -/
theorem generateSlug_eq_ok {value slug : PyStr} (h : generateSlug unicode maxLength value = .ok slug) :
    isSlug slug = true ∧ slug.length ≤ maxLength := by
  unfold generateSlug at h
  dsimp only at h
  split_ifs at h with hEmpty
  generalize hAscii : asciiIgnore _ = asciiValue at h hEmpty
  have hSingle : Single hyphen (subRuns (fun c => !isLowerAlnum c) hyphen asciiValue) :=
    single_subRuns (by decide) asciiValue
  have hOnce : Single hyphen (stripChars [hyphen] (subRuns (fun c => !isLowerAlnum c) hyphen asciiValue)) :=
    hSingle.infix (stripOf_isInfix _ _)
  rw [subRuns_of_single hOnce] at h hEmpty
  have hInfix : slug <:+: subRuns (fun c => !isLowerAlnum c) hyphen asciiValue := by
    rw [← Except.ok.inj h]
    exact (stripOf_isInfix _ _).trans ((List.take_prefix _ _).isInfix.trans (stripOf_isInfix _ _))
  have hEnds := stripOf_ends (fun c => c ∈ [hyphen])
    ((stripChars [hyphen] (subRuns (fun c => !isLowerAlnum c) hyphen asciiValue)).take maxLength)
  rw [show stripOf (fun c => c ∈ [hyphen]) _ = slug from Except.ok.inj h] at hEnds
  constructor
  · refine isSlug_iff.mpr ⟨fun c hc => ?_, by rw [← Except.ok.inj h]; exact hEmpty, ?_, ?_, hSingle.infix hInfix⟩
    · rcases mem_subRuns (hInfix.mem hc) with ⟨-, hKept⟩ | hHyphen
      · exact Or.inl (by simpa using hKept)
      · exact Or.inr hHyphen
    · intro hHead
      simpa using hEnds.1 hyphen hHead
    · intro hLast
      simpa using hEnds.2 hyphen hLast
  · have hShort := (stripOf_isInfix (fun c => c ∈ [hyphen])
      ((stripChars [hyphen] (subRuns (fun c => !isLowerAlnum c) hyphen asciiValue)).take maxLength)).length_le
    rw [show stripOf (fun c => c ∈ [hyphen]) _ = slug from Except.ok.inj h] at hShort
    exact hShort.trans (List.length_take_le _ _)

/-- A normalised slug matches the pattern and is short enough, wherever it came
from. -/
theorem normalizeSlug_eq_ok {value slug : PyStr} {fallback : Option PyStr}
    (h : normalizeSlug unicode maxLength value fallback = .ok slug) : isSlug slug = true ∧ slug.length ≤ maxLength := by
  obtain ⟨candidate, -, h⟩ := except_bind_eq_ok h
  unfold checkSlug at h
  dsimp only at h
  split_ifs at h with hShape hLong
  · rw [not_or, Bool.not_eq_false] at hShape
    cases h
    exact ⟨hShape.2, Nat.le_of_not_lt hLong⟩

theorem Slug.isSlug {slug : PyStr} (h : Slug unicode maxLength slug) : Catalog.isSlug slug = true :=
  (normalizeSlug_eq_ok (h.fixed none)).1

/-- Every slug that is returned is canonical, and a generated one stays as it is
when it is normalised. -/
theorem slugs_are_canonical (hFolds : unicode.FoldsAscii) (maxLength : Nat) :
    (∀ value slug, generateSlug unicode maxLength value = .ok slug → Slug unicode maxLength slug) ∧
      (∀ value fallback slug, normalizeSlug unicode maxLength value fallback = .ok slug →
        Slug unicode maxLength slug) ∧
      ∀ value fallback, strip value = [] →
        normalizeSlug unicode maxLength value (some fallback) = generateSlug unicode maxLength fallback := by
  have hGenerated (value slug : PyStr) (h : generateSlug unicode maxLength value = .ok slug) :
      Slug unicode maxLength slug :=
    slug_of_isSlug hFolds (generateSlug_eq_ok h).1 (generateSlug_eq_ok h).2
  refine ⟨hGenerated, fun value fallback slug h => slug_of_isSlug hFolds (normalizeSlug_eq_ok h).1 (normalizeSlug_eq_ok h).2,
    fun value fallback hBlank => ?_⟩
  have hCandidate : slugCandidate unicode maxLength value (some fallback) = generateSlug unicode maxLength fallback := by
    unfold slugCandidate
    rw [hBlank]
  rw [normalizeSlug, hCandidate]
  cases hSlug : generateSlug unicode maxLength fallback with
  | error message => rfl
  | ok slug => exact checkSlug_of_isSlug hFolds (generateSlug_eq_ok hSlug).1 (generateSlug_eq_ok hSlug).2

end Canonical

theorem slugs_are_canonical_sample : Slug Unicode.ascii 140 (py "systemni-instrumenty") :=
  (slugs_are_canonical Unicode.ascii_foldsAscii 140).1 (py " системні__інструменти!") _ (by decide)

/-- The cut that leaves a hyphen at the end. -/
example : generateSlug Unicode.ascii 4 (py "new tool") = .ok (py "new") := by decide

end SoftwareHub.Catalog
