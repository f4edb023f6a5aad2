import SoftwareHub.Python.Codec
import Mathlib.Data.List.Infix

/-! `PurePosixPath`: the parts of a path and their text, the suffixes of its name,
and the names that a POSIX directory can hold. -/
namespace SoftwareHub.Python

def slash : Nat := 0x2F

/-- `"/".join(parts)`, which is how a relative path is written. -/
def joinSlash (parts : List PyStr) : PyStr := [slash].intercalate parts

/-- `PurePosixPath(text).parts`, without the root. Repeated slashes and single dots
are dropped, double dots stay. -/
def pathParts (s : PyStr) : List PyStr := (s.splitOn slash).filter fun part => part ≠ [] ∧ part ≠ py "."

/-- `PurePosixPath(text).is_absolute()`. -/
def isAbsolute (s : PyStr) : Bool := s.head? == some slash

/-- `path.as_posix()` of a relative path; the one without parts is written as a
dot. -/
def asPosix (parts : List PyStr) : PyStr := if parts = [] then py "." else joinSlash parts

/-- `PurePosixPath(text).name`, the last part, or nothing for a path without parts. -/
def pathName (s : PyStr) : PyStr := (pathParts s).getLastD []

/-- `PurePosixPath(text).suffix`; leading dots of the name start no suffix. -/
def suffix (s : PyStr) : PyStr :=
  let name := (pathName s).dropWhile (· == 0x2E)
  let last := name.rtakeWhile (· != 0x2E)
  if last.length < name.length then 0x2E :: last else []

/-- `PurePosixPath(text).suffixes`, each with its dot. -/
def suffixes (s : PyStr) : List PyStr :=
  ((((pathName s).dropWhile (· == 0x2E)).splitOn 0x2E).drop 1).map (0x2E :: ·)

/-- The names of directory entries, as a listing shows them: not empty, no dot or
double dot, and without a slash or a NUL. -/
def IsFileName (name : PyStr) : Prop :=
  name ≠ [] ∧ slash ∉ name ∧ 0 ∉ name ∧ name ≠ py "." ∧ name ≠ py ".." ∧ fsname name = some name

instance (name : PyStr) : Decidable (IsFileName name) :=
  inferInstanceAs (Decidable (_ ∧ _ ∧ _ ∧ _ ∧ _ ∧ _))

/-- A file name without lone surrogates and backslashes, which every check of a
stored path accepts. -/
def PlainName (name : PyStr) : Prop :=
  IsFileName name ∧ (∀ c ∈ name, isScalar c = true) ∧ 0x5C ∉ name

instance (name : PyStr) : Decidable (PlainName name) := inferInstanceAs (Decidable (_ ∧ _ ∧ _))

theorem mapM_fsname_of_fileNames {path : List PyStr} (h : ∀ name ∈ path, IsFileName name) :
    path.mapM fsname = some path := by
  induction path with
  | nil => rfl
  | cons name path ih =>
      have hName : fsname name = some name := (h name (by simp)).2.2.2.2.2
      have hPath := ih fun other hm => h other (by simp [hm])
      simp [List.mapM_cons, hName, hPath]

/-- Splitting undoes joining, when no part has a slash. -/
theorem splitOn_joinSlash {parts : List PyStr} (hNil : parts ≠ [])
    (hParts : ∀ part ∈ parts, slash ∉ part) : (joinSlash parts).splitOn slash = parts :=
  List.splitOn_intercalate slash hParts hNil

theorem not_mem_of_mem_splitOn {separator : Nat} {s part : PyStr} (h : part ∈ s.splitOn separator) :
    separator ∉ part := by
  induction s generalizing part with
  | nil =>
      simp only [List.splitOn_nil, List.mem_singleton] at h
      simp [h]
  | cons c s ih =>
      rw [List.splitOn_cons_eq_if_modifyHead] at h
      split_ifs at h with hc
      · rcases List.mem_cons.mp h with rfl | h
        · simp
        · exact ih h
      · obtain ⟨first, rest, hSplit⟩ := List.exists_cons_of_ne_nil (List.splitOn_ne_nil separator s)
        rw [hSplit, List.modifyHead_cons, List.mem_cons] at h
        rcases h with rfl | h
        · have hFirst : separator ∉ first := ih (by simp [hSplit])
          simp only [beq_iff_eq] at hc
          simpa [hFirst] using Ne.symm hc
        · exact ih (by simp [hSplit, h])

theorem mem_joinSlash_of_mem {parts : List PyStr} {part : PyStr} {c : Nat} (hPart : part ∈ parts) (hc : c ∈ part) :
    c ∈ joinSlash parts := by
  induction parts with
  | nil => cases hPart
  | cons first parts ih =>
      cases parts with
      | nil =>
          rw [List.mem_singleton] at hPart
          subst hPart
          simpa [joinSlash] using hc
      | cons next parts =>
          rw [joinSlash, List.intercalate_cons_cons, List.mem_append, List.mem_append]
          rcases List.mem_cons.mp hPart with rfl | hPart
          · exact Or.inl (Or.inl hc)
          · exact Or.inr (ih hPart)

theorem mem_of_mem_splitOn {s part : PyStr} {c : Nat} (hPart : part ∈ s.splitOn slash) (hc : c ∈ part) : c ∈ s := by
  have hJoin : joinSlash (s.splitOn slash) = s := List.intercalate_splitOn slash
  rw [← hJoin]
  exact mem_joinSlash_of_mem hPart hc

/-- The parts of a path are neither empty nor a dot, and have no slash. A double dot
is possible. -/
theorem of_mem_pathParts {s part : PyStr} (h : part ∈ pathParts s) :
    part ≠ [] ∧ part ≠ py "." ∧ slash ∉ part := by
  rw [pathParts, List.mem_filter] at h
  obtain ⟨hSplit, hPart⟩ := h
  simp only [ne_eq, decide_eq_true_eq] at hPart
  exact ⟨hPart.1, hPart.2, not_mem_of_mem_splitOn hSplit⟩

theorem joinSlash_cons {folder : PyStr} {path : List PyStr} (h : path ≠ []) :
    joinSlash (folder :: path) = folder ++ slash :: joinSlash path := by
  cases path with
  | nil => exact (h rfl).elim
  | cons name path => simp [joinSlash, List.intercalate_cons_cons]

theorem mem_joinSlash {parts : List PyStr} {c : Nat} (h : c ∈ joinSlash parts) :
    c = slash ∨ ∃ part ∈ parts, c ∈ part := by
  induction parts with
  | nil => simp [joinSlash] at h
  | cons part parts ih =>
      cases parts with
      | nil => exact Or.inr ⟨part, by simp, by simpa [joinSlash] using h⟩
      | cons next parts =>
          rw [joinSlash_cons (by simp), List.mem_append, List.mem_cons] at h
          rcases h with h | h | h
          · exact Or.inr ⟨part, by simp, h⟩
          · exact Or.inl h
          · rcases ih h with hSlash | ⟨other, hOther, hMem⟩
            · exact Or.inl hSlash
            · exact Or.inr ⟨other, by simp [hOther], hMem⟩

/-- Paths of file names are told apart by their texts. -/
theorem joinSlash_injective {first second : List PyStr} (hFirst : ∀ part ∈ first, IsFileName part)
    (hSecond : ∀ part ∈ second, IsFileName part) (h : joinSlash first = joinSlash second) :
    first = second := by
  have hEmpty {parts : List PyStr} (hParts : ∀ part ∈ parts, IsFileName part) (hNil : parts ≠ []) :
      joinSlash parts ≠ [] := by
    intro hJoin
    have hSplit := splitOn_joinSlash hNil fun part hm => (hParts part hm).2.1
    rw [hJoin] at hSplit
    have hMem : ([] : PyStr) ∈ parts := by
      rw [← hSplit]
      simp
    exact (hParts _ hMem).1 rfl
  by_cases h₁ : first = []
  · by_cases h₂ : second = []
    · rw [h₁, h₂]
    · subst h₁
      exact (hEmpty hSecond h₂ h.symm).elim
  · by_cases h₂ : second = []
    · subst h₂
      exact (hEmpty hFirst h₁ h).elim
    · rw [← splitOn_joinSlash h₁ fun part hm => (hFirst part hm).2.1, h,
        splitOn_joinSlash h₂ fun part hm => (hSecond part hm).2.1]

/-- The text of a path of file names is split into those names. -/
theorem pathParts_joinSlash {parts : List PyStr} (hNil : parts ≠ [])
    (hParts : ∀ part ∈ parts, IsFileName part) : pathParts (joinSlash parts) = parts := by
  rw [pathParts, splitOn_joinSlash hNil fun part hm => (hParts part hm).2.1]
  exact List.filter_eq_self.mpr fun part hm => by
    obtain ⟨hNil, -, -, hDot, -⟩ := hParts part hm
    simp [hNil, hDot]

/-- A path of file names is relative: the first name does not start with a slash. -/
theorem isAbsolute_joinSlash {parts : List PyStr} (hParts : ∀ part ∈ parts, IsFileName part) :
    isAbsolute (joinSlash parts) = false := by
  cases parts with
  | nil => rfl
  | cons part rest =>
      obtain ⟨hNil, hSlash, -⟩ := hParts part (by simp)
      obtain ⟨c, tail, rfl⟩ := List.exists_cons_of_ne_nil hNil
      have hHead : c ≠ slash := fun h => hSlash (by simp [h])
      cases rest with
      | nil => simpa [joinSlash, isAbsolute] using hHead
      | cons other rest => simpa [joinSlash, isAbsolute, List.intercalate_cons_cons] using hHead

theorem asPosix_eq_joinSlash {parts : List PyStr} (h : parts ≠ []) : asPosix parts = joinSlash parts := by
  simp [asPosix, h]

/-- A declared path that reads like a walked one has its parts. -/
theorem eq_of_asPosix_eq_joinSlash {s : PyStr} {names : List PyStr} (hNil : names ≠ [])
    (hNames : ∀ name ∈ names, IsFileName name) (h : asPosix (pathParts s) = joinSlash names) :
    pathParts s = names := by
  have hSplit := splitOn_joinSlash hNil fun name hm => (hNames name hm).2.1
  rw [asPosix] at h
  split_ifs at h with hParts
  · rw [← h, List.splitOn_eq_singleton (by decide)] at hSplit
    exact ((hNames (py ".") (by simp [← hSplit])).2.2.2.1 rfl).elim
  · rw [← splitOn_joinSlash hParts fun part hm => (of_mem_pathParts hm).2.2, h, hSplit]

/-- A text without a slash is its own name, unless it is empty or a dot. -/
theorem pathName_of_name {s : PyStr} (hNil : s ≠ []) (hDot : s ≠ py ".") (hSlash : slash ∉ s) : pathName s = s := by
  rw [pathName, pathParts, List.splitOn_eq_singleton hSlash, List.filter_cons_of_pos (by simp [hNil, hDot])]
  rfl

/-- A name that does not start with a dot has no leading dots to drop. -/
theorem dropWhile_dot_of_name {s : PyStr} (hNil : s ≠ []) (hSlash : slash ∉ s) (hHead : s.head? ≠ some 0x2E) :
    (pathName s).dropWhile (· == 0x2E) = s := by
  have hDot : s ≠ py "." := fun h => hHead (by rw [h]; rfl)
  rw [pathName_of_name hNil hDot hSlash]
  cases s with
  | nil => rfl
  | cons c s =>
      have hc : c ≠ 0x2E := fun h => hHead (by rw [h]; rfl)
      simp [hc]

/-- The suffix of a name is the end of it, so that the stem is what stands in
front. -/
theorem suffix_isSuffix {s : PyStr} (hNil : s ≠ []) (hSlash : slash ∉ s) (hHead : s.head? ≠ some 0x2E) :
    suffix s <:+ s := by
  rw [suffix, dropWhile_dot_of_name hNil hSlash hHead]
  split_ifs with hShorter
  · have hParts := List.rdropWhile_append_rtakeWhile (p := (· != 0x2E)) (l := s)
    have hFront : s.rdropWhile (· != 0x2E) ≠ [] := by
      intro h
      rw [h, List.nil_append] at hParts
      exact absurd hShorter (by rw [hParts]; exact Nat.lt_irrefl _)
    have hLast : (s.rdropWhile (· != 0x2E)).getLast hFront = 0x2E := by
      simpa using List.rdropWhile_last_not (· != 0x2E) s hFront
    refine ⟨(s.rdropWhile (· != 0x2E)).dropLast, ?_⟩
    have hSplit := List.dropLast_append_getLast hFront
    rw [hLast] at hSplit
    calc (s.rdropWhile (· != 0x2E)).dropLast ++ 0x2E :: s.rtakeWhile (· != 0x2E)
        = ((s.rdropWhile (· != 0x2E)).dropLast ++ [0x2E]) ++ s.rtakeWhile (· != 0x2E) := by simp
      _ = s := by rw [hSplit, hParts]
  · exact List.nil_suffix

/-- The suffix is what follows the last dot, with the dot. -/
theorem suffix_append {front last : PyStr} (hSlash : slash ∉ front ++ 0x2E :: last)
    (hHead : (front ++ 0x2E :: last).head? ≠ some 0x2E) (hLast : 0x2E ∉ last) :
    suffix (front ++ 0x2E :: last) = 0x2E :: last := by
  have hTake : (front ++ 0x2E :: last).rtakeWhile (· != 0x2E) = last := by
    have hReverse : (front ++ 0x2E :: last).reverse = last.reverse ++ 0x2E :: front.reverse := by simp
    have hAll : ∀ c ∈ last.reverse, (c != 0x2E) = true := by
      intro c hc
      have hc : c ∈ last := List.mem_reverse.mp hc
      simpa using fun h : c = 0x2E => hLast (h ▸ hc)
    rw [List.rtakeWhile, hReverse, List.takeWhile_append_of_pos hAll, List.takeWhile_cons_of_neg (by simp),
      List.append_nil, List.reverse_reverse]
  rw [suffix, dropWhile_dot_of_name (by simp) hSlash hHead, hTake, if_pos]
  simp only [List.length_append, List.length_cons]
  omega

/-- The suffixes are the groups behind the dots, the first group being the stem. -/
theorem suffixes_of_name {s : PyStr} (hNil : s ≠ []) (hSlash : slash ∉ s) (hHead : s.head? ≠ some 0x2E) :
    suffixes s = ((s.splitOn 0x2E).drop 1).map (0x2E :: ·) := by
  rw [suffixes, dropWhile_dot_of_name hNil hSlash hHead]

end SoftwareHub.Python
