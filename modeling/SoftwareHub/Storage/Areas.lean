import SoftwareHub.Python.Exceptions
import SoftwareHub.Python.PurePath

/-! Stored release files: where they are, and finding them by their path. -/
namespace SoftwareHub.Storage

open SoftwareHub.Python

/-- The two areas that hold release files: quarantine before publication, software
after it. -/
inductive StorageArea
  | quarantine
  | software
  deriving DecidableEq, Repr

/-- The regular files below a root, by their relative path. -/
abbrev Files : Type := PyStr → Option Bytes

/-- The two areas that hold release files, and the temporary one of the uploads. -/
structure Areas where
  quarantine : Files
  software : Files
  temporary : Files

def Areas.files (areas : Areas) : StorageArea → Files
  | .quarantine => areas.quarantine
  | .software => areas.software

/-- A file that was found, with the area that holds it. -/
structure StoredFile where
  area : StorageArea
  relativePath : PyStr
  sizeBytes : Nat
  deriving DecidableEq, Repr

/-- `str(PurePosixPath(text))`, the form in which a path is looked up. -/
def posixText (s : PyStr) : PyStr := if isAbsolute s then slash :: joinSlash (pathParts s) else asPosix (pathParts s)

theorem posixText_joinSlash {names : List PyStr} (hNil : names ≠ []) (hNames : ∀ name ∈ names, IsFileName name) :
    posixText (joinSlash names) = joinSlash names := by
  unfold posixText
  rw [isAbsolute_joinSlash hNames, pathParts_joinSlash hNil hNames, asPosix_eq_joinSlash hNil]
  rfl

/-- Normalising a path brings no surrogate into it. -/
theorem isScalar_posixText {path : PyStr} (h : ∀ c ∈ path, isScalar c = true) :
    ∀ c ∈ posixText path, isScalar c = true := by
  have hSlash : isScalar slash = true := by decide
  have hDot : isScalar 0x2E = true := by decide
  have hJoin : ∀ c ∈ joinSlash (pathParts path), isScalar c = true := by
    intro c hc
    rcases mem_joinSlash hc with rfl | ⟨part, hPart, hc⟩
    · exact hSlash
    · exact h c (mem_of_mem_splitOn (List.mem_filter.mp hPart).1 hc)
  intro c hc
  unfold posixText asPosix at hc
  split_ifs at hc
  · rcases List.mem_cons.mp hc with rfl | hc
    · exact hSlash
    · exact hJoin c hc
  · obtain rfl : c = 0x2E := by simpa [py] using hc
    exact hDot
  · exact hJoin c hc

/-- `_reject_unsafe_relative_path` as a test: whether the path stays below its
root. -/
def isSafeRelativePath (raw : PyStr) : Bool :=
  raw ≠ [] ∧ 0 ∉ raw ∧ 0x5C ∉ raw ∧ ∀ part ∈ raw.splitOn slash, part ≠ [] ∧ part ≠ py "." ∧ part ≠ py ".."

/-- `inspect_stored_files`: the areas that have a regular file at the path,
quarantine first. -/
def inspectStoredFiles (areas : Areas) (relativePath : PyStr) : Except PyException (List StoredFile) :=
  let relative := posixText relativePath
  if isSafeRelativePath relative then
    .ok ([StorageArea.quarantine, StorageArea.software].filterMap fun area =>
      (areas.files area relative).map fun data => ⟨area, relative, data.length⟩)
  else .error (.storageError "The storage path is invalid.")

/-- `locate_stored_file`, which refuses a path found in both areas or in none. -/
def locateStoredFile (areas : Areas) (relativePath : PyStr) : Except PyException StoredFile := do
  match ← inspectStoredFiles areas relativePath with
  | [] => .error (.storageError "The physical file is missing from private storage.")
  | [stored] => return stored
  | _ => .error (.storageError "The physical file exists in multiple storage locations.")

/-- A located file is in exactly one of the areas. -/
theorem locateStoredFile_eq_ok {areas : Areas} {relativePath : PyStr} {stored : StoredFile}
    (h : locateStoredFile areas relativePath = .ok stored) :
    stored.relativePath = posixText relativePath ∧
      ∃ data, areas.files stored.area stored.relativePath = some data ∧ stored.sizeBytes = data.length := by
  unfold locateStoredFile inspectStoredFiles at h
  dsimp only at h
  split_ifs at h
  · cases hQuarantine : areas.quarantine (posixText relativePath) with
    | none =>
        cases hSoftware : areas.software (posixText relativePath) with
        | none => simp [Areas.files, hQuarantine, hSoftware, bind, Except.bind] at h
        | some data =>
            simp only [Areas.files, hQuarantine, hSoftware, List.filterMap_cons, List.filterMap_nil, Option.map_none,
              Option.map_some, bind, Except.bind, pure, Except.pure, Except.ok.injEq] at h
            subst h
            exact ⟨rfl, data, hSoftware, rfl⟩
    | some data =>
        cases hSoftware : areas.software (posixText relativePath) with
        | none =>
            simp only [Areas.files, hQuarantine, hSoftware, List.filterMap_cons, List.filterMap_nil, Option.map_none,
              Option.map_some, bind, Except.bind, pure, Except.pure, Except.ok.injEq] at h
            subst h
            exact ⟨rfl, data, hQuarantine, rfl⟩
        | some other => simp [Areas.files, hQuarantine, hSoftware, bind, Except.bind] at h
  · cases h

end SoftwareHub.Storage
