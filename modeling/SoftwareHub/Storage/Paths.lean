import SoftwareHub.Backup.Files
import SoftwareHub.Semantics.Program

/-! Path containment checks below a storage root. The tree is the file system in
which all roots lie; a root is a path in it. -/
namespace SoftwareHub.Storage

open SoftwareHub.Python SoftwareHub.Tree SoftwareHub.Semantics Program
open SoftwareHub.Backup (Leaf Directory Entry isDir isSymlink pathExists)

/-- Where symbolic links lead: the real path of the target of each. -/
abbrev Links : Type := List PyStr → List PyStr

/-- `path.resolve()`, component by component, following the links on the way. -/
def realPathFrom (links : Links) (tree : Directory) : List PyStr → List PyStr → List PyStr
  | current, [] => current
  | current, name :: rest =>
      realPathFrom links tree
        (if isSymlink (tree.node? (current ++ [name])) then links (current ++ [name]) else current ++ [name]) rest

/-- `_reject_unsafe_relative_path`: the components of the path, as the file
system encodes them. -/
def rejectUnsafeRelativePath (relativePath : PyStr) : Except PyException (List PyStr) :=
  if relativePath = [] ∨ 0 ∈ relativePath ∨ 0x5C ∈ relativePath then
    .error (.storageError "The storage path is invalid.")
  else if ∃ part ∈ relativePath.splitOn slash, part = [] ∨ part = py "." ∨ part = py ".." then
    .error (.storageError "The storage path is invalid.")
  else match (relativePath.splitOn slash).mapM fsname with
    | none => .error .unicodeEncodeError
    | some names => .ok names

/-- `root.resolve(strict=True)`, which fails when the root is missing, or when the
call does. -/
def resolveRoot (links : Links) (fault : Option OSError) (root : List PyStr) (tree : Directory) :
    Except PyException (List PyStr) :=
  let resolved := realPathFrom links tree [] root
  if fault ≠ none ∨ tree.node? resolved = none then .error (.storageError "The storage root is unavailable.")
  else .ok resolved

/-- `safe_resolve` below a resolved root: the candidate must stay below it, and may
be required to exist and to have no links. -/
def resolveBelow (links : Links) (fault : Option OSError) (root names : List PyStr)
    (requireExists rejectSymlinks : Bool) (tree : Directory) : Except PyException (List PyStr) :=
  let resolved := realPathFrom links tree root names
  if rejectSymlinks = true ∧ ∃ above ∈ names.inits, above ≠ [] ∧ isSymlink (tree.node? (root ++ above)) = true then
    .error (.storageError "Symbolic links are not allowed in this storage path.")
  else if fault ≠ none ∨ requireExists = true ∧ tree.node? resolved = none then
    .error (.storageError "The storage path is unavailable.")
  else if resolved = root ∨ ¬root <+: resolved then
    .error (.storageError "The storage path escapes its configured root.")
  else .ok resolved

/-- `safe_resolve` with both of its `resolve` calls, either of which may fail. -/
def safeResolve (links : Links) (rootFault fault : Option OSError) (root : List PyStr) (relativePath : PyStr)
    (requireExists rejectSymlinks : Bool) (tree : Directory) : Except PyException (List PyStr) := do
  let resolved ← resolveRoot links rootFault root tree
  let names ← rejectUnsafeRelativePath relativePath
  resolveBelow links fault resolved names requireExists rejectSymlinks tree

/-- A path of file names is safe unless it has a backslash. -/
theorem rejectUnsafeRelativePath_joinSlash {names : List PyStr} (hNil : names ≠ [])
    (hNames : ∀ name ∈ names, IsFileName name) (hBackslash : 0x5C ∉ joinSlash names) :
    rejectUnsafeRelativePath (joinSlash names) = .ok names := by
  have hSplit := splitOn_joinSlash hNil fun name hName => (hNames name hName).2.1
  have hValid : ¬(joinSlash names = [] ∨ 0 ∈ joinSlash names ∨ 0x5C ∈ joinSlash names) := by
    rintro (hEmpty | hZero | hMem)
    · rw [hEmpty] at hSplit
      have hMem : ([] : PyStr) ∈ names := by
        rw [← hSplit]
        simp
      exact (hNames [] hMem).1 rfl
    · rcases mem_joinSlash hZero with hSlash | ⟨name, hName, hMem⟩
      · cases hSlash
      · exact (hNames name hName).2.2.1 hMem
    · exact hBackslash hMem
  have hParts : ¬∃ part ∈ names, part = [] ∨ part = py "." ∨ part = py ".." := by
    rintro ⟨part, hPart, hBad⟩
    obtain ⟨hEmpty, -, -, hDot, hDots, -⟩ := hNames part hPart
    rcases hBad with h | h | h
    · exact hEmpty h
    · exact hDot h
    · exact hDots h
  unfold rejectUnsafeRelativePath
  rw [if_neg hValid, hSplit, if_neg hParts, mapM_fsname_of_fileNames hNames]

theorem isSymlink_eq_file? (tree : Directory) (path : List PyStr) :
    isSymlink (tree.node? path) = isSymlink ((tree.file? path).map .leaf) := by
  unfold Forest.file?
  cases tree.node? path with
  | none => rfl
  | some entry => cases entry <;> rfl

/-- A path without symbolic links is its own real path. -/
theorem realPathFrom_eq (links : Links) {tree : Directory} {root names : List PyStr}
    (h : ∀ above, above <+: names → above ≠ [] → isSymlink (tree.node? (root ++ above)) = false) :
    realPathFrom links tree root names = root ++ names := by
  induction names generalizing root with
  | nil => rw [realPathFrom, List.append_nil]
  | cons name names ih =>
      have hName := h [name] ⟨names, rfl⟩ (List.cons_ne_nil _ _)
      rw [realPathFrom, if_neg (by rw [hName]; exact Bool.false_ne_true), ih, List.append_assoc, List.singleton_append]
      intro above hAbove hNil
      rw [List.append_assoc]
      exact h (name :: above) ((List.prefix_cons_inj name).mpr hAbove) (List.cons_ne_nil _ _)

/-- The real path depends on the links of the tree only, not on its files. -/
theorem realPathFrom_congr (links : Links) {tree other : Directory}
    (h : ∀ path, isSymlink (other.node? path) = isSymlink (tree.node? path)) (root names : List PyStr) :
    realPathFrom links other root names = realPathFrom links tree root names := by
  induction names generalizing root with
  | nil => rfl
  | cons name names ih => rw [realPathFrom, realPathFrom, h, ih]

/-- No link is on the way to a directory of the tree, so that its path is real. -/
theorem realPathFrom_of_dir {links : Links} {tree content : Directory} {root : List PyStr}
    (h : tree.node? root = some (.dir content)) : realPathFrom links tree [] root = root := by
  apply realPathFrom_eq
  intro above hAbove _
  rw [List.nil_append]
  cases hNode : tree.node? above with
  | none => rfl
  | some entry =>
      cases entry with
      | dir sub => rfl
      | leaf value =>
          obtain ⟨tail, rfl⟩ := hAbove
          by_cases hNil : tail = []
          · rw [hNil, List.append_nil, hNode] at h
            cases h
          · rw [Forest.node?_below_leaf hNode hNil] at h
            cases h

theorem resolveRoot_of_dir {links : Links} {tree content : Directory} {root : List PyStr}
    (h : tree.node? root = some (.dir content)) : resolveRoot links none root tree = .ok root := by
  unfold resolveRoot
  dsimp only
  rw [realPathFrom_of_dir h, if_neg]
  rw [h]
  simp

/-- Resolving without links, below a root that is its own real path. -/
theorem resolveBelow_of_ne_nil {links : Links} {tree : Directory} {root names : List PyStr} (hNames : names ≠ [])
    (requireExists : Bool) : resolveBelow links none root names requireExists true tree =
      if ∃ above ∈ names.inits, above ≠ [] ∧ isSymlink (tree.node? (root ++ above)) = true then
        .error (.storageError "Symbolic links are not allowed in this storage path.")
      else if requireExists = true ∧ tree.node? (root ++ names) = none then
        .error (.storageError "The storage path is unavailable.")
      else .ok (root ++ names) := by
  unfold resolveBelow
  dsimp only
  simp only [true_and]
  by_cases hLinks : ∃ above ∈ names.inits, above ≠ [] ∧ isSymlink (tree.node? (root ++ above)) = true
  · rw [if_pos hLinks, if_pos hLinks]
  · have hReal : realPathFrom links tree root names = root ++ names := by
      apply realPathFrom_eq
      intro above hAbove hNil
      by_contra hLink
      exact hLinks ⟨above, (List.mem_inits _ _).mpr hAbove, hNil, Bool.not_eq_false _ ▸ hLink⟩
    rw [if_neg hLinks, if_neg hLinks, hReal]
    by_cases hExists : requireExists = true ∧ tree.node? (root ++ names) = none
    · rw [if_pos (Or.inr hExists), if_pos hExists]
    · have hNot : ¬((none : Option OSError) ≠ none ∨ requireExists = true ∧ tree.node? (root ++ names) = none) := by
        simpa using hExists
      have hBelow : ¬(root ++ names = root ∨ ¬root <+: root ++ names) := by
        simp [hNames]
      rw [if_neg hNot, if_neg hExists, if_neg hBelow]

/-- Where links are rejected there are none, and the resolved path is the path itself. -/
theorem resolveBelow_eq_ok {links : Links} {fault : Option OSError} {root names resolved : List PyStr}
    {requireExists : Bool} {tree : Directory}
    (h : resolveBelow links fault root names requireExists true tree = .ok resolved) : resolved = root ++ names ∧
      ∀ above, above <+: names → above ≠ [] → isSymlink (tree.node? (root ++ above)) = false := by
  unfold resolveBelow at h
  dsimp only at h
  split_ifs at h with hLinks
  cases h
  have hNone : ∀ above, above <+: names → above ≠ [] → isSymlink (tree.node? (root ++ above)) = false := by
    intro above hAbove hNil
    by_contra hLink
    exact hLinks ⟨rfl, above, (List.mem_inits _ _).mpr hAbove, hNil, Bool.not_eq_false _ ▸ hLink⟩
  exact ⟨realPathFrom_eq links hNone, hNone⟩

end SoftwareHub.Storage
