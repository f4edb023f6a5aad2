import SoftwareHub.Storage.Paths

/-! Configured directories: absolute paths as they are written, and where they lead
in the file system. -/
namespace SoftwareHub.Storage

open SoftwareHub.Python SoftwareHub.Tree
open SoftwareHub.Backup (Leaf Directory Entry isSymlink)

/-- An absolute `PurePosixPath`. Its root is one slash, or exactly two. -/
structure AbsolutePath where
  doubleSlash : Bool
  parts : List PyStr
  parts_valid : ∀ part ∈ parts, part = py ".." ∨ IsFileName part

namespace AbsolutePath

/-- `path / name`, one name further. -/
def join (path : AbsolutePath) (name : PyStr) (hName : IsFileName name) : AbsolutePath where
  doubleSlash := path.doubleSlash
  parts := path.parts ++ [name]
  parts_valid := List.forall_mem_append.mpr ⟨path.parts_valid, List.forall_mem_singleton.mpr (Or.inr hName)⟩

/-- `path.relative_to(other)`, which compares what is written and knows nothing of
links. -/
def relativeTo (path other : AbsolutePath) : Option (List PyStr) :=
  if path.doubleSlash = other.doubleSlash ∧ other.parts <+: path.parts then
    some (path.parts.drop other.parts.length)
  else none

theorem relativeTo_eq_some {path other : AbsolutePath} {names : List PyStr} (h : path.relativeTo other = some names) :
    path.parts = other.parts ++ names ∧ ∀ name ∈ names, name = py ".." ∨ IsFileName name := by
  unfold relativeTo at h
  split_ifs at h with hBelow
  obtain rfl := Option.some.inj h
  obtain ⟨rest, hRest⟩ := hBelow.2
  refine ⟨?_, fun name hName => path.parts_valid name (List.mem_of_mem_drop hName)⟩
  rw [← hRest, List.drop_left]

end AbsolutePath

section Resolve

variable (links : Links) (tree : Directory)

/-- One part further. `..` leads to the directory above what is resolved so far. -/
def resolveStep (current : List PyStr) (part : PyStr) : List PyStr :=
  if part = py ".." then current.dropLast
  else if isSymlink (tree.node? (current ++ [part])) then links (current ++ [part])
  else current ++ [part]

/-- `path.resolve(strict=False)` from a directory on. -/
def resolveFrom (current parts : List PyStr) : List PyStr := parts.foldl (resolveStep links tree) current

/-- `path.resolve(strict=False)`, which follows links and takes `..` literally after
them. -/
def AbsolutePath.resolve (path : AbsolutePath) : List PyStr := resolveFrom links tree [] path.parts

/-- What is where the parts lead, by way of directories. A link at the end is not followed. -/
def lstatFrom : List PyStr → List PyStr → Option Entry
  | current, [] => tree.node? current
  | current, part :: rest => match tree.node? current with
      | some (.dir _) =>
          if rest = [] ∧ part ≠ py ".." then tree.node? (current ++ [part])
          else lstatFrom (resolveStep links tree current part) rest
      | _ => none

/-- `path.lstat()`: what is at the path, with a link at its end not followed. -/
def AbsolutePath.lstat (path : AbsolutePath) : Option Entry := lstatFrom links tree [] path.parts

variable {links tree}

theorem resolveFrom_append (current first second : List PyStr) :
    resolveFrom links tree current (first ++ second) = resolveFrom links tree (resolveFrom links tree current first) second :=
  List.foldl_append

/-- Without `..` and without links, the parts are names below the directory. -/
theorem resolveFrom_eq {current parts : List PyStr} (hParts : py ".." ∉ parts)
    (hLinks : ∀ above, above <+: parts → isSymlink (tree.node? (current ++ above)) = false) :
    resolveFrom links tree current parts = current ++ parts := by
  induction parts generalizing current with
  | nil => rw [List.append_nil]; rfl
  | cons part parts ih =>
      have hPart : resolveStep links tree current part = current ++ [part] := by
        have hLink := hLinks [part] ⟨parts, rfl⟩
        unfold resolveStep
        rw [if_neg (List.ne_of_not_mem_cons hParts).symm, hLink, if_neg Bool.false_ne_true]
      have hRest := @ih (current ++ [part]) (List.not_mem_of_not_mem_cons hParts) (by
        intro above hAbove
        rw [List.append_assoc]
        exact hLinks (part :: above) ((List.prefix_cons_inj part).mpr hAbove))
      rw [List.append_assoc] at hRest
      calc
        resolveFrom links tree current (part :: parts)
          = resolveFrom links tree (resolveStep links tree current part) parts := rfl
        _ = current ++ (part :: parts) := by rw [hPart, hRest]; rfl

/-- A directory that is no link is where its path resolves to. -/
theorem node?_of_lstatFrom {current parts : List PyStr} {content : Directory}
    (h : lstatFrom links tree current parts = some (.dir content)) :
    tree.node? (resolveFrom links tree current parts) = some (.dir content) := by
  induction parts generalizing current with
  | nil => exact h
  | cons part parts ih =>
      unfold lstatFrom at h
      split at h
      · split_ifs at h with hLast
        · obtain ⟨rfl, hPart⟩ := hLast
          have hStep : resolveFrom links tree current [part] = current ++ [part] := by
            change resolveStep links tree current part = _
            unfold resolveStep
            rw [if_neg hPart, h]
            rfl
          rw [hStep]
          exact h
        · exact ih h
      · cases h

end Resolve

end SoftwareHub.Storage
