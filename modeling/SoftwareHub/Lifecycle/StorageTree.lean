import SoftwareHub.Lifecycle.Outcomes
import SoftwareHub.Lifecycle.UploadProcess
import SoftwareHub.Storage.Growth

/-! Three directories with regular files only, and what the steps of the services
leave of them. -/
namespace SoftwareHub.Lifecycle

open SoftwareHub.Python SoftwareHub.Tree SoftwareHub.Semantics SoftwareHub.Catalog Program
open SoftwareHub.Backup (Directory Leaf isSymlink)
open SoftwareHub.Storage (Destined Grown GrownFor MoveEnvironment MoveRequest StorageArea TreeProgram atomicMove
  atomicMove_grown grown_of_create grown_of_erase isSymlink_eq_file? isSymlink_eq_kind? rejectUnsafeRelativePath
  rejectUnsafeRelativePath_joinSlash)

/-- The temporary root, or that of an area. -/
def IsRoot (paths : StoragePaths) (root : List PyStr) : Prop := root = paths.temporary ∨ ∃ area, root = paths.root area

theorem isRoot_temporary (paths : StoragePaths) : IsRoot paths paths.temporary := Or.inl rfl

theorem isRoot_area (paths : StoragePaths) (area : StorageArea) : IsRoot paths (paths.root area) := Or.inr ⟨area, rfl⟩

/-- The roots are directories with regular files below them. -/
structure StorageTree (paths : StoragePaths) (tree : Directory) : Prop where
  wellFormed : tree.WellFormed IsFileName
  roots : ∀ root, IsRoot paths root → tree.kind? root = some none
  regular : ∀ root, IsRoot paths root → ∀ names leaf, tree.kind? (root ++ names) = some (some leaf) →
    ∃ content, leaf = .file content

section StorageTree

variable {paths : StoragePaths} {tree after : Directory} {directories files : List PyStr → Prop}

namespace StorageTree

/-- No directory has two entries of one name. -/
theorem distinct (h : StorageTree paths tree) : DistinctNames tree := h.wellFormed.mono fun _ _ => trivial

/-- No link is anywhere below the roots. -/
theorem unlinked (h : StorageTree paths tree) : Unlinked paths tree := by
  intro root hRoot path hPath
  have hDir := h.roots root hRoot
  rw [isSymlink_eq_kind?]
  rcases hPath with ⟨tail, rfl⟩ | ⟨names, rfl⟩
  · by_cases hNil : tail = []
    · rw [hNil, List.append_nil] at hDir
      rw [hDir]
      rfl
    · rw [Forest.kind?_above hDir hNil]
      rfl
  · cases hKind : tree.kind? (root ++ names) with
    | none => rfl
    | some found =>
        cases found with
        | none => rfl
        | some leaf =>
            obtain ⟨content, rfl⟩ := h.regular root hRoot names leaf hKind
            rfl

/-- What only adds to the tree leaves it so. -/
theorem of_grown (h : StorageTree paths tree) (hGrown : Grown directories files tree after) : StorageTree paths after := by
  refine ⟨hGrown.wellFormed, fun root hRoot => hGrown.kept root (h.roots root hRoot), ?_⟩
  intro root hRoot names leaf hLeaf
  rcases hGrown.stored _ leaf hLeaf with hOld | ⟨-, hNew⟩
  · exact h.regular root hRoot names leaf hOld
  · exact hNew

/-- A move to a path of plain names below a root. -/
theorem destined (h : StorageTree paths tree) (env : MoveEnvironment) {move : MoveRequest}
    (hRoot : IsRoot paths move.destinationRoot) {names : List PyStr}
    (hAccepted : rejectUnsafeRelativePath move.destinationRelativePath = .ok names)
    (hNames : ∀ name ∈ names, IsFileName name) : Destined env move names tree :=
  ⟨h.wellFormed, h.roots _ hRoot, hAccepted, hNames, h.unlinked.realPath hRoot env.links names⟩

/-- A place below a root is its own real path. -/
theorem realPath (h : StorageTree paths tree) (env : MoveEnvironment) {root : List PyStr} (hRoot : IsRoot paths root)
    (names : List PyStr) : env.realPath tree root names = root ++ names := h.unlinked.realPath hRoot env.links names

end StorageTree

/-- A path of plain names is accepted as a relative path. -/
theorem rejectUnsafeRelativePath_plain {parts : List PyStr} (hNil : parts ≠ []) (hParts : ∀ part ∈ parts, PlainName part) :
    rejectUnsafeRelativePath (joinSlash parts) = .ok parts := by
  apply rejectUnsafeRelativePath_joinSlash hNil fun part hPart => (hParts part hPart).1
  intro hMem
  rcases mem_joinSlash hMem with hSlash | ⟨part, hPart, hMem⟩
  · cases hSlash
  · exact (hParts part hPart).2.2 hMem

/-- `unlink` of a path below a root. -/
theorem grown_of_unlinkQuietly (hTree : tree.WellFormed IsFileName) (fault : Option OSError) {path : List PyStr}
    (hLink : isSymlink (tree.node? path) = false) : Grown directories files tree (unlinkQuietly fault path tree).2 := by
  unfold unlinkQuietly
  rw [write_apply]
  dsimp only
  split_ifs
  · split
    · rename_i leaf hNode
      exact grown_of_erase hTree (Forest.kind?_eq_leaf_iff.mpr ((Forest.file?_eq_some_iff _ _ _).mpr hNode)) hLink
    · exact Grown.refl hTree
  · exact Grown.refl hTree

theorem grown_of_createFile (hTree : tree.WellFormed IsFileName) {path : List PyStr} (hPath : ∀ name ∈ path, IsFileName name)
    {content : Bytes} (h : UploadService.createFile path content tree = some after) :
    Grown directories (· = path) tree after := by
  unfold UploadService.createFile at h
  split at h
  · rename_i parent hParent
    exact grown_of_create hTree hPath (Forest.kind?_eq_dir_iff.mpr ⟨parent, hParent⟩) h
  · cases h

/-- The removal of a staged file adds nothing. -/
theorem grown_of_unlinkStagedDeletion (hTree : tree.WellFormed IsFileName) (links : Storage.Links)
    (signal : UnlinkCall → Option OSError) (staged : StagedDeletion) :
    Grown directories files tree (unlinkStagedDeletion links signal paths staged tree).2 := by
  rcases @unlinkStagedDeletion_cases links signal paths staged tree with hSame | ⟨names, content, -, hFile, hErased⟩
  · rw [hSame]
    exact Grown.refl hTree
  · rw [hErased]
    apply grown_of_erase hTree (Forest.kind?_eq_leaf_iff.mpr hFile)
    rw [isSymlink_eq_file?, hFile]
    rfl

theorem grown_of_storeUpload {env : UploadEnvironment} (hTree : tree.WellFormed IsFileName)
    (reads : List (Except PyException Bytes)) {path : List PyStr} (hPath : ∀ name ∈ path, IsFileName name)
    (hLink : isSymlink (tree.node? path) = false) :
    Grown directories (· = path) tree (UploadService.storeUpload env reads path tree).2 := by
  have hCopy : Grown directories (· = path) tree
      ((lift (call env.seekFault id) >>= fun _ => UploadService.copyStream env reads path) tree).2 := by
    cases hSeek : call env.seekFault id with
    | error e => exact Grown.refl hTree
    | ok _ =>
        change Grown _ _ tree (UploadService.copyStream env reads path tree).2
        rcases UploadService.copyStream_run reads path tree with ⟨e, hRun⟩ | ⟨content, created, hCreate, hRun⟩
        · rw [hRun]
          exact Grown.refl hTree
        · have hCreated : Grown directories (· = path) tree created := grown_of_createFile hTree hPath hCreate
          rcases hRun with ⟨e, hRun⟩ | ⟨hRun, -⟩
          · rw [hRun]
            exact hCreated
          · rw [hRun]
            exact hCreated
  unfold UploadService.storeUpload
  rcases hRun : (lift (call env.seekFault id) >>= fun _ => UploadService.copyStream env reads path) tree with ⟨outcome, mid⟩
  rw [hRun] at hCopy
  cases outcome with
  | ok content =>
      rw [tryExcept_ok hRun]
      exact hCopy
  | error e =>
      rw [tryExcept_error hRun]
      have hUnlink : Grown directories (· = path) mid (unlinkQuietly env.unlinkTemporary path mid).2 :=
        grown_of_unlinkQuietly hCopy.wellFormed env.unlinkTemporary ((hCopy.links path).trans hLink)
      have hWhole := hCopy.trans hUnlink
      rcases hQuiet : unlinkQuietly env.unlinkTemporary path mid with ⟨result, after⟩
      obtain rfl : result = .ok () := (congrArg Prod.fst hQuiet).symm
      rw [hQuiet] at hWhole
      rw [bind_ok hQuiet]
      split_ifs
      · exact hWhole
      · exact hWhole

end StorageTree
end SoftwareHub.Lifecycle
