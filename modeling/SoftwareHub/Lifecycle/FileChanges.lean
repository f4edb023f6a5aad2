import SoftwareHub.Lifecycle.TreeEffects

/-! What the files of others see of a step: where files can go, and where new ones
can appear. -/
namespace SoftwareHub.Lifecycle

open SoftwareHub.Python SoftwareHub.Tree SoftwareHub.Semantics Program
open SoftwareHub.Backup (Directory Leaf isSymlink)
open SoftwareHub.Storage (MoveEnvironment MoveRequest atomicMove isSymlink_eq_file? realPathFrom rejectUnsafeRelativePath)

/-- Files go only at some paths, and regular ones appear only at others. Links stay as they are. -/
structure Changes (gone added : List PyStr → Prop) (before after : Directory) : Prop where
  distinct : DistinctNames after
  links : ∀ path, isSymlink (after.node? path) = isSymlink (before.node? path)
  kept : ∀ path leaf, before.file? path = some leaf → after.file? path = some leaf ∨ gone path
  appeared : ∀ path leaf, after.file? path = some leaf →
    before.file? path = some leaf ∨ added path ∧ ∃ content, leaf = .file content

section Changes

variable {gone added : List PyStr → Prop} {before mid after tree : Directory}

theorem Changes.refl (h : DistinctNames tree) : Changes gone added tree tree :=
  ⟨h, fun _ => rfl, fun _ _ hFile => Or.inl hFile, fun _ _ hFile => Or.inl hFile⟩

/-- More places may be allowed than are used. -/
theorem Changes.mono {wider more : List PyStr → Prop} (h : Changes gone added before after)
    (hGone : ∀ path, gone path → wider path) (hAdded : ∀ path, added path → more path) :
    Changes wider more before after := by
  refine ⟨h.distinct, h.links, ?_, ?_⟩
  · intro path leaf hFile
    exact (h.kept path leaf hFile).imp_right (hGone path)
  · intro path leaf hFile
    exact (h.appeared path leaf hFile).imp_right fun hNew => ⟨hAdded path hNew.1, hNew.2⟩

theorem Changes.trans (first : Changes gone added before mid) (second : Changes gone added mid after) :
    Changes gone added before after := by
  refine ⟨second.distinct, fun path => (second.links path).trans (first.links path), ?_, ?_⟩
  · intro path leaf hFile
    rcases first.kept path leaf hFile with hKept | hGone
    · exact second.kept path leaf hKept
    · exact Or.inr hGone
  · intro path leaf hFile
    rcases second.appeared path leaf hFile with hOld | hNew
    · exact first.appeared path leaf hOld
    · exact Or.inr hNew

/-- Where a file is kept, it is the only change that it is kept. -/
theorem Changes.file?_eq (h : Changes gone added before after) {path : List PyStr} (hGone : ¬gone path)
    (hAdded : ¬added path) : after.file? path = before.file? path := by
  cases hFile : before.file? path with
  | some leaf => exact (h.kept path leaf hFile).resolve_right hGone
  | none =>
      cases hAfter : after.file? path with
      | none => rfl
      | some leaf =>
          rcases h.appeared path leaf hAfter with hOld | ⟨hNew, -⟩
          · rw [hFile] at hOld
            cases hOld
          · exact (hAdded hNew).elim

/-- A step that leaves all files is no change. -/
theorem changes_of_files (h : DistinctNames after) (hFiles : ∀ path, after.file? path = before.file? path) :
    Changes gone added before after := by
  refine ⟨h, ?_, ?_, ?_⟩
  · intro path
    rw [isSymlink_eq_file?, hFiles, ← isSymlink_eq_file?]
  · intro path leaf hFile
    exact Or.inl ((hFiles path).trans hFile)
  · intro path leaf hFile
    exact Or.inl ((hFiles path).symm.trans hFile)

/-- A file goes where no link is. -/
theorem changes_of_erase (hTree : DistinctNames tree) {path : List PyStr} {leaf : Leaf}
    (hFile : tree.file? path = some leaf) (hLink : isSymlink (tree.node? path) = false) :
    Changes (· = path) (fun _ => False) tree (tree.erase path) := by
  have hErase := Forest.file?_erase hTree hFile
  refine ⟨hTree.erase path, ?_, ?_, ?_⟩
  · intro other
    rw [isSymlink_eq_file?, hErase]
    split_ifs with hOther
    · rw [hOther, hLink]
      rfl
    · rw [← isSymlink_eq_file?]
  · intro other kept hOther
    rw [hErase]
    split_ifs with hSame
    · exact Or.inr hSame
    · exact Or.inl hOther
  · intro other kept hOther
    rw [hErase] at hOther
    split_ifs at hOther
    exact Or.inl hOther

/-- A new file appears at its own path. -/
theorem changes_of_createFile (hTree : DistinctNames tree) {path : List PyStr} {content : Bytes}
    (h : UploadService.createFile path content tree = some after) :
    Changes (fun _ => False) (· = path) tree after := by
  obtain ⟨hAfter, hFree, hFiles⟩ := createFile_eq_some hTree h
  refine ⟨hAfter, isSymlink_of_files hFree hFiles, ?_, ?_⟩
  · intro other leaf hOther
    rw [hFiles]
    split_ifs with hSame
    · rw [hSame, Forest.file?, hFree] at hOther
      cases hOther
    · exact Or.inl hOther
  · intro other leaf hOther
    rw [hFiles] at hOther
    split_ifs at hOther with hSame
    · exact Or.inr ⟨hSame, content, (Option.some.inj hOther).symm⟩
    · exact Or.inl hOther

theorem atomicMove_changes (env : MoveEnvironment) (move : MoveRequest) (hTree : DistinctNames tree) :
    Changes (fun path => ∃ names, rejectUnsafeRelativePath move.sourceRelativePath = .ok names ∧
        path = env.realPath tree move.sourceRoot names)
      (fun path => ∃ names, rejectUnsafeRelativePath move.destinationRelativePath = .ok names ∧
        path = env.realPath tree move.destinationRoot names) tree (atomicMove env move tree).2 := by
  have hAfter := atomicMove_preserves env move tree hTree
  rcases atomicMove_cases env move hTree with hSame | ⟨sourceNames, names, hSourceNames, hNames, hMoved⟩
  · exact changes_of_files hAfter hSame
  · have hLinks := hMoved.isSymlink
    obtain ⟨content, hSource, hFree, -, hFiles⟩ := hMoved
    refine ⟨hAfter, hLinks, ?_, ?_⟩
    · intro path leaf hFile
      by_cases hPath : path = env.realPath tree move.sourceRoot sourceNames
      · exact Or.inr ⟨sourceNames, hSourceNames, hPath⟩
      · have hOther : path ≠ env.realPath tree move.destinationRoot names := by
          rintro rfl
          rw [Forest.file?, hFree] at hFile
          cases hFile
        rw [hFiles, if_neg hOther, if_neg hPath]
        exact Or.inl hFile
    · intro path leaf hFile
      rw [hFiles] at hFile
      split_ifs at hFile with hPath
      · exact Or.inr ⟨⟨names, hNames, hPath⟩, content, (Option.some.inj hFile).symm⟩
      · exact Or.inl hFile

/-- A file that is removed goes at its own path. -/
theorem unlinkQuietly_changes (hTree : DistinctNames tree) (fault : Option OSError) {path : List PyStr}
    (hLink : isSymlink (tree.node? path) = false) :
    Changes (· = path) (fun _ => False) tree (unlinkQuietly fault path tree).2 := by
  unfold unlinkQuietly
  rw [write_apply]
  dsimp only
  split_ifs
  · split
    · rename_i leaf hNode
      exact changes_of_erase hTree ((Forest.file?_eq_some_iff _ _ _).mpr hNode) hLink
    · exact Changes.refl hTree
  · exact Changes.refl hTree

/-- The removal of a staged file touches the path of that file only. -/
theorem unlinkStagedDeletion_changes (links : Storage.Links) (signal : UnlinkCall → Option OSError) (paths : StoragePaths)
    (staged : StagedDeletion) (hTree : DistinctNames tree) :
    Changes (fun path => ∃ names, rejectUnsafeRelativePath staged.stagedRelativePath = .ok names ∧
        path = realPathFrom links tree (realPathFrom links tree [] paths.temporary) names) (fun _ => False) tree
      (unlinkStagedDeletion links signal paths staged tree).2 := by
  rcases @unlinkStagedDeletion_cases links signal paths staged tree with hSame | ⟨names, content, hNames, hFile, hErased⟩
  · rw [hSame]
    exact Changes.refl hTree
  · rw [hErased]
    have hLink : isSymlink (tree.node? (realPathFrom links tree (realPathFrom links tree [] paths.temporary) names)) =
        false := by
      rw [isSymlink_eq_file?, hFile]
      rfl
    apply (changes_of_erase hTree hFile hLink).mono _ fun _ h => h
    intro path hPath
    exact ⟨names, hNames, hPath⟩

end Changes

namespace UploadService

variable {env : UploadEnvironment} {tree : Directory}

/-- The copy, whatever fails: only its own file comes, and goes again. -/
theorem storeUpload_changes (hTree : DistinctNames tree) (reads : List (Except PyException Bytes)) {path : List PyStr}
    (hLink : isSymlink (tree.node? path) = false) :
    Changes (· = path) (· = path) tree (storeUpload env reads path tree).2 := by
  have hCopy : Changes (· = path) (· = path) tree
      ((lift (call env.seekFault id) >>= fun _ => copyStream env reads path) tree).2 := by
    cases hSeek : call env.seekFault id with
    | error e => exact Changes.refl hTree
    | ok _ =>
        change Changes _ _ tree (copyStream env reads path tree).2
        rcases copyStream_run reads path tree with ⟨e, hRun⟩ | ⟨content, created, hCreate, hRun⟩
        · rw [hRun]
          exact Changes.refl hTree
        · have hCreated : Changes (· = path) (· = path) tree created :=
            (changes_of_createFile hTree hCreate).mono (fun _ h => h.elim) fun _ h => h
          rcases hRun with ⟨e, hRun⟩ | ⟨hRun, -⟩
          · rw [hRun]
            exact hCreated
          · rw [hRun]
            exact hCreated
  unfold storeUpload
  rcases hRun : (lift (call env.seekFault id) >>= fun _ => copyStream env reads path) tree with ⟨outcome, mid⟩
  rw [hRun] at hCopy
  cases outcome with
  | ok content =>
      rw [tryExcept_ok hRun]
      exact hCopy
  | error e =>
      rw [tryExcept_error hRun]
      have hUnlink : Changes (· = path) (· = path) mid (unlinkQuietly env.unlinkTemporary path mid).2 :=
        (unlinkQuietly_changes hCopy.distinct env.unlinkTemporary ((hCopy.links path).trans hLink)).mono (fun _ h => h)
          fun _ h => h.elim
      have hWhole := hCopy.trans hUnlink
      rcases hQuiet : unlinkQuietly env.unlinkTemporary path mid with ⟨result, after⟩
      obtain rfl : result = .ok () := (congrArg Prod.fst hQuiet).symm
      rw [hQuiet] at hWhole
      rw [bind_ok hQuiet]
      split_ifs
      · exact hWhole
      · exact hWhole

end UploadService
end SoftwareHub.Lifecycle
