import SoftwareHub.Reconciliation.Placement

/-! The calls of the file service keep every file of a row in its place. -/
namespace SoftwareHub.Reconciliation

open SoftwareHub.Python SoftwareHub.Tree SoftwareHub.Semantics SoftwareHub.Catalog SoftwareHub.Lifecycle Program
open SoftwareHub.Backup (Directory Leaf isSymlink)
open SoftwareHub.Storage (AllOrNothing Grown MoveEnvironment MoveRequest MoveResult StorageArea atomicMove atomicMove_grown
  allOrNothing_of_ok allOrNothing_of_synchronizes rejectUnsafeRelativePath)

/-- A move to the place of a file or among the staged files. -/
def Proper (paths : StoragePaths) (move : MoveRequest) : Prop :=
  (∃ area parts, parts.length = 3 ∧ (∀ part ∈ parts, PlainName part) ∧ move.destinationRoot = paths.root area ∧
    move.destinationRelativePath = joinSlash parts) ∨
  move.destinationRoot = paths.temporary ∧ ∃ uuid, move.destinationRelativePath = stagedRelativePath uuid

section Moves

variable {paths : StoragePaths} {tree after : Directory} {env : MoveEnvironment} {move : MoveRequest}

theorem Proper.destination (h : Proper paths move) : IsRoot paths move.destinationRoot ∧
    ∃ names, rejectUnsafeRelativePath move.destinationRelativePath = .ok names ∧ ∀ name ∈ names, IsFileName name := by
  rcases h with ⟨area, parts, hLength, hNames, hRoot, hPath⟩ | ⟨hRoot, uuid, hPath⟩
  · refine ⟨Or.inr ⟨area, hRoot⟩, parts, ?_, fun part hPart => (hNames part hPart).1⟩
    rw [hPath]
    apply rejectUnsafeRelativePath_plain _ hNames
    rintro rfl
    cases hLength
  · refine ⟨Or.inl hRoot, [deletionsName, stagedName uuid], ?_, ?_⟩
    · rw [hPath]
      exact rejectUnsafeRelativePath_staged uuid
    · intro name hName
      rcases List.mem_cons.mp hName with rfl | hName
      · decide
      · rw [List.mem_singleton.mp hName]
        exact isFileName_stagedName uuid

/-- New files are among the staged ones. -/
abbrev OnlyStaged (paths : StoragePaths) (before after : Directory) : Prop :=
  Grown (NoPlace paths) (paths.temporary <+: ·) before after

/-- Staged files are at no place of a row. -/
theorem OnlyStaged.evolved (h : OnlyStaged paths tree after) : Evolved paths tree after :=
  h.mono (fun _ hPath => hPath) fun _ _ => trivial

/-- Staging makes the directory of the staged files, and nothing else but the file. -/
theorem stagingMove_grown (hApart : Apart paths) (hTree : StorageTree paths tree)
    (hRoot : move.destinationRoot = paths.temporary) {uuid : Nat} (hPath : move.destinationRelativePath = stagedRelativePath uuid) :
    OnlyStaged paths tree (atomicMove env move tree).2 := by
  have hProper : Proper paths move := Or.inr ⟨hRoot, uuid, hPath⟩
  obtain ⟨hIsRoot, names, hAccepted, hNames⟩ := hProper.destination
  have hGrown := atomicMove_grown (hTree.destined env hIsRoot hAccepted hNames)
  rw [hRoot] at hGrown
  apply hGrown.mono
  · rintro path ⟨hAbove, -⟩
    exact noPlace_temporary hApart hAbove
  · rintro path rfl
    exact List.prefix_append _ _

/-- So whatever a proper move leaves, no new directory is at a place. -/
theorem atomicMove_evolved (env : MoveEnvironment) (move : MoveRequest) (hApart : Apart paths)
    (hTree : StorageTree paths tree) (h : Proper paths move) : Evolved paths tree (atomicMove env move tree).2 := by
  rcases h with ⟨area, parts, hLength, hNames, hRoot, hPath⟩ | ⟨hRoot, uuid, hPath⟩
  · have hNil : parts ≠ [] := by
      rintro rfl
      cases hLength
    have hAccepted : rejectUnsafeRelativePath move.destinationRelativePath = .ok parts := by
      rw [hPath, rejectUnsafeRelativePath_plain hNil hNames]
    have hGrown := atomicMove_grown (hTree.destined env (hRoot ▸ isRoot_area paths area) hAccepted
      fun part hPart => (hNames part hPart).1)
    apply hGrown.mono _ fun _ _ => trivial
    rintro path ⟨hAbove, hProper⟩
    rw [hRoot] at hAbove hProper
    exact noPlace_above hApart hLength hAbove hProper
  · exact (stagingMove_grown hApart hTree hRoot hPath).evolved

/-- A move that returns, below roots without links. -/
theorem moved_of_ok {result : MoveResult} (hTree : StorageTree paths tree) (hOut : atomicMove env move tree = (.ok result, after))
    (hSourceRoot : IsRoot paths move.sourceRoot) (hRoot : IsRoot paths move.destinationRoot) {sourceNames names : List PyStr}
    (hSource : rejectUnsafeRelativePath move.sourceRelativePath = .ok sourceNames)
    (hNames : rejectUnsafeRelativePath move.destinationRelativePath = .ok names) :
    Storage.Moved (move.sourceRoot ++ sourceNames) (move.destinationRoot ++ names) tree after := by
  obtain ⟨foundSource, found, hFoundSource, hFound, hDestination, hMoved⟩ := allOrNothing_of_ok hTree.distinct hOut
  obtain rfl := Except.ok.inj (hSource.symm.trans hFoundSource)
  obtain rfl := Except.ok.inj (hNames.symm.trans hFound)
  rw [hDestination, hTree.realPath env hSourceRoot, hTree.realPath env hRoot] at hMoved
  exact hMoved

end Moves

section Requests

variable {env : ServiceEnvironment} {host after : Host} {fileId : Nat} {verifyHash : Bool} {graph : Downloads.FileGraph}
  {stored : StoredFile} {move : MoveRequest}

/-- A stored file is that of its row. -/
theorem placed_of_stored (h : Placed env.paths host.tree host.database.files) {file : ReleaseFile}
    (hRow : file ∈ host.database.files) (hStored : FileService.verifiedPhysicalFile env file verifyHash host.tree = .ok stored) :
    stored.relativePath = file.relativeStoragePath ∧
      ∃ parts content, PlacedAt env.paths host.tree file stored.area parts content := by
  obtain ⟨area, parts, content, hPlaced⟩ := h.file file hRow
  obtain ⟨hLocated, -, -⟩ := verifiedPhysicalFile_eq_ok hStored
  obtain ⟨names, data, hFound⟩ := locateStoredFile_found hLocated
  have hAccepted := hFound.accepted
  rw [hPlaced.posixText_eq, hPlaced.accepted] at hAccepted
  obtain rfl : parts = names := Except.ok.inj hAccepted
  have hFile := hFound.file
  rw [hFound.path, h.storage.unlinked.realPath (isRoot_area _ _)] at hFile
  obtain ⟨rfl, rfl⟩ := hPlaced.unique hFile
  exact ⟨by rw [hFound.relativePath, hPlaced.posixText_eq], parts, data, hPlaced⟩

theorem placed_of_verified (h : Placed env.paths host.tree host.database.files)
    (hVerified : Verified env host fileId verifyHash graph stored) : graph.file ∈ host.database.files ∧
      graph.file.id = fileId ∧ stored.relativePath = graph.file.relativeStoragePath ∧
      ∃ parts content, PlacedAt env.paths host.tree graph.file stored.area parts content := by
  have hFind := hVerified.row.file
  unfold Database.file? at hFind
  have hRow := List.mem_of_find?_eq_some hFind
  have hId : graph.file.id = fileId := by simpa using List.find?_some hFind
  obtain ⟨hPath, hPlaced⟩ := placed_of_stored h hRow hVerified.stored
  exact ⟨hRow, hId, hPath, hPlaced⟩

/-- A move of a request starts at a place of the row. -/
theorem source_of_moves (hMove : move ∈ env.moves stored) :
    (∃ area, move.sourceRoot = env.paths.root area) ∧ move.sourceRelativePath = stored.relativePath := by
  simp only [ServiceEnvironment.moves, List.mem_cons, List.not_mem_nil, or_false] at hMove
  rcases hMove with rfl | rfl | rfl
  · exact ⟨⟨.quarantine, rfl⟩, rfl⟩
  · exact ⟨⟨.software, rfl⟩, rfl⟩
  · exact ⟨⟨stored.area, rfl⟩, rfl⟩

/-- The moves of a request and the moves back. -/
theorem proper_of_moves {file : ReleaseFile} {area : StorageArea} {parts : List PyStr} {content : Bytes}
    (hPlaced : PlacedAt env.paths host.tree file area parts content) (hPath : stored.relativePath = file.relativeStoragePath)
    (hMove : move ∈ env.moves stored) : Proper env.paths move ∧ Proper env.paths move.reverse := by
  have hText : stored.relativePath = joinSlash parts := hPath.trans hPlaced.path
  obtain ⟨⟨place, hRoot⟩, hSource⟩ := source_of_moves hMove
  refine ⟨?_, Or.inl ⟨place, parts, hPlaced.length, hPlaced.names, hRoot, hSource.trans hText⟩⟩
  simp only [ServiceEnvironment.moves, List.mem_cons, List.not_mem_nil, or_false] at hMove
  rcases hMove with rfl | rfl | rfl
  · exact Or.inl ⟨.software, parts, hPlaced.length, hPlaced.names, rfl, hText⟩
  · exact Or.inl ⟨.quarantine, parts, hPlaced.length, hPlaced.names, rfl, hText⟩
  · exact Or.inr ⟨rfl, env.uuid, rfl⟩

/-- A move of a placed file can be taken back if no call fails then. -/
theorem compensates_of_unfailing (hApart : Apart env.paths) (h : Placed env.paths host.tree host.database.files)
    (hCalls : ∀ call, env.restore call = none) (hDevice : ∀ first second, env.device first = env.device second) :
    Compensates env host := by
  intro file hRow verifyHash stored hStored move hMove result moved hOut
  obtain ⟨hPath, parts, content, hPlaced⟩ := placed_of_stored h hRow hStored
  obtain ⟨hThere, -⟩ := proper_of_moves hPlaced hPath hMove
  obtain ⟨⟨place, hRoot⟩, hSourcePath⟩ := source_of_moves hMove
  obtain ⟨hIsRoot, names, hNames, -⟩ := hThere.destination
  have hAccepted : rejectUnsafeRelativePath move.sourceRelativePath = .ok parts := by
    rw [hSourcePath, hPath, hPlaced.accepted]
  have hSourceRoot : IsRoot env.paths move.sourceRoot := Or.inr ⟨place, hRoot⟩
  have hEvolved := atomicMove_evolved env.moving move hApart h.storage hThere
  rw [hOut] at hEvolved
  have hTree := h.storage.of_grown hEvolved
  obtain ⟨data, hSource, -, hGone, hFiles⟩ := moved_of_ok h.storage hOut hSourceRoot hIsRoot hAccepted hNames
  have hBack : Storage.Movable move.reverse names parts data moved := by
    refine ⟨hTree.wellFormed, hNames, hAccepted, hPlaced.fileNames, hTree.roots _ hIsRoot, ?_, hTree.roots _ hSourceRoot, ?_,
      Forest.kind?_eq_none_iff.mpr hGone⟩
    · exact Forest.kind?_eq_leaf_iff.mpr ((hFiles _).trans (if_pos rfl))
    · intro path hAbove
      refine Or.inr (hEvolved.kept _ (Storage.kind?_above_leaf (Forest.kind?_eq_leaf_iff.mpr hSource)
        ((List.prefix_append_right_inj _).mpr (hAbove.trans (List.dropLast_prefix _))) ?_))
      intro hSame
      have hLength := hAbove.length_le
      rw [List.append_cancel_left hSame, List.length_dropLast, hPlaced.length] at hLength
      exact absurd hLength (by decide)
  obtain ⟨after, hRun, -⟩ := @Storage.atomicMove_run env.restoring _ _ _ _ _ hCalls hDevice hBack
  exact ⟨_, after, hRun⟩

/-- No call fails after a rename, and a move can be taken back. -/
structure MovesSafely (env : ServiceEnvironment) (host : Host) : Prop where
  synchronizes : env.moving.Synchronizes
  compensates : Compensates env host

/-- A move that raises has changed no file, and one that has returned can be taken back. -/
structure Reversible (env : ServiceEnvironment) (host : Host) : Prop where
  atomic : ∀ move, AllOrNothing env.moving move host.tree (atomicMove env.moving move host.tree)
  compensates : Compensates env host

/-- Moves are reversible where no call fails after a rename. -/
theorem MovesSafely.reversible (hSafe : MovesSafely env host) (hTree : DistinctNames host.tree) : Reversible env host :=
  ⟨fun move => allOrNothing_of_synchronizes hSafe.synchronizes move hTree, hSafe.compensates⟩

/-- A move that was taken back leaves every file in its place. -/
theorem Placed.undone (hApart : Apart env.paths) (h : Placed env.paths host.tree host.database.files)
    (hVerified : Verified env host fileId verifyHash graph stored) (hMove : move ∈ env.moves stored)
    (hSafe : Reversible env host) (hUndone : Undone env move host after) :
    Placed env.paths after.tree after.database.files := by
  obtain ⟨hDatabase, hTaken⟩ := hUndone
  obtain ⟨hRow, -, hPath, parts, content, hPlaced⟩ := placed_of_verified h hVerified
  obtain ⟨hThere, hBack⟩ := proper_of_moves hPlaced hPath hMove
  have hAway := atomicMove_evolved env.moving move hApart h.storage hThere
  rw [hDatabase]
  rcases hTaken with ⟨e, hError⟩ | ⟨result, mid, hOut, hAfter⟩
  · have hAtomic := hSafe.atomic move
    rw [hError] at hAtomic hAway
    exact h.of_same hAway fun _ _ _ _ _ _ _ => hAtomic.1 _
  · rw [hOut] at hAway
    have hReturn := atomicMove_evolved env.restoring move.reverse hApart (h.storage.of_grown hAway) hBack
    obtain ⟨back, last, hReturned⟩ := hSafe.compensates graph.file hRow verifyHash stored
      hVerified.stored move hMove result mid hOut
    rw [hReturned] at hReturn hAfter
    have hFiles := AllOrNothing.reverse (show env.restoring.links = env.moving.links from rfl)
      (allOrNothing_of_ok h.storage.distinct hOut) (allOrNothing_of_ok (h.storage.of_grown hAway).distinct hReturned)
    rw [hAfter]
    exact h.of_same (hAway.trans hReturn) fun _ _ _ _ _ _ _ => hFiles _

end Requests

section Rows

variable {paths : StoragePaths} {tree after : Directory} {rows : List ReleaseFile} {old new : ReleaseFile}
  {area place : StorageArea} {parts others : List PyStr} {content data : Bytes}

theorem PlacedAt.carried (h : PlacedAt paths tree old area parts content)
    (hPath : new.relativeStoragePath = old.relativeStoragePath) (hSize : new.fileSizeBytes = old.fileSizeBytes)
    (hDigest : new.sha256 = old.sha256) (hAllowed : areaAllowed new.status area = true) :
    PlacedAt paths tree new area parts content :=
  { h with
    path := hPath.trans h.path
    allowed := hAllowed
    size := h.size.trans hSize.symm
    digest := h.digest.trans hDigest.symm }

theorem PlacedAt.area_eq (h : PlacedAt paths tree old area parts content) (hOther : PlacedAt paths tree old place others data) :
    place = area ∧ others = parts ∧ data = content := by
  obtain rfl := h.parts_eq hOther.fileNames hOther.path
  obtain ⟨rfl, rfl⟩ := h.unique hOther.file
  exact ⟨rfl, rfl, rfl⟩

theorem Placed.parts_ne (h : Placed paths tree rows) (hOld : old ∈ rows) (hNew : new ∈ rows) (hIds : new.id ≠ old.id)
    (hPath : old.relativeStoragePath = joinSlash parts) (hOther : new.relativeStoragePath = joinSlash others) : others ≠ parts := by
  rintro rfl
  have hSame := List.inj_on_of_nodup_map h.distinct hNew hOld (hOther.trans hPath.symm)
  exact hIds (congrArg ReleaseFile.id hSame)

theorem Placed.saveRow (h : Placed paths tree rows) (hTree : StorageTree paths after) (hOld : old ∈ rows) (hId : new.id = old.id)
    (hPath : new.relativeStoragePath = old.relativeStoragePath)
    (hNew : ∃ area parts content, PlacedAt paths after new area parts content)
    (hRest : ∀ row ∈ rows, row.id ≠ old.id → ∃ area parts content, PlacedAt paths after row area parts content) :
    Placed paths after (updateRows (fun row => row.id = new.id) (fun _ => new) rows) := by
  have hColumn {κ : Type} {column : ReleaseFile → κ} (hSame : column new = column old) :
      (updateRows (fun row => row.id = new.id) (fun _ => new) rows).map column = rows.map column := by
    apply map_updateRows
    intro row hRow hRowId
    obtain rfl := List.inj_on_of_nodup_map h.ids hRow hOld (hRowId.trans hId)
    exact hSame
  refine ⟨hTree, ?_, ?_, ?_⟩
  · rw [hColumn hId]
    exact h.ids
  · rw [hColumn hPath]
    exact h.distinct
  · intro row hRow
    obtain ⟨before, hBefore, rfl⟩ := mem_updateRows.mp hRow
    split_ifs with hSame
    · exact hNew
    · exact hRest before hBefore fun hEq => hSame (hEq.trans hId.symm)

/-- A row keeps its columns but the status. -/
structure SameFile (old new : ReleaseFile) : Prop where
  id : new.id = old.id
  path : new.relativeStoragePath = old.relativeStoragePath
  size : new.fileSizeBytes = old.fileSizeBytes
  digest : new.sha256 = old.sha256

/-- A transition sets the status and keeps the columns of the file. -/
theorem sameFile_of_transition {software : Software} {release : Release} {target : FileStatus} {now : Instant}
    (h : applyFileTransition software release old target now = .ok new) : SameFile old new ∧ new.status = target := by
  obtain ⟨hColumns, -, -⟩ := applyFileTransition_eq_ok h
  rw [hColumns]
  exact ⟨⟨rfl, rfl, rfl, rfl⟩, rfl⟩

/-- One row gets another status, which its area allows. -/
theorem Placed.save (h : Placed paths tree rows) (hOld : old ∈ rows) (hSame : SameFile old new)
    (hAllowed : ∀ area parts content, PlacedAt paths tree old area parts content → areaAllowed new.status area = true) :
    Placed paths tree (updateRows (fun row => row.id = new.id) (fun _ => new) rows) := by
  apply h.saveRow h.storage hOld hSame.id hSame.path
  · obtain ⟨area, parts, content, hPlaced⟩ := h.file old hOld
    exact ⟨area, parts, content, hPlaced.carried hSame.path hSame.size hSame.digest (hAllowed area parts content hPlaced)⟩
  · exact fun row hRow _ => h.file row hRow

theorem Placed.filter (h : Placed paths tree rows) (keep : ReleaseFile → Bool) : Placed paths tree (rows.filter keep) := by
  refine ⟨h.storage, h.ids.sublist ((List.filter_sublist).map _), h.distinct.sublist ((List.filter_sublist).map _), ?_⟩
  exact fun row hRow => h.file row (List.mem_filter.mp hRow).1

/-- A transition whose status the area of the file allows. -/
theorem Placed.transition {env : ServiceEnvironment} {fileId : Nat} {ready : Downloads.FileGraph → Prop} {target : FileStatus}
    {before database : Database} (h : Placed paths tree before.files) (hTransition : Transitions env fileId ready target before database)
    (hAllowed : ∀ graph, HasGraph before fileId graph → ∀ area parts content,
      PlacedAt paths tree graph.file area parts content → areaAllowed target area = true) :
    Placed paths tree database.files := by
  obtain ⟨graph, file, hGraph, -, hFile, rfl⟩ := hTransition
  obtain ⟨hSame, rfl⟩ := sameFile_of_transition hFile
  exact h.save (List.mem_of_find?_eq_some hGraph.file) hSame (hAllowed graph hGraph)

end Rows

section Moved

variable {env : ServiceEnvironment} {host after : Host} {fileId : Nat} {verifyHash : Bool} {graph : Downloads.FileGraph}
  {stored : StoredFile} {tree : Directory} {result : MoveResult}

/-- The file of a row goes to the other area, and the row gets a status for it. -/
theorem Placed.moved (hApart : Apart env.paths) (h : Placed env.paths host.tree host.database.files)
    (hVerified : Verified env host fileId verifyHash graph stored) {destination : StorageArea} (hArea : stored.area ≠ destination)
    (hOut : atomicMove env.moving (FileService.areaMove env stored stored.area destination) host.tree = (.ok result, tree))
    {new : ReleaseFile} (hSame : SameFile graph.file new) (hAllowed : areaAllowed new.status destination = true) :
    Placed env.paths tree (updateRows (fun row => row.id = new.id) (fun _ => new) host.database.files) := by
  obtain ⟨hRow, -, hPath, parts, content, hPlaced⟩ := placed_of_verified h hVerified
  have hAccepted : rejectUnsafeRelativePath stored.relativePath = .ok parts := by rw [hPath, hPlaced.accepted]
  have hEvolved : Evolved env.paths host.tree tree := by
    have hMove := atomicMove_evolved env.moving (FileService.areaMove env stored stored.area destination) hApart
      h.storage (Or.inl ⟨destination, parts, hPlaced.length, hPlaced.names, rfl, hPath.trans hPlaced.path⟩)
    rw [hOut] at hMove
    exact hMove
  have hMoved : Storage.Moved (env.paths.root stored.area ++ parts) (env.paths.root destination ++ parts) host.tree tree :=
    moved_of_ok h.storage hOut (isRoot_area _ _) (isRoot_area _ _) hAccepted hAccepted
  obtain ⟨data, hSource, -, hGone, hFiles⟩ := hMoved
  obtain ⟨-, rfl⟩ := hPlaced.unique hSource
  apply h.saveRow (h.storage.of_grown hEvolved) hRow hSame.id hSame.path
  · refine ⟨destination, parts, data, hPlaced.length, hPlaced.names, hSame.path.trans hPlaced.path, ?_, ?_, hAllowed,
      hPlaced.size.trans hSame.size.symm, hPlaced.digest.trans hSame.digest.symm⟩
    · exact (hFiles _).trans (if_pos rfl)
    · intro place hPlace
      have hSourceArea : place = stored.area := by
        cases place <;> cases destination <;> cases hStored : stored.area <;> simp_all
      rw [hSourceArea]
      exact Forest.kind?_eq_none_iff.mpr hGone
  · intro other hOther hIds
    obtain ⟨area, others, bytes, hOtherPlaced⟩ := h.file other hOther
    refine ⟨area, others, bytes, hOtherPlaced.of_same hEvolved ?_⟩
    intro place
    have hNe := h.parts_ne hRow hOther hIds hPlaced.path hOtherPlaced.path
    rw [hFiles, if_neg fun hEq => hNe (hApart.place_inj hEq).2, if_neg fun hEq => hNe (hApart.place_inj hEq).2]

/-- The file of a row goes, and the row with it. -/
theorem Placed.deleted (hApart : Apart env.paths) (h : Placed env.paths host.tree host.database.files)
    (hVerified : Verified env host fileId verifyHash graph stored)
    (hOut : atomicMove env.moving (deletionMove env stored) host.tree = (.ok result, tree)) :
    Placed env.paths tree (deleteFile fileId host.database).files := by
  obtain ⟨hRow, hId, hPath, parts, content, hPlaced⟩ := placed_of_verified h hVerified
  have hAccepted : rejectUnsafeRelativePath stored.relativePath = .ok parts := by rw [hPath, hPlaced.accepted]
  have hEvolved : Evolved env.paths host.tree tree := by
    have hMove := atomicMove_evolved env.moving (deletionMove env stored) hApart h.storage
      (Or.inr ⟨rfl, env.uuid, rfl⟩)
    rw [hOut] at hMove
    exact hMove
  have hMoved : Storage.Moved (env.paths.root stored.area ++ parts)
      (env.paths.temporary ++ [deletionsName, stagedName env.uuid]) host.tree tree :=
    moved_of_ok h.storage hOut (isRoot_area _ _) (isRoot_temporary _) hAccepted (rejectUnsafeRelativePath_staged env.uuid)
  obtain ⟨data, -, -, -, hFiles⟩ := hMoved
  have hKept := h.filter fun row => row.id ≠ fileId
  refine ⟨h.storage.of_grown hEvolved, hKept.ids, hKept.distinct, ?_⟩
  intro other hOther
  obtain ⟨hThere, hIds⟩ := List.mem_filter.mp hOther
  obtain ⟨area, others, bytes, hOtherPlaced⟩ := h.file other hThere
  refine ⟨area, others, bytes, hOtherPlaced.of_same hEvolved ?_⟩
  intro place
  have hNe : others ≠ parts := by
    apply h.parts_ne hRow hThere _ hPlaced.path hOtherPlaced.path
    rw [hId]
    exact of_decide_eq_true hIds
  rw [hFiles, if_neg fun hEq => hApart.temporary_ne _ _ _ hEq.symm, if_neg fun hEq => hNe (hApart.place_inj hEq).2]

theorem Placed.unlinked {paths : StoragePaths} (hApart : Apart paths) {before : Directory} {rows : List ReleaseFile}
    (h : Placed paths before rows) (links : Storage.Links) (signal : UnlinkCall → Option OSError) (staged : StagedDeletion) :
    Placed paths (unlinkStagedDeletion links signal paths staged before).2 rows := by
  apply h.of_same (grown_of_unlinkStagedDeletion h.storage.wellFormed links signal staged)
  intro row _ parts _ _ _ place
  rcases @unlinkStagedDeletion_cases links signal paths staged before with hSame | ⟨names, content, -, hFile, hErased⟩
  · rw [hSame]
  · rw [hErased, Forest.file?_erase h.storage.distinct hFile, if_neg]
    rw [h.storage.unlinked.realPath (isRoot_temporary _)]
    exact fun hEq => hApart.temporary_ne _ _ _ hEq.symm

end Moved

section Calls

variable {env : ServiceEnvironment} {host after : Host} {fileId : Nat} {target : FileStatus}

/-- What holds after a return and after an exception. -/
theorem after_of_triple {α : Type} {x : HostProgram α} {R : Host → Prop} (h : Triple (· = host) x (fun _ => R) fun _ => R) :
    R (x host).2 := by
  have hRun := h host rfl
  rcases hOutcome : x host with ⟨outcome, after⟩
  rw [hOutcome] at hRun
  cases outcome <;> exact hRun

/-- A reviewed file is in the quarantine. -/
def Reviewed (env : ServiceEnvironment) (fileId : Nat) (target : FileStatus) (host : Host) : Prop :=
  (target = .ready ∨ target = .rejected ∨ target = .quarantine) ∧
    ∃ graph stored, Verified env host fileId false graph stored ∧ stored.area = .quarantine

/-- A review that changes anything has found the file in the quarantine. -/
theorem reviewStatus_reviewed (env : ServiceEnvironment) (fileId : Nat) (target : FileStatus) (host : Host) :
    (FileService.reviewStatus env fileId target host).2 = host ∨ Reviewed env fileId target host := by
  apply after_of_triple (R := fun after => after = host ∨ Reviewed env fileId target host)
  unfold FileService.reviewStatus
  apply reads_bind (lift_read _)
  intro _ hTarget
  apply reads_bind (get_run _ fileId)
  intro graph hGraph
  apply reads_bind (physicalFile_read graph false)
  intro stored hStored
  apply reads_bind (lift_read _)
  intro _ hArea
  have hReviewed : Reviewed env fileId target host :=
    ⟨require_eq_ok_iff.mp hTarget, graph, stored, ⟨hGraph, hStored⟩, require_eq_ok_iff.mp hArea⟩
  rintro before rfl
  rcases (FileService.others env >>= fun _ => transaction env.commitFault
    (FileService.transitionMetadata env fileId target) >>= fun _ => FileService.get env.reloadFault fileId) before with
    ⟨outcome, after⟩
  cases outcome <;> exact Or.inr hReviewed

/-- A row is read in one way. -/
theorem file_eq_of_graphs {database : Database} {graph other : Downloads.FileGraph} (h : HasGraph database fileId graph)
    (hOther : HasGraph database fileId other) : other.file = graph.file :=
  Option.some.inj (hOther.file.symm.trans h.file)

/-- A move with its change of the row, or a move that was taken back. -/
theorem Placed.settled (hApart : Apart env.paths) (h : Placed env.paths host.tree host.database.files)
    (hSafe : Reversible env host) {verifyHash : Bool} {graph : Downloads.FileGraph} {stored : StoredFile}
    (hVerified : Verified env host fileId verifyHash graph stored) {source destination : StorageArea} (hArea : stored.area = source)
    (hNe : source ≠ destination) (hAllowed : areaAllowed target destination = true) {ready : Downloads.FileGraph → Prop}
    (hSettled : Settled env (FileService.areaMove env stored source destination) (Transitions env fileId ready target) host after) :
    Placed env.paths after.tree after.database.files := by
  subst hArea
  have hMove : FileService.areaMove env stored stored.area destination ∈ env.moves stored := by
    cases hStored : stored.area <;> cases destination <;> simp_all [ServiceEnvironment.moves]
  rcases hSettled with ⟨⟨result, hOut⟩, other, file, hOther, -, hFile, hDatabase⟩ | hUndone
  · rw [file_eq_of_graphs hVerified.row hOther] at hFile
    obtain ⟨hSame, rfl⟩ := sameFile_of_transition hFile
    rw [hDatabase]
    exact h.moved hApart hVerified hNe hOut hSame hAllowed
  · exact h.undone hApart hVerified hMove hSafe hUndone

/-- A request that moves no file and gives a row a status that its area allows. -/
theorem Placed.of_writes (h : Placed env.paths host.tree host.database.files) (hTree : after.tree = host.tree)
    {ready : Downloads.FileGraph → Prop}
    (hRows : after.database = host.database ∨ Transitions env fileId ready target host.database after.database)
    (hAllowed : ∀ area, areaAllowed target area = true) : Placed env.paths after.tree after.database.files := by
  rw [hTree]
  rcases hRows with hSame | hTransition
  · rw [hSame]
    exact h
  · exact h.transition hTransition fun _ _ area _ _ _ => hAllowed area

/-- A transition of a file that is in the quarantine. -/
theorem Placed.waiting (h : Placed env.paths host.tree host.database.files) {verifyHash : Bool} {graph : Downloads.FileGraph}
    {stored : StoredFile} (hVerified : Verified env host fileId verifyHash graph stored) (hArea : stored.area = .quarantine)
    (hAllowed : areaAllowed target .quarantine = true) (hTree : after.tree = host.tree) {ready : Downloads.FileGraph → Prop}
    (hRows : after.database = host.database ∨ Transitions env fileId ready target host.database after.database) :
    Placed env.paths after.tree after.database.files := by
  rw [hTree]
  rcases hRows with hSame | hTransition
  · rw [hSame]
    exact h
  · apply h.transition hTransition
    intro other hOther area parts content hPlaced
    rw [file_eq_of_graphs hVerified.row hOther] at hPlaced
    obtain ⟨-, -, -, others, bytes, hFound⟩ := placed_of_verified h hVerified
    obtain ⟨hSame, -, -⟩ := hPlaced.area_eq hFound
    rw [← hSame, hArea]
    exact hAllowed

variable (hApart : Apart env.paths) (hAlone : env.meanwhile = id) (h : Placed env.paths host.tree host.database.files)
  (hSafe : Reversible env host)

include hAlone h in
/-- A review keeps the files in their places. -/
theorem Placed.reviewStatus (fileId : Nat) (target : FileStatus) :
    Placed env.paths (FileService.reviewStatus env fileId target host).2.tree
      (FileService.reviewStatus env fileId target host).2.database.files := by
  rcases reviewStatus_reviewed env fileId target host with hSame | ⟨hTarget, graph, stored, hVerified, hArea⟩
  · rw [hSame]
    exact h
  · apply h.waiting hVerified hArea _ (reviewStatus_tree env fileId target host) (reviewStatus_writes hAlone fileId target host)
    rcases hTarget with rfl | rfl | rfl <;> rfl

include hApart hAlone h hSafe in
theorem Placed.publish (fileId : Nat) : Placed env.paths (FileService.publish env fileId host).2.tree
    (FileService.publish env fileId host).2.database.files := by
  have hAfter := after_of_triple ((@publish_run env host fileId hAlone).mono (fun _ hs => hs)
    (fun _ after hs => Or.inr (hs.imp fun graph hGraph => hGraph.imp fun stored hStored =>
      ⟨hStored.1, hStored.2.1, Or.inl hStored.2.2⟩)) fun _ _ hs => hs)
  rcases hAfter with hSame | ⟨graph, stored, hVerified, hArea, hSettled⟩
  · rw [hSame]
    exact h
  · exact h.settled hApart hSafe hVerified hArea (by decide) rfl hSettled

include hApart hAlone h hSafe in
theorem Placed.restoreReady (fileId : Nat) : Placed env.paths (FileService.restoreReady env fileId host).2.tree
    (FileService.restoreReady env fileId host).2.database.files := by
  rcases after_of_triple (@restoreReady_run env host fileId hAlone) with
    hSame | ⟨graph, stored, hVerified, ⟨hArea, hSettled⟩ | ⟨hArea, hTree, hRows⟩⟩
  · rw [hSame]
    exact h
  · exact h.settled hApart hSafe hVerified hArea (by decide) rfl hSettled
  · exact h.waiting hVerified hArea rfl hTree hRows

include hApart hAlone h hSafe in
theorem Placed.permanentlyDelete (fileId : Nat) : Placed env.paths (FileService.permanentlyDelete env fileId host).2.tree
    (FileService.permanentlyDelete env fileId host).2.database.files := by
  rcases after_of_triple (@permanentlyDelete_run env host fileId hAlone) with
    hSame | ⟨graph, stored, hVerified, hUndone | ⟨staged, mid, ⟨⟨result, hOut⟩, hRows⟩, -, hDatabase, hTree⟩⟩
  · rw [hSame]
    exact h
  · exact h.undone hApart hVerified (by simp [ServiceEnvironment.moves, deletionMove]) hSafe hUndone
  · rw [hDatabase, hTree, show mid.database = deleteFile fileId host.database from hRows]
    exact (h.deleted hApart hVerified hOut).unlinked hApart env.links env.unlink staged

include h in
/-- A request that moves no file and removes or keeps rows, or changes what says nothing about files. -/
theorem Placed.of_rows (fileId : Nat) (hTree : after.tree = host.tree) (hRows : after.database = host.database ∨
    after.database = deleteFile fileId host.database ∨ ∃ file new, host.database.file? fileId = some file ∧
      SameFile file new ∧ new.status = file.status ∧ after.database = host.database.saveFile new) :
    Placed env.paths after.tree after.database.files := by
  rw [hTree]
  rcases hRows with hSame | hDeleted | ⟨file, new, hFile, hSame, hStatus, hSaved⟩
  · rw [hSame]
    exact h
  · rw [hDeleted]
    exact h.filter _
  · rw [hSaved]
    apply h.save (List.mem_of_find?_eq_some hFile) hSame
    intro area parts content hPlaced
    rw [hStatus]
    exact hPlaced.allowed

include hApart hAlone h hSafe in
/-- A bare change of a status goes where every area is allowed. -/
theorem Placed.request (fileId : Nat) {request : FileRequest}
    (hRequest : ∀ target, request = .transitionStatus target → ∀ area, areaAllowed target area = true) :
    Placed env.paths (request.perform env fileId host).2.tree (request.perform env fileId host).2.database.files := by
  have hAfter {α : Type} (x : HostProgram α) : ((fun _ => ()) <$> x : HostProgram Unit) host = ((x host).1.map fun _ => (), (x host).2) :=
    map_apply _ _ host
  cases request with
  | reviewStatus target =>
      rw [FileRequest.perform, hAfter]
      exact h.reviewStatus hAlone fileId target
  | publish =>
      rw [FileRequest.perform, hAfter]
      exact h.publish hApart hAlone hSafe fileId
  | disable =>
      rw [FileRequest.perform, hAfter]
      exact h.of_writes (transitionWithStorageCheck_tree env fileId .disabled host)
        (transitionWithStorageCheck_writes hAlone fileId .disabled host) fun area => by cases area <;> rfl
  | archive =>
      rw [FileRequest.perform, hAfter]
      exact h.of_writes (transitionWithStorageCheck_tree env fileId .archived host)
        (transitionWithStorageCheck_writes hAlone fileId .archived host) fun area => by cases area <;> rfl
  | restoreReady =>
      rw [FileRequest.perform, hAfter]
      exact h.restoreReady hApart hAlone hSafe fileId
  | verifyIntegrity =>
      rw [FileRequest.perform, hAfter]
      exact h.of_rows fileId (verifyIntegrity_tree env fileId host) (Or.inl ((verifyIntegrity_writes hAlone fileId host).elim id id))
  | transitionStatus target =>
      rw [FileRequest.perform, hAfter]
      exact h.of_writes (transaction_tree _ _ host) (transaction_writes (transitionMetadata_effect target) host)
        (hRequest target rfl)
  | setVisibility visibility =>
      rw [FileRequest.perform, hAfter]
      apply h.of_rows fileId (transaction_tree _ _ host)
      rcases setVisibility_writes visibility host with hSame | ⟨file, hFile, hSaved⟩
      · exact Or.inl hSame
      · exact Or.inr (Or.inr ⟨file, { file with visibility := visibility }, hFile, ⟨rfl, rfl, rfl, rfl⟩, rfl, hSaved⟩)
  | deleteMetadata =>
      rw [FileRequest.perform, hAfter]
      exact h.of_rows fileId (deleteMetadata_tree env fileId host) ((deleteMetadata_writes hAlone fileId host).imp_right Or.inl)
  | permanentlyDelete =>
      rw [FileRequest.perform, hAfter]
      exact h.permanentlyDelete hApart hAlone hSafe fileId

end Calls
end SoftwareHub.Reconciliation
