import SoftwareHub.Lifecycle.FileService

/-! A call that raises before its transaction has committed leaves no trace: a moved
file goes back to where it was, and no row is written. -/
namespace SoftwareHub.Lifecycle

open SoftwareHub.Python SoftwareHub.Tree SoftwareHub.Semantics SoftwareHub.Catalog Program
open SoftwareHub.Backup (Directory Leaf)
open SoftwareHub.Downloads (FileGraph)
open SoftwareHub.Storage (AllOrNothing MoveRequest MoveResult StorageArea TreeProgram atomicMove)

/-- Every file is where it was, and the rows are the rows before the call; if
other requests have changed them meanwhile, only these changes show. -/
def Untouched (env : ServiceEnvironment) (before after : Host) : Prop :=
  (after.database = before.database ∨ after.database = env.meanwhile before.database) ∧
    ∀ path, after.tree.file? path = before.tree.file? path

/-- A call that raises without a commit has changed nothing. -/
def Compensated {α : Type} (env : ServiceEnvironment) (before : Host) : Except PyException α × Host → Prop
  | (.ok _, _) => True
  | (.error _, after) => after.commits = before.commits → Untouched env before after

/-- The moves of a call for a stored file. -/
def ServiceEnvironment.moves (env : ServiceEnvironment) (stored : StoredFile) : List MoveRequest :=
  [FileService.areaMove env stored .quarantine .software, FileService.areaMove env stored .software .quarantine,
    ⟨env.paths.root stored.area, stored.relativePath, env.paths.temporary, stagedRelativePath env.uuid⟩]

/-- The compensating move of every move that the call can make succeeds. -/
def Compensates (env : ServiceEnvironment) (host : Host) : Prop :=
  ∀ file ∈ host.database.files, ∀ verifyHash stored,
    FileService.verifiedPhysicalFile env file verifyHash host.tree = .ok stored → ∀ move ∈ env.moves stored,
      ∀ result moved, atomicMove env.moving move host.tree = (.ok result, moved) →
        ∃ result after, atomicMove env.restoring move.reverse moved = (.ok result, after)

section Parts

variable {α : Type}

/-- Reading a row with its parents changes nothing, and finds the row of that id. -/
theorem getWithGraph_run (fault : Option PyException) (fileId : Nat) (database : Database) :
    ∃ outcome, getWithGraph fault fileId database = (outcome, database) ∧
      ∀ graph, outcome = .ok (some graph) → graph.file ∈ database.files ∧ graph.file.id = fileId := by
  cases fault with
  | some e => exact ⟨_, rfl, fun graph h => by cases h⟩
  | none =>
      rw [getWithGraph, guarded_none, read_bind]
      cases hFile : Database.file? fileId database with
      | none => exact ⟨_, rfl, fun graph h => by cases h⟩
      | some file =>
          have hMem : file ∈ database.files ∧ file.id = fileId := by
            refine ⟨List.mem_of_find?_eq_some hFile, ?_⟩
            simpa using List.find?_some hFile
          dsimp only
          rw [read_bind]
          cases hRelease : Database.release? file.releaseId database with
          | none => exact ⟨_, rfl, fun graph h => by cases h⟩
          | some release =>
              dsimp only
              rw [read_bind]
              cases hSoftware : Database.software? release.softwareId database with
              | none => exact ⟨_, rfl, fun graph h => by cases h⟩
              | some software =>
                  refine ⟨_, rfl, ?_⟩
                  intro graph hGraph
                  cases hGraph
                  exact hMem

theorem requireGraph_run (fault : Option PyException) (fileId : Nat) (database : Database) :
    ∃ outcome, requireGraph fault fileId database = (outcome, database) ∧
      ∀ graph, outcome = .ok graph → graph.file ∈ database.files ∧ graph.file.id = fileId := by
  obtain ⟨outcome, hRun, hFound⟩ := getWithGraph_run fault fileId database
  cases outcome with
  | error e => exact ⟨_, bind_error hRun _, fun graph h => by cases h⟩
  | ok found =>
      rw [requireGraph, bind_ok hRun]
      cases found with
      | none => exact ⟨_, rfl, fun graph h => by cases h⟩
      | some graph =>
          refine ⟨_, rfl, ?_⟩
          intro other hOther
          cases hOther
          exact hFound graph rfl

/-- An inspected file is the regular file that its path leads to. -/
structure Found (links : Storage.Links) (paths : StoragePaths) (tree : Directory) (relative : PyStr) (names : List PyStr)
    (content : Bytes) (stored : StoredFile) : Prop where
  accepted : Storage.rejectUnsafeRelativePath relative = .ok names
  relativePath : stored.relativePath = relative
  path : stored.path = Storage.realPathFrom links tree (Storage.realPathFrom links tree [] (paths.root stored.area)) names
  file : tree.file? stored.path = some (.file content)
  size : stored.sizeBytes = content.length

/-- What the inspection of an area finds is the regular file at that path. -/
theorem inspectArea_eq_some {links : Storage.Links} {paths : StoragePaths} {faults : InspectFaults} {relative : PyStr}
    {area : StorageArea} {tree : Directory} {stored : StoredFile}
    (h : inspectArea links paths faults relative area tree = .ok (some stored)) :
    stored.area = area ∧ ∃ names content, Found links paths tree relative names content stored := by
  obtain ⟨candidate, hCandidate, h⟩ := except_bind_eq_ok h
  split_ifs at h
  · obtain ⟨_, -, h⟩ := except_bind_eq_ok h
    obtain ⟨names, hNames, hPath⟩ := Storage.safeResolve_eq_ok hCandidate
    cases hNode : tree.node? candidate with
    | none =>
        rw [hNode] at h
        cases h
    | some entry =>
        rw [hNode] at h
        cases entry with
        | dir sub => cases h
        | leaf value =>
            cases value with
            | symlink target => cases h
            | special => cases h
            | file content =>
                cases h
                exact ⟨rfl, names, content, hNames, rfl, hPath, (Forest.file?_eq_some_iff _ _ _).mpr hNode, rfl⟩
  · cases h

/-- A located file lies in one of the two areas, at the path of its row. -/
theorem locateStoredFile_found {links : Storage.Links} {paths : StoragePaths} {faults : InspectFaults} {relativePath : PyStr}
    {tree : Directory} {stored : StoredFile} (h : locateStoredFile links paths faults relativePath tree = .ok stored) :
    ∃ names content, Found links paths tree (Storage.posixText relativePath) names content stored := by
  obtain ⟨all, hAll, h⟩ := except_bind_eq_ok h
  have hMem : stored ∈ all := by
    cases all with
    | nil => cases h
    | cons first rest =>
        cases rest with
        | nil =>
            cases h
            exact List.mem_singleton_self _
        | cons second rest => cases h
  obtain ⟨quarantine, hQuarantine, hAll⟩ := except_bind_eq_ok hAll
  obtain ⟨software, hSoftware, hAll⟩ := except_bind_eq_ok hAll
  cases hAll
  rcases List.mem_append.mp hMem with hMem | hMem
  · obtain rfl := Option.mem_toList.mp hMem
    exact (inspectArea_eq_some hQuarantine).2
  · obtain rfl := Option.mem_toList.mp hMem
    exact (inspectArea_eq_some hSoftware).2

/-- A verified file is the located one, with the size and the digest of its row. -/
theorem verifiedPhysicalFile_eq_ok {env : ServiceEnvironment} {file : ReleaseFile} {verifyHash : Bool}
    {tree : Directory} {stored : StoredFile}
    (h : FileService.verifiedPhysicalFile env file verifyHash tree = .ok stored) :
    locateStoredFile env.links env.paths env.inspect file.relativeStoragePath tree = .ok stored ∧
      stored.sizeBytes = file.fileSizeBytes ∧ (verifyHash = true →
        FileService.sha256File env.hashFault stored.path tree = .ok (file.sha256, file.fileSizeBytes)) := by
  obtain ⟨found, hFound, h⟩ := except_bind_eq_ok h
  obtain ⟨_, hSize, h⟩ := except_bind_eq_ok h
  rw [require_eq_ok_iff] at hSize
  by_cases hVerify : verifyHash = true
  · rw [if_pos hVerify] at h
    obtain ⟨measured, hMeasured, h⟩ := except_bind_eq_ok h
    obtain ⟨_, hEqual, h⟩ := except_bind_eq_ok h
    cases h
    rw [require_eq_ok_iff] at hEqual
    refine ⟨hFound, hSize, fun _ => ?_⟩
    rw [hMeasured, ← hEqual.1, ← hEqual.2]
  · rw [if_neg hVerify] at h
    cases h
    exact ⟨hFound, hSize, fun hTrue => absurd hTrue hVerify⟩

theorem get_spec {P : Host → Prop} (fault : Option PyException) (fileId : Nat) :
    Triple P (FileService.get fault fileId)
      (fun graph host => P host ∧ graph.file ∈ host.database.files ∧ graph.file.id = fileId) fun _ => P := by
  intro host hHost
  obtain ⟨outcome, hRun, hFound⟩ := requireGraph_run fault fileId host.database
  rw [FileService.get, onDatabase, hRun]
  cases outcome with
  | error e => exact hHost
  | ok graph => exact ⟨hHost, hFound graph rfl⟩

/-- The check of the physical file reads, too. -/
theorem physicalFile_spec {P : Host → Prop} (env : ServiceEnvironment) (graph : FileGraph) (verifyHash : Bool) :
    Triple P (FileService.physicalFile env graph verifyHash)
      (fun stored host => P host ∧ FileService.verifiedPhysicalFile env graph.file verifyHash host.tree = .ok stored)
      fun _ => P := by
  intro host hHost
  rw [FileService.physicalFile, read_bind, lift_apply]
  cases hStored : FileService.verifiedPhysicalFile env graph.file verifyHash host.tree with
  | error e => exact hHost
  | ok stored => exact ⟨hHost, hStored⟩

/-- A transaction commits, or it raises and nothing was written. -/
theorem transaction_run (commitFault : Option PyException) (body : CatalogProgram α) (host : Host) :
    (∃ a database, body host.database = (.ok a, database) ∧ commitFault = none ∧
      transaction commitFault body host = (.ok a, { host with database := database, commits := host.commits + 1 })) ∨
    ∃ e, transaction commitFault body host = (.error e, host) := by
  unfold transaction
  rcases hBody : body host.database with ⟨outcome, database⟩
  cases outcome with
  | error e =>
      rw [bind_error hBody]
      exact Or.inr ⟨e, rfl⟩
  | ok a =>
      rw [bind_ok hBody]
      cases commitFault with
      | some e => exact Or.inr ⟨e, rfl⟩
      | none => exact Or.inl ⟨a, database, rfl, rfl, rfl⟩

/-- Only a transaction that returns has committed. -/
theorem transaction_spec {P : Host → Prop} (commitFault : Option PyException) (body : CatalogProgram α) (commits : Nat)
    (hP : ∀ host, P host → host.commits = commits) :
    Triple P (transaction commitFault body) (fun _ host => host.commits = commits + 1) fun _ => P := by
  intro host hHost
  rcases transaction_run commitFault body host with ⟨a, database, -, -, hRun⟩ | ⟨e, hRun⟩
  · rw [hRun]
    exact congrArg (· + 1) (hP host hHost)
  · rw [hRun]
    exact hHost

/-- Two steps on the tree are one. -/
theorem onTree_bind {γ : Type} (x : TreeProgram α) (f : α → TreeProgram γ) :
    onTree (x >>= f) = (onTree x >>= fun a => onTree (f a)) := by
  funext host
  rw [bind_def, onTree, onTree, bind_def]
  rcases x host.tree with ⟨outcome, tree⟩
  cases outcome <;> rfl

/-- A step on the tree commits nothing. -/
theorem onTree_commits (x : TreeProgram α) (commits : Nat) :
    Triple (fun host => host.commits = commits) (onTree x) (fun _ host => host.commits = commits)
      fun _ host => host.commits = commits := by
  intro host hHost
  rw [onTree]
  rcases x host.tree with ⟨outcome, tree⟩
  cases outcome <;> exact hHost

/-- The handler always raises, and what holds before it holds after it. -/
theorem reraise_spec {P : Host → Prop} {Q : α → Host → Prop} (e : PyException) (message : String) :
    Triple P (FileService.reraise e message : HostProgram α) Q fun _ => P := by
  unfold FileService.reraise
  apply Triple.ite
  · exact fun _ => Triple.raise fun _ hHost => hHost
  · exact fun _ => Triple.raise fun _ hHost => hHost

end Parts

section Moves

variable {env : ServiceEnvironment} {host : Host}

theorem Untouched.refl (env : ServiceEnvironment) (host : Host) : Untouched env host host := ⟨Or.inl rfl, fun _ => rfl⟩

/-- The file has been moved out, and nothing was committed. -/
structure Away (env : ServiceEnvironment) (host : Host) (move : MoveRequest) (after : Host) : Prop where
  moved : ∃ result, atomicMove env.moving move host.tree = (.ok result, after.tree)
  database : after.database = host.database ∨ after.database = env.meanwhile host.database
  commits : after.commits = host.commits

/-- The move out of an area moves the file, or raises and leaves all files where
they were. -/
theorem moveOut_spec (move : MoveRequest)
    (hMove : AllOrNothing env.moving move host.tree (atomicMove env.moving move host.tree)) :
    Triple (· = host) (onTree (atomicMove env.moving move))
      (fun _ after => Away env host move after ∧ after.database = host.database) fun _ => Untouched env host := by
  rintro before rfl
  rw [onTree]
  rcases hRun : atomicMove env.moving move before.tree with ⟨outcome, tree⟩
  rw [hRun] at hMove
  cases outcome with
  | ok result => exact ⟨⟨⟨result, hRun⟩, Or.inl rfl, rfl⟩, rfl⟩
  | error e => exact ⟨Or.inl rfl, hMove.1⟩

/-- The requests of others change rows only, so that the file is still away. -/
theorem others_spec (move : MoveRequest) :
    Triple (fun after => Away env host move after ∧ after.database = host.database) (FileService.others env)
      (fun _ => Away env host move) fun _ _ => False := by
  apply Triple.write
  rintro after ⟨hAway, hDatabase⟩
  exact ⟨hAway.moved, Or.inr (congrArg env.meanwhile hDatabase), hAway.commits⟩

/-- Where the way back succeeds, nothing has happened. -/
theorem moveBack_spec (hTree : host.tree.WellFormed fun _ => True) (move : MoveRequest)
    (hBack : ∀ result moved, atomicMove env.moving move host.tree = (.ok result, moved) →
      ∃ result after, atomicMove env.restoring move.reverse moved = (.ok result, after)) :
    Triple (Away env host move) (onTree (atomicMove env.restoring move.reverse)) (fun _ => Untouched env host)
      fun _ _ => False := by
  intro away hAway
  obtain ⟨out, hOut⟩ := hAway.moved
  obtain ⟨result, after, hRun⟩ := hBack out away.tree hOut
  have hMoved := Storage.wellFormed_of_atomicMove env.moving hTree hOut
  rw [onTree, hRun]
  have hLinks : env.restoring.links = env.moving.links := rfl
  exact ⟨hAway.database, AllOrNothing.reverse hLinks (Storage.allOrNothing_of_ok hTree hOut)
    (Storage.allOrNothing_of_ok hMoved hRun)⟩

theorem restoreMoveAfterFailure_spec (hTree : host.tree.WellFormed fun _ => True) (stored : StoredFile)
    (source destination : StorageArea)
    (hBack : ∀ result moved, atomicMove env.moving (FileService.areaMove env stored destination source) host.tree =
      (.ok result, moved) → ∃ result after,
        atomicMove env.restoring (FileService.areaMove env stored destination source).reverse moved = (.ok result, after)) :
    Triple (Away env host (FileService.areaMove env stored destination source))
      (FileService.restoreMoveAfterFailure env stored source destination) (fun _ => Untouched env host)
      fun _ => Untouched env host := by
  unfold FileService.restoreMoveAfterFailure
  apply Triple.tryExcept (E := fun _ _ => False)
  · exact (moveBack_spec hTree _ hBack).bind fun _ => Triple.pure fun _ hHost => hHost
  · exact fun _ _ hFalse => hFalse.elim

theorem transaction_compensated {α : Type} (move : MoveRequest) (commitFault : Option PyException)
    (body : CatalogProgram α) (handler : PyException → HostProgram α)
    (hHandler : ∀ e, Triple (Away env host move) (handler e) (fun _ _ => False) fun _ => Untouched env host) :
    Triple (Away env host move) (tryExcept (transaction commitFault body) handler)
      (fun _ after => after.commits = host.commits + 1) fun _ => Untouched env host := by
  apply Triple.tryExcept (transaction_spec commitFault body host.commits fun _ hAway => hAway.commits)
  exact fun e => (hHandler e).mono (fun _ h => h) (fun _ _ hFalse => hFalse.elim) fun _ _ h => h

/-- A call from its move on: the requests of others, the transaction with its
compensation, and what follows the commit. -/
theorem fromMove_spec {α β γ : Type} {move : MoveRequest} {first : HostProgram γ} {V : γ → Prop}
    {commitFault : Option PyException} {body : γ → CatalogProgram α} {handler : γ → PyException → HostProgram α}
    {rest : γ → α → HostProgram β}
    (hFirst : Triple (· = host) first (fun c after => V c ∧ Away env host move after ∧ after.database = host.database)
      fun _ => Untouched env host)
    (hHandler : ∀ c, V c → ∀ e, Triple (Away env host move) (handler c e) (fun _ _ => False) fun _ => Untouched env host)
    (hRest : ∀ c a, Triple (fun after => after.commits = host.commits + 1) (rest c a) (fun _ _ => True)
      fun _ after => after.commits = host.commits + 1) :
    Triple (· = host)
      (first >>= fun c => FileService.others env >>= fun _ =>
        tryExcept (transaction commitFault (body c)) (handler c) >>= rest c)
      (fun _ _ => True) fun _ after => after.commits = host.commits → Untouched env host after := by
  refine Triple.bind (hFirst.mono (fun _ h => h) (fun _ _ h => h) ?_) ?_
  · exact fun _ _ h _ => h
  · rintro c before ⟨hValue, hBefore⟩
    refine Triple.bind ((others_spec move).mono (fun _ h => h) (fun _ _ h => h) ?_) ?_ before hBefore
    · exact fun _ _ hFalse => hFalse.elim
    · intro _
      refine Triple.bind ((transaction_compensated move commitFault (body c) (handler c) (hHandler c hValue)).mono
        (fun _ h => h) (fun _ _ h => h) ?_) ?_
      · exact fun _ _ h _ => h
      · intro a
        refine (hRest c a).mono (fun _ h => h) (fun _ _ h => h) ?_
        intro _ after hAfter hCommits
        omega

end Moves

section Calls

variable {env : ServiceEnvironment} {host : Host} (fileId : Nat)

/-- Before its first move a call only reads. -/
theorem read_bind_spec {α β : Type} {x : HostProgram α} {f : α → HostProgram β} {V : α → Prop}
    (hx : Triple (· = host) x (fun a after => V a ∧ after = host) fun _ after => after = host)
    (hf : ∀ a, V a → Triple (· = host) (f a) (fun _ _ => True)
      fun _ after => after.commits = host.commits → Untouched env host after) :
    Triple (· = host) (x >>= f) (fun _ _ => True)
      fun _ after => after.commits = host.commits → Untouched env host after := by
  apply Triple.bind (hx.mono (fun _ h => h) (fun _ _ h => h) ?_)
  · rintro a after ⟨hValue, rfl⟩
    exact hf a hValue after rfl
  · rintro _ after rfl _
    exact Untouched.refl env after

/-- The first read of a call changes nothing and finds a row of the database. -/
theorem get_read (fault : Option PyException) : Triple (· = host) (FileService.get fault fileId)
    (fun graph after => graph.file ∈ host.database.files ∧ after = host) fun _ after => after = host := by
  refine (get_spec fault fileId).mono (fun _ h => h) ?_ fun _ _ h => h
  rintro graph after ⟨rfl, hFile, -⟩
  exact ⟨hFile, rfl⟩

/-- A check of what has been read changes nothing. -/
theorem lift_read {α : Type} (x : Except PyException α) :
    Triple (· = host) (lift x) (fun a after => x = .ok a ∧ after = host) fun _ after => after = host :=
  Triple.lift (fun _ hx _ h => ⟨hx, h⟩) fun _ _ _ h => h

/-- The check of the physical file changes nothing. -/
theorem physicalFile_read (graph : FileGraph) (verifyHash : Bool) :
    Triple (· = host) (FileService.physicalFile env graph verifyHash)
      (fun stored after =>
        FileService.verifiedPhysicalFile env graph.file verifyHash host.tree = .ok stored ∧ after = host)
      fun _ after => after = host := by
  refine (physicalFile_spec env graph verifyHash).mono (fun _ h => h) ?_ fun _ _ h => h
  rintro stored after ⟨rfl, hStored⟩
  exact ⟨hStored, rfl⟩

/-- The last read comes after the commit; it can only raise. -/
theorem reload_spec (fault : Option PyException) (commits : Nat) :
    Triple (fun after => after.commits = commits) (FileService.get fault fileId) (fun _ _ => True)
      fun _ after => after.commits = commits :=
  (get_spec fault fileId).mono (fun _ h => h) (fun _ _ _ => trivial) fun _ _ h => h

theorem moveOut_value (move : MoveRequest)
    (hMove : AllOrNothing env.moving move host.tree (atomicMove env.moving move host.tree)) :
    Triple (· = host) (onTree (atomicMove env.moving move))
      (fun _ after => True ∧ Away env host move after ∧ after.database = host.database) fun _ => Untouched env host :=
  (moveOut_spec move hMove).mono (fun _ h => h) (fun _ _ h => ⟨trivial, h⟩) fun _ _ h => h

variable (hTree : host.tree.WellFormed fun _ => True)
  (hMove : ∀ move, AllOrNothing env.moving move host.tree (atomicMove env.moving move host.tree))
  (hBack : Compensates env host)
include hTree hMove hBack

/-- Publication: the file goes from the quarantine to the software area, and back on
a failure. -/
theorem publish_compensated : Triple (· = host) (FileService.publish env fileId) (fun _ _ => True)
    fun _ after => after.commits = host.commits → Untouched env host after := by
  unfold FileService.publish
  apply read_bind_spec (get_read fileId _)
  intro graph hFile
  apply read_bind_spec (lift_read _)
  intro _ _
  apply read_bind_spec (physicalFile_read graph true)
  intro stored hStored
  apply read_bind_spec (lift_read _)
  intro _ _
  have hReturn := hBack graph.file hFile true stored hStored
    (FileService.areaMove env stored .quarantine .software) (List.mem_cons_self ..)
  apply fromMove_spec (moveOut_value _ (hMove _)) _ fun _ _ => reload_spec fileId _ _
  intro _ _ e
  exact (restoreMoveAfterFailure_spec hTree stored .software .quarantine hReturn).bind fun _ => reraise_spec e _

/-- The return to the ready status: from the software area the file moves, in the
quarantine only the row changes. -/
theorem restoreReady_compensated : Triple (· = host) (FileService.restoreReady env fileId) (fun _ _ => True)
    fun _ after => after.commits = host.commits → Untouched env host after := by
  unfold FileService.restoreReady
  apply read_bind_spec (get_read fileId _)
  intro graph hFile
  apply read_bind_spec (physicalFile_read graph false)
  intro stored hStored
  apply Triple.ite
  · intro _
    have hReturn := hBack graph.file hFile false stored hStored
      (FileService.areaMove env stored .software .quarantine) (List.mem_cons_of_mem _ (List.mem_cons_self ..))
    apply fromMove_spec (moveOut_value _ (hMove _)) _ fun _ _ => reload_spec fileId _ _
    intro _ _ e
    exact (restoreMoveAfterFailure_spec hTree stored .quarantine .software hReturn).bind fun _ => reraise_spec e _
  · intro _ before hBefore
    have hQuiet : Triple (· = host) (FileService.others env) (fun _ after => after.commits = host.commits ∧
        Untouched env host after) fun _ after => after.commits = host.commits → Untouched env host after := by
      apply Triple.write
      rintro _ rfl
      exact ⟨rfl, Or.inr rfl, fun _ => rfl⟩
    refine hQuiet.bind (fun _ => ?_) before hBefore
    refine Triple.bind (Triple.tryExcept (E := fun _ after => Untouched env host after)
      ((transaction_spec env.commitFault _ host.commits fun _ h => h.1).mono (fun _ h => h) (fun _ _ h => h)
        fun _ _ h => h.2) ?_) ?_ (Q := fun _ after => after.commits = host.commits + 1)
    · intro e
      exact (reraise_spec e _).mono (fun _ h => h) (fun _ _ h => h) fun _ _ h _ => h
    · intro _
      refine (reload_spec fileId _ _).mono (fun _ h => h) (fun _ _ h => h) ?_
      intro _ after hAfter hCommits
      omega

omit hMove in
theorem restoreStaged_spec {file : ReleaseFile} (hFile : file ∈ host.database.files) {verifyHash : Bool}
    {stored : StoredFile} (hStored : FileService.verifiedPhysicalFile env file verifyHash host.tree = .ok stored)
    {staged : StagedDeletion}
    (hStaged : staged.original = stored ∧ staged.stagedRelativePath = stagedRelativePath env.uuid) :
    Triple (Away env host
        ⟨env.paths.root stored.area, stored.relativePath, env.paths.temporary, stagedRelativePath env.uuid⟩)
      (onTree (restoreStagedDeletion env.restoring env.paths env.relocate staged)) (fun _ => Untouched env host)
      fun _ => Untouched env host := by
  obtain ⟨rfl, hPath⟩ := hStaged
  have hReturn := hBack file hFile verifyHash staged.original hStored
    ⟨env.paths.root staged.original.area, staged.original.relativePath, env.paths.temporary,
      stagedRelativePath env.uuid⟩ (by simp [ServiceEnvironment.moves])
  rw [restoreStagedDeletion, hPath, onTree_bind]
  refine Triple.bind ((moveBack_spec hTree _ hReturn).mono (fun _ h => h) (fun _ _ h => h) ?_) ?_
  · exact fun _ _ hFalse => hFalse.elim
  · intro _ after hAfter
    rw [onTree, read_bind, lift_apply]
    cases locateStoredFile env.restoring.links env.paths env.relocate staged.original.relativePath (id after.tree) with
    | error e => exact hAfter
    | ok found => exact hAfter

/-- Permanent deletion: the file is staged below the temporary root, and comes back
on a failure. -/
theorem permanentlyDelete_compensated : Triple (· = host) (FileService.permanentlyDelete env fileId) (fun _ _ => True)
    fun _ after => after.commits = host.commits → Untouched env host after := by
  unfold FileService.permanentlyDelete
  apply read_bind_spec (get_read fileId _)
  intro graph hFile
  apply read_bind_spec (lift_read _)
  intro _ _
  apply read_bind_spec (physicalFile_read graph false)
  intro stored hStored
  apply fromMove_spec (V := fun staged => staged.original = stored ∧
    staged.stagedRelativePath = stagedRelativePath env.uuid)
  · rw [stageForPermanentDeletion, onTree_bind]
    refine Triple.bind (moveOut_spec _ (hMove _)) ?_
    exact fun _ _ hAway => ⟨⟨rfl, rfl⟩, hAway⟩
  · intro staged hStaged e
    refine Triple.bind (Q := fun _ => Untouched env host) ?_ fun _ => reraise_spec e _
    refine Triple.tryExcept (E := fun _ => Untouched env host) ?_ ?_
    · exact (restoreStaged_spec hTree hBack hFile hStored hStaged).bind fun _ => Triple.pure fun _ h => h
    · intro restoreError
      split
      · exact Triple.raise fun _ h => h
      · exact Triple.raise fun _ h => h
  · intro staged releaseId
    refine Triple.bind (Q := fun _ after => after.commits = host.commits + 1) ?_ fun _ => Triple.pure fun _ _ => trivial
    refine Triple.tryExcept (E := fun _ after => after.commits = host.commits + 1) (onTree_commits _ _) ?_
    intro e
    split
    · exact Triple.raise fun _ h => h
    · exact Triple.raise fun _ h => h

end Calls

/-- Publication, restoration and permanent deletion: a call that raises before
its transaction has committed leaves all rows and all files as they were. -/
theorem failed_calls_untouched (env : ServiceEnvironment) (host : Host) (fileId : Nat)
    (hTree : host.tree.WellFormed fun _ => True)
    (hMove : ∀ move, AllOrNothing env.moving move host.tree (atomicMove env.moving move host.tree))
    (hBack : Compensates env host) :
    Compensated env host (FileService.publish env fileId host) ∧
      Compensated env host (FileService.restoreReady env fileId host) ∧
      Compensated env host (FileService.permanentlyDelete env fileId host) := by
  have hCompensated : ∀ {α : Type} {x : HostProgram α}, Triple (· = host) x (fun _ _ => True)
      (fun _ after => after.commits = host.commits → Untouched env host after) → Compensated env host (x host) := by
    intro α x hx
    have hRun := hx host rfl
    rcases hOutcome : x host with ⟨outcome, after⟩
    rw [hOutcome] at hRun
    cases outcome with
    | ok a => trivial
    | error e => exact hRun
  exact ⟨hCompensated (publish_compensated fileId hTree hMove hBack),
    hCompensated (restoreReady_compensated fileId hTree hMove hBack),
    hCompensated (permanentlyDelete_compensated fileId hTree hMove hBack)⟩

/-- A ready file of two bytes. -/
def sampleFile : ReleaseFile where
  id := 1
  publicUuid := 7
  releaseId := 1
  originalFilename := py "setup.zip"
  displayFilename := py "setup.zip"
  storageFilename := py "setup"
  relativeStoragePath := py "ab/setup"
  fileExtension := py ".zip"
  detectedMimeType := py "application/zip"
  fileSizeBytes := 2
  sha256 := Sha256.hexdigest [1, 2]
  architecture := .x64
  packageType := .archive
  platform := py "any"
  edition := none
  downloadCount := 0
  status := .ready
  visibility := .isPublic
  publishedAt := none
  disabledAt := none
  sourceUrl := none
  signatureStatus := .notChecked
  scannerStatus := .clean
  scannerDetails := none
  adminNote := none

def sampleDatabase : Database where
  software := [⟨1, .published, .isPublic, none, none⟩]
  releases := [⟨1, 1, py "1.0", .stable, none, none, false, .published, none⟩]
  files := [sampleFile]
  downloadStats := []

/-- The row, and its file in the quarantine. -/
def sampleHost : Host where
  database := sampleDatabase
  tree := .dir (py "quarantine") (.dir (py "ab") (.leaf (py "setup") (.file [1, 2]) .nil) .nil)
    (.dir (py "software") .nil (.dir (py "temporary") .nil .nil))
  commits := 0

/-- Every call succeeds, except the commit. -/
def sampleEnvironment : ServiceEnvironment where
  paths := ⟨[py "quarantine"], [py "software"], [py "temporary"]⟩
  links := id
  device _ := 0
  unicode := Unicode.ascii
  now := ⟨0, Instant.instantCount_pos⟩
  uuid := 5
  meanwhile := id
  getFault := none
  inspect := .never
  hashFault := none
  move _ := none
  loadFault := none
  auditFault := none
  flushFault := none
  commitFault := some .databaseError
  restore _ := none
  relocate := .never
  unlink _ := none
  reloadFault := none

theorem failed_calls_untouched_sample :
    Compensated sampleEnvironment sampleHost (FileService.publish sampleEnvironment 1 sampleHost) ∧
      Compensated sampleEnvironment sampleHost (FileService.restoreReady sampleEnvironment 1 sampleHost) ∧
      Compensated sampleEnvironment sampleHost (FileService.permanentlyDelete sampleEnvironment 1 sampleHost) := by
  have hTree : sampleHost.tree.WellFormed fun _ => True := by decide +kernel
  apply failed_calls_untouched sampleEnvironment sampleHost 1 hTree
  · intro move
    exact Storage.allOrNothing_of_synchronizes ⟨rfl, rfl, rfl⟩ move hTree
  · intro file hFile verifyHash stored hStored
    obtain rfl : file = sampleFile := List.mem_singleton.mp hFile
    obtain ⟨hLocated, -, -⟩ := verifiedPhysicalFile_eq_ok hStored
    have hSample : locateStoredFile id sampleEnvironment.paths .never (py "ab/setup") sampleHost.tree =
        .ok ⟨.quarantine, py "ab/setup", [py "quarantine", py "ab", py "setup"], 2⟩ := by
      decide +kernel
    obtain rfl := Except.ok.inj (hSample.symm.trans hLocated)
    have hBack : ∀ move ∈ sampleEnvironment.moves
        ⟨.quarantine, py "ab/setup", [py "quarantine", py "ab", py "setup"], 2⟩,
        (atomicMove sampleEnvironment.moving move sampleHost.tree).1.isOk →
          (atomicMove sampleEnvironment.restoring move.reverse
            (atomicMove sampleEnvironment.moving move sampleHost.tree).2).1.isOk = true := by
      decide +kernel
    intro move hMove result moved hRun
    have hReturn := hBack move hMove (by rw [hRun]; rfl)
    rw [hRun] at hReturn
    rcases hAfter : atomicMove sampleEnvironment.restoring move.reverse moved with ⟨outcome, after⟩
    rw [hAfter] at hReturn
    cases outcome with
    | error e => cases hReturn
    | ok back => exact ⟨back, after, rfl⟩

end SoftwareHub.Lifecycle
