import SoftwareHub.Lifecycle.TreeEffects

/-! What the three calls that move a file leave behind: the state they found, a move
that was taken back, or a move with its committed change. -/
namespace SoftwareHub.Lifecycle

open SoftwareHub.Python SoftwareHub.Tree SoftwareHub.Semantics SoftwareHub.Catalog Program
open SoftwareHub.Backup (Directory)
open SoftwareHub.Downloads (FileGraph)
open SoftwareHub.Storage (MoveRequest MoveResult StorageArea TreeProgram atomicMove)

/-- A move that was refused, or was made and then the move back. -/
def TakenBack (env : ServiceEnvironment) (move : MoveRequest) (before after : Directory) : Prop :=
  (∃ e, atomicMove env.moving move before = (.error e, after)) ∨
    ∃ result mid, atomicMove env.moving move before = (.ok result, mid) ∧
      after = (atomicMove env.restoring move.reverse mid).2

/-- A move with a change of the rows. -/
structure MovedWith (env : ServiceEnvironment) (move : MoveRequest) (B : Database → Database → Prop) (host after : Host) :
    Prop where
  moved : ∃ result, atomicMove env.moving move host.tree = (.ok result, after.tree)
  database : B host.database after.database

/-- A move that was taken back, and no change of the rows. -/
def Undone (env : ServiceEnvironment) (move : MoveRequest) (host after : Host) : Prop :=
  after.database = host.database ∧ TakenBack env move host.tree after.tree

/-- A move with its change, or a move that was taken back without one. -/
def Settled (env : ServiceEnvironment) (move : MoveRequest) (B : Database → Database → Prop) (host after : Host) : Prop :=
  MovedWith env move B host after ∨ Undone env move host after

/-- The physical file of a row, as a request finds it. -/
structure Verified (env : ServiceEnvironment) (host : Host) (fileId : Nat) (verifyHash : Bool) (graph : FileGraph)
    (stored : StoredFile) : Prop where
  row : HasGraph host.database fileId graph
  stored : FileService.verifiedPhysicalFile env graph.file verifyHash host.tree = .ok stored

section Parts

variable {env : ServiceEnvironment} {host : Host}

/-- The first read finds the row with its parents, and changes nothing. -/
theorem get_run (fault : Option PyException) (fileId : Nat) :
    Triple (· = host) (FileService.get fault fileId)
      (fun graph after => HasGraph host.database fileId graph ∧ after = host) fun _ after => after = host := by
  rintro before rfl
  rw [FileService.get, onDatabase]
  rcases hRun : requireGraph fault fileId before.database with ⟨outcome, database⟩
  have hSame : database = before.database := by
    obtain ⟨found, hFound, -⟩ := requireGraph_run fault fileId before.database
    exact congrArg Prod.snd (hRun.symm.trans hFound)
  rw [hSame]
  cases outcome with
  | error e => rfl
  | ok graph => exact ⟨(requireGraph_eq_ok hRun).1, rfl⟩

/-- Where the file of a move is while nothing is committed. -/
abbrev InFlight (env : ServiceEnvironment) (move : MoveRequest) (host : Host) (after : Host) : Prop :=
  MovedWith env move (fun before now => now = before) host after

/-- The move out: the file is in flight, or it is where it was. -/
theorem moveOut_run (move : MoveRequest) :
    Triple (· = host) (onTree (atomicMove env.moving move)) (fun _ => InFlight env move host)
      fun _ => Undone env move host := by
  rintro before rfl
  rw [onTree]
  rcases hRun : atomicMove env.moving move before.tree with ⟨outcome, tree⟩
  cases outcome with
  | ok result => exact ⟨⟨result, hRun⟩, rfl⟩
  | error e => exact ⟨rfl, Or.inl ⟨e, hRun⟩⟩

/-- A call that is alone meets no other requests. -/
theorem others_run (hAlone : env.meanwhile = id) {P : Host → Prop} {E : PyException → Host → Prop} :
    Triple P (FileService.others env) (fun _ => P) E := by
  apply Triple.write
  intro after hAfter
  rw [hAlone]
  exact hAfter

/-- A handler whose effect on the tree is the way back. -/
def TakesBack (env : ServiceEnvironment) (move : MoveRequest) (handler : HostProgram Unit) : Prop :=
  ∀ host, (handler host).2 = { host with tree := (atomicMove env.restoring move.reverse host.tree).2 }

/-- The compensation between the areas is a way back. -/
theorem restoreMoveAfterFailure_takesBack (stored : StoredFile) (source destination : StorageArea) :
    TakesBack env (FileService.areaMove env stored destination source)
      (FileService.restoreMoveAfterFailure env stored source destination) := by
  intro after
  unfold FileService.restoreMoveAfterFailure
  change _ = { after with
    tree := (atomicMove env.restoring (FileService.areaMove env stored source destination) after.tree).2 }
  rcases hRun : atomicMove env.restoring (FileService.areaMove env stored source destination) after.tree with ⟨outcome, tree⟩
  have hMove : onTree (atomicMove env.restoring (FileService.areaMove env stored source destination)) after =
      (outcome, { after with tree := tree }) := by
    rw [onTree, hRun]
  cases outcome with
  | ok result => rw [tryExcept_ok (bind_ok hMove _)]
  | error e =>
      rw [tryExcept_error (bind_error hMove _)]
      split <;> rfl

theorem commitOrTakeBack_run {α : Type} {move : MoveRequest} {B : Database → Database → Prop}
    {commitFault : Option PyException} {body : CatalogProgram α} {back : PyException → HostProgram Unit} {message : String}
    (hBody : ∀ database a after, body database = (.ok a, after) → B database after)
    (hBack : ∀ e, TakesBack env move (back e)) :
    Triple (InFlight env move host)
      (tryExcept (transaction commitFault body) fun e => back e >>= fun _ => FileService.reraise e message)
      (fun _ => MovedWith env move B host) fun _ => Undone env move host := by
  rintro away ⟨⟨result, hMoved⟩, hDatabase⟩
  rcases transaction_run commitFault body away with ⟨a, database, hRun, -, hCommitted⟩ | ⟨e, hRaised⟩
  · rw [tryExcept_ok hCommitted]
    refine ⟨⟨result, hMoved⟩, ?_⟩
    rw [← hDatabase]
    exact hBody _ _ _ hRun
  · rw [tryExcept_error hRaised]
    have hState := hBack e away
    have hUndone : Undone env move host (back e away).2 := by
      rw [hState]
      exact ⟨hDatabase, Or.inr ⟨result, away.tree, hMoved, rfl⟩⟩
    rcases hRun : back e away with ⟨outcome, after⟩
    rw [hRun] at hUndone
    cases outcome with
    | error other =>
        rw [bind_error hRun]
        exact hUndone
    | ok _ =>
        rw [bind_ok hRun]
        exact reraise_spec e message after hUndone

end Parts

section Calls

variable {env : ServiceEnvironment} {host : Host} (fileId : Nat)

/-- What a call reads before it moves anything. -/
theorem reads_bind {α β : Type} {x : HostProgram α} {f : α → HostProgram β} {V : α → Prop} {Q : β → Host → Prop}
    {E : Host → Prop} (hx : Triple (· = host) x (fun a after => V a ∧ after = host) fun _ after => after = host)
    (hf : ∀ a, V a → Triple (· = host) (f a) Q fun _ after => after = host ∨ E after) :
    Triple (· = host) (x >>= f) Q fun _ after => after = host ∨ E after := by
  apply (hx.mono (fun _ h => h) (fun _ _ h => h) fun _ _ h => Or.inl h).bind
  rintro a after ⟨hValue, rfl⟩
  exact hf a hValue after rfl

/-- From the move on: the requests of others, the transaction, and what follows it. -/
theorem moves_bind {α β γ : Type} {move : MoveRequest} {B : Database → Database → Prop} {first : HostProgram γ}
    {V : γ → Prop} {commitFault : Option PyException} {body : CatalogProgram α}
    {back : γ → PyException → HostProgram Unit} {message : String} {rest : γ → α → HostProgram β} {Q : β → Host → Prop}
    {E : Host → Prop} (hAlone : env.meanwhile = id)
    (hFirst : Triple (· = host) first (fun c after => V c ∧ InFlight env move host after) fun _ => Undone env move host)
    (hBody : ∀ database a after, body database = (.ok a, after) → B database after)
    (hBack : ∀ c, V c → ∀ e, TakesBack env move (back c e))
    (hRest : ∀ c, V c → ∀ a, Triple (MovedWith env move B host) (rest c a) Q fun _ => E)
    (hUndone : ∀ after, Undone env move host after → E after) :
    Triple (· = host)
      (first >>= fun c => FileService.others env >>= fun _ =>
        tryExcept (transaction commitFault body) (fun e => back c e >>= fun _ => FileService.reraise e message) >>= rest c)
      Q fun _ => E := by
  apply (hFirst.mono (fun _ h => h) (fun _ _ h => h) fun _ after h => hUndone after h).bind
  rintro c before ⟨hValue, hBefore⟩
  refine Triple.bind (others_run hAlone) (fun _ => ?_) before hBefore
  apply ((commitOrTakeBack_run hBody (hBack c hValue)).mono (fun _ h => h) (fun _ _ h => h) fun _ after h =>
    hUndone after h).bind
  exact hRest c hValue

theorem reload_run (fault : Option PyException) {P : Host → Prop} :
    Triple P (FileService.get fault fileId) (fun _ => P) fun _ => P := by
  apply (get_spec fault fileId).mono (fun _ h => h) _ fun _ _ h => h
  exact fun _ _ h => h.1

theorem moveOut_value_run (move : MoveRequest) :
    Triple (· = host) (onTree (atomicMove env.moving move)) (fun _ after => True ∧ InFlight env move host after)
      fun _ => Undone env move host :=
  (moveOut_run move).mono (fun _ h => h) (fun _ _ h => ⟨trivial, h⟩) fun _ _ h => h

/-- A move between the areas, with its transaction. -/
theorem areaMove_run (hAlone : env.meanwhile = id) (stored : StoredFile) (source destination : StorageArea)
    {commitFault : Option PyException} {α : Type} {body : CatalogProgram α} {B : Database → Database → Prop}
    (hBody : ∀ database a after, body database = (.ok a, after) → B database after) (message : String) :
    Triple (· = host)
      (onTree (atomicMove env.moving (FileService.areaMove env stored source destination)) >>= fun _ =>
        FileService.others env >>= fun _ =>
          tryExcept (transaction commitFault body) (fun e =>
            FileService.restoreMoveAfterFailure env stored destination source >>= fun _ =>
              FileService.reraise e message) >>= fun _ => FileService.get env.reloadFault fileId)
      (fun _ => MovedWith env (FileService.areaMove env stored source destination) B host)
      fun _ => Settled env (FileService.areaMove env stored source destination) B host := by
  apply moves_bind hAlone (moveOut_value_run _) hBody
  · exact fun _ _ _ => restoreMoveAfterFailure_takesBack stored destination source
  · intro _ _ _
    apply (reload_run fileId _).mono (fun _ h => h) (fun _ _ h => h)
    exact fun _ _ h => Or.inl h
  · exact fun _ h => Or.inr h

/-- A publication that returns has verified the file, moved it and published its
row; one that raises has left the state or taken the move back. -/
theorem publish_run (hAlone : env.meanwhile = id) : Triple (· = host) (FileService.publish env fileId)
    (fun _ after => ∃ graph stored, Verified env host fileId true graph stored ∧ stored.area = .quarantine ∧
      MovedWith env (FileService.areaMove env stored .quarantine .software) (FileRequest.publish.Effect env fileId) host after)
    fun _ after => after = host ∨ ∃ graph stored, Verified env host fileId true graph stored ∧ stored.area = .quarantine ∧
      Settled env (FileService.areaMove env stored .quarantine .software) (FileRequest.publish.Effect env fileId) host after := by
  unfold FileService.publish
  apply reads_bind (get_run _ fileId)
  intro graph hGraph
  apply reads_bind (lift_read _)
  intro _ _
  apply reads_bind (physicalFile_read graph true)
  intro stored hStored
  apply reads_bind (lift_read _)
  intro _ hArea
  have hVerified : Verified env host fileId true graph stored := ⟨hGraph, hStored⟩
  apply (areaMove_run fileId hAlone stored .quarantine .software (publishMetadata_effect stored) _).mono (fun _ h => h)
  · exact fun _ after h => ⟨graph, stored, hVerified, require_eq_ok_iff.mp hArea, h⟩
  · exact fun _ after h => Or.inr ⟨graph, stored, hVerified, require_eq_ok_iff.mp hArea, h⟩

/-- What bringing a file back does: from the software area the file moves,
in the quarantine only the row changes. -/
def Restored (env : ServiceEnvironment) (fileId : Nat) (host after : Host) : Prop :=
  ∃ graph stored, Verified env host fileId false graph stored ∧
    (stored.area = .software ∧
      Settled env (FileService.areaMove env stored .software .quarantine) (FileRequest.restoreReady.Effect env fileId) host
        after ∨
    stored.area = .quarantine ∧ after.tree = host.tree ∧
      (after.database = host.database ∨ FileRequest.restoreReady.Effect env fileId host.database after.database))

/-- A return to the ready status, whether it returns or raises. -/
theorem restoreReady_run (hAlone : env.meanwhile = id) : Triple (· = host) (FileService.restoreReady env fileId)
    (fun _ after => after = host ∨ Restored env fileId host after)
    fun _ after => after = host ∨ Restored env fileId host after := by
  unfold FileService.restoreReady
  apply reads_bind (get_run _ fileId)
  intro graph hGraph
  apply reads_bind (physicalFile_read graph false)
  intro stored hStored
  have hVerified : Verified env host fileId false graph stored := ⟨hGraph, hStored⟩
  apply Triple.ite
  · intro hArea
    apply (areaMove_run fileId hAlone stored .software .quarantine (transitionMetadata_effect .ready) _).mono (fun _ h => h)
    · exact fun _ after h => Or.inr ⟨graph, stored, hVerified, Or.inl ⟨hArea, Or.inl h⟩⟩
    · exact fun _ after h => Or.inr ⟨graph, stored, hVerified, Or.inl ⟨hArea, h⟩⟩
  · intro hArea
    have hQuarantine : stored.area = .quarantine := by
      cases hPlace : stored.area with
      | quarantine => rfl
      | software => exact (hArea hPlace).elim
    have hWrites : Writes Host.database (FileRequest.restoreReady.Effect env fileId)
        (FileService.others env >>= fun _ => tryExcept (transaction env.commitFault
          (FileService.transitionMetadata env fileId .ready)) (fun e =>
            FileService.reraise e "File restore metadata could not be saved.") >>= fun _ =>
              FileService.get env.reloadFault fileId) := by
      apply (others_silent hAlone).bind_writes
      intro _
      refine Writes.bind_silent ?_ fun _ => get_silent _ _
      exact (transaction_writes (transitionMetadata_effect _)).tryExcept fun e => reraise_silent _ _
    have hTree : Silent Host.tree (FileService.others env >>= fun _ => tryExcept (transaction env.commitFault
        (FileService.transitionMetadata env fileId .ready)) (fun e =>
          FileService.reraise e "File restore metadata could not be saved.") >>= fun _ =>
            FileService.get env.reloadFault fileId) := by
      apply others_tree.bind
      intro _
      refine Silent.bind ?_ fun _ => get_tree _ _
      exact (transaction_tree _ _).tryExcept fun e => reraise_tree _ _
    rintro before rfl
    have hRestored : ∀ outcome after, (FileService.others env >>= fun _ => tryExcept (transaction env.commitFault
        (FileService.transitionMetadata env fileId .ready)) (fun e =>
          FileService.reraise e "File restore metadata could not be saved.") >>= fun _ =>
            FileService.get env.reloadFault fileId) before = (outcome, after) → Restored env fileId before after := by
      intro outcome after hRun
      have hDatabase := hWrites before
      have hSame := hTree before
      rw [hRun] at hDatabase hSame
      exact ⟨graph, stored, hVerified, Or.inr ⟨hQuarantine, hSame, hDatabase⟩⟩
    rcases hRun : (FileService.others env >>= fun _ => tryExcept (transaction env.commitFault
        (FileService.transitionMetadata env fileId .ready)) (fun e =>
          FileService.reraise e "File restore metadata could not be saved.") >>= fun _ =>
            FileService.get env.reloadFault fileId) before with ⟨outcome, after⟩
    cases outcome with
    | ok a => exact Or.inr (hRestored _ _ hRun)
    | error e => exact Or.inr (hRestored _ _ hRun)

/-- The move of a permanent deletion, to the staged path. -/
def deletionMove (env : ServiceEnvironment) (stored : StoredFile) : MoveRequest :=
  ⟨env.paths.root stored.area, stored.relativePath, env.paths.temporary, stagedRelativePath env.uuid⟩

/-- What a deletion does: nothing for good, or the row is gone and the staged file is removed or left. -/
def Deleted (env : ServiceEnvironment) (fileId : Nat) (host after : Host) : Prop :=
  ∃ graph stored, Verified env host fileId false graph stored ∧
    (Undone env (deletionMove env stored) host after ∨
      ∃ staged mid, MovedWith env (deletionMove env stored) (FileRequest.permanentlyDelete.Effect env fileId) host mid ∧
        staged.stagedRelativePath = stagedRelativePath env.uuid ∧ after.database = mid.database ∧
        after.tree = (unlinkStagedDeletion env.links env.unlink env.paths staged mid.tree).2)

/-- Staging is that move. -/
theorem stage_run (stored : StoredFile) :
    Triple (· = host) (onTree (stageForPermanentDeletion env.moving env.paths env.uuid stored))
      (fun staged after => (staged.original = stored ∧ staged.stagedRelativePath = stagedRelativePath env.uuid) ∧
        InFlight env (deletionMove env stored) host after)
      fun _ => Undone env (deletionMove env stored) host := by
  unfold stageForPermanentDeletion
  rw [onTree_bind]
  apply (moveOut_run (deletionMove env stored)).bind
  exact fun result after hAfter => ⟨⟨rfl, rfl⟩, hAfter⟩

/-- So is the compensation of a deletion a way back. -/
theorem restoreStaged_takesBack {stored : StoredFile} {staged : StagedDeletion}
    (hStaged : staged.original = stored ∧ staged.stagedRelativePath = stagedRelativePath env.uuid)
    (handler : PyException → HostProgram Unit) (hHandler : ∀ e host, (handler e host).2 = host) :
    TakesBack env (deletionMove env stored)
      (tryExcept (onTree (restoreStagedDeletion env.restoring env.paths env.relocate staged) >>= fun _ => pure ()) handler) := by
  obtain ⟨rfl, hPath⟩ := hStaged
  intro after
  have hTree : (restoreStagedDeletion env.restoring env.paths env.relocate staged after.tree).2 =
      (atomicMove env.restoring (deletionMove env staged.original).reverse after.tree).2 := by
    unfold restoreStagedDeletion
    rw [hPath]
    change _ = (atomicMove env.restoring ⟨env.paths.temporary, stagedRelativePath env.uuid,
      env.paths.root staged.original.area, staged.original.relativePath⟩ after.tree).2
    rcases hRun : atomicMove env.restoring ⟨env.paths.temporary, stagedRelativePath env.uuid,
      env.paths.root staged.original.area, staged.original.relativePath⟩ after.tree with ⟨outcome, tree⟩
    cases outcome with
    | error e => rw [bind_error hRun]
    | ok result =>
        rw [bind_ok hRun]
        rfl
  rw [← hTree]
  rcases hRun : restoreStagedDeletion env.restoring env.paths env.relocate staged after.tree with ⟨outcome, tree⟩
  have hMove : onTree (restoreStagedDeletion env.restoring env.paths env.relocate staged) after =
      (outcome, { after with tree := tree }) := by
    rw [onTree, hRun]
  cases outcome with
  | ok found => rw [tryExcept_ok (bind_ok hMove _)]
  | error e =>
      rw [tryExcept_error (bind_error hMove _)]
      exact hHandler e _

/-- A permanent deletion, whether it returns or raises. -/
theorem permanentlyDelete_run (hAlone : env.meanwhile = id) : Triple (· = host) (FileService.permanentlyDelete env fileId)
    (fun _ after => after = host ∨ Deleted env fileId host after)
    fun _ after => after = host ∨ Deleted env fileId host after := by
  unfold FileService.permanentlyDelete
  apply reads_bind (get_run _ fileId)
  intro graph hGraph
  apply reads_bind (lift_read _)
  intro _ _
  apply reads_bind (physicalFile_read graph false)
  intro stored hStored
  have hVerified : Verified env host fileId false graph stored := ⟨hGraph, hStored⟩
  apply moves_bind (E := fun after => after = host ∨ Deleted env fileId host after) hAlone
    (stage_run stored) (permanentlyDeleteRow_effect stored)
  · intro staged hStaged e
    apply restoreStaged_takesBack hStaged
    intro e host
    split <;> rfl
  · intro staged hStaged releaseId
    have hUnlink : Triple (MovedWith env (deletionMove env stored) (FileRequest.permanentlyDelete.Effect env fileId) host)
        (onTree (unlinkStagedDeletion env.links env.unlink env.paths staged)) (fun _ => Deleted env fileId host)
        fun _ => Deleted env fileId host := by
      intro before hMoved
      have hDeleted : Deleted env fileId host
          (onTree (unlinkStagedDeletion env.links env.unlink env.paths staged) before).2 :=
        ⟨graph, stored, hVerified, Or.inr ⟨staged, before, hMoved, hStaged.2, rfl, rfl⟩⟩
      rcases hRun : onTree (unlinkStagedDeletion env.links env.unlink env.paths staged) before with ⟨outcome, after⟩
      rw [hRun] at hDeleted
      cases outcome <;> exact hDeleted
    refine Triple.bind (Q := fun _ => Deleted env fileId host) ?_ fun _ => Triple.pure fun _ h => Or.inr h
    refine Triple.tryExcept (E := fun _ => Deleted env fileId host) hUnlink ?_
    intro e
    split
    · exact Triple.raise fun _ h => Or.inr h
    · exact Triple.raise fun _ h => Or.inr h
  · intro after hUndone
    exact Or.inr ⟨graph, stored, hVerified, Or.inl hUndone⟩

end Calls
end SoftwareHub.Lifecycle
