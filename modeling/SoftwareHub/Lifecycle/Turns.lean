import SoftwareHub.Lifecycle.Requests

/-! What one step of a request does, and what a request knows of the row and of the
file from the steps before. -/
namespace SoftwareHub.Lifecycle.Requests

open SoftwareHub.Python SoftwareHub.Semantics SoftwareHub.Catalog SoftwareHub.Reconciliation
open SoftwareHub.Downloads (FileGraph)
open SoftwareHub.Lifecycle.FileService (ensureDeletable ensurePublishReady)
open SoftwareHub.Storage (StorageArea posixText)

section Areas

/-- Only a published file may not be in the quarantine. -/
theorem areaAllowed_quarantine {status : FileStatus} (h : status ≠ .published) : areaAllowed status .quarantine = true := by
  cases status <;> simp_all [areaAllowed]

/-- The statuses of files in the software area. -/
theorem areaAllowed_software_iff {status : FileStatus} :
    areaAllowed status .software = true ↔ status = .published ∨ status = .disabled ∨ status = .archived := by
  cases status <;> simp [areaAllowed]

/-- A disabled or archived file may be in either area. -/
theorem areaAllowed_of_withdrawn {status : FileStatus} (h : status = .disabled ∨ status = .archived) (area : StorageArea) :
    areaAllowed status area = true := by
  rcases h with rfl | rfl <;> rfl

/-- A published file is in the software area. -/
theorem eq_software_of_published {area : StorageArea} (h : areaAllowed .published area = true) : area = .software := by
  cases area with
  | quarantine => cases h
  | software => rfl

end Areas

section Placement

variable {content : Bytes} {place : Option Place}

theorem only_of_ne {other : Place} (h : place ≠ some other) : only content place other = none := if_neg h

@[simp] theorem only_self (content : Bytes) (place : Place) : only content (some place) place = some content := if_pos rfl

theorem only_none (content : Bytes) : only content none = fun _ => none := by
  funext other
  exact only_of_ne (by simp)

/-- Removing a name removes the bytes, if they are there. -/
theorem update_only (content : Bytes) (place : Option Place) (other : Place) :
    Function.update (only content place) other none = only content (if place = some other then none else place) := by
  funext name
  by_cases hName : name = other
  · rw [hName, Function.update_self]
    by_cases hPlace : place = some other
    · rw [if_pos hPlace, only_none]
    · rw [if_neg hPlace, only_of_ne hPlace]
  · rw [Function.update_of_ne hName]
    by_cases hPlace : place = some other
    · rw [if_pos hPlace, hPlace, only_none]
      exact only_of_ne fun h => hName (Option.some.inj h).symm
    · rw [if_neg hPlace]

/-- A move takes the bytes with it. -/
theorem move_only {source target : Place} (hNe : source ≠ target) :
    move source target (only content (some source)) = .ok (only content (some target)) := by
  have hTarget : only content (some source) target = none := only_of_ne fun h => hNe (Option.some.inj h)
  rw [move, only_self, hTarget]
  dsimp only
  rw [update_only, if_pos rfl, only_none]
  congr 1
  funext name
  by_cases hName : name = target
  · rw [hName, Function.update_self, only_self]
  · rw [Function.update_of_ne hName]
    exact (only_of_ne fun h => hName (Option.some.inj h).symm).symm

/-- A move from where they are not fails. -/
theorem move_missing {source target : Place} (h : place ≠ some source) :
    ∃ e, move source target (only content place) = .error e := by
  rw [move, only_of_ne h]
  exact ⟨_, rfl⟩

/-- A located file is where the bytes are. -/
theorem locate_only {area : StorageArea} {found : Bytes} (h : locate (only content place) = .ok (area, found)) :
    place = some (.area area) := by
  unfold locate at h
  by_cases hQuarantine : place = some (.area .quarantine)
  · have hSoftware : only content place (.area .software) = none := by
      rw [hQuarantine]
      exact only_of_ne (by simp)
    rw [hSoftware, hQuarantine, only_self] at h
    cases h
    exact hQuarantine
  · by_cases hSoftware : place = some (.area .software)
    · rw [only_of_ne hQuarantine, hSoftware, only_self] at h
      cases h
      exact hSoftware
    · rw [only_of_ne hQuarantine, only_of_ne hSoftware] at h
      cases h

/-- A checked file is where the bytes are, in an area that the request allows. -/
theorem inspect_only {request : Request} {file : ReleaseFile} {area : StorageArea}
    (h : inspect request file (only content place) = .ok area) :
    place = some (.area area) ∧ ensureArea request area = .ok () := by
  obtain ⟨found, hFound, h⟩ := except_bind_eq_ok h
  obtain ⟨_, hArea, h⟩ := except_bind_eq_ok h
  cases h
  obtain ⟨stored, hStored, hFound⟩ := except_bind_eq_ok hFound
  obtain ⟨_, -, hFound⟩ := except_bind_eq_ok hFound
  have hSame : area = stored.1 := by
    split_ifs at hFound
    · obtain ⟨_, -, hFound⟩ := except_bind_eq_ok hFound
      exact (Except.ok.inj hFound).symm
    · exact (Except.ok.inj hFound).symm
  rw [hSame] at hArea ⊢
  exact ⟨locate_only hStored, hArea⟩

end Placement

/-- The status that a transaction without a move of its own sets. -/
def Request.status? : Request → Option FileStatus
  | .restoreReady => some .ready
  | .reviewStatus target => some target
  | .disable => some .disabled
  | .archive => some .archived
  | .publish | .permanentlyDelete => none

/-- The move a call is going to make, or has made. -/
def Call.Moves (call : Call) (source : StorageArea) (target : Place) : Prop :=
  call.target? source = some target ∧ (call.request = .publish → source = .quarantine)

/-- What the stage of a call knows from the stages before it. -/
def Process.Knows (relativePath : PyStr) (process : Process) : Prop :=
  match process.stage with
  | .reading | .finished => True
  | .inspecting file => file.relativeStoragePath = relativePath ∧ ensureRequest process.call.request = .ok ()
  | .moving path source target => path = posixText relativePath ∧ process.call.Moves source target
  | .committing path (some (source, target)) => path = posixText relativePath ∧ process.call.Moves source target
  | .committing _ none => ∃ status, process.call.request.status? = some status ∧ status ≠ .published
  | .compensating source target => process.call.Moves source target
  | .unlinking => process.call.request = .permanentlyDelete

/-- The move that has to be taken back if the transaction fails. -/
def Process.carries (process : Process) : Option (StorageArea × Place) :=
  match process.stage with
  | .committing _ moved => moved
  | .compensating source target => some (source, target)
  | _ => none

section Turns

variable (unicode : Unicode) (process : Process) (row : Option FileGraph) (place : Option Place)

/-- The steps of a call, with what each has seen. -/
inductive Turn : Stage → Option FileGraph → Option Place → Prop
  | failed (hCarries : process.carries = none) (hStage : process.stage ≠ .unlinking) : Turn .finished row place
  | read {graph : FileGraph} (hStage : process.stage = .reading) (hRow : row = some graph)
      (hRequest : ensureRequest process.call.request = .ok ())
      (hGraph : ensureRow unicode process.call.request graph = .ok ()) : Turn (.inspecting graph.file) row place
  | located {file : ReleaseFile} {area : StorageArea} {target : Place} (hStage : process.stage = .inspecting file)
      (hPlace : place = some (.area area)) (hTarget : process.call.target? area = some target)
      (hArea : ensureArea process.call.request area = .ok ()) :
      Turn (.moving (posixText file.relativeStoragePath) area target) row place
  | checked {file : ReleaseFile} {area : StorageArea} (hStage : process.stage = .inspecting file)
      (hPlace : place = some (.area area)) (hTarget : process.call.target? area = none)
      (hArea : ensureArea process.call.request area = .ok ()) :
      Turn (.committing (posixText file.relativeStoragePath) none) row place
  | moved {path : PyStr} {source : StorageArea} {target : Place} (hStage : process.stage = .moving path source target)
      (hPlace : place = some (.area source)) : Turn (.committing path (some (source, target))) row (some target)
  | committed {path : PyStr} {moved : Option (StorageArea × Place)} {after : Option FileGraph}
      (hStage : process.stage = .committing path moved) (hCommit : commit unicode process.call path row = .ok after) :
      Turn (if process.call.request = .permanentlyDelete then .unlinking else .finished) after place
  | refused {path : PyStr} {source : StorageArea} {target : Place} {e : PyException}
      (hStage : process.stage = .committing path (some (source, target)))
      (hCommit : commit unicode process.call path row = .error e) : Turn (.compensating source target) row place
  | compensated {source : StorageArea} {target : Place} (hStage : process.stage = .compensating source target)
      (hPlace : place = some target) : Turn .finished row (some (.area source))
  | lost {source : StorageArea} {target : Place} (hStage : process.stage = .compensating source target)
      (hPlace : place ≠ some target) : Turn .finished row place
  | unlinked (hStage : process.stage = .unlinking) :
      Turn .finished row (if place = some (.staged process.call.uuid) then none else place)
  | stayed (hStage : process.stage = .finished) : Turn .finished row place

/-- The three calls that move, with the ends of the move. -/
theorem Call.Moves.cases {call : Call} {source : StorageArea} {target : Place} (h : call.Moves source target) :
    (call.request = .publish ∧ source = .quarantine ∧ target = .area .software) ∨
      (call.request = .restoreReady ∧ source = .software ∧ target = .area .quarantine) ∨
        (call.request = .permanentlyDelete ∧ target = .staged call.uuid) := by
  obtain ⟨hTarget, hPublish⟩ := h
  unfold Call.target? at hTarget
  cases hRequest : call.request with
  | publish =>
      rw [hRequest] at hTarget
      exact Or.inl ⟨rfl, hPublish hRequest, (Option.some.inj hTarget).symm⟩
  | restoreReady =>
      rw [hRequest] at hTarget
      dsimp only at hTarget
      split_ifs at hTarget with hArea
      exact Or.inr (Or.inl ⟨rfl, hArea, (Option.some.inj hTarget).symm⟩)
  | permanentlyDelete =>
      rw [hRequest] at hTarget
      exact Or.inr (Or.inr ⟨rfl, (Option.some.inj hTarget).symm⟩)
  | reviewStatus target => simp [hRequest] at hTarget
  | disable => simp [hRequest] at hTarget
  | archive => simp [hRequest] at hTarget

theorem Call.Moves.ne {call : Call} {source : StorageArea} {target : Place} (h : call.Moves source target) :
    Place.area source ≠ target := by
  rcases h.cases with ⟨-, rfl, rfl⟩ | ⟨-, rfl, rfl⟩ | ⟨-, rfl⟩ <;> simp

/-- A step is a turn, whatever the other calls have done. -/
theorem turn_of_step {relativePath : PyStr} (content : Bytes) (hKnows : process.Knows relativePath) :
    ∃ stage after there, process.step unicode ⟨row, only content place⟩ = (process.at stage, ⟨after, only content there⟩) ∧
      Turn unicode process row place stage after there := by
  unfold Process.step
  cases hStage : process.stage with
  | reading =>
      dsimp only
      cases hGet : get unicode process.call.request row with
      | error e => exact ⟨_, _, _, rfl, .failed (by rw [Process.carries, hStage]) (by simp [hStage])⟩
      | ok file =>
          obtain ⟨_, hRequest, hGet⟩ := except_bind_eq_ok hGet
          cases hRow : row with
          | none =>
              rw [hRow] at hGet
              cases hGet
          | some graph =>
              rw [hRow] at hGet
              obtain ⟨_, hGraph, hGet⟩ := except_bind_eq_ok hGet
              cases hGet
              exact ⟨_, _, _, rfl, .read hStage rfl hRequest hGraph⟩
  | inspecting file =>
      dsimp only
      cases hInspect : inspect process.call.request file (only content place) with
      | error e => exact ⟨_, _, _, rfl, .failed (by rw [Process.carries, hStage]) (by simp [hStage])⟩
      | ok area =>
          obtain ⟨hPlace, hArea⟩ := inspect_only hInspect
          dsimp only
          cases hTarget : process.call.target? area with
          | none => exact ⟨_, _, _, rfl, .checked hStage hPlace hTarget hArea⟩
          | some target => exact ⟨_, _, _, rfl, .located hStage hPlace hTarget hArea⟩
  | moving path source target =>
      rw [Process.Knows, hStage] at hKnows
      dsimp only
      by_cases hPlace : place = some (.area source)
      · rw [hPlace, move_only hKnows.2.ne]
        exact ⟨_, _, _, rfl, .moved hStage rfl⟩
      · obtain ⟨e, hMove⟩ := @move_missing content place (.area source) target hPlace
        rw [hMove]
        exact ⟨_, _, _, rfl, .failed (by rw [Process.carries, hStage]) (by simp [hStage])⟩
  | committing path moved =>
      dsimp only
      cases hCommit : commit unicode process.call path row with
      | ok after => exact ⟨_, _, _, rfl, .committed hStage hCommit⟩
      | error e =>
          cases moved with
          | none => exact ⟨_, _, _, rfl, .failed (by rw [Process.carries, hStage]) (by simp [hStage])⟩
          | some moved => exact ⟨_, _, _, rfl, .refused hStage hCommit⟩
  | compensating source target =>
      rw [Process.Knows, hStage] at hKnows
      dsimp only
      by_cases hPlace : place = some target
      · rw [hPlace, move_only hKnows.ne.symm]
        exact ⟨_, _, _, rfl, .compensated hStage rfl⟩
      · obtain ⟨e, hMove⟩ := @move_missing content place target (.area source) hPlace
        rw [hMove]
        exact ⟨_, _, _, rfl, .lost hStage hPlace⟩
  | unlinking =>
      dsimp only
      rw [update_only]
      exact ⟨_, _, _, rfl, .unlinked hStage⟩
  | finished =>
      have hSame : process.at .finished = process := by rw [Process.at, ← hStage]
      exact ⟨.finished, row, place, by rw [hSame], .stayed hStage⟩

end Turns

section Commits

/-- The columns that no transaction changes. -/
structure SameColumns (before after : FileGraph) : Prop where
  relativePath : after.file.relativeStoragePath = before.file.relativeStoragePath
  scannerStatus : after.file.scannerStatus = before.file.scannerStatus

theorem SameColumns.refl (graph : FileGraph) : SameColumns graph graph := ⟨rfl, rfl⟩

theorem SameColumns.trans {first second third : FileGraph} (h : SameColumns first second) (h' : SameColumns second third) :
    SameColumns first third :=
  ⟨h'.relativePath.trans h.relativePath, h'.scannerStatus.trans h.scannerStatus⟩

/-- What a transaction that returns has made of the row. -/
inductive Commits (call : Call) (current : FileGraph) : Option FileGraph → Prop
  | published {graph : FileGraph} (hRequest : call.request = .publish) (hSame : SameColumns current graph)
      (hStatus : graph.file.status = .published) : Commits call current (some graph)
  | deleted (hRequest : call.request = .permanentlyDelete) (hStatus : current.file.status ≠ .published) :
      Commits call current none
  | changed {graph : FileGraph} (hRequest : call.request.status? = some graph.file.status)
      (hSame : SameColumns current graph)
      (hAllowed : graph.file.status = current.file.status ∨ graph.file.status ∈ fileTransitions current.file.status)
      (hReady : graph.file.status = .ready → current.file.status = .ready ∨ current.file.scannerStatus ≠ .infected) :
      Commits call current (some graph)

variable {unicode : Unicode} {call : Call} {path : PyStr} {current : FileGraph}

theorem commits_of_transition {target : FileStatus} {after : Option FileGraph} (hRequest : call.request.status? = some target)
    (h : transition call.now target current = .ok after) : Commits call current after := by
  obtain ⟨file, hFile, h⟩ := except_bind_eq_ok h
  cases h
  obtain ⟨hColumns, hAllowed, hReady⟩ := applyFileTransition_eq_ok hFile
  have hStatus : file.status = target := congrArg ReleaseFile.status hColumns
  have hPath : file.relativeStoragePath = current.file.relativeStoragePath :=
    (congrArg ReleaseFile.relativeStoragePath hColumns).trans rfl
  have hScanner : file.scannerStatus = current.file.scannerStatus :=
    (congrArg ReleaseFile.scannerStatus hColumns).trans rfl
  refine .changed ?_ ⟨hPath, hScanner⟩ ?_ ?_
  · rw [hRequest, hStatus]
  · rw [hStatus]
    exact hAllowed
  · intro hTarget
    rw [hStatus] at hTarget
    rw [hTarget] at hReady
    exact (hReady (Or.inl rfl)).imp_left Eq.symm

/-- A transaction that returns has found a row. -/
theorem commit_eq_ok {row after : Option FileGraph} (h : commit unicode call path row = .ok after) :
    ∃ current, row = some current ∧ Commits call current after := by
  cases row with
  | none => cases h
  | some current =>
      refine ⟨current, rfl, ?_⟩
      unfold commit at h
      dsimp only at h
      cases hRequest : call.request with
      | publish =>
          rw [hRequest] at h
          obtain ⟨_, -, h⟩ := except_bind_eq_ok h
          obtain ⟨_, hPath, h⟩ := except_bind_eq_ok h
          obtain ⟨file, hFile, h⟩ := except_bind_eq_ok h
          cases h
          obtain ⟨hColumns, -, -⟩ := applyFileTransition_eq_ok hFile
          have hScanner : file.scannerStatus = current.file.scannerStatus :=
            (congrArg ReleaseFile.scannerStatus hColumns).trans rfl
          have hStatus : file.status = .published := congrArg ReleaseFile.status hColumns
          exact .published hRequest ⟨(require_eq_ok_iff.mp hPath).symm, hScanner⟩ hStatus
      | permanentlyDelete =>
          rw [hRequest] at h
          obtain ⟨_, hDeletable, h⟩ := except_bind_eq_ok h
          obtain ⟨_, -, h⟩ := except_bind_eq_ok h
          cases h
          exact .deleted hRequest (require_eq_ok_iff.mp hDeletable)
      | restoreReady =>
          rw [hRequest] at h
          exact commits_of_transition (by rw [hRequest]; rfl) h
      | reviewStatus target =>
          rw [hRequest] at h
          exact commits_of_transition (by rw [hRequest]; rfl) h
      | disable =>
          rw [hRequest] at h
          exact commits_of_transition (by rw [hRequest]; rfl) h
      | archive =>
          rw [hRequest] at h
          exact commits_of_transition (by rw [hRequest]; rfl) h

/-- The deletion of a row that is not published goes through. -/
theorem commit_delete (hRequest : call.request = .permanentlyDelete) (hStatus : current.file.status ≠ .published)
    (hPath : current.file.relativeStoragePath = path) : commit unicode call path (some current) = .ok none := by
  unfold commit
  dsimp only
  rw [hRequest]
  dsimp only
  have hDeletable : ensureDeletable current = .ok () := require_eq_ok_iff.mpr hStatus
  rw [except_bind_ok hDeletable, except_bind_ok (a := ()) (require_eq_ok_iff.mpr hPath)]
  rfl

/-- Nothing but the table and the scanner stand in the way of the ready status. -/
theorem exists_transition_ready (now : Instant)
    (hAllowed : FileStatus.ready = current.file.status ∨ .ready ∈ fileTransitions current.file.status)
    (hClean : FileStatus.ready ≠ current.file.status → current.file.scannerStatus ≠ .infected) :
    ∃ file, applyFileTransition current.software current.release current.file .ready now = .ok file := by
  unfold applyFileTransition
  rw [ensureTransition, except_bind_ok (a := ()) (require_eq_ok_iff.mpr hAllowed)]
  by_cases hStatus : FileStatus.ready = current.file.status
  · rw [if_pos hStatus]
    exact ⟨_, rfl⟩
  · have hNotInfected : ¬(FileStatus.ready = .ready ∧ current.file.scannerStatus = .infected) :=
      fun hInfected => hClean hStatus hInfected.2
    rw [if_neg hStatus, except_bind_ok (a := ()) (require_eq_ok_iff.mpr hNotInfected)]
    exact ⟨_, rfl⟩

/-- A return to the ready status is refused by the table of transitions, or for an
infected file. -/
theorem commit_restore_error {e : PyException} (hRequest : call.request = .restoreReady)
    (h : commit unicode call path (some current) = .error e) :
    current.file.status ≠ .ready ∧
      (.ready ∉ fileTransitions current.file.status ∨ current.file.scannerStatus = .infected) := by
  by_contra hNot
  have hAllowed : FileStatus.ready = current.file.status ∨ .ready ∈ fileTransitions current.file.status := by
    by_contra hRefused
    rw [not_or] at hRefused
    exact hNot ⟨fun hReady => hRefused.1 hReady.symm, Or.inl hRefused.2⟩
  have hClean : FileStatus.ready ≠ current.file.status → current.file.scannerStatus ≠ .infected :=
    fun hStatus hInfected => hNot ⟨fun hReady => hStatus hReady.symm, Or.inr hInfected⟩
  obtain ⟨file, hFile⟩ := exists_transition_ready call.now hAllowed hClean
  unfold commit at h
  dsimp only at h
  rw [hRequest] at h
  dsimp only [transition] at h
  rw [except_bind_ok hFile] at h
  cases h

end Commits

section Knowledge

variable {unicode : Unicode} {process : Process} {row after : Option FileGraph} {place there : Option Place} {stage : Stage}

/-- A call that will not move the file sets a status that fits the area in which it has found the file. -/
theorem fits_of_checked {request : Request} {call : Call} {area : StorageArea} (hCall : call.request = request)
    (hRequest : ensureRequest request = .ok ()) (hTarget : call.target? area = none) (hArea : ensureArea request area = .ok ()) :
    ∃ status, request.status? = some status ∧ status ≠ .published ∧ areaAllowed status area = true := by
  rw [Call.target?, hCall] at hTarget
  cases request with
  | publish => cases hTarget
  | permanentlyDelete => cases hTarget
  | disable => exact ⟨_, rfl, by decide, areaAllowed_of_withdrawn (Or.inl rfl) area⟩
  | archive => exact ⟨_, rfl, by decide, areaAllowed_of_withdrawn (Or.inr rfl) area⟩
  | restoreReady =>
      cases area with
      | quarantine => exact ⟨_, rfl, by decide, rfl⟩
      | software => cases hTarget
  | reviewStatus target =>
      have hNot : target ≠ .published := by
        rintro rfl
        cases hRequest
      obtain rfl := require_eq_ok_iff.mp hArea
      exact ⟨target, rfl, hNot, areaAllowed_quarantine hNot⟩

/-- A turn keeps the knowledge of its call. -/
theorem Process.Knows.turn {relativePath : PyStr} (hRow : ∀ graph, row = some graph → graph.file.relativeStoragePath = relativePath)
    (hKnows : process.Knows relativePath) (h : Turn unicode process row place stage after there) :
    (process.at stage).Knows relativePath := by
  unfold Process.Knows at hKnows
  cases h with
  | failed => trivial
  | compensated => trivial
  | lost => trivial
  | unlinked => trivial
  | stayed => trivial
  | read hStage hFound hRequest hGraph => exact ⟨hRow _ hFound, hRequest⟩
  | located hStage hPlace hTarget hArea =>
      rw [hStage] at hKnows
      refine ⟨congrArg posixText hKnows.1, hTarget, ?_⟩
      intro hPublish
      change process.call.request = .publish at hPublish
      rw [hPublish] at hArea
      exact require_eq_ok_iff.mp hArea
  | checked hStage hPlace hTarget hArea =>
      rw [hStage] at hKnows
      obtain ⟨status, hStatus, hNot, -⟩ := fits_of_checked rfl hKnows.2 hTarget hArea
      exact ⟨status, hStatus, hNot⟩
  | moved hStage hPlace =>
      rw [hStage] at hKnows
      exact hKnows
  | committed hStage hCommit =>
      by_cases hDelete : process.call.request = .permanentlyDelete
      · rw [if_pos hDelete]
        exact hDelete
      · rw [if_neg hDelete]
        trivial
  | refused hStage hCommit =>
      rw [hStage] at hKnows
      exact hKnows.2

/-- A move to be taken back is one that the call makes. -/
theorem Process.Knows.moves {relativePath : PyStr} (hKnows : process.Knows relativePath) {source : StorageArea} {target : Place}
    (hCarries : process.carries = some (source, target)) : process.call.Moves source target := by
  unfold Process.Knows at hKnows
  unfold Process.carries at hCarries
  cases hStage : process.stage <;> simp only [hStage] at hCarries hKnows <;> cases hCarries
  · exact hKnows.2
  · exact hKnows

/-- A call that is over stays so. -/
theorem Turn.finished_of_finished (h : Turn unicode process row place stage after there) (hStage : process.stage = .finished) :
    stage = .finished := by
  cases h <;> simp_all

/-- A call with a move of its own to take back is at its transaction, or on the way back. -/
theorem carries_eq_some {source : StorageArea} {target : Place} (h : process.carries = some (source, target)) :
    (∃ path, process.stage = .committing path (some (source, target))) ∨ process.stage = .compensating source target := by
  unfold Process.carries at h
  cases hStage : process.stage <;> simp only [hStage] at h <;> cases h
  · exact Or.inl ⟨_, rfl⟩
  · exact Or.inr rfl

end Knowledge

end SoftwareHub.Lifecycle.Requests
