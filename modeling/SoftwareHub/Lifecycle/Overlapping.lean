import SoftwareHub.Lifecycle.Turns
import SoftwareHub.Reconciliation.PublicationGate

/-! Two overlapping requests on one release file, under every schedule of their
steps: when the file and its row can disagree, and that they cannot otherwise. -/
namespace SoftwareHub.Lifecycle.Requests

open SoftwareHub.Python SoftwareHub.Semantics SoftwareHub.Catalog SoftwareHub.Reconciliation
open SoftwareHub.Downloads (FileGraph)
open SoftwareHub.Lifecycle.FileService (ensureDeletable ensurePublishReady)
open SoftwareHub.Storage (StorageArea posixText)

/-- A call has begun and is not over. -/
def Stage.Underway : Stage → Prop
  | .reading | .finished => False
  | _ => True

section Invariant

variable (unicode : Unicode) (initial : FileGraph)

/-- What the row says about a call, given where the other call is. -/
structure Sides (process other : Process) (graph : FileGraph) : Prop where
  deletes : process.call.request = .permanentlyDelete → process.stage.Underway →
    graph.file.status ≠ .published ∨ other.call.request = .publish ∧ other.stage = .finished
  publishes : process.call.request = .publish → process.stage.Underway → other.call.request = .restoreReady →
    other.stage = .finished
  unread : process.call.request = .publish → process.stage = .reading → other.call.request = .restoreReady →
    other.stage ≠ .finished → graph = initial
  noClash : process.call.request = .publish → other.call.request = .restoreReady →
    ensurePublishReady unicode initial ≠ .ok ()

/-- The status that a call without a move is going to set fits the area of the
file, or the transaction is going to refuse it. -/
def Fits (process other : Process) (graph : FileGraph) (area : StorageArea) : Prop :=
  ∀ path status, process.stage = .committing path none → process.call.request.status? = some status →
    areaAllowed status area = true ∨
      other.stage = .finished ∧ (graph.file.status = .published ∨ graph.file.scannerStatus = .infected)

/-- One call has moved the file away: in the end it can be put back, or the row fits where it is. -/
structure Away (process other : Process) (graph : FileGraph) (source : StorageArea) : Prop where
  publish : process.call.request = .publish → graph.file.status ≠ .published
  restoreCommitting : process.call.request = .restoreReady → (∃ path moved, process.stage = .committing path moved) →
    areaAllowed graph.file.status .software = true ∨ graph.file.status = .ready ∧ other.stage = .finished
  restoreCompensating : process.call.request = .restoreReady → (∃ area place, process.stage = .compensating area place) →
    areaAllowed graph.file.status .software = true ∧
      (graph.file.status = .published ∨ graph.file.scannerStatus = .infected ∨ other.stage = .finished)
  delete : process.call.request = .permanentlyDelete → graph.file.status = .published → source = .software
  deleteCompensating : process.call.request = .permanentlyDelete →
    (∃ area place, process.stage = .compensating area place) → graph.file.status = .published

/-- Where the file is: left alone, moved away by one call, moved away and then
staged for deletion, or deleted with its row. -/
inductive Joint (first second : Process) : Option FileGraph → Option Place → Prop
  | settled {graph : FileGraph} {area : StorageArea} (hFirst : first.carries = none) (hSecond : second.carries = none)
      (hFirstStage : first.stage ≠ .unlinking) (hSecondStage : second.stage ≠ .unlinking)
      (hAllowed : areaAllowed graph.file.status area = true) (hFirstFits : Fits first second graph area)
      (hSecondFits : Fits second first graph area) : Joint first second (some graph) (some (.area area))
  | away {graph : FileGraph} {source : StorageArea} {target : Place} (hFirst : first.carries = some (source, target))
      (hSecond : second.carries = none) (hSecondStage : second.stage ≠ .unlinking)
      (hAway : Away first second graph source) : Joint first second (some graph) (some target)
  | stacked {graph : FileGraph} {path : PyStr} {source area : StorageArea} {target : Place}
      (hFirst : first.stage = .committing path (some (area, target))) (hDelete : first.call.request = .permanentlyDelete)
      (hSecond : second.carries = some (source, .area area)) (hStatus : graph.file.status ≠ .published) :
      Joint first second (some graph) (some target)
  | deleted {place : Option Place}
      (hFirst : (first.stage = .unlinking ∧ place = some (.staged first.call.uuid)) ∨ (first.stage = .finished ∧ place = none))
      (hSecondStage : second.stage ≠ .unlinking)
      (hSecond : second.call.request = .permanentlyDelete → second.carries = none) : Joint first second none place

/-- What holds between any two steps of two calls. -/
structure Overlap (first second : Process) (row : Option FileGraph) (place : Option Place) : Prop where
  joint : Joint first second row place ∨ Joint second first row place
  sides : ∀ graph, row = some graph → Sides unicode initial first second graph ∧ Sides unicode initial second first graph
  columns : ∀ graph, row = some graph → SameColumns initial graph
  knows : first.Knows initial.file.relativeStoragePath ∧ second.Knows initial.file.relativeStoragePath

end Invariant

section Turns

variable {unicode : Unicode} {initial : FileGraph} {first second : Process} {row after : Option FileGraph}
  {place there : Option Place} {stage : Stage}

theorem Overlap.symm (h : Overlap unicode initial first second row place) : Overlap unicode initial second first row place :=
  ⟨h.joint.symm, fun graph hRow => (h.sides graph hRow).symm, h.columns, h.knows.symm⟩

section Sides

variable {process other : Process} {graph : FileGraph}

/-- Nothing is asked of a call that is over. -/
theorem Sides.finished (h : Sides unicode initial process other graph) (now : FileGraph) :
    Sides unicode initial (process.at .finished) other now where
  deletes _ hStage := hStage.elim
  publishes _ hStage := hStage.elim
  unread _ hStage := by cases hStage
  noClash := h.noClash

/-- A call that goes on keeps what the row says about it. -/
theorem Sides.underway (h : Sides unicode initial process other graph) (hStage : process.stage.Underway)
    (hNot : stage ≠ .reading) : Sides unicode initial (process.at stage) other graph where
  deletes hDelete _ := h.deletes hDelete hStage
  publishes hPublish _ := h.publishes hPublish hStage
  unread _ hReading := (hNot hReading).elim
  noClash := h.noClash

/-- What one call knows does not depend on how far the other has come, until it is
over. -/
theorem Sides.other_turn (h : Sides unicode initial other process graph)
    (hStage : process.stage = .finished → stage = .finished) : Sides unicode initial other (process.at stage) graph where
  deletes hDelete hUnderway := (h.deletes hDelete hUnderway).imp_right fun hPublished => ⟨hPublished.1, hStage hPublished.2⟩
  publishes hPublish hUnderway hRestore := hStage (h.publishes hPublish hUnderway hRestore)
  unread hPublish hReading hRestore hNot := h.unread hPublish hReading hRestore fun hFinished => hNot (hStage hFinished)
  noClash := h.noClash

/-- A call reads the row: it may go on only from a status that the other call leaves alone. -/
theorem Sides.read (h : Sides unicode initial process other graph) (hStage : process.stage = .reading)
    (hGraph : ensureRow unicode process.call.request graph = .ok ()) :
    Sides unicode initial (process.at (.inspecting graph.file)) other graph where
  deletes hDelete _ := by
    change process.call.request = .permanentlyDelete at hDelete
    rw [hDelete] at hGraph
    exact Or.inl (require_eq_ok_iff.mp hGraph)
  publishes hPublish _ hRestore := by
    change process.call.request = .publish at hPublish
    rw [hPublish] at hGraph
    by_contra hNot
    have hInitial := h.unread hPublish hStage hRestore hNot
    rw [hInitial] at hGraph
    exact h.noClash hPublish hRestore hGraph
  unread _ hReading := by cases hReading
  noClash := h.noClash

theorem status_ne_published {relativePath path : PyStr} {moved : Option (StorageArea × Place)} {status : FileStatus}
    (hKnows : process.Knows relativePath) (hStage : process.stage = .committing path moved)
    (hStatus : process.call.request.status? = some status) : status ≠ .published := by
  cases moved with
  | none =>
      rw [Process.Knows, hStage] at hKnows
      obtain ⟨known, hKnown, hNot⟩ := hKnows
      rw [hStatus] at hKnown
      cases hKnown
      exact hNot
  | some moved =>
      obtain ⟨source, target⟩ := moved
      rw [Process.Knows, hStage] at hKnows
      rcases hKnows.2.cases with ⟨hRequest, -⟩ | ⟨hRequest, -⟩ | ⟨hRequest, -⟩
      · rw [hRequest] at hStatus
        cases hStatus
      · rw [hRequest] at hStatus
        cases hStatus
        decide
      · rw [hRequest] at hStatus
        cases hStatus

/-- What a transaction leaves for the other call. -/
theorem Sides.other_committed {relativePath path : PyStr} {moved : Option (StorageArea × Place)} {now : FileGraph}
    (h : Sides unicode initial other process graph) (hKnows : process.Knows relativePath)
    (hStage : process.stage = .committing path moved) (hCommit : Commits process.call graph (some now)) :
    Sides unicode initial other (process.at .finished) now where
  deletes _ _ := by
    cases hCommit with
    | published hRequest hSame hStatus => exact Or.inr ⟨hRequest, rfl⟩
    | changed hRequest hSame hAllowed hReady => exact Or.inl (status_ne_published hKnows hStage hRequest)
  publishes _ _ _ := rfl
  unread _ _ _ hNot := (hNot rfl).elim
  noClash := h.noClash

/-- A transaction that leaves a row is no deletion. -/
theorem Commits.not_delete {call : Call} {now : FileGraph} (h : Commits call graph (some now)) :
    call.request ≠ .permanentlyDelete := by
  intro hDelete
  cases h with
  | published hRequest => cases hDelete.symm.trans hRequest
  | changed hRequest =>
      rw [hDelete] at hRequest
      cases hRequest

/-- The sides after a turn of one call. -/
theorem sides_turn (hSides : ∀ graph, row = some graph →
      Sides unicode initial first second graph ∧ Sides unicode initial second first graph)
    (hKnows : first.Knows initial.file.relativeStoragePath) (h : Turn unicode first row place stage after there)
    (hAfter : after = some graph) :
    Sides unicode initial (first.at stage) second graph ∧ Sides unicode initial second (first.at stage) graph := by
  have hFinished := h.finished_of_finished
  cases h with
  | failed hCarries hStage => exact ⟨(hSides graph hAfter).1.finished graph, (hSides graph hAfter).2.other_turn hFinished⟩
  | compensated hStage hPlace => exact ⟨(hSides graph hAfter).1.finished graph, (hSides graph hAfter).2.other_turn hFinished⟩
  | lost hStage hPlace => exact ⟨(hSides graph hAfter).1.finished graph, (hSides graph hAfter).2.other_turn hFinished⟩
  | unlinked hStage => exact ⟨(hSides graph hAfter).1.finished graph, (hSides graph hAfter).2.other_turn hFinished⟩
  | stayed hStage => exact ⟨(hSides graph hAfter).1.finished graph, (hSides graph hAfter).2.other_turn hFinished⟩
  | read hStage hFound hRequest hGraph =>
      obtain rfl := Option.some.inj (hFound.symm.trans hAfter)
      exact ⟨(hSides _ hAfter).1.read hStage hGraph, (hSides _ hAfter).2.other_turn hFinished⟩
  | located hStage => exact ⟨(hSides graph hAfter).1.underway (by rw [hStage]; trivial) (by simp),
      (hSides graph hAfter).2.other_turn hFinished⟩
  | checked hStage => exact ⟨(hSides graph hAfter).1.underway (by rw [hStage]; trivial) (by simp),
      (hSides graph hAfter).2.other_turn hFinished⟩
  | moved hStage => exact ⟨(hSides graph hAfter).1.underway (by rw [hStage]; trivial) (by simp),
      (hSides graph hAfter).2.other_turn hFinished⟩
  | refused hStage => exact ⟨(hSides graph hAfter).1.underway (by rw [hStage]; trivial) (by simp),
      (hSides graph hAfter).2.other_turn hFinished⟩
  | committed hStage hCommit =>
      rw [hAfter] at hCommit
      obtain ⟨current, hCurrent, hCommits⟩ := commit_eq_ok hCommit
      rw [if_neg hCommits.not_delete]
      exact ⟨(hSides current hCurrent).1.finished graph, (hSides current hCurrent).2.other_committed hKnows hStage hCommits⟩

end Sides

section Places

variable {process other : Process} {graph : FileGraph} {area source : StorageArea} {target : Place}

/-- Only a call at its transaction has a status to fit. -/
theorem Fits.of_not_committing (h : ∀ path, process.stage ≠ .committing path none) : Fits process other graph area :=
  fun path _ hStage _ => (h path hStage).elim

/-- Steps of the other call that leave the row leave the fit. -/
theorem Fits.other_turn (h : Fits process other graph area) (hStage : other.stage = .finished → stage = .finished) :
    Fits process (other.at stage) graph area :=
  fun path status hCommitting hStatus => (h path status hCommitting hStatus).imp_right fun hRefused =>
    ⟨hStage hRefused.1, hRefused.2⟩

/-- Who cannot get to the ready status from the software area stays in it. -/
theorem areaAllowed_of_change {before now : FileGraph} (hAllowed : areaAllowed before.file.status .software = true)
    (hBarred : before.file.status = .published ∨ before.file.scannerStatus = .infected)
    (hChange : now.file.status = before.file.status ∨ now.file.status ∈ fileTransitions before.file.status)
    (hReady : now.file.status = .ready → before.file.status = .ready ∨ before.file.scannerStatus ≠ .infected) :
    areaAllowed now.file.status .software = true := by
  rw [areaAllowed_software_iff] at hAllowed ⊢
  rcases hAllowed with hStatus | hStatus | hStatus <;> rw [hStatus] at hChange hReady hBarred <;>
    cases hNow : now.file.status <;> simp_all [fileTransitions]

/-- A change of the status fits the area of the file. -/
theorem areaAllowed_of_fits {path : PyStr} {now : FileGraph} (hFits : Fits process other graph area)
    (hStage : process.stage = .committing path none) (hRequest : process.call.request.status? = some now.file.status)
    (hAllowed : areaAllowed graph.file.status area = true)
    (hChange : now.file.status = graph.file.status ∨ now.file.status ∈ fileTransitions graph.file.status)
    (hReady : now.file.status = .ready → graph.file.status = .ready ∨ graph.file.scannerStatus ≠ .infected)
    (hNot : now.file.status ≠ .published) : areaAllowed now.file.status area = true := by
  cases area with
  | quarantine => exact areaAllowed_quarantine hNot
  | software =>
      rcases hFits path _ hStage hRequest with hFit | ⟨-, hBarred⟩
      · exact hFit
      · exact areaAllowed_of_change hAllowed hBarred hChange hReady

/-- The file is where it was left, and a call takes a step. -/
theorem joint_settled (hFirst : first.carries = none) (hSecond : second.carries = none)
    (hFirstStage : first.stage ≠ .unlinking) (hSecondStage : second.stage ≠ .unlinking)
    (hAllowed : areaAllowed graph.file.status area = true) (hFirstFits : Fits first second graph area)
    (hSecondFits : Fits second first graph area) (hKnows : first.Knows initial.file.relativeStoragePath)
    (h : Turn unicode first (some graph) (some (.area area)) stage after there) : Joint (first.at stage) second after there := by
  have hFinished := h.finished_of_finished
  have hStay (next : Stage) (hCarries : (first.at next).carries = none) (hStage : next ≠ .unlinking)
      (hNot : ∀ path, next ≠ .committing path none) (hOther : first.stage = .finished → next = .finished) :
      Joint (first.at next) second (some graph) (some (.area area)) :=
    .settled hCarries hSecond hStage hSecondStage hAllowed (.of_not_committing hNot) (hSecondFits.other_turn hOther)
  cases h with
  | failed => exact hStay .finished rfl (by simp) (by simp) fun _ => rfl
  | stayed => exact hStay .finished rfl (by simp) (by simp) fun _ => rfl
  | compensated hStage => simp [Process.carries, hStage] at hFirst
  | lost hStage => simp [Process.carries, hStage] at hFirst
  | unlinked hStage => exact (hFirstStage hStage).elim
  | refused hStage => simp [Process.carries, hStage] at hFirst
  | read hStage => exact hStay _ rfl (by simp) (by simp) hFinished
  | located hStage => exact hStay _ rfl (by simp) (by simp) hFinished
  | checked hStage hPlace hTarget hArea =>
      cases hPlace
      rw [Process.Knows, hStage] at hKnows
      obtain ⟨status, hStatus, -, hFit⟩ := fits_of_checked rfl hKnows.2 hTarget hArea
      refine .settled rfl hSecond (Stage.noConfusion ·) hSecondStage hAllowed ?_ (hSecondFits.other_turn hFinished)
      intro path other _ hOther
      obtain rfl := Option.some.inj (hStatus.symm.trans hOther)
      exact Or.inl hFit
  | moved hStage hPlace =>
      cases hPlace
      rw [Process.Knows, hStage] at hKnows
      refine .away rfl hSecond hSecondStage ⟨?_, ?_, ?_, ?_, ?_⟩
      · rintro hPublish hStatus
        rw [hStatus] at hAllowed
        have hSoftware := eq_software_of_published hAllowed
        rw [hKnows.2.2 hPublish] at hSoftware
        cases hSoftware
      · rintro hRestore -
        rcases hKnows.2.cases with ⟨hRequest, -⟩ | ⟨-, rfl, -⟩ | ⟨hRequest, -⟩
        · cases hRequest.symm.trans hRestore
        · exact Or.inl hAllowed
        · cases hRequest.symm.trans hRestore
      · rintro - ⟨_, _, hCompensating⟩
        cases hCompensating
      · rintro - hStatus
        rw [hStatus] at hAllowed
        exact eq_software_of_published hAllowed
      · rintro - ⟨_, _, hCompensating⟩
        cases hCompensating
  | @committed path moved _ hStage hCommit =>
      obtain rfl : moved = none := by rwa [Process.carries, hStage] at hFirst
      obtain ⟨current, hCurrent, hCommits⟩ := commit_eq_ok hCommit
      cases hCurrent
      have hCommitting := hKnows
      rw [Process.Knows, hStage] at hCommitting
      obtain ⟨status, hStatus, hNot⟩ := hCommitting
      cases hCommits with
      | published hRequest =>
          rw [hRequest] at hStatus
          cases hStatus
      | deleted hRequest =>
          rw [hRequest] at hStatus
          cases hStatus
      | @changed now hRequest hSame hChange hReady =>
          obtain rfl := Option.some.inj (hStatus.symm.trans hRequest)
          rw [if_neg (Commits.changed hRequest hSame hChange hReady).not_delete]
          refine .settled rfl hSecond (Stage.noConfusion ·) hSecondStage
            (areaAllowed_of_fits hFirstFits hStage hRequest hAllowed hChange hReady hNot)
            (.of_not_committing fun path hPath => by cases hPath) ?_
          intro path other hOther hSet
          refine (hSecondFits path other hOther hSet).imp_right fun hRefused => ?_
          cases hStage.symm.trans hRefused.1

/-- The transaction of a call that has moved the file goes through. -/
theorem joint_committed {path : PyStr} (hStage : first.stage = .committing path (some (source, target)))
    (hMoves : first.call.Moves source target) (hSecond : second.carries = none) (hSecondStage : second.stage ≠ .unlinking)
    (hSecondKnows : second.Knows initial.file.relativeStoragePath) (hCommits : Commits first.call graph after) :
    Joint (first.at (if first.call.request = .permanentlyDelete then .unlinking else .finished)) second after
      (some target) := by
  have hNowhere {now : FileGraph} {now_area : StorageArea} : Fits (first.at .finished) second now now_area :=
    .of_not_committing fun path hPath => by cases hPath
  cases hCommits with
  | @published now hRequest hSame hStatus =>
      rw [if_neg (Commits.published hRequest hSame hStatus).not_delete]
      rcases hMoves.cases with ⟨-, -, rfl⟩ | ⟨hOther, -⟩ | ⟨hOther, -⟩
      · refine .settled rfl hSecond (Stage.noConfusion ·) hSecondStage ?_ hNowhere ?_
        · rw [hStatus]
          rfl
        · exact fun _ _ _ _ => Or.inr ⟨rfl, Or.inl hStatus⟩
      · cases hOther.symm.trans hRequest
      · cases hOther.symm.trans hRequest
  | deleted hRequest hStatus =>
      rw [if_pos hRequest]
      rcases hMoves.cases with ⟨hOther, -⟩ | ⟨hOther, -⟩ | ⟨-, rfl⟩
      · cases hOther.symm.trans hRequest
      · cases hOther.symm.trans hRequest
      · exact .deleted (Or.inl ⟨rfl, rfl⟩) hSecondStage fun _ => hSecond
  | @changed now hRequest hSame hChange hReady =>
      rw [if_neg (Commits.changed hRequest hSame hChange hReady).not_delete]
      rcases hMoves.cases with ⟨hOther, -⟩ | ⟨hOther, -, rfl⟩ | ⟨hOther, -⟩
      · rw [hOther] at hRequest
        cases hRequest
      · have hStatus : now.file.status = .ready := by
          rw [hOther] at hRequest
          exact (Option.some.inj hRequest).symm
        refine .settled rfl hSecond (Stage.noConfusion ·) hSecondStage ?_ hNowhere ?_
        · rw [hStatus]
          rfl
        · exact fun _ _ hPath hSet => Or.inl (areaAllowed_quarantine (status_ne_published hSecondKnows hPath hSet))
      · rw [hOther] at hRequest
        cases hRequest

/-- The transaction is refused: what was moved can be put back. -/
theorem Away.refused {path : PyStr} {e : PyException} (hAway : Away first second graph source)
    (hStage : first.stage = .committing path (some (source, target))) (hColumns : SameColumns initial graph)
    (hPath : posixText initial.file.relativeStoragePath = initial.file.relativeStoragePath)
    (hKnows : first.Knows initial.file.relativeStoragePath)
    (hCommit : commit unicode first.call path (some graph) = .error e) :
    Away (first.at (.compensating source target)) second graph source where
  publish := hAway.publish
  restoreCommitting hRestore hCommitting := by
    obtain ⟨_, _, hCommitting⟩ := hCommitting
    cases hCommitting
  restoreCompensating hRestore _ := by
    obtain ⟨hNotReady, hBarred⟩ := commit_restore_error hRestore hCommit
    rcases hAway.restoreCommitting hRestore ⟨_, _, hStage⟩ with hAllowed | ⟨hReady, -⟩
    · refine ⟨hAllowed, ?_⟩
      rw [areaAllowed_software_iff] at hAllowed
      rcases hBarred with hBarred | hInfected
      · rcases hAllowed with hStatus | hStatus | hStatus
        · exact Or.inl hStatus
        · rw [hStatus] at hBarred
          simp [fileTransitions] at hBarred
        · rw [hStatus] at hBarred
          simp [fileTransitions] at hBarred
      · exact Or.inr (Or.inl hInfected)
    · exact (hNotReady hReady).elim
  delete := hAway.delete
  deleteCompensating hDelete _ := by
    by_contra hStatus
    rw [Process.Knows, hStage] at hKnows
    have hSamePath : graph.file.relativeStoragePath = path := by
      rw [hColumns.relativePath, hKnows.1, hPath]
    cases (commit_delete hDelete hStatus hSamePath).symm.trans hCommit

theorem joint_compensated (hAway : Away first second graph source) (hStage : first.stage = .compensating source target)
    (hMoves : first.call.Moves source target) (hSecond : second.carries = none) (hSecondStage : second.stage ≠ .unlinking)
    (hSecondKnows : second.Knows initial.file.relativeStoragePath) :
    Joint (first.at .finished) second (some graph) (some (.area source)) := by
  have hNowhere : Fits (first.at .finished) second graph source :=
    .of_not_committing fun path hPath => by cases hPath
  rcases hMoves.cases with ⟨hRequest, rfl, -⟩ | ⟨hRequest, rfl, -⟩ | ⟨hRequest, -⟩
  · refine .settled rfl hSecond (Stage.noConfusion ·) hSecondStage (areaAllowed_quarantine (hAway.publish hRequest)) hNowhere ?_
    exact fun _ _ hPath hSet => Or.inl (areaAllowed_quarantine (status_ne_published hSecondKnows hPath hSet))
  · obtain ⟨hAllowed, hBarred⟩ := hAway.restoreCompensating hRequest ⟨_, _, hStage⟩
    refine .settled rfl hSecond (Stage.noConfusion ·) hSecondStage hAllowed hNowhere ?_
    intro path status hPath hSet
    rcases hBarred with hPublished | hInfected | hFinished
    · exact Or.inr ⟨rfl, Or.inl hPublished⟩
    · exact Or.inr ⟨rfl, Or.inr hInfected⟩
    · cases hFinished.symm.trans hPath
  · have hPublished := hAway.deleteCompensating hRequest ⟨_, _, hStage⟩
    obtain rfl := hAway.delete hRequest hPublished
    refine .settled rfl hSecond (Stage.noConfusion ·) hSecondStage ?_ hNowhere ?_
    · rw [hPublished]
      rfl
    · exact fun _ _ _ _ => Or.inr ⟨rfl, Or.inl hPublished⟩

/-- The call that has moved the file takes a step. -/
theorem joint_away (hFirst : first.carries = some (source, target)) (hSecond : second.carries = none)
    (hSecondStage : second.stage ≠ .unlinking) (hAway : Away first second graph source)
    (hColumns : SameColumns initial graph)
    (hPath : posixText initial.file.relativeStoragePath = initial.file.relativeStoragePath)
    (hKnows : first.Knows initial.file.relativeStoragePath) (hSecondKnows : second.Knows initial.file.relativeStoragePath)
    (h : Turn unicode first (some graph) (some target) stage after there) : Joint (first.at stage) second after there := by
  have hMoves := hKnows.moves hFirst
  cases h with
  | failed hCarries => simp [hFirst] at hCarries
  | read hStage => simp [Process.carries, hStage] at hFirst
  | located hStage => simp [Process.carries, hStage] at hFirst
  | checked hStage => simp [Process.carries, hStage] at hFirst
  | moved hStage => simp [Process.carries, hStage] at hFirst
  | unlinked hStage => simp [Process.carries, hStage] at hFirst
  | stayed hStage => simp [Process.carries, hStage] at hFirst
  | @committed path moved _ hStage hCommit =>
      obtain rfl : moved = some (source, target) := by rwa [Process.carries, hStage] at hFirst
      obtain ⟨current, hCurrent, hCommits⟩ := commit_eq_ok hCommit
      cases hCurrent
      exact joint_committed hStage hMoves hSecond hSecondStage hSecondKnows hCommits
  | refused hStage hCommit =>
      rw [Process.carries, hStage] at hFirst
      cases hFirst
      exact .away rfl hSecond hSecondStage (hAway.refused hStage hColumns hPath hKnows hCommit)
  | compensated hStage hPlace =>
      rw [Process.carries, hStage] at hFirst
      cases hFirst
      exact joint_compensated hAway hStage hMoves hSecond hSecondStage hSecondKnows
  | lost hStage hPlace =>
      rw [Process.carries, hStage] at hFirst
      cases hFirst
      exact (hPlace rfl).elim

/-- The file stays away while the other call goes on. -/
theorem Away.other_turn (h : Away process other graph source) (hStage : other.stage = .finished → stage = .finished) :
    Away process (other.at stage) graph source where
  publish := h.publish
  restoreCommitting hRestore hCommitting := (h.restoreCommitting hRestore hCommitting).imp_right fun hReady =>
    ⟨hReady.1, hStage hReady.2⟩
  restoreCompensating hRestore hCompensating :=
    ⟨(h.restoreCompensating hRestore hCompensating).1,
      (h.restoreCompensating hRestore hCompensating).2.imp_right fun hBarred => hBarred.imp_right hStage⟩
  delete := h.delete
  deleteCompensating := h.deleteCompensating

/-- The other call changes the status while the file is away. -/
theorem Away.other_committed {path : PyStr} {now : FileGraph} (h : Away process other graph source)
    (hSides : Sides unicode initial process other graph) (hStage : other.stage = .committing path none)
    (hNot : now.file.status ≠ .published)
    (hChange : now.file.status = graph.file.status ∨ now.file.status ∈ fileTransitions graph.file.status)
    (hReady : now.file.status = .ready → graph.file.status = .ready ∨ graph.file.scannerStatus ≠ .infected) :
    Away process (other.at .finished) now source where
  publish _ := hNot
  restoreCommitting hRestore hCommitting := by
    rcases h.restoreCommitting hRestore hCommitting with hAllowed | ⟨-, hOver⟩
    · rw [areaAllowed_software_iff] at hAllowed ⊢
      rcases hAllowed with hStatus | hStatus | hStatus <;> rw [hStatus] at hChange <;>
        cases hNow : now.file.status <;> simp_all [fileTransitions, Process.at]
    · cases hOver.symm.trans hStage
  restoreCompensating hRestore hCompensating := by
    obtain ⟨hAllowed, hBarred⟩ := h.restoreCompensating hRestore hCompensating
    refine ⟨areaAllowed_of_change hAllowed ?_ hChange hReady, Or.inr (Or.inr rfl)⟩
    rcases hBarred with hPublished | hInfected | hOver
    · exact Or.inl hPublished
    · exact Or.inr hInfected
    · cases hOver.symm.trans hStage
  delete _ hStatus := (hNot hStatus).elim
  deleteCompensating hDelete hCompensating := by
    obtain ⟨area, place, hHere⟩ := hCompensating
    have hUnderway : process.stage.Underway := by
      rw [hHere]
      trivial
    rcases hSides.deletes hDelete hUnderway with hNotPublished | ⟨-, hOver⟩
    · exact (hNotPublished (h.deleteCompensating hDelete ⟨area, place, hHere⟩)).elim
    · cases hOver.symm.trans hStage

/-- A call that has moved a file is on its way. -/
theorem underway_of_carries (h : process.carries = some (source, target)) : process.stage.Underway := by
  rcases carries_eq_some h with ⟨path, hStage⟩ | hStage <;> rw [hStage] <;> trivial

theorem not_finished_of_carries (h : process.carries = some (source, target)) : process.stage ≠ .finished := by
  intro hStage
  simp [Process.carries, hStage] at h

/-- The other call takes the file from where the first has put it: only a deletion can. -/
theorem joint_stolen {path : PyStr} {second_source : StorageArea} {second_target : Place}
    (hFirst : first.carries = some (source, .area second_source)) (hFirstMoves : first.call.Moves source (.area second_source))
    (hStage : second.stage = .moving path second_source second_target)
    (hMoves : second.call.Moves second_source second_target) (hSides : Sides unicode initial first second graph)
    (hSecondSides : Sides unicode initial second first graph) :
    Joint (second.at (.committing path (some (second_source, second_target)))) first (some graph) (some second_target) := by
  have hUnderway : second.stage.Underway := by
    rw [hStage]
    trivial
  have hFirstUnderway := underway_of_carries hFirst
  have hNotOver := not_finished_of_carries hFirst
  rcases hMoves.cases with ⟨hPublish, rfl, -⟩ | ⟨hRestore, rfl, -⟩ | ⟨hDelete, -⟩
  · rcases hFirstMoves.cases with ⟨-, -, hTarget⟩ | ⟨hRestore, -⟩ | ⟨-, hTarget⟩
    · cases hTarget
    · exact (hNotOver (hSecondSides.publishes hPublish hUnderway hRestore)).elim
    · cases hTarget
  · rcases hFirstMoves.cases with ⟨hPublish, -⟩ | ⟨-, -, hTarget⟩ | ⟨-, hTarget⟩
    · cases (hSides.publishes hPublish hFirstUnderway hRestore).symm.trans hStage
    · cases hTarget
    · cases hTarget
  · refine .stacked rfl hDelete hFirst ?_
    rcases hSecondSides.deletes hDelete hUnderway with hNot | ⟨-, hOver⟩
    · exact hNot
    · exact (hNotOver hOver).elim

/-- The other call takes a step while the file is away. -/
theorem joint_other (hFirst : first.carries = some (source, target)) (hSecond : second.carries = none)
    (hSecondStage : second.stage ≠ .unlinking) (hAway : Away first second graph source)
    (hSides : Sides unicode initial first second graph) (hSecondSides : Sides unicode initial second first graph)
    (hKnows : first.Knows initial.file.relativeStoragePath) (hSecondKnows : second.Knows initial.file.relativeStoragePath)
    (h : Turn unicode second (some graph) (some target) stage after there) :
    Joint first (second.at stage) after there ∨ Joint (second.at stage) first after there := by
  have hFinished := h.finished_of_finished
  have hStay (next : Stage) (hCarries : (second.at next).carries = none) (hStage : next ≠ .unlinking)
      (hOther : second.stage = .finished → next = .finished) : Joint first (second.at next) (some graph) (some target) :=
    .away hFirst hCarries hStage (hAway.other_turn hOther)
  cases h with
  | failed => exact Or.inl (hStay .finished rfl (by simp) fun _ => rfl)
  | stayed => exact Or.inl (hStay .finished rfl (by simp) fun _ => rfl)
  | compensated hStage => simp [Process.carries, hStage] at hSecond
  | lost hStage => simp [Process.carries, hStage] at hSecond
  | unlinked hStage => exact (hSecondStage hStage).elim
  | refused hStage => simp [Process.carries, hStage] at hSecond
  | read hStage => exact Or.inl (hStay _ rfl (by simp) hFinished)
  | located hStage => exact Or.inl (hStay _ rfl (by simp) hFinished)
  | checked hStage => exact Or.inl (hStay _ rfl (by simp) hFinished)
  | moved hStage hPlace =>
      cases hPlace
      have hMoves := hSecondKnows
      rw [Process.Knows, hStage] at hMoves
      exact Or.inr (joint_stolen hFirst (hKnows.moves hFirst) hStage hMoves.2 hSides hSecondSides)
  | @committed path moved _ hStage hCommit =>
      obtain rfl : moved = none := by rwa [Process.carries, hStage] at hSecond
      obtain ⟨current, hCurrent, hCommits⟩ := commit_eq_ok hCommit
      cases hCurrent
      have hCommitting := hSecondKnows
      rw [Process.Knows, hStage] at hCommitting
      obtain ⟨status, hStatus, hNot⟩ := hCommitting
      cases hCommits with
      | published hRequest =>
          rw [hRequest] at hStatus
          cases hStatus
      | deleted hRequest =>
          rw [hRequest] at hStatus
          cases hStatus
      | changed hRequest hSame hChange hReady =>
          obtain rfl := Option.some.inj (hStatus.symm.trans hRequest)
          rw [if_neg (Commits.changed hRequest hSame hChange hReady).not_delete]
          exact Or.inl (.away hFirst rfl (Stage.noConfusion ·)
            (hAway.other_committed hSides hStage hNot hChange hReady))

/-- The deletion of a file that the other call has moved. -/
theorem joint_stacked {path : PyStr} (hFirst : first.stage = .committing path (some (area, target)))
    (hDelete : first.call.request = .permanentlyDelete) (hSecond : second.carries = some (source, .area area))
    (hStatus : graph.file.status ≠ .published) (hColumns : SameColumns initial graph)
    (hPath : posixText initial.file.relativeStoragePath = initial.file.relativeStoragePath)
    (hKnows : first.Knows initial.file.relativeStoragePath) (hSecondKnows : second.Knows initial.file.relativeStoragePath)
    (h : Turn unicode first (some graph) (some target) stage after there) : Joint (first.at stage) second after there := by
  rw [Process.Knows, hFirst] at hKnows
  have hSamePath : graph.file.relativeStoragePath = path := by
    rw [hColumns.relativePath, hKnows.1, hPath]
  have hSecondStage : second.stage ≠ .unlinking := by
    intro hStage
    simp [Process.carries, hStage] at hSecond
  have hSecondMoves := hSecondKnows.moves hSecond
  cases h with
  | failed hCarries => simp [Process.carries, hFirst] at hCarries
  | read hStage => cases hFirst.symm.trans hStage
  | located hStage => cases hFirst.symm.trans hStage
  | checked hStage => cases hFirst.symm.trans hStage
  | moved hStage => cases hFirst.symm.trans hStage
  | unlinked hStage => cases hFirst.symm.trans hStage
  | stayed hStage => cases hFirst.symm.trans hStage
  | compensated hStage => cases hFirst.symm.trans hStage
  | lost hStage => cases hFirst.symm.trans hStage
  | refused hStage hCommit =>
      cases hFirst.symm.trans hStage
      cases (commit_delete hDelete hStatus hSamePath).symm.trans hCommit
  | committed hStage hCommit =>
      cases hFirst.symm.trans hStage
      cases (commit_delete hDelete hStatus hSamePath).symm.trans hCommit
      rw [if_pos hDelete]
      rcases hKnows.2.cases with ⟨hOther, -⟩ | ⟨hOther, -⟩ | ⟨-, rfl⟩
      · cases hOther.symm.trans hDelete
      · cases hOther.symm.trans hDelete
      · refine .deleted (Or.inl ⟨rfl, rfl⟩) hSecondStage fun hSecondDelete => ?_
        rcases hSecondMoves.cases with ⟨hOther, -⟩ | ⟨hOther, -⟩ | ⟨-, hTarget⟩
        · cases hOther.symm.trans hSecondDelete
        · cases hOther.symm.trans hSecondDelete
        · cases hTarget

/-- The call whose file the deletion has taken goes on. -/
theorem joint_robbed {path : PyStr} (hFirst : first.stage = .committing path (some (area, target)))
    (hDelete : first.call.request = .permanentlyDelete) (hSecond : second.carries = some (source, .area area))
    (hStatus : graph.file.status ≠ .published) (hKnows : first.Knows initial.file.relativeStoragePath)
    (hSecondKnows : second.Knows initial.file.relativeStoragePath)
    (h : Turn unicode second (some graph) (some target) stage after there) : Joint first (second.at stage) after there := by
  have hMoves := hSecondKnows.moves hSecond
  have hCarries : first.carries = some (area, target) := by rw [Process.carries, hFirst]
  have hTarget : target ≠ .area area := by
    rcases (hKnows.moves hCarries).cases with ⟨hOther, -⟩ | ⟨hOther, -⟩ | ⟨-, rfl⟩
    · cases hOther.symm.trans hDelete
    · cases hOther.symm.trans hDelete
    · simp
  -- the deletion alone remains; it is refused only when the publication has come first
  have hAlone {now : FileGraph} (hNow : now.file.status = .published → area = .software) :
      Joint first (second.at .finished) (some now) (some target) := by
    refine .away hCarries rfl (Stage.noConfusion ·) ⟨?_, ?_, ?_, ?_, ?_⟩
    · exact fun hOther => by cases hOther.symm.trans hDelete
    · exact fun hOther => by cases hOther.symm.trans hDelete
    · exact fun hOther => by cases hOther.symm.trans hDelete
    · exact fun _ => hNow
    · rintro - ⟨_, _, hCompensating⟩
      cases hFirst.symm.trans hCompensating
  cases h with
  | failed hNone => simp [hSecond] at hNone
  | read hStage => simp [Process.carries, hStage] at hSecond
  | located hStage => simp [Process.carries, hStage] at hSecond
  | checked hStage => simp [Process.carries, hStage] at hSecond
  | moved hStage => simp [Process.carries, hStage] at hSecond
  | unlinked hStage => simp [Process.carries, hStage] at hSecond
  | stayed hStage => simp [Process.carries, hStage] at hSecond
  | refused hStage hCommit =>
      rw [Process.carries, hStage] at hSecond
      cases hSecond
      exact .stacked hFirst hDelete rfl hStatus
  | compensated hStage hPlace =>
      rw [Process.carries, hStage] at hSecond
      cases hSecond
      exact (hTarget (Option.some.inj hPlace)).elim
  | lost hStage hPlace => exact hAlone fun hPublished => (hStatus hPublished).elim
  | committed hStage hCommit =>
      obtain ⟨current, hCurrent, hCommits⟩ := commit_eq_ok hCommit
      cases hCurrent
      cases hCommits with
      | published hRequest hSame hPublished =>
          rw [if_neg (Commits.published hRequest hSame hPublished).not_delete]
          apply hAlone
          intro _
          rcases hMoves.cases with ⟨-, -, hArea⟩ | ⟨hOther, -⟩ | ⟨hOther, -⟩
          · cases hArea
            rfl
          · cases hOther.symm.trans hRequest
          · cases hOther.symm.trans hRequest
      | deleted hRequest =>
          rcases hMoves.cases with ⟨hOther, -⟩ | ⟨hOther, -⟩ | ⟨-, hArea⟩
          · cases hOther.symm.trans hRequest
          · cases hOther.symm.trans hRequest
          · cases hArea
      | changed hRequest hSame hChange hReady =>
          rw [if_neg (Commits.changed hRequest hSame hChange hReady).not_delete]
          apply hAlone
          intro hPublished
          exact (status_ne_published hSecondKnows hStage hRequest hPublished).elim

/-- The file is deleted, or about to be: its deletion goes on. -/
theorem joint_deleted (hFirst : (first.stage = .unlinking ∧ place = some (.staged first.call.uuid)) ∨
      (first.stage = .finished ∧ place = none)) (hSecondStage : second.stage ≠ .unlinking)
    (hSecond : second.call.request = .permanentlyDelete → second.carries = none)
    (h : Turn unicode first none place stage after there) : Joint (first.at stage) second after there := by
  rcases hFirst with ⟨hStage, rfl⟩ | ⟨hStage, rfl⟩
  · cases h with
    | unlinked =>
        rw [if_pos rfl]
        exact .deleted (Or.inr ⟨rfl, rfl⟩) hSecondStage hSecond
    | failed _ hNot => exact (hNot hStage).elim
    | read hOther => cases hStage.symm.trans hOther
    | located hOther => cases hStage.symm.trans hOther
    | checked hOther => cases hStage.symm.trans hOther
    | moved hOther => cases hStage.symm.trans hOther
    | committed hOther => cases hStage.symm.trans hOther
    | refused hOther => cases hStage.symm.trans hOther
    | compensated hOther => cases hStage.symm.trans hOther
    | lost hOther => cases hStage.symm.trans hOther
    | stayed hOther => cases hStage.symm.trans hOther
  · cases h with
    | unlinked hOther => cases hStage.symm.trans hOther
    | failed _ _ => exact .deleted (Or.inr ⟨rfl, rfl⟩) hSecondStage hSecond
    | stayed _ => exact .deleted (Or.inr ⟨rfl, rfl⟩) hSecondStage hSecond
    | lost _ _ => exact .deleted (Or.inr ⟨rfl, rfl⟩) hSecondStage hSecond
    | read hOther => cases hStage.symm.trans hOther
    | located hOther => cases hStage.symm.trans hOther
    | checked hOther => cases hStage.symm.trans hOther
    | moved hOther => cases hStage.symm.trans hOther
    | committed hOther => cases hStage.symm.trans hOther
    | refused hOther => cases hStage.symm.trans hOther
    | compensated hOther => cases hStage.symm.trans hOther

/-- The other call finds neither the row nor the file. -/
theorem joint_bereft (hFirst : (first.stage = .unlinking ∧ place = some (.staged first.call.uuid)) ∨
      (first.stage = .finished ∧ place = none)) (hSecondStage : second.stage ≠ .unlinking)
    (hSecond : second.call.request = .permanentlyDelete → second.carries = none)
    (hKnows : second.Knows initial.file.relativeStoragePath) (h : Turn unicode second none place stage after there) :
    Joint first (second.at stage) after there := by
  have hArea (area : StorageArea) : place ≠ some (.area area) := by
    rcases hFirst with ⟨-, rfl⟩ | ⟨-, rfl⟩ <;> simp
  have hOver : Joint first (second.at .finished) none place := .deleted hFirst (Stage.noConfusion ·) fun _ => rfl
  cases h with
  | failed => exact hOver
  | lost => exact hOver
  | stayed => exact hOver
  | read hStage hRow => cases hRow
  | located hStage hPlace => exact (hArea _ hPlace).elim
  | checked hStage hPlace => exact (hArea _ hPlace).elim
  | moved hStage hPlace => exact (hArea _ hPlace).elim
  | unlinked hStage => exact (hSecondStage hStage).elim
  | committed hStage hCommit =>
      obtain ⟨current, hCurrent, -⟩ := commit_eq_ok hCommit
      cases hCurrent
  | refused hStage hCommit =>
      refine .deleted hFirst (Stage.noConfusion ·) fun hDelete => ?_
      have hNone := hSecond hDelete
      simp [Process.carries, hStage] at hNone
  | compensated hStage hPlace =>
      have hMoves := hKnows
      rw [Process.Knows, hStage] at hMoves
      rcases hMoves.cases with ⟨-, -, rfl⟩ | ⟨-, -, rfl⟩ | ⟨hDelete, -⟩
      · exact (hArea _ hPlace).elim
      · exact (hArea _ hPlace).elim
      · have hNone := hSecond hDelete
        simp [Process.carries, hStage] at hNone

end Places

/-- A turn of the first call. -/
theorem Overlap.turn (hPath : posixText initial.file.relativeStoragePath = initial.file.relativeStoragePath)
    (hOverlap : Overlap unicode initial first second row place) (h : Turn unicode first row place stage after there) :
    Overlap unicode initial (first.at stage) second after there := by
  obtain ⟨hJoint, hSides, hColumns, hKnows, hSecondKnows⟩ := hOverlap
  refine ⟨?_, fun graph hAfter => sides_turn hSides hKnows h hAfter, ?_, ?_, hSecondKnows⟩
  · rcases hJoint with hJoint | hJoint
    · cases hJoint with
      | settled hFirst hSecond hFirstStage hSecondStage hAllowed hFirstFits hSecondFits =>
          exact Or.inl (joint_settled hFirst hSecond hFirstStage hSecondStage hAllowed hFirstFits hSecondFits hKnows h)
      | away hFirst hSecond hSecondStage hAway =>
          exact Or.inl (joint_away hFirst hSecond hSecondStage hAway (hColumns _ rfl) hPath hKnows hSecondKnows h)
      | stacked hFirst hDelete hSecond hStatus =>
          exact Or.inl (joint_stacked hFirst hDelete hSecond hStatus (hColumns _ rfl) hPath hKnows hSecondKnows h)
      | deleted hFirst hSecondStage hSecond => exact Or.inl (joint_deleted hFirst hSecondStage hSecond h)
    · cases hJoint with
      | settled hSecond hFirst hSecondStage hFirstStage hAllowed hSecondFits hFirstFits =>
          exact Or.inl (joint_settled hFirst hSecond hFirstStage hSecondStage hAllowed hFirstFits hSecondFits hKnows h)
      | away hSecond hFirst hFirstStage hAway =>
          obtain ⟨hOwn, hOther⟩ := hSides _ rfl
          exact (joint_other hSecond hFirst hFirstStage hAway hOther hOwn hSecondKnows hKnows h).symm
      | stacked hSecond hDelete hFirst hStatus =>
          exact Or.inr (joint_robbed hSecond hDelete hFirst hStatus hSecondKnows hKnows h)
      | deleted hSecond hFirstStage hFirst => exact Or.inr (joint_bereft hSecond hFirstStage hFirst hKnows h)
  · intro graph hAfter
    cases h with
    | committed hStage hCommit =>
        rw [hAfter] at hCommit
        obtain ⟨current, hCurrent, hCommits⟩ := commit_eq_ok hCommit
        cases hCommits with
        | published hRequest hSame => exact (hColumns current hCurrent).trans hSame
        | changed hRequest hSame => exact (hColumns current hCurrent).trans hSame
    | _ => exact hColumns graph hAfter
  · exact hKnows.turn (fun graph hRow => (hColumns graph hRow).relativePath) h

end Turns

section Runs

variable {unicode : Unicode} {first second : Call} {graph : FileGraph} {content : Bytes} {area : StorageArea} {state : FileState}

def run (unicode : Unicode) (first second : Call) (state : FileState) (schedule : List Nat) : List Process × FileState :=
  interleave (Process.step unicode) schedule ([first.start, second.start], state)

/-- A publication that may go ahead, beside a return to the ready status. -/
def Clash (unicode : Unicode) (first second : Call) (graph : FileGraph) : Prop :=
  (first.request = .publish ∧ second.request = .restoreReady ∨ first.request = .restoreReady ∧ second.request = .publish) ∧
    ensurePublishReady unicode graph = .ok ()

def Kept (unicode : Unicode) (initial : FileGraph) (content : Bytes) (system : List Process × FileState) : Prop :=
  ∃ one other row place, system = ([one, other], ⟨row, only content place⟩) ∧ Overlap unicode initial one other row place

/-- One step of one call keeps all of it. -/
theorem Overlap.step {initial : FileGraph} {one other : Process} {row : Option FileGraph} {place : Option Place}
    (hPath : posixText initial.file.relativeStoragePath = initial.file.relativeStoragePath)
    (h : Overlap unicode initial one other row place) (content : Bytes) : ∃ stage after there,
      one.step unicode ⟨row, only content place⟩ = (one.at stage, ⟨after, only content there⟩) ∧
      Overlap unicode initial (one.at stage) other after there := by
  obtain ⟨stage, after, there, hStep, hTurn⟩ := turn_of_step unicode one row place content h.knows.1
  exact ⟨stage, after, there, hStep, h.turn hPath hTurn⟩

theorem kept_of_start (hAgree : Agree graph content area state) (hClash : ¬Clash unicode first second graph) :
    Kept unicode graph content ([first.start, second.start], state) := by
  obtain ⟨row, files⟩ := state
  obtain rfl := hAgree.row
  obtain rfl := hAgree.files
  have hNowhere (call other : Call) : Fits call.start other.start graph area :=
    .of_not_committing fun path hPath => by cases hPath
  have hSides {call other : Call} (hNot : call.request = .publish → other.request = .restoreReady →
      ensurePublishReady unicode graph ≠ .ok ()) : Sides unicode graph call.start other.start graph :=
    ⟨fun _ hUnderway => hUnderway.elim, fun _ hUnderway => hUnderway.elim, fun _ _ _ _ => rfl, hNot⟩
  refine ⟨first.start, second.start, _, _, rfl, Or.inl ?_, ?_, ?_, trivial, trivial⟩
  · exact .settled rfl rfl (Stage.noConfusion ·) (Stage.noConfusion ·) hAgree.allowed (hNowhere _ _) (hNowhere _ _)
  · rintro found hFound
    cases hFound
    exact ⟨hSides fun hPublish hRestore hReady => hClash ⟨Or.inl ⟨hPublish, hRestore⟩, hReady⟩,
      hSides fun hPublish hRestore hReady => hClash ⟨Or.inr ⟨hRestore, hPublish⟩, hReady⟩⟩
  · rintro found hFound
    cases hFound
    exact .refl graph

theorem kept_of_run (hAgree : Agree graph content area state) (hClash : ¬Clash unicode first second graph)
    (schedule : List Nat) : Kept unicode graph content (run unicode first second state schedule) := by
  refine @interleave_of_invariant _ _ _ (Kept unicode graph content) ?_ _ (kept_of_start hAgree hClash) schedule
  rintro threads now i thread ⟨one, other, row, place, hSystem, hOverlap⟩ hThread
  cases hSystem
  rcases i with _ | _ | i
  · obtain rfl := Option.some.inj hThread
    obtain ⟨stage, after, there, hStep, hNext⟩ := hOverlap.step hAgree.relativePath content
    rw [hStep]
    exact ⟨_, _, _, _, rfl, hNext⟩
  · obtain rfl := Option.some.inj hThread
    obtain ⟨stage, after, there, hStep, hNext⟩ := hOverlap.symm.step hAgree.relativePath content
    rw [hStep]
    exact ⟨_, _, _, _, rfl, hNext.symm⟩
  · cases hThread

/-- When both calls are over, the file and its row agree. -/
theorem Joint.placed {one other : Process} {row : Option FileGraph} {place : Option Place} (h : Joint one other row place)
    (hOne : one.stage = .finished) : Placed content ⟨row, only content place⟩ := by
  cases h with
  | settled _ _ _ _ hAllowed => exact ⟨_, rfl, hAllowed⟩
  | away hCarries => simp [Process.carries, hOne] at hCarries
  | stacked hStage => cases hStage.symm.trans hOne
  | deleted hPlace =>
      rcases hPlace with ⟨hStage, -⟩ | ⟨-, rfl⟩
      · cases hStage.symm.trans hOne
      · rfl

/-- The first read of a call whose row allows the request. -/
theorem get_ok {request : Request} (hRequest : ensureRequest request = .ok ())
    (hRow : ensureRow unicode request graph = .ok ()) : get unicode request (some graph) = .ok graph.file := by
  rw [get, except_bind_ok hRequest, except_bind_ok hRow]
  rfl

/-- The check of a physical file that agrees with its row. -/
theorem inspect_ok {request : Request} (hSize : content.length = graph.file.fileSizeBytes)
    (hDigest : Sha256.hexdigest content = graph.file.sha256) (hArea : ensureArea request area = .ok ()) :
    inspect request graph.file (only content (some (.area area))) = .ok area := by
  have hLocated : locate (only content (some (.area area))) = .ok (area, content) := by
    cases area <;> rfl
  have hVerified : verifiedPhysicalFile graph.file (request = .publish) (only content (some (.area area))) = .ok area := by
    rw [verifiedPhysicalFile, except_bind_ok hLocated, except_bind_ok (a := ()) (require_eq_ok_iff.mpr hSize)]
    split_ifs
    · rw [except_bind_ok (a := ()) (require_eq_ok_iff.mpr ⟨hSize, hDigest⟩)]
      rfl
    · rfl
  rw [inspect, except_bind_ok hVerified, except_bind_ok hArea]
  rfl

/-- The steps of a call up to its transaction. -/
theorem steps_to_transaction {call : Call} {target : Place} (hSize : content.length = graph.file.fileSizeBytes)
    (hDigest : Sha256.hexdigest content = graph.file.sha256) (hRequest : ensureRequest call.request = .ok ())
    (hRow : ensureRow unicode call.request graph = .ok ()) (hArea : ensureArea call.request area = .ok ())
    (hTarget : call.target? area = some target) (hNe : .area area ≠ target) :
    call.start.step unicode ⟨some graph, only content (some (.area area))⟩ =
        (⟨call, .inspecting graph.file⟩, ⟨some graph, only content (some (.area area))⟩) ∧
      Process.step unicode ⟨call, .inspecting graph.file⟩ ⟨some graph, only content (some (.area area))⟩ =
        (⟨call, .moving (posixText graph.file.relativeStoragePath) area target⟩,
          ⟨some graph, only content (some (.area area))⟩) ∧
      Process.step unicode ⟨call, .moving (posixText graph.file.relativeStoragePath) area target⟩
          ⟨some graph, only content (some (.area area))⟩ =
        (⟨call, .committing (posixText graph.file.relativeStoragePath) (some (area, target))⟩,
          ⟨some graph, only content (some target)⟩) := by
  refine ⟨?_, ?_, ?_⟩
  · rw [Process.step, Call.start]
    dsimp only
    rw [get_ok hRequest hRow]
    rfl
  · rw [Process.step]
    dsimp only
    rw [inspect_ok hSize hDigest hArea]
    dsimp only
    rw [hTarget]
    rfl
  · rw [Process.step]
    dsimp only
    rw [move_only hNe]
    rfl

theorem step_transaction {call : Call} {path : PyStr} {moved : Option (StorageArea × Place)} {row after : Option FileGraph}
    {files : PlacedFiles} (h : commit unicode call path row = .ok after) (hNot : call.request ≠ .permanentlyDelete) :
    Process.step unicode ⟨call, .committing path moved⟩ ⟨row, files⟩ = (⟨call, .finished⟩, ⟨after, files⟩) := by
  rw [Process.step]
  dsimp only
  rw [h]
  dsimp only
  rw [if_neg hNot]
  rfl

/-- The publication of a row that is ready for it. -/
theorem exists_commit_publish {call : Call} (hRequest : call.request = .publish)
    (hReady : ensurePublishReady unicode graph = .ok ()) : ∃ after,
      commit unicode call graph.file.relativeStoragePath (some graph) = .ok (some after) ∧ after.file.status = .published := by
  obtain ⟨hStatus, -, hRelease, hSoftware, hScanner⟩ := ensurePublishReady_eq_ok hReady
  have hInfected : graph.file.scannerStatus ≠ .infected := by
    rintro hInfected
    rw [hInfected] at hScanner
    rcases hScanner with hScanner | hScanner <;> cases hScanner
  have hAllowed : FileStatus.published = graph.file.status ∨ .published ∈ fileTransitions graph.file.status := by
    rw [hStatus]
    simp [fileTransitions]
  have hNe : ¬FileStatus.published = graph.file.status := by
    rw [hStatus]
    simp
  have hNotReady : ¬(FileStatus.published = .ready ∧ graph.file.scannerStatus = .infected) := fun h => hInfected h.2
  obtain ⟨file, hFile⟩ : ∃ file, applyFileTransition graph.software graph.release graph.file .published call.now = .ok file := by
    unfold applyFileTransition
    rw [ensureTransition, except_bind_ok (a := ()) (require_eq_ok_iff.mpr hAllowed), if_neg hNe,
      except_bind_ok (a := ()) (require_eq_ok_iff.mpr hNotReady)]
    dsimp only
    rw [except_bind_ok (a := ()) (require_eq_ok_iff.mpr hRelease), except_bind_ok (a := ()) (require_eq_ok_iff.mpr hSoftware),
      except_bind_ok (a := ()) (require_eq_ok_iff.mpr hInfected)]
    exact ⟨_, rfl⟩
  refine ⟨{ graph with file := { file with relativeStoragePath := graph.file.relativeStoragePath } }, ?_, ?_⟩
  · rw [commit, hRequest]
    dsimp only
    rw [except_bind_ok hReady, except_bind_ok (a := ()) (require_eq_ok_iff.mpr rfl), except_bind_ok hFile]
    rfl
  · exact congrArg ReleaseFile.status (applyFileTransition_eq_ok hFile).1

/-- In either order, a schedule ends with a published row and its file in quarantine. -/
theorem clash_run {publication restoration : Call} (hAgree : Agree graph content .quarantine state)
    (hPublish : publication.request = .publish) (hRestore : restoration.request = .restoreReady)
    (hReady : ensurePublishReady unicode graph = .ok ()) : ∃ after : FileGraph, after.file.status = .published ∧
      run unicode publication restoration state [0, 0, 0, 1, 1, 1, 1, 0] =
        ([⟨publication, .finished⟩, ⟨restoration, .finished⟩], ⟨some after, only content (some (.area .quarantine))⟩) ∧
      run unicode restoration publication state [1, 1, 1, 0, 0, 0, 0, 1] =
        ([⟨restoration, .finished⟩, ⟨publication, .finished⟩], ⟨some after, only content (some (.area .quarantine))⟩) := by
  obtain ⟨row, files⟩ := state
  obtain rfl := hAgree.row
  obtain rfl := hAgree.files
  obtain ⟨after, hCommit, hStatus⟩ := exists_commit_publish hPublish hReady
  have hRestored : commit unicode restoration (posixText graph.file.relativeStoragePath) (some graph) = .ok (some graph) := by
    have hSame : applyFileTransition graph.software graph.release graph.file .ready restoration.now = .ok graph.file := by
      unfold applyFileTransition
      rw [(ensurePublishReady_eq_ok hReady).1]
      rfl
    rw [commit, hRestore]
    dsimp only [transition]
    rw [except_bind_ok hSame]
    rfl
  obtain ⟨hRead, hInspect, hMove⟩ := @steps_to_transaction unicode graph content .quarantine publication (.area .software)
    hAgree.size hAgree.sha256 (by rw [hPublish]; rfl) (by rw [hPublish]; exact hReady) (by rw [hPublish]; rfl)
    (by rw [Call.target?, hPublish]) (by simp)
  obtain ⟨hOtherRead, hOtherInspect, hOtherMove⟩ := @steps_to_transaction unicode graph content .software restoration
    (.area .quarantine) hAgree.size hAgree.sha256 (by rw [hRestore]; rfl) (by rw [hRestore]; rfl) (by rw [hRestore]; rfl)
    (by rw [Call.target?, hRestore]; rfl) (by simp)
  have hRestoredStep := @step_transaction unicode restoration _ (some (.software, .area .quarantine)) _ _
    (only content (some (.area .quarantine))) hRestored (by rw [hRestore]; simp)
  rw [← hAgree.relativePath] at hCommit
  have hCommitStep := @step_transaction unicode publication _ (some (.quarantine, .area .software)) _ _
    (only content (some (.area .quarantine))) hCommit (by rw [hPublish]; simp)
  refine ⟨after, hStatus, ?_, ?_⟩
  · simp only [run, interleave, advance, List.getElem?_cons_zero, List.getElem?_cons_succ, List.set_cons_zero,
      List.set_cons_succ, hRead, hInspect, hMove, hOtherRead, hOtherInspect, hOtherMove, hRestoredStep,
      hCommitStep]
  · simp only [run, interleave, advance, List.getElem?_cons_zero, List.getElem?_cons_succ, List.set_cons_zero,
      List.set_cons_succ, hRead, hInspect, hMove, hOtherRead, hOtherInspect, hOtherMove, hRestoredStep,
      hCommitStep]

/-- A published row and a file in quarantine do not agree. -/
theorem not_placed_of_published {after : FileGraph} (hStatus : after.file.status = .published) :
    ¬Placed content ⟨some after, only content (some (.area .quarantine))⟩ := by
  rintro ⟨found, hFiles, hAllowed⟩
  rw [hStatus] at hAllowed
  obtain rfl := eq_software_of_published hAllowed
  have hHere : only content (some (.area .quarantine)) (.area .quarantine) =
      only content (some (.area .software)) (.area .quarantine) := congrFun hFiles (.area .quarantine)
  rw [only_self, only_of_ne (by simp)] at hHere
  cases hHere

/-- A clash goes wrong after some schedule. -/
theorem not_placed_of_clash (hAgree : Agree graph content area state) (hClash : Clash unicode first second graph) :
    ¬∀ schedule, (∀ process ∈ (run unicode first second state schedule).1, process.stage = .finished) →
      Placed content (run unicode first second state schedule).2 := by
  obtain ⟨hRequests, hReady⟩ := hClash
  obtain rfl : area = .quarantine := by
    have hAllowed := hAgree.allowed
    rw [(ensurePublishReady_eq_ok hReady).1] at hAllowed
    cases area with
    | quarantine => rfl
    | software => cases hAllowed
  intro hAll
  rcases hRequests with ⟨hPublish, hRestore⟩ | ⟨hRestore, hPublish⟩
  · obtain ⟨after, hStatus, hRun, -⟩ := clash_run hAgree hPublish hRestore hReady
    have hPlaced := hAll [0, 0, 0, 1, 1, 1, 1, 0]
    rw [hRun] at hPlaced
    exact not_placed_of_published hStatus (hPlaced (by simp))
  · obtain ⟨after, hStatus, -, hRun⟩ := clash_run hAgree hPublish hRestore hReady
    have hPlaced := hAll [1, 1, 1, 0, 0, 0, 0, 1]
    rw [hRun] at hPlaced
    exact not_placed_of_published hStatus (hPlaced (by simp))

/-- Two overlapping calls leave the file and its row in agreement after every
schedule, unless one publishes a ready file and the other returns it to ready. -/
theorem overlapping_calls_agree_iff (hAgree : Agree graph content area state) :
    (∀ schedule, (∀ process ∈ (run unicode first second state schedule).1, process.stage = .finished) →
        Placed content (run unicode first second state schedule).2) ↔ ¬Clash unicode first second graph := by
  constructor
  · exact fun hAll hClash => not_placed_of_clash hAgree hClash hAll
  · intro hClash schedule hFinished
    obtain ⟨one, other, row, place, hSystem, hOverlap⟩ := kept_of_run hAgree hClash schedule
    rw [hSystem] at hFinished ⊢
    rcases hOverlap.joint with hJoint | hJoint
    · exact hJoint.placed (hFinished one (by simp))
    · exact hJoint.placed (hFinished other (by simp))

end Runs

/-- A ready file with the parents that a publication asks for. -/
def sampleGraph : FileGraph where
  file := sampleFile
  release := ⟨1, 1, py "1.0", .stable, none, none, false, .published, none⟩
  software := ⟨1, .published, .isPublic, none, none⟩

def sampleState : FileState := ⟨some sampleGraph, only [1, 2] (some (.area .quarantine))⟩

/-- One client publishes the file. -/
def publishCall : Call := ⟨.publish, ⟨0, Instant.instantCount_pos⟩, 1⟩

/-- Another one returns it to the ready status. -/
def restoreCall : Call := ⟨.restoreReady, ⟨0, Instant.instantCount_pos⟩, 2⟩

theorem sampleState_agrees : Agree sampleGraph [1, 2] .quarantine sampleState where
  row := rfl
  files := rfl
  size := rfl
  sha256 := rfl
  relativePath := by decide
  allowed := rfl

/-- Both return, and the row is published while its file is in quarantine. -/
theorem publish_overlapping_restore : ¬∀ schedule,
    (∀ process ∈ (run .ascii publishCall restoreCall sampleState schedule).1, process.stage = .finished) →
      Placed [1, 2] (run .ascii publishCall restoreCall sampleState schedule).2 :=
  not_placed_of_clash sampleState_agrees ⟨Or.inl ⟨rfl, rfl⟩, by decide +kernel⟩

theorem overlapping_calls_agree_iff_sample :
    (∀ schedule, (∀ process ∈ (run .ascii publishCall publishCall sampleState schedule).1, process.stage = .finished) →
        Placed [1, 2] (run .ascii publishCall publishCall sampleState schedule).2) ↔
      ¬Clash .ascii publishCall publishCall sampleGraph :=
  overlapping_calls_agree_iff sampleState_agrees

end SoftwareHub.Lifecycle.Requests
