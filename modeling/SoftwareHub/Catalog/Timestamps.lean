import SoftwareHub.Catalog.Policies
import SoftwareHub.Semantics.FirstTime
import Mathlib.Logic.Function.Basic

/-! The transitions as the policies carry them out, one assignment after the other,
and the timestamps over runs of them. -/
namespace SoftwareHub.Catalog

open SoftwareHub.Python SoftwareHub.Semantics SoftwareHub.Semantics.Program

/-- All the software, release and file objects. A release refers to its software and
a file to its release, which several may share. -/
structure Objects where
  software : Nat → Software
  release : Nat → Release
  file : Nat → ReleaseFile

namespace Objects

def parentOfRelease (objects : Objects) (i : Nat) : Software := objects.software (objects.release i).softwareId

def releaseOfFile (objects : Objects) (i : Nat) : Release := objects.release (objects.file i).releaseId

def softwareOfFile (objects : Objects) (i : Nat) : Software := objects.software (objects.releaseOfFile i).softwareId

def setSoftware (objects : Objects) (i : Nat) (software : Software) : Objects :=
  { objects with software := Function.update objects.software i software }

def setRelease (objects : Objects) (i : Nat) (release : Release) : Objects :=
  { objects with release := Function.update objects.release i release }

def setFile (objects : Objects) (i : Nat) (file : ReleaseFile) : Objects :=
  { objects with file := Function.update objects.file i file }

end Objects

/-- A policy as a program over the objects. -/
abbrev Lifecycle : Type := Program Objects PyException Unit

section Assignments

variable (i : Nat) (now : Instant)

def assignSoftware (f : Software → Software) : Lifecycle :=
  write fun objects => objects.setSoftware i (f (objects.software i))

def assignRelease (f : Release → Release) : Lifecycle :=
  write fun objects => objects.setRelease i (f (objects.release i))

def assignFile (f : ReleaseFile → ReleaseFile) : Lifecycle :=
  write fun objects => objects.setFile i (f (objects.file i))

/-- `apply_software_transition`, assignment by assignment. -/
def transitionSoftware (target : SoftwareStatus) : Lifecycle := do
  let software ← read fun objects => objects.software i
  lift (ensureTransition software.status target softwareTransitions SoftwareStatus.value "software")
  if target = software.status then pure ()
  else do
    assignSoftware i fun software => { software with status := target }
    if target = .published then do
      assignSoftware i fun software => { software with publishedAt := some (software.publishedAt.getD now) }
      assignSoftware i fun software => { software with archivedAt := none }
    else if target = .archived then assignSoftware i fun software => { software with archivedAt := some now }
    else assignSoftware i fun software => { software with archivedAt := none }

/-- `apply_release_transition`, assignment by assignment. -/
def transitionRelease (target : ReleaseStatus) : Lifecycle := do
  let release ← read fun objects => objects.release i
  let software ← read fun objects => objects.parentOfRelease i
  lift (ensureTransition release.status target releaseTransitions ReleaseStatus.value "release")
  if target = release.status then pure ()
  else do
    lift (require (target = .published → software.Released) (invalidStateTransition
      "A release can be published only while its software is published or hidden."))
    assignRelease i fun release => { release with status := target }
    if target = .published then
      assignRelease i fun release => { release with publishedAt := some (release.publishedAt.getD now) }
    else assignRelease i fun release => { release with isCurrent := false }

/-- `apply_file_transition`, assignment by assignment; the status is assigned last. -/
def transitionFile (target : FileStatus) : Lifecycle := do
  let file ← read fun objects => objects.file i
  let release ← read fun objects => objects.releaseOfFile i
  let software ← read fun objects => objects.softwareOfFile i
  lift (ensureTransition file.status target fileTransitions FileStatus.value "file")
  if target = file.status then pure ()
  else do
    lift (require (¬(target = .ready ∧ file.scannerStatus = .infected)) (invalidStateTransition
      "An infected file cannot be approved as ready."))
    if target = .published then do
      lift (require (release.status = .published) (invalidStateTransition
        "A file requires a published release before publication."))
      lift (require software.Released (invalidStateTransition
        "A file requires published or hidden software before publication."))
      lift (require (file.scannerStatus ≠ .infected) (invalidStateTransition "An infected file cannot be published."))
      assignFile i fun file => { file with publishedAt := some (file.publishedAt.getD now) }
      assignFile i fun file => { file with disabledAt := none }
    else if target = .disabled then assignFile i fun file => { file with disabledAt := some now }
    else assignFile i fun file => { file with disabledAt := none }
    assignFile i fun file => { file with status := target }

end Assignments

/-- The outcome of a checked replacement of one object: all of it, or nothing. -/
def Replaced {α : Type} (result : Except PyException α) (set : α → Objects) (objects : Objects) :
    Except PyException Unit × Objects :=
  match result with
  | .ok after => (.ok (), set after)
  | .error e => (.error e, objects)

namespace Objects

variable (objects : Objects) (i : Nat)

@[simp] theorem setSoftware_software (software : Software) : (objects.setSoftware i software).software i = software := by
  simp [setSoftware]

@[simp] theorem setRelease_release (release : Release) : (objects.setRelease i release).release i = release := by
  simp [setRelease]

@[simp] theorem setFile_file (file : ReleaseFile) : (objects.setFile i file).file i = file := by
  simp [setFile]

@[simp] theorem setSoftware_setSoftware (first second : Software) :
    (objects.setSoftware i first).setSoftware i second = objects.setSoftware i second := by simp [setSoftware]

@[simp] theorem setRelease_setRelease (first second : Release) :
    (objects.setRelease i first).setRelease i second = objects.setRelease i second := by simp [setRelease]

@[simp] theorem setFile_setFile (first second : ReleaseFile) :
    (objects.setFile i first).setFile i second = objects.setFile i second := by simp [setFile]

@[simp] theorem setSoftware_self : objects.setSoftware i (objects.software i) = objects := by simp [setSoftware]

@[simp] theorem setRelease_self : objects.setRelease i (objects.release i) = objects := by simp [setRelease]

@[simp] theorem setFile_self : objects.setFile i (objects.file i) = objects := by simp [setFile]

end Objects

section Refinement

variable (i : Nat) (now : Instant) (objects : Objects)

@[simp] theorem assignSoftware_apply (f : Software → Software) :
    assignSoftware i f objects = (.ok (), objects.setSoftware i (f (objects.software i))) := rfl

@[simp] theorem assignRelease_apply (f : Release → Release) :
    assignRelease i f objects = (.ok (), objects.setRelease i (f (objects.release i))) := rfl

@[simp] theorem assignFile_apply (f : ReleaseFile → ReleaseFile) :
    assignFile i f objects = (.ok (), objects.setFile i (f (objects.file i))) := rfl

/-- A refused transition assigns nothing, and an accepted one all its fields, so
that the assignments amount to one replacement. -/
theorem transitionSoftware_eq (target : SoftwareStatus) :
    transitionSoftware i now target objects =
      Replaced (applySoftwareTransition (objects.software i) target now) (objects.setSoftware i) objects := by
  unfold transitionSoftware applySoftwareTransition
  rw [read_bind]
  cases ensureTransition (objects.software i).status target softwareTransitions SoftwareStatus.value "software" with
  | error e => rfl
  | ok u =>
      rw [lift_ok_bind, except_bind_ok rfl]
      by_cases hSame : target = (objects.software i).status
      · rw [if_pos hSame, if_pos hSame]
        exact Prod.ext rfl (objects.setSoftware_self i).symm
      · rw [if_neg hSame, if_neg hSame]
        cases target <;> simp [bind_def, Replaced, Pure.pure, Except.pure]

theorem transitionRelease_eq (target : ReleaseStatus) :
    transitionRelease i now target objects =
      Replaced (applyReleaseTransition (objects.parentOfRelease i) (objects.release i) target now)
        (objects.setRelease i) objects := by
  unfold transitionRelease applyReleaseTransition
  rw [read_bind, read_bind]
  cases ensureTransition (objects.release i).status target releaseTransitions ReleaseStatus.value "release" with
  | error e => rfl
  | ok u =>
      rw [lift_ok_bind, except_bind_ok rfl]
      by_cases hSame : target = (objects.release i).status
      · rw [if_pos hSame, if_pos hSame]
        exact Prod.ext rfl (objects.setRelease_self i).symm
      · rw [if_neg hSame, if_neg hSame]
        by_cases hPublished : target = .published
        · rw [if_pos hPublished, if_pos hPublished]
          by_cases hReleased : (objects.parentOfRelease i).Released
          · rw [require_ok fun _ => hReleased, require_ok hReleased, except_bind_ok rfl, lift_ok_bind]
            simp [bind_def, Replaced, Pure.pure, Except.pure]
          · rw [require, if_neg (by simp [hPublished, hReleased]), require, if_neg hReleased]
            rfl
        · rw [if_neg hPublished, if_neg hPublished, require_ok fun h => (hPublished h).elim, lift_ok_bind]
          simp [bind_def, Replaced, Pure.pure, Except.pure]

theorem transitionFile_eq (target : FileStatus) :
    transitionFile i now target objects =
      Replaced (applyFileTransition (objects.softwareOfFile i) (objects.releaseOfFile i) (objects.file i) target now)
        (objects.setFile i) objects := by
  unfold transitionFile applyFileTransition
  rw [read_bind, read_bind, read_bind]
  cases ensureTransition (objects.file i).status target fileTransitions FileStatus.value "file" with
  | error e => rfl
  | ok u =>
      rw [lift_ok_bind, except_bind_ok rfl]
      by_cases hSame : target = (objects.file i).status
      · rw [if_pos hSame, if_pos hSame]
        exact Prod.ext rfl (objects.setFile_self i).symm
      · rw [if_neg hSame, if_neg hSame]
        by_cases hReady : target = .ready ∧ (objects.file i).scannerStatus = .infected
        · rw [require, if_neg (not_not_intro hReady)]
          rfl
        · rw [require_ok hReady, lift_ok_bind, except_bind_ok rfl]
          cases target with
          | published =>
              by_cases hRelease : (objects.releaseOfFile i).status = .published
              · by_cases hReleased : (objects.softwareOfFile i).Released
                · by_cases hScanner : (objects.file i).scannerStatus = .infected
                  · simp [hRelease, hReleased, hScanner, require, Replaced, Bind.bind, Except.bind]
                  · simp [hRelease, hReleased, hScanner, require, Replaced, Bind.bind, Except.bind, Pure.pure,
                      Except.pure]
                · simp [hRelease, hReleased, require, Replaced, Bind.bind, Except.bind]
              · simp [hRelease, require, Replaced, Bind.bind, Except.bind]
          | _ => simp [bind_def, Replaced, Pure.pure, Except.pure]

end Refinement

/-- An accepted transition of software does nothing, or fills the two timestamps
according to its target. -/
theorem applySoftwareTransition_stamps {software after : Software} {target : SoftwareStatus} {now : Instant}
    (h : applySoftwareTransition software target now = .ok after) :
    after = software ∨ (after.status = target ∧
      after.publishedAt = (if target = .published then some (software.publishedAt.getD now) else software.publishedAt) ∧
      after.archivedAt = if target = .archived then some now else none) := by
  obtain ⟨_, -, h⟩ := except_bind_eq_ok h
  split_ifs at h with hSame
  · cases h
    exact Or.inl rfl
  · cases h
    cases target <;> exact Or.inr ⟨rfl, rfl, rfl⟩

/-- An accepted transition of a release does nothing, or fills its time of
publication according to its target. -/
theorem applyReleaseTransition_stamps {software : Software} {release after : Release} {target : ReleaseStatus}
    {now : Instant} (h : applyReleaseTransition software release target now = .ok after) :
    after = release ∨ (after.status = target ∧
      after.publishedAt = if target = .published then some (release.publishedAt.getD now) else release.publishedAt) := by
  obtain ⟨_, -, h⟩ := except_bind_eq_ok h
  split_ifs at h with hSame hPublished
  · cases h
    exact Or.inl rfl
  · obtain ⟨_, -, h⟩ := except_bind_eq_ok h
    cases h
    exact Or.inr ⟨rfl, (if_pos hPublished).symm⟩
  · cases h
    exact Or.inr ⟨rfl, (if_neg hPublished).symm⟩

/-- An accepted transition of a file does nothing, or fills the two timestamps
according to its target. -/
theorem applyFileTransition_stamps {software : Software} {release : Release} {file after : ReleaseFile}
    {target : FileStatus} {now : Instant} (h : applyFileTransition software release file target now = .ok after) :
    after = file ∨ (after.status = target ∧
      after.publishedAt = (if target = .published then some (file.publishedAt.getD now) else file.publishedAt) ∧
      after.disabledAt = if target = .disabled then some now else none) := by
  obtain ⟨_, -, h⟩ := except_bind_eq_ok h
  by_cases hSame : target = file.status
  · rw [if_pos hSame] at h
    cases h
    exact Or.inl rfl
  · rw [if_neg hSame] at h
    obtain ⟨_, -, h⟩ := except_bind_eq_ok h
    cases target with
    | published =>
        obtain ⟨_, -, h⟩ := except_bind_eq_ok h
        obtain ⟨_, -, h⟩ := except_bind_eq_ok h
        obtain ⟨_, -, h⟩ := except_bind_eq_ok h
        cases h
        exact Or.inr ⟨rfl, rfl, rfl⟩
    | _ =>
        cases h
        exact Or.inr ⟨rfl, rfl, rfl⟩

/-- A transition of one object, with its target. -/
inductive TransitionCall
  | software (i : Nat) (target : SoftwareStatus)
  | release (i : Nat) (target : ReleaseStatus)
  | file (i : Nat) (target : FileStatus)
  deriving DecidableEq, Repr

abbrev TimedCall : Type := TransitionCall × Instant

def perform : TimedCall → Lifecycle
  | (.software i target, now) => transitionSoftware i now target
  | (.release i target, now) => transitionRelease i now target
  | (.file i target, now) => transitionFile i now target

/-- The objects after a call, whether it returned or raised. -/
def afterCall (objects : Objects) (call : TimedCall) : Objects := (perform call objects).2

def afterCalls (objects : Objects) (calls : List TimedCall) : Objects := calls.foldl afterCall objects

theorem replaced_of_error {α : Type} {result : Except PyException α} {set : α → Objects} {objects : Objects}
    {e : PyException} (h : (Replaced result set objects).1 = .error e) : (Replaced result set objects).2 = objects := by
  cases result with
  | error other => rfl
  | ok after => cases h

theorem replaced_cases {α : Type} (result : Except PyException α) (set : α → Objects) (objects : Objects) :
    (Replaced result set objects).2 = objects ∨
      ∃ after, result = .ok after ∧ (Replaced result set objects).2 = set after := by
  cases result with
  | error e => exact Or.inl rfl
  | ok after => exact Or.inr ⟨after, rfl, rfl⟩

/-- What no accepted result changes is left alone. -/
theorem replaced_view {α δ : Type} {result : Except PyException α} {set : α → Objects} {objects : Objects}
    (view : Objects → δ) (h : ∀ after, view (set after) = view objects) :
    view (Replaced result set objects).2 = view objects := by
  rcases replaced_cases result set objects with hRun | ⟨after, -, hRun⟩
  · rw [hRun]
  · rw [hRun, h]

/-- A call that raises changes nothing, not even a part of an object. -/
theorem afterCall_of_error {objects : Objects} {call : TimedCall} {e : PyException}
    (h : (perform call objects).1 = .error e) : afterCall objects call = objects := by
  obtain ⟨⟨i, target⟩ | ⟨i, target⟩ | ⟨i, target⟩, now⟩ := call
  · rw [perform, transitionSoftware_eq] at h
    rw [afterCall, perform, transitionSoftware_eq, replaced_of_error h]
  · rw [perform, transitionRelease_eq] at h
    rw [afterCall, perform, transitionRelease_eq, replaced_of_error h]
  · rw [perform, transitionFile_eq] at h
    rw [afterCall, perform, transitionFile_eq, replaced_of_error h]

section Steps

variable (objects : Objects) (call : TimedCall) (j : Nat)

/-- One software object is left alone by a call, or goes through its transition. -/
theorem software_afterCall :
    (afterCall objects call).software j = objects.software j ∨
      ∃ target, applySoftwareTransition (objects.software j) target call.2 = .ok ((afterCall objects call).software j) := by
  obtain ⟨⟨i, target⟩ | ⟨i, target⟩ | ⟨i, target⟩, now⟩ := call
  · rw [afterCall, perform, transitionSoftware_eq]
    rcases replaced_cases (applySoftwareTransition (objects.software i) target now)
      (objects.setSoftware i) objects with hRun | ⟨after, hAfter, hRun⟩
    · exact Or.inl (by rw [hRun])
    · rw [hRun]
      by_cases hj : j = i
      · subst hj
        exact Or.inr ⟨target, by rw [hAfter, objects.setSoftware_software j after]⟩
      · exact Or.inl (by simp [Objects.setSoftware, hj])
  · rw [afterCall, perform, transitionRelease_eq]
    exact Or.inl (replaced_view (fun objects => objects.software j) fun _ => rfl)
  · rw [afterCall, perform, transitionFile_eq]
    exact Or.inl (replaced_view (fun objects => objects.software j) fun _ => rfl)

theorem release_afterCall :
    (afterCall objects call).release j = objects.release j ∨
      ∃ target, applyReleaseTransition (objects.parentOfRelease j) (objects.release j) target call.2 =
        .ok ((afterCall objects call).release j) := by
  obtain ⟨⟨i, target⟩ | ⟨i, target⟩ | ⟨i, target⟩, now⟩ := call
  · rw [afterCall, perform, transitionSoftware_eq]
    exact Or.inl (replaced_view (fun objects => objects.release j) fun _ => rfl)
  · rw [afterCall, perform, transitionRelease_eq]
    rcases replaced_cases (applyReleaseTransition (objects.parentOfRelease i) (objects.release i) target now)
      (objects.setRelease i) objects with hRun | ⟨after, hAfter, hRun⟩
    · exact Or.inl (by rw [hRun])
    · rw [hRun]
      by_cases hj : j = i
      · subst hj
        exact Or.inr ⟨target, by rw [hAfter, objects.setRelease_release j after]⟩
      · exact Or.inl (by simp [Objects.setRelease, hj])
  · rw [afterCall, perform, transitionFile_eq]
    exact Or.inl (replaced_view (fun objects => objects.release j) fun _ => rfl)

theorem file_afterCall :
    (afterCall objects call).file j = objects.file j ∨
      ∃ target, applyFileTransition (objects.softwareOfFile j) (objects.releaseOfFile j) (objects.file j) target call.2 =
        .ok ((afterCall objects call).file j) := by
  obtain ⟨⟨i, target⟩ | ⟨i, target⟩ | ⟨i, target⟩, now⟩ := call
  · rw [afterCall, perform, transitionSoftware_eq]
    exact Or.inl (replaced_view (fun objects => objects.file j) fun _ => rfl)
  · rw [afterCall, perform, transitionRelease_eq]
    exact Or.inl (replaced_view (fun objects => objects.file j) fun _ => rfl)
  · rw [afterCall, perform, transitionFile_eq]
    rcases replaced_cases (applyFileTransition (objects.softwareOfFile i) (objects.releaseOfFile i) (objects.file i) target now)
      (objects.setFile i) objects with hRun | ⟨after, hAfter, hRun⟩
    · exact Or.inl (by rw [hRun])
    · rw [hRun]
      by_cases hj : j = i
      · subst hj
        exact Or.inr ⟨target, by rw [hAfter, objects.setFile_file j after]⟩
      · exact Or.inl (by simp [Objects.setFile, hj])

end Steps

/-- A transition fills the time of publication when it leads to the published status
and finds it empty, and otherwise leaves it alone. -/
structure FillsPublished {α σ : Type} (status : α → σ) (publishedAt : α → Option Instant) (published : σ) (now : Instant)
    (before after : α) : Prop where
  fill : status after = published → (status before = published → (publishedAt before).isSome) →
    publishedAt after = some ((publishedAt before).getD now)
  keep : status after ≠ published → publishedAt after = publishedAt before

theorem fillsPublished_of_transition {α σ : Type} [DecidableEq σ] {status : α → σ} {publishedAt : α → Option Instant}
    {published : σ} {now : Instant} {before after : α}
    (h : after = before ∨ ∃ target, status after = target ∧
      publishedAt after = if target = published then some ((publishedAt before).getD now) else publishedAt before) :
    FillsPublished status publishedAt published now before after := by
  rcases h with rfl | ⟨target, rfl, hStamp⟩
  · refine ⟨fun hPublished hSet => ?_, fun _ => rfl⟩
    obtain ⟨t, ht⟩ := Option.isSome_iff_exists.mp (hSet hPublished)
    rw [ht]
    rfl
  · exact ⟨fun hPublished _ => hStamp.trans (if_pos hPublished), fun hOther => hStamp.trans (if_neg hOther)⟩

section Publication

variable (j : Nat)

theorem software_stamps :
    Stamps afterCall (Prod.snd : TimedCall → Instant) (fun objects => (objects.software j).status = .published)
      fun objects => (objects.software j).publishedAt := by
  have hStep (objects : Objects) (call : TimedCall) :
      FillsPublished Software.status Software.publishedAt .published call.2 (objects.software j)
        ((afterCall objects call).software j) := by
    refine fillsPublished_of_transition ?_
    rcases software_afterCall objects call j with hSame | ⟨target, hTransition⟩
    · exact Or.inl hSame
    · exact (applySoftwareTransition_stamps hTransition).imp_right fun h => ⟨target, h.1, h.2.1⟩
  exact ⟨fun objects call => (hStep objects call).fill, fun objects call => (hStep objects call).keep⟩

theorem release_stamps :
    Stamps afterCall (Prod.snd : TimedCall → Instant) (fun objects => (objects.release j).status = .published)
      fun objects => (objects.release j).publishedAt := by
  have hStep (objects : Objects) (call : TimedCall) :
      FillsPublished Release.status Release.publishedAt .published call.2 (objects.release j)
        ((afterCall objects call).release j) := by
    refine fillsPublished_of_transition ?_
    rcases release_afterCall objects call j with hSame | ⟨target, hTransition⟩
    · exact Or.inl hSame
    · exact (applyReleaseTransition_stamps hTransition).imp_right fun h => ⟨target, h.1, h.2⟩
  exact ⟨fun objects call => (hStep objects call).fill, fun objects call => (hStep objects call).keep⟩

theorem file_stamps :
    Stamps afterCall (Prod.snd : TimedCall → Instant) (fun objects => (objects.file j).status = .published)
      fun objects => (objects.file j).publishedAt := by
  have hStep (objects : Objects) (call : TimedCall) :
      FillsPublished ReleaseFile.status ReleaseFile.publishedAt .published call.2 (objects.file j)
        ((afterCall objects call).file j) := by
    refine fillsPublished_of_transition ?_
    rcases file_afterCall objects call j with hSame | ⟨target, hTransition⟩
    · exact Or.inl hSame
    · exact (applyFileTransition_stamps hTransition).imp_right fun h => ⟨target, h.1, h.2.1⟩
  exact ⟨fun objects call => (hStep objects call).fill, fun objects call => (hStep objects call).keep⟩

end Publication

/-- A time of archiving or disabling is there in that status only. -/
theorem isSome_iff_of_transition {σ : Type} [DecidableEq σ] {status target marked : σ} {stamp : Option Instant}
    {now : Instant} (hStatus : status = target) (hStamp : stamp = if target = marked then some now else none) :
    stamp.isSome = true ↔ status = marked := by
  subst hStatus hStamp
  by_cases h : status = marked <;> simp [h]

/-- Archived software and disabled files carry the time of it, and no others do. -/
structure Marked (objects : Objects) : Prop where
  archived : ∀ i, (objects.software i).archivedAt.isSome = true ↔ (objects.software i).status = .archived
  disabled : ∀ i, (objects.file i).disabledAt.isSome = true ↔ (objects.file i).status = .disabled

/-- Every call keeps this, refused ones included. -/
theorem Marked.afterCall {objects : Objects} (h : Marked objects) (call : TimedCall) :
    Marked (afterCall objects call) := by
  constructor
  · intro i
    rcases software_afterCall objects call i with hSame | ⟨target, hTransition⟩
    · rw [hSame]
      exact h.archived i
    · rcases applySoftwareTransition_stamps hTransition with hSame | ⟨hStatus, -, hStamp⟩
      · rw [hSame]
        exact h.archived i
      · exact isSome_iff_of_transition hStatus hStamp
  · intro i
    rcases file_afterCall objects call i with hSame | ⟨target, hTransition⟩
    · rw [hSame]
      exact h.disabled i
    · rcases applyFileTransition_stamps hTransition with hSame | ⟨hStatus, -, hStamp⟩
      · rw [hSame]
        exact h.disabled i
      · exact isSome_iff_of_transition hStatus hStamp

theorem Marked.afterCalls {objects : Objects} (h : Marked objects) (calls : List TimedCall) :
    Marked (afterCalls objects calls) := by
  induction calls generalizing objects with
  | nil => exact h
  | cons call calls ih => exact ih (h.afterCall call)

/-- The objects as the services create them: drafts and files in quarantine, without
timestamps. -/
structure Fresh (objects : Objects) : Prop where
  software : ∀ i, (objects.software i).status = .draft ∧ (objects.software i).publishedAt = none ∧
    (objects.software i).archivedAt = none
  release : ∀ i, (objects.release i).status = .draft ∧ (objects.release i).publishedAt = none
  file : ∀ i, (objects.file i).status ∈ [FileStatus.quarantine, .ready, .rejected] ∧
    (objects.file i).publishedAt = none ∧ (objects.file i).disabledAt = none

theorem Fresh.marked {objects : Objects} (h : Fresh objects) : Marked objects := by
  constructor
  · intro i
    obtain ⟨hStatus, -, hStamp⟩ := h.software i
    rw [hStatus, hStamp]
    decide
  · intro i
    obtain ⟨hStatus, -, hStamp⟩ := h.file i
    rw [hStamp]
    refine ⟨nofun, fun hDisabled => ?_⟩
    rw [hDisabled] at hStatus
    revert hStatus
    decide

/-- The time of publication of one object over a run: there whenever the
object is published, that of the first publication, and never changed. -/
structure PublishedOnce {α : Type} (object : Objects → α) (published : α → Prop) [DecidablePred published]
    (publishedAt : α → Option Instant) (objects : Objects) (calls : List TimedCall) : Prop where
  there : published (object (afterCalls objects calls)) → (publishedAt (object (afterCalls objects calls))).isSome = true
  first : publishedAt (object (afterCalls objects calls)) =
    firstTime afterCall Prod.snd (fun objects => published (object objects)) objects calls
  kept : ∀ t more, publishedAt (object (afterCalls objects calls)) = some t →
    publishedAt (object (afterCalls objects (calls ++ more))) = some t

/-- An object whose stamps are kept and filled at the published status is published
once. -/
theorem publishedOnce_of_stamps {α : Type} {object : Objects → α} {published : α → Prop} [DecidablePred published]
    {publishedAt : α → Option Instant} {objects : Objects}
    (h : Stamps afterCall (Prod.snd : TimedCall → Instant) (fun objects => published (object objects))
      fun objects => publishedAt (object objects))
    (hOther : ¬published (object objects)) (hNone : publishedAt (object objects) = none) (calls : List TimedCall) :
    PublishedOnce object published publishedAt objects calls := by
  constructor
  · exact h.foldl_isSome (fun hPublished => (hOther hPublished).elim) calls
  · have hRun := h.foldl_eq (fun hPublished => (hOther hPublished).elim) calls
    rw [hNone, Option.none_or] at hRun
    exact hRun
  · intro t more hSet
    rw [afterCalls, List.foldl_append]
    exact h.foldl_of_some hSet more

/-- The timestamps after every run of transitions on fresh objects, whatever the
targets, and whichever of them are refused. -/
theorem timestamps_of_run {objects : Objects} (h : Fresh objects) (calls : List TimedCall) :
    Marked (afterCalls objects calls) ∧
      (∀ i, PublishedOnce (fun objects => objects.software i) (fun software => software.status = .published)
        Software.publishedAt objects calls) ∧
      (∀ i, PublishedOnce (fun objects => objects.release i) (fun release => release.status = .published)
        Release.publishedAt objects calls) ∧
      (∀ i, PublishedOnce (fun objects => objects.file i) (fun file => file.status = .published)
        ReleaseFile.publishedAt objects calls) ∧
      ∀ call e, (perform call (afterCalls objects calls)).1 = .error e →
        afterCalls objects (calls ++ [call]) = afterCalls objects calls := by
  refine ⟨h.marked.afterCalls calls, fun i => ?_, fun i => ?_, fun i => ?_, fun call e hError => ?_⟩
  · obtain ⟨hStatus, hNone, -⟩ := h.software i
    exact publishedOnce_of_stamps (software_stamps i) (by simp [hStatus]) hNone calls
  · obtain ⟨hStatus, hNone⟩ := h.release i
    exact publishedOnce_of_stamps (release_stamps i) (by simp [hStatus]) hNone calls
  · obtain ⟨hStatus, hNone, -⟩ := h.file i
    refine publishedOnce_of_stamps (file_stamps i) (fun hPublished => ?_) hNone calls
    rw [hPublished] at hStatus
    revert hStatus
    decide
  · rw [afterCalls, List.foldl_append]
    exact afterCall_of_error hError

/-- One new entry of each kind, many times over. -/
def freshObjects : Objects where
  software i := ⟨i, .draft, .isPublic, none, none⟩
  release i := ⟨i, i, py "1.0", .stable, none, none, false, .draft, none⟩
  file i := {
    id := i, publicUuid := i, releaseId := i, originalFilename := py "a.zip", displayFilename := py "a.zip"
    storageFilename := py "a.zip", relativeStoragePath := py "a.zip", fileExtension := py ".zip"
    detectedMimeType := py "application/zip", fileSizeBytes := 1, sha256 := [], architecture := .x64
    packageType := .archive, platform := py "windows", edition := none, downloadCount := 0, status := .ready
    visibility := .isPublic, publishedAt := none, disabledAt := none, sourceUrl := none, signatureStatus := .notChecked
    scannerStatus := .clean, scannerDetails := none, adminNote := none }

theorem freshObjects_fresh : Fresh freshObjects :=
  ⟨fun _ => ⟨rfl, rfl, rfl⟩, fun _ => ⟨rfl, rfl⟩, fun _ => ⟨by simp [freshObjects], rfl, rfl⟩⟩

/-- A release is refused while its software is a draft; hidden software is published again. -/
def sampleCalls : List TimedCall :=
  [(.release 0 .published, ⟨1, by decide⟩), (.software 0 .published, ⟨2, by decide⟩),
    (.software 0 .hidden, ⟨3, by decide⟩), (.software 0 .published, ⟨4, by decide⟩),
    (.release 0 .published, ⟨5, by decide⟩)]

theorem timestamps_sample :
    Marked (afterCalls freshObjects sampleCalls) ∧
      ((afterCalls freshObjects sampleCalls).software 0).publishedAt = some ⟨2, by decide⟩ ∧
      ((afterCalls freshObjects sampleCalls).release 0).publishedAt = some ⟨5, by decide⟩ := by
  obtain ⟨hMarked, hSoftware, hRelease, -, -⟩ := timestamps_of_run freshObjects_fresh sampleCalls
  exact ⟨hMarked, (hSoftware 0).first.trans (by decide), (hRelease 0).first.trans (by decide)⟩

end SoftwareHub.Catalog
