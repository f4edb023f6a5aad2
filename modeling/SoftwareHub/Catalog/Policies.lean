import SoftwareHub.Catalog.Models

/-! Pure domain policies for lifecycle transitions and public visibility, and what
an accepted transition does. -/
namespace SoftwareHub.Catalog

open SoftwareHub.Python

abbrev invalidStateTransition (message : String) : PyException := .application .invalidStateTransition message

abbrev entityNotFound (message : String) : PyException := .application .entityNotFound message

/-- The statuses to which a software entry may go from each status. -/
def softwareTransitions : SoftwareStatus → List SoftwareStatus
  | .draft => [.published, .hidden, .disabled]
  | .published => [.hidden, .archived, .disabled]
  | .hidden => [.draft, .published, .archived, .disabled]
  | .archived => [.published, .hidden, .disabled]
  | .disabled => [.draft]

def releaseTransitions : ReleaseStatus → List ReleaseStatus
  | .draft => [.published, .archived, .disabled]
  | .published => [.archived, .disabled]
  | .archived => [.published, .disabled]
  | .disabled => [.draft]

def fileTransitions : FileStatus → List FileStatus
  | .quarantine => [.ready, .rejected, .disabled]
  | .ready => [.published, .rejected, .disabled, .archived]
  | .published => [.disabled, .archived]
  | .disabled => [.ready, .archived]
  | .archived => [.ready, .disabled]
  | .rejected => [.quarantine]

/-- The check that all transitions share; a status that stays the same is always let
through. -/
def ensureTransition {σ : Type} [DecidableEq σ] (current target : σ) (transitions : σ → List σ) (value : σ → String)
    (entityName : String) : Except PyException Unit :=
  require (target = current ∨ target ∈ transitions current) (invalidStateTransition
    s!"Cannot transition {entityName} from {value current} to {value target}.")

/-- `software.status in {SoftwareStatus.PUBLISHED, SoftwareStatus.HIDDEN}`. -/
def Software.Released (software : Software) : Prop := software.status = .published ∨ software.status = .hidden

instance (software : Software) : Decidable software.Released := inferInstanceAs (Decidable (_ ∨ _))

/-- `apply_software_transition`: the new status, and the timestamps that belong to
it. -/
def applySoftwareTransition (software : Software) (target : SoftwareStatus) (now : Instant) :
    Except PyException Software := do
  ensureTransition software.status target softwareTransitions SoftwareStatus.value "software"
  if target = software.status then return software
  else return match target with
    | .published => { software with
        status := target
        publishedAt := some (software.publishedAt.getD now)
        archivedAt := none }
    | .archived => { software with status := target, archivedAt := some now }
    | _ => { software with status := target, archivedAt := none }

theorem raisesApplication_applySoftwareTransition (software : Software) (target : SoftwareStatus) (now : Instant) :
    RaisesApplication (applySoftwareTransition software target now) := by
  refine .bind (.require rfl) fun _ => ?_
  split_ifs
  · exact .ok _
  · exact .ok _

/-- `apply_release_transition`, which also takes the current marker from a release
that leaves the published status. -/
def applyReleaseTransition (software : Software) (release : Release) (target : ReleaseStatus) (now : Instant) :
    Except PyException Release := do
  ensureTransition release.status target releaseTransitions ReleaseStatus.value "release"
  if target = release.status then return release
  else if target = .published then do
    require software.Released (invalidStateTransition
      "A release can be published only while its software is published or hidden.")
    return { release with status := target, publishedAt := some (release.publishedAt.getD now) }
  else return { release with status := target, isCurrent := false }

/-- `ensure_current_stable_candidate`: a published stable release of a published or
hidden entry. -/
def ensureCurrentStableCandidate (software : Software) (release : Release) : Except PyException Unit := do
  require (release.releaseChannel = .stable) (invalidStateTransition
    "Only a stable release can be marked as current.")
  require (release.status = .published) (invalidStateTransition
    "Only a published release can be marked as current.")
  require software.Released (invalidStateTransition
    "Current release selection requires published or hidden software.")

/-- `apply_file_transition`, with its demands on the scanner and on the software and
the release above the file. -/
def applyFileTransition (software : Software) (release : Release) (file : ReleaseFile) (target : FileStatus)
    (now : Instant) : Except PyException ReleaseFile := do
  ensureTransition file.status target fileTransitions FileStatus.value "file"
  if target = file.status then return file
  else do
    require (¬(target = .ready ∧ file.scannerStatus = .infected)) (invalidStateTransition
      "An infected file cannot be approved as ready.")
    match target with
    | .published => do
        require (release.status = .published) (invalidStateTransition
          "A file requires a published release before publication.")
        require software.Released (invalidStateTransition
          "A file requires published or hidden software before publication.")
        require (file.scannerStatus ≠ .infected) (invalidStateTransition "An infected file cannot be published.")
        return { file with
          publishedAt := some (file.publishedAt.getD now)
          disabledAt := none
          status := target }
    | .disabled => return { file with disabledAt := some now, status := target }
    | _ => return { file with disabledAt := none, status := target }

/-- Who sees an entry: administrators unless it is disabled, and anybody when it is
published or archived and not private. -/
def canViewSoftware (software : Software) (isAdmin : Bool) : Bool :=
  if isAdmin then software.status ≠ .disabled
  else (software.status = .published ∨ software.status = .archived) ∧
    (software.visibility = .isPublic ∨ software.visibility = .unlisted)

/-- Who gets a file, by the complete chain of software, release and file. -/
def canDownloadFile (software : Software) (release : Release) (file : ReleaseFile) (isAdmin : Bool) : Bool :=
  if file.status ≠ .published then false
  else if ¬(release.status = .published ∨ release.status = .archived) then false
  else if ¬(software.status = .published ∨ software.status = .archived) then false
  else isAdmin ∨ ((software.visibility = .isPublic ∨ software.visibility = .unlisted) ∧
    (file.visibility = .isPublic ∨ file.visibility = .unlisted))

theorem applySoftwareTransition_eq_ok {software after : Software} {target : SoftwareStatus} {now : Instant}
    (h : applySoftwareTransition software target now = .ok after) :
    after.id = software.id ∧ after.status = target := by
  obtain ⟨_, -, h⟩ := SoftwareHub.Semantics.except_bind_eq_ok h
  split_ifs at h with hSame
  · cases h
    exact ⟨rfl, hSame.symm⟩
  · cases h
    cases target <;> exact ⟨rfl, rfl⟩

/-- Leaving the published status unmarks a release, and no transition marks one. -/
theorem applyReleaseTransition_eq_ok {software : Software} {release after : Release} {target : ReleaseStatus}
    {now : Instant} (h : applyReleaseTransition software release target now = .ok after) :
    after.id = release.id ∧ after.softwareId = release.softwareId ∧ after.version = release.version ∧
      after.releaseChannel = release.releaseChannel ∧ after.status = target ∧
      (after.isCurrent = true → release.isCurrent = true ∧ (target = .published ∨ target = release.status)) := by
  obtain ⟨_, -, h⟩ := SoftwareHub.Semantics.except_bind_eq_ok h
  split_ifs at h with hSame hPublished
  · cases h
    exact ⟨rfl, rfl, rfl, rfl, hSame.symm, fun hCurrent => ⟨hCurrent, .inr hSame⟩⟩
  · obtain ⟨_, -, h⟩ := SoftwareHub.Semantics.except_bind_eq_ok h
    cases h
    exact ⟨rfl, rfl, rfl, rfl, rfl, fun hCurrent => ⟨hCurrent, .inl hPublished⟩⟩
  · cases h
    exact ⟨rfl, rfl, rfl, rfl, rfl, fun hCurrent => by cases hCurrent⟩

/-- A transition of a file changes its status and the two timestamps. To ready
or published it needs a file that is not infected. -/
theorem applyFileTransition_eq_ok {software : Software} {release : Release} {file after : ReleaseFile}
    {target : FileStatus} {now : Instant} (h : applyFileTransition software release file target now = .ok after) :
    after = { file with status := target, publishedAt := after.publishedAt, disabledAt := after.disabledAt } ∧
      (target = file.status ∨ target ∈ fileTransitions file.status) ∧
      (target = .ready ∨ target = .published → target = file.status ∨ file.scannerStatus ≠ .infected) := by
  obtain ⟨_, hAllowed, h⟩ := SoftwareHub.Semantics.except_bind_eq_ok h
  have hTransition := require_eq_ok_iff.mp hAllowed
  by_cases hSame : target = file.status
  · rw [if_pos hSame] at h
    cases h
    rw [hSame]
    exact ⟨rfl, Or.inl rfl, fun _ => Or.inl rfl⟩
  · rw [if_neg hSame] at h
    obtain ⟨_, hReady, h⟩ := SoftwareHub.Semantics.except_bind_eq_ok h
    have hNotInfected := require_eq_ok_iff.mp hReady
    cases target with
    | published =>
        obtain ⟨_, -, h⟩ := SoftwareHub.Semantics.except_bind_eq_ok h
        obtain ⟨_, -, h⟩ := SoftwareHub.Semantics.except_bind_eq_ok h
        obtain ⟨_, hScanner, h⟩ := SoftwareHub.Semantics.except_bind_eq_ok h
        cases h
        exact ⟨rfl, hTransition, fun _ => Or.inr (require_eq_ok_iff.mp hScanner)⟩
    | disabled =>
        cases h
        exact ⟨rfl, hTransition, nofun⟩
    | ready =>
        cases h
        exact ⟨rfl, hTransition, fun _ => Or.inr fun hInfected => hNotInfected ⟨rfl, hInfected⟩⟩
    | quarantine =>
        cases h
        exact ⟨rfl, hTransition, nofun⟩
    | archived =>
        cases h
        exact ⟨rfl, hTransition, nofun⟩
    | rejected =>
        cases h
        exact ⟨rfl, hTransition, nofun⟩

theorem ensureCurrentStableCandidate_eq_ok {software : Software} {release : Release} {u : Unit}
    (h : ensureCurrentStableCandidate software release = .ok u) :
    release.releaseChannel = .stable ∧ release.status = .published ∧ software.Released := by
  obtain ⟨_, hStable, h⟩ := SoftwareHub.Semantics.except_bind_eq_ok h
  obtain ⟨_, hPublished, hReleased⟩ := SoftwareHub.Semantics.except_bind_eq_ok h
  exact ⟨require_eq_ok_iff.mp hStable, require_eq_ok_iff.mp hPublished, require_eq_ok_iff.mp hReleased⟩

end SoftwareHub.Catalog
