import SoftwareHub.Catalog.Policies

/-! `ReleaseService`, and the lifecycle of `SoftwareService`, over the tables and
their indexes. Each service is one transaction. -/
namespace SoftwareHub.Catalog

open SoftwareHub.Python SoftwareHub.Semantics Program

/-- A program over the catalog tables. -/
abbrev CatalogProgram (α : Type) : Type := Program Database PyException α

/-- `normalize_optional_text`, with its `ValueError` already turned into a
`ValidationError`. -/
def normalizeOptionalText (value : Option PyStr) (maxLength : Nat) : Except PyException (Option PyStr) :=
  match value with
  | none => .ok none
  | some value =>
      let normalized := strip value
      if normalized = [] then .ok none
      else if maxLength < normalized.length then
        .error (.validationError s!"Text must not exceed {maxLength} characters.")
      else .ok (some normalized)

theorem raisesApplication_normalizeOptionalText (value : Option PyStr) (maxLength : Nat) :
    RaisesApplication (normalizeOptionalText value maxLength) := by
  unfold normalizeOptionalText
  split
  · exact .ok _
  · dsimp only
    split_ifs
    · exact .ok _
    · exact .error rfl
    · exact .ok _

/-- `" ".join(value.split())`: runs of blanks become one. -/
def collapse (value : PyStr) : PyStr := [0x20].intercalate (words value)

/-- The version of a release, collapsed and checked for its length. -/
def normalizeVersion (version : PyStr) : Except PyException PyStr := do
  require (collapse version ≠ [] ∧ (collapse version).length ≤ 100)
    (.validationError "Version must contain 1 to 100 characters.")
  return collapse version

def identity (release : Release) : Nat × PyStr × ReleaseChannel :=
  (release.softwareId, release.version, release.releaseChannel)

/-- The rows in `uq_releases_one_current_stable_per_software`, a partial index. -/
def InCurrentStableIndex (release : Release) : Prop := release.isCurrent = true ∧ release.releaseChannel = .stable

instance : DecidablePred InCurrentStableIndex := fun release =>
  inferInstanceAs (Decidable (release.isCurrent = true ∧ release.releaseChannel = .stable))

/-- Both unique indexes of the table of releases. -/
structure ReleaseIndexes (releases : List Release) : Prop where
  identities : (releases.map identity).Nodup
  currentStable : UniqueWhere InCurrentStableIndex Release.softwareId releases

instance (releases : List Release) : Decidable (ReleaseIndexes releases) :=
  decidable_of_iff ((releases.map identity).Nodup ∧ UniqueWhere InCurrentStableIndex Release.softwareId releases)
    ⟨fun ⟨h, h'⟩ => ⟨h, h'⟩, fun ⟨h, h'⟩ => ⟨h, h'⟩⟩

/-- One statement that writes releases. The database rejects it when an index would
be violated. -/
def writeReleases (f : List Release → List Release) : CatalogProgram Unit := do
  let releases ← read Database.releases
  if ReleaseIndexes (f releases) then write (Database.updateReleases f)
  else raise .integrityError

/-- The row of a changed object is flushed, in a statement of its own. -/
def saveRelease (release : Release) : CatalogProgram Unit :=
  writeReleases (updateRows (fun row => row.id = release.id) (fun _ => release))

def getByIdentity (softwareId : Nat) (version : PyStr) (releaseChannel : ReleaseChannel) (database : Database) :
    Option Release :=
  database.releases.find? fun release => identity release = (softwareId, version, releaseChannel)

/-- `get_with_graph`, with the `EntityNotFound` of its callers. The foreign key
has a parent row for each release. -/
def getWithGraph (releaseId : Nat) : CatalogProgram (Release × Software) := do
  lift (bindKeys [releaseId])
  match ← read (Database.release? releaseId) with
  | none => raise (entityNotFound "Release not found.")
  | some release =>
      match ← read (Database.software? release.softwareId) with
      | none => raise .attributeError
      | some software => return (release, software)

/-- The repository's bulk update, by which every other release of the entry loses
its marker. -/
def clearCurrentStable (softwareId exceptReleaseId : Nat) : CatalogProgram Unit :=
  writeReleases (updateRows
    (fun row => row.softwareId = softwareId ∧ row.releaseChannel = .stable ∧ row.id ≠ exceptReleaseId ∧
      row.isCurrent = true)
    (fun row => { row with isCurrent := false }))

/-- The entry with this key, or the `EntityNotFound` of the callers. A key that the
driver cannot bind raises before the query. -/
def SoftwareService.require (softwareId : Nat) : CatalogProgram Software := do
  lift (bindKeys [softwareId])
  match ← read (Database.software? softwareId) with
  | none => raise (entityNotFound "Software not found.")
  | some software => return software

namespace ReleaseService

/-- `ReleaseService.create`: a new draft under a free identity. -/
def create (softwareId : Nat) (version : PyStr) (releaseChannel : ReleaseChannel) (releaseDate : Option Date)
    (changelog : Option PyStr) : CatalogProgram Release := do
  let version ← lift (normalizeVersion version)
  let changelog ← lift (normalizeOptionalText changelog 20000)
  atomically do
    let software ← SoftwareService.require softwareId
    if (← read (getByIdentity softwareId version releaseChannel)).isSome then
      raise (.application .entityConflict "This version and release channel already exist.")
    else do
      let releases ← read Database.releases
      let release : Release := {
        id := nextId Release.id releases
        softwareId := software.id
        version := version
        releaseChannel := releaseChannel
        releaseDate := releaseDate
        changelog := changelog
        isCurrent := false
        status := .draft
        publishedAt := none }
      writeReleases (· ++ [release])
      return release

/-- `ReleaseService.update`, which checks the new identity against the other
releases. -/
def update (releaseId : Nat) (version : PyStr) (releaseChannel : ReleaseChannel) (releaseDate : Option Date)
    (changelog : Option PyStr) : CatalogProgram Release := do
  let version ← lift (normalizeVersion version)
  let changelog ← lift (normalizeOptionalText changelog 20000)
  atomically do
    let graph ← getWithGraph releaseId
    let release := graph.1
    if release.isCurrent = true ∧ releaseChannel ≠ .stable then
      raise (invalidStateTransition "A current stable release must be unset before changing its channel.")
    else do
      let duplicate ← read (getByIdentity release.softwareId version releaseChannel)
      if ∃ other ∈ duplicate, other.id ≠ release.id then
        raise (.application .entityConflict "This version and release channel already exist.")
      else do
        let release := { release with
          version := version
          releaseChannel := releaseChannel
          releaseDate := releaseDate
          changelog := changelog }
        saveRelease release
        return release

def transitionStatus (releaseId : Nat) (target : ReleaseStatus) (now : Instant) : CatalogProgram Release :=
  atomically do
    let graph ← getWithGraph releaseId
    let release ← lift (applyReleaseTransition graph.2 graph.1 target now)
    saveRelease release
    return release

/-- `ReleaseService.set_current_stable`: the candidate is checked, the others lose
the marker, and the release gets it. -/
def setCurrentStable (releaseId : Nat) : CatalogProgram Release :=
  atomically do
    let graph ← getWithGraph releaseId
    lift (ensureCurrentStableCandidate graph.2 graph.1)
    clearCurrentStable graph.1.softwareId graph.1.id
    let release := { graph.1 with isCurrent := true }
    saveRelease release
    return release

def clearCurrent (releaseId : Nat) : CatalogProgram Release :=
  atomically do
    let graph ← getWithGraph releaseId
    let release := { graph.1 with isCurrent := false }
    saveRelease release
    return release

end ReleaseService

namespace SoftwareService

def transitionStatus (softwareId : Nat) (target : SoftwareStatus) (now : Instant) : CatalogProgram Software :=
  atomically do
    let software ← require softwareId
    let software ← lift (applySoftwareTransition software target now)
    write (Database.saveSoftware software)
    return software

end SoftwareService

/-- A statement whose rows pass the indexes is carried out. -/
theorem writeReleases_spec {f : List Release → List Release} {P : Database → Prop} {Q : Unit → Database → Prop}
    {E : PyException → Database → Prop}
    (h : ∀ s, P s → ReleaseIndexes (f s.releases) ∧ Q () (s.updateReleases f)) : Triple P (writeReleases f) Q E := by
  intro s hs
  obtain ⟨hIndexes, hPost⟩ := h s hs
  have hRun : writeReleases f s = (.ok (), s.updateReleases f) := by simp [writeReleases, bind_def, hIndexes]
  rw [hRun]
  exact hPost

/-- The look-up raises something other than an `IntegrityError`, or finds a stored
release and its entry. -/
theorem getWithGraph_cases (releaseId : Nat) (database : Database) :
    (∃ e, e ≠ .integrityError ∧ getWithGraph releaseId database = (.error e, database)) ∨
      ∃ release software, database.release? releaseId = some release ∧
        database.software? release.softwareId = some software ∧
        getWithGraph releaseId database = (.ok (release, software), database) := by
  rw [getWithGraph]
  cases hBound : bindKeys [releaseId] with
  | error e => exact .inl ⟨e, bindAll_ne_integrityError hBound, lift_error_bind _ _ _⟩
  | ok u =>
      rw [lift_ok_bind, read_bind]
      cases hRelease : database.release? releaseId with
      | none => exact .inl ⟨entityNotFound "Release not found.", by simp, rfl⟩
      | some release =>
          dsimp only
          rw [read_bind]
          cases hSoftware : database.software? release.softwareId with
          | none => exact .inl ⟨.attributeError, by simp, rfl⟩
          | some software => exact .inr ⟨release, software, rfl, hSoftware, rfl⟩

theorem SoftwareService.require_cases (softwareId : Nat) (database : Database) :
    (∃ e, e ≠ .integrityError ∧ require softwareId database = (.error e, database)) ∨
      ∃ software, database.software? softwareId = some software ∧ require softwareId database = (.ok software, database) := by
  rw [require]
  cases hBound : bindKeys [softwareId] with
  | error e => exact .inl ⟨e, bindAll_ne_integrityError hBound, lift_error_bind _ _ _⟩
  | ok u =>
      rw [lift_ok_bind, read_bind]
      cases hSoftware : database.software? softwareId with
      | none => exact .inl ⟨entityNotFound "Software not found.", by simp, rfl⟩
      | some software => exact .inr ⟨software, rfl, rfl⟩

end SoftwareHub.Catalog
