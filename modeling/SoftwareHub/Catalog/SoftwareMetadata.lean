import SoftwareHub.Catalog.CurrentStable
import SoftwareHub.Semantics.View

/-! The metadata of software entries. Of its columns this model has the status and
the visibility, so the checks of all others are one outcome. Calls for software and
releases write no file row. -/
namespace SoftwareHub.Catalog

open SoftwareHub.Python SoftwareHub.Semantics Program

namespace SoftwareService

/-- `SoftwareService.create`. `fields` is the outcome of the normalization,
`references` that of the look-ups of the slug, the category and the tags. -/
def create (fields references : Except PyException Unit) (visibility : Visibility) : CatalogProgram Software := do
  lift fields
  atomically do
    lift references
    let rows ← read Database.software
    let software : Software := ⟨nextId Software.id rows, .draft, visibility, none, none⟩
    write fun database => { database with software := database.software ++ [software] }
    return software

def update (softwareId : Nat) (fields references : Except PyException Unit) (visibility : Visibility) :
    CatalogProgram Software := do
  lift fields
  atomically do
    let software ← require softwareId
    lift references
    write (Database.saveSoftware { software with visibility := visibility })
    return { software with visibility := visibility }

def replaceTags (softwareId : Nat) (references : Except PyException Unit) : CatalogProgram Software :=
  atomically do
    let software ← require softwareId
    lift references
    return software

def setVisibility (softwareId : Nat) (visibility : Visibility) : CatalogProgram Software :=
  atomically do
    let software ← require softwareId
    write (Database.saveSoftware { software with visibility := visibility })
    return { software with visibility := visibility }

end SoftwareService

/-- The edits of the metadata of a software entry, each with the outcomes of its
checks. -/
inductive SoftwareEdit
  | create (fields references : Except PyException Unit) (visibility : Visibility)
  | update (softwareId : Nat) (fields references : Except PyException Unit) (visibility : Visibility)
  | replaceTags (softwareId : Nat) (references : Except PyException Unit)
  | setVisibility (softwareId : Nat) (visibility : Visibility)

def SoftwareEdit.perform : SoftwareEdit → CatalogProgram Software
  | create fields references visibility => SoftwareService.create fields references visibility
  | update softwareId fields references visibility => SoftwareService.update softwareId fields references visibility
  | replaceTags softwareId references => SoftwareService.replaceTags softwareId references
  | setVisibility softwareId visibility => SoftwareService.setVisibility softwareId visibility

theorem require_silent (softwareId : Nat) : Silent Database.files (SoftwareService.require softwareId) := by
  refine (Silent.lift _).bind fun _ => ?_
  apply (Silent.read _).bind
  intro found
  cases found with
  | none => exact Silent.raise _
  | some software => exact Silent.pure _

theorem saveSoftware_silent (software : Software) {α : Type} (a : α) :
    Silent Database.files (write (Database.saveSoftware software) >>= fun _ => pure a : CatalogProgram α) :=
  Silent.bind (fun _ => rfl) fun _ => Silent.pure a

/-- An edit of the metadata leaves the table of files as it is. -/
theorem SoftwareEdit.files_silent (edit : SoftwareEdit) : Silent Database.files edit.perform := by
  cases edit with
  | create fields references visibility =>
      apply (Silent.lift _).bind
      intro _
      apply Silent.atomically
      apply (Silent.lift _).bind
      intro _
      apply (Silent.read _).bind
      intro rows
      exact Silent.bind (fun _ => rfl) fun _ => Silent.pure _
  | update softwareId fields references visibility =>
      apply (Silent.lift _).bind
      intro _
      apply Silent.atomically
      apply (require_silent softwareId).bind
      intro software
      apply (Silent.lift _).bind
      intro _
      exact saveSoftware_silent _ _
  | replaceTags softwareId references =>
      apply Silent.atomically
      apply (require_silent softwareId).bind
      intro software
      exact (Silent.lift _).bind fun _ => Silent.pure _
  | setVisibility softwareId visibility =>
      apply Silent.atomically
      apply (require_silent softwareId).bind
      intro software
      exact saveSoftware_silent _ _

theorem writeReleases_silent (f : List Release → List Release) : Silent Database.files (writeReleases f) := by
  apply (Silent.read _).bind
  intro releases
  exact Silent.ite (Silent.write fun _ => rfl) (Silent.raise _)

theorem getWithGraph_silent (releaseId : Nat) : Silent Database.files (getWithGraph releaseId) := by
  refine (Silent.lift _).bind fun _ => ?_
  apply (Silent.read _).bind
  intro found
  cases found with
  | none => exact Silent.raise _
  | some release =>
      apply (Silent.read _).bind
      intro parent
      cases parent with
      | none => exact Silent.raise _
      | some software => exact Silent.pure _

/-- A call of the release services leaves the table of files as it is. -/
theorem ReleaseRequest.files_silent (request : ReleaseRequest) : Silent Database.files request.perform := by
  cases request with
  | create softwareId version releaseChannel releaseDate changelog =>
      apply Silent.map
      apply (Silent.lift _).bind
      intro version
      apply (Silent.lift _).bind
      intro changelog
      apply Silent.atomically
      apply (require_silent softwareId).bind
      intro software
      apply (Silent.read _).bind
      intro duplicate
      apply Silent.ite (Silent.raise _)
      apply (Silent.read _).bind
      intro releases
      exact (writeReleases_silent _).bind fun _ => Silent.pure _
  | update releaseId version releaseChannel releaseDate changelog =>
      apply Silent.map
      apply (Silent.lift _).bind
      intro version
      apply (Silent.lift _).bind
      intro changelog
      apply Silent.atomically
      apply (getWithGraph_silent _).bind
      intro graph
      apply Silent.ite (Silent.raise _)
      apply (Silent.read _).bind
      intro duplicate
      apply Silent.ite (Silent.raise _)
      exact (writeReleases_silent _).bind fun _ => Silent.pure _
  | transitionStatus releaseId target now =>
      apply Silent.map
      apply Silent.atomically
      apply (getWithGraph_silent _).bind
      intro graph
      apply (Silent.lift _).bind
      intro release
      exact (writeReleases_silent _).bind fun _ => Silent.pure _
  | setCurrentStable releaseId =>
      apply Silent.map
      apply Silent.atomically
      apply (getWithGraph_silent _).bind
      intro graph
      apply (Silent.lift _).bind
      intro _
      apply (writeReleases_silent _).bind
      intro _
      exact (writeReleases_silent _).bind fun _ => Silent.pure _
  | clearCurrent releaseId =>
      apply Silent.map
      apply Silent.atomically
      apply (getWithGraph_silent _).bind
      intro graph
      exact (writeReleases_silent _).bind fun _ => Silent.pure _
  | transitionSoftware softwareId target now =>
      apply Silent.map
      apply Silent.atomically
      apply (require_silent softwareId).bind
      intro software
      apply (Silent.lift _).bind
      intro after
      exact saveSoftware_silent _ _

end SoftwareHub.Catalog
