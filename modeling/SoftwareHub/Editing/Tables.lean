import SoftwareHub.Core.AuditMetadata
import SoftwareHub.Editing.Normalization
import SoftwareHub.Public.Search

/-! The tables that the editing services write: categories, tags, software, its tags
and the audit log, with the constraints the schema declares. -/
namespace SoftwareHub.Editing

open SoftwareHub.Python SoftwareHub.Semantics SoftwareHub.Semantics.Program
open SoftwareHub.Public (Category Software SoftwareTag Tag)

/-- The actions of the editing services. -/
inductive AuditAction
  | categoryCreated
  | categoryUpdated
  | categoryDeleted
  | tagCreated
  | tagUpdated
  | tagDeleted
  | softwareCreated
  | softwareUpdated
  | softwareStatusChanged
  | softwareVisibilityChanged
  deriving DecidableEq, Repr

/-- The value of an action, as it is stored. -/
def AuditAction.value : AuditAction → PyStr
  | categoryCreated => py "category_created"
  | categoryUpdated => py "category_updated"
  | categoryDeleted => py "category_deleted"
  | tagCreated => py "tag_created"
  | tagUpdated => py "tag_updated"
  | tagDeleted => py "tag_deleted"
  | softwareCreated => py "software_created"
  | softwareUpdated => py "software_updated"
  | softwareStatusChanged => py "software_status_changed"
  | softwareVisibilityChanged => py "software_visibility_changed"

/-- Who asks for a change. -/
structure AuditContext where
  userId : Nat
  requestId : Option PyStr
  ipHash : Option PyStr
  deriving DecidableEq, Repr

/-- The columns of an audit row, besides its key and its time. -/
structure AuditEvent where
  userId : Option Nat
  action : PyStr
  entityType : Option PyStr
  entityId : Option PyStr
  result : PyStr
  requestId : Option PyStr
  ipHash : Option PyStr
  safeMetadata : List (PyStr × PyValue)

/-- A row of the audit log. -/
structure AuditLog extends AuditEvent where
  id : Nat

/-- The tables, of which the users are only read. -/
structure Tables where
  users : List Nat
  categories : List Category
  tags : List Tag
  software : List Software
  softwareTags : List SoftwareTag
  auditLogs : List AuditLog

abbrev EditProgram (α : Type) : Type := Program Tables PyException α

/-- The primary key of a row of `software_tags`. -/
def linkKey (row : SoftwareTag) : Lex (Nat × Nat) := toLex (row.softwareId, row.tagId)

/-- Every table is in the order of its primary key, the slugs of a table are
unique, and every foreign key has its row. -/
structure Constraints (tables : Tables) : Prop where
  categoryKeys : (tables.categories.map (·.id)).Pairwise (· < ·)
  tagKeys : (tables.tags.map (·.id)).Pairwise (· < ·)
  softwareKeys : (tables.software.map (·.id)).Pairwise (· < ·)
  softwareTagKeys : (tables.softwareTags.map linkKey).Pairwise (· < ·)
  auditKeys : (tables.auditLogs.map (·.id)).Pairwise (· < ·)
  categorySlugs : (tables.categories.map (·.slug)).Nodup
  tagSlugs : (tables.tags.map (·.slug)).Nodup
  softwareSlugs : (tables.software.map (·.slug)).Nodup
  softwareCategory : ∀ software ∈ tables.software, ∀ id ∈ software.categoryId, id ∈ tables.categories.map (·.id)
  linkSoftware : ∀ row ∈ tables.softwareTags, row.softwareId ∈ tables.software.map (·.id)
  linkTag : ∀ row ∈ tables.softwareTags, row.tagId ∈ tables.tags.map (·.id)
  auditUser : ∀ log ∈ tables.auditLogs, ∀ id ∈ log.userId, id ∈ tables.users

/-- Whether the database accepts the tables. -/
def accepts (tables : Tables) : Bool :=
  (tables.categories.map (·.id)).Pairwise (· < ·) && (tables.tags.map (·.id)).Pairwise (· < ·) &&
    (tables.software.map (·.id)).Pairwise (· < ·) && (tables.softwareTags.map linkKey).Pairwise (· < ·) &&
    (tables.auditLogs.map (·.id)).Pairwise (· < ·) && (tables.categories.map (·.slug)).Nodup &&
    (tables.tags.map (·.slug)).Nodup && (tables.software.map (·.slug)).Nodup &&
    (tables.software.all fun software => software.categoryId.all (tables.categories.map (·.id)).contains) &&
    (tables.softwareTags.all fun row => (tables.software.map (·.id)).contains row.softwareId) &&
    (tables.softwareTags.all fun row => (tables.tags.map (·.id)).contains row.tagId) &&
    tables.auditLogs.all fun log => log.userId.all tables.users.contains

theorem accepts_iff {tables : Tables} : accepts tables = true ↔ Constraints tables := by
  simp only [accepts, Bool.and_eq_true, decide_eq_true_eq, List.all_eq_true, Option.all_eq_true, List.contains_iff_mem,
    and_assoc]
  constructor
  · rintro ⟨h1, h2, h3, h4, h5, h6, h7, h8, h9, h10, h11, h12⟩
    exact ⟨h1, h2, h3, h4, h5, h6, h7, h8, fun software hMem id hId => h9 software hMem id hId, h10, h11,
      fun log hMem id hId => h12 log hMem id hId⟩
  · rintro ⟨h1, h2, h3, h4, h5, h6, h7, h8, h9, h10, h11, h12⟩
    exact ⟨h1, h2, h3, h4, h5, h6, h7, h8, h9, h10, h11, h12⟩

instance (tables : Tables) : Decidable (Constraints tables) := decidable_of_iff _ accepts_iff

namespace Tables

/-- The look-up of a category under its key. -/
def category? (id : Nat) (tables : Tables) : Option Category := tables.categories.find? fun row => row.id = id

def tag? (id : Nat) (tables : Tables) : Option Tag := tables.tags.find? fun row => row.id = id

def software? (id : Nat) (tables : Tables) : Option Software := tables.software.find? fun row => row.id = id

section Slugs

variable (unicode : Unicode)

/-- `CategoryRepository.get_by_slug`. -/
def categoryBySlug (slug : PyStr) (tables : Tables) : Option Category :=
  tables.categories.find? fun row => row.slug = Public.normalizeSlug unicode slug

/-- `TagRepository.get_by_slug`. -/
def tagBySlug (slug : PyStr) (tables : Tables) : Option Tag :=
  tables.tags.find? fun row => row.slug = Public.normalizeSlug unicode slug

/-- `SoftwareRepository.get_by_slug`. -/
def softwareBySlug (slug : PyStr) (tables : Tables) : Option Software :=
  tables.software.find? fun row => row.slug = Public.normalizeSlug unicode slug

end Slugs

/-- `TagRepository.get_many`, of which the callers take the keys. -/
def getMany (tagIds : List Nat) (tables : Tables) : List Nat :=
  (tables.tags.filter fun tag => tag.id ∈ tagIds).map (·.id)

/-- A new row of the categories. -/
def addCategory (category : Category) (tables : Tables) : Tables :=
  { tables with categories := tables.categories ++ [category] }

def saveCategory (category : Category) (tables : Tables) : Tables :=
  { tables with categories := updateRows (fun row => row.id = category.id) (fun _ => category) tables.categories }

/-- `ON DELETE SET NULL`. -/
def deleteCategory (id : Nat) (tables : Tables) : Tables :=
  { tables with
    categories := deleteRows (fun row => row.id = id) tables.categories
    software := updateRows (fun row => row.categoryId = some id) (fun row => { row with categoryId := none }) tables.software }

/-- A new row of the tags. -/
def addTag (tag : Tag) (tables : Tables) : Tables := { tables with tags := tables.tags ++ [tag] }

def saveTag (tag : Tag) (tables : Tables) : Tables :=
  { tables with tags := updateRows (fun row => row.id = tag.id) (fun _ => tag) tables.tags }

/-- `ON DELETE CASCADE`. -/
def deleteTag (id : Nat) (tables : Tables) : Tables :=
  { tables with
    tags := deleteRows (fun row => row.id = id) tables.tags
    softwareTags := deleteRows (fun row => row.tagId = id) tables.softwareTags }

/-- The rows of other entries, and the new ones of this entry. -/
def linksWith (softwareId : Nat) (tagIds : List Nat) (tables : Tables) : List SoftwareTag :=
  deleteRows (fun row : SoftwareTag => row.softwareId = softwareId) tables.softwareTags ++ tagIds.map (SoftwareTag.mk softwareId)

/-- The tags of an entry are set. -/
def setTags (softwareId : Nat) (tagIds : List Nat) (tables : Tables) : Tables :=
  { tables with
    softwareTags := (linksWith softwareId tagIds tables).insertionSort fun first second => linkKey first ≤ linkKey second }

/-- A new row of the software. -/
def addSoftware (software : Software) (tables : Tables) : Tables :=
  { tables with software := tables.software ++ [software] }

def saveSoftware (software : Software) (tables : Tables) : Tables :=
  { tables with software := updateRows (fun row => row.id = software.id) (fun _ => software) tables.software }

/-- A new entry with its tags. -/
def addTagged (software : Software) (tagIds : List Nat) (tables : Tables) : Tables :=
  (tables.addSoftware software).setTags software.id tagIds

/-- A stored entry with new columns and tags. -/
def saveTagged (software : Software) (tagIds : List Nat) (tables : Tables) : Tables :=
  (tables.saveSoftware software).setTags software.id tagIds

/-- A new row of the audit log, under the next key. -/
def addLog (event : AuditEvent) (tables : Tables) : Tables :=
  { tables with auditLogs := tables.auditLogs ++ [{ event with id := nextId AuditLog.id tables.auditLogs }] }

end Tables

/-- `session.flush`: the database takes the tables or raises. -/
def flush (change : Tables → Tables) : EditProgram Unit := do
  let tables ← read change
  if Constraints tables then write fun _ => tables
  else raise .integrityError

end SoftwareHub.Editing
