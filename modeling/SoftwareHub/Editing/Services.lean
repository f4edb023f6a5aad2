import SoftwareHub.Editing.Tables

/-! The services that edit categories, tags and software entries. Each call checks
its texts first and is one transaction. -/
namespace SoftwareHub.Editing

open SoftwareHub.Python SoftwareHub.Semantics SoftwareHub.Semantics.Program
open SoftwareHub.Catalog (SoftwareStatus Visibility applySoftwareTransition entityNotFound normalizeOptionalText)
open SoftwareHub.Core (sanitizeAuditMetadata)
open SoftwareHub.Public (Category Software Tag)

abbrev entityConflict (message : String) : PyException := .application .entityConflict message

variable (env : EditEnvironment)

def auditEvent (context : AuditContext) (action : AuditAction) (entityType : PyStr) (entityId : Nat)
    (metadata : List (PyStr × PyStr)) : AuditEvent where
  userId := some context.userId
  action := action.value
  entityType := some entityType
  entityId := some (decimal entityId)
  result := py "success"
  requestId := context.requestId
  ipHash := context.ipHash
  safeMetadata := sanitizeAuditMetadata env.unicode env.lower
    (some (metadata.map fun item => (.str item.1, .scalar (.str item.2))))

/-- `append_context_audit_event`: nothing without a context. -/
def appendContextAuditEvent (context : Option AuditContext) (action : AuditAction) (entityType : PyStr) (entityId : Nat)
    (metadata : List (PyStr × PyStr)) : EditProgram Unit :=
  match context with
  | none => pure ()
  | some context => flush (Tables.addLog (auditEvent env context action entityType entityId metadata))

namespace CategoryService

/-- `CategoryService.create`. -/
def create (name slug : PyStr) (description : Option PyStr) (sortOrder : Int) (isVisible : Bool)
    (audit : Option AuditContext) : EditProgram Category := do
  let name ← lift (normalizeName name 120)
  let slug ← lift (normalizeSlug env slug 140 name)
  let description ← lift (normalizeOptionalText description 2000)
  lift (require (0 ≤ sortOrder) (.validationError "Category sort order cannot be negative."))
  atomically do
    let tables ← read id
    lift (require (tables.categoryBySlug env.unicode slug = none)
      (entityConflict "A category with this slug already exists."))
    let category : Category :=
      ⟨nextId Category.id tables.categories, name, slug, description, sortOrder.toNat, isVisible⟩
    lift (bindAll [sortOrder])
    flush (Tables.addCategory category)
    appendContextAuditEvent env audit .categoryCreated (py "category") category.id [(py "slug", category.slug)]
    return category

/-- `CategoryService.update`. -/
def update (categoryId : Nat) (name slug : PyStr) (description : Option PyStr) (sortOrder : Int) (isVisible : Bool)
    (audit : Option AuditContext) : EditProgram Category := do
  let name ← lift (normalizeName name 120)
  let slug ← lift (normalizeSlug env slug 140 name)
  let description ← lift (normalizeOptionalText description 2000)
  lift (require (0 ≤ sortOrder) (.validationError "Category sort order cannot be negative."))
  atomically do
    let tables ← read id
    lift (bindKeys [categoryId])
    match tables.category? categoryId with
    | none => raise (entityNotFound "Category not found.")
    | some category => do
        lift (require (∀ conflict ∈ tables.categoryBySlug env.unicode slug, conflict.id = category.id)
          (entityConflict "A category with this slug already exists."))
        let category := { category with
          name := name
          slug := slug
          description := description
          sortOrder := sortOrder.toNat
          isVisible := isVisible }
        lift (bindAll [sortOrder])
        flush (Tables.saveCategory category)
        appendContextAuditEvent env audit .categoryUpdated (py "category") category.id [(py "slug", category.slug)]
        return category

/-- `CategoryService.delete`, which leaves the entries without a category. -/
def delete (categoryId : Nat) (audit : Option AuditContext) : EditProgram Unit :=
  atomically do
    let tables ← read id
    lift (bindKeys [categoryId])
    match tables.category? categoryId with
    | none => raise (entityNotFound "Category not found.")
    | some category => do
        flush (Tables.deleteCategory category.id)
        appendContextAuditEvent env audit .categoryDeleted (py "category") categoryId [(py "slug", category.slug)]

end CategoryService

namespace TagService

/-- `TagService.create`. -/
def create (name slug : PyStr) (audit : Option AuditContext) : EditProgram Tag := do
  let name ← lift (normalizeName name 120)
  let slug ← lift (normalizeSlug env slug 140 name)
  atomically do
    let tables ← read id
    lift (require (tables.tagBySlug env.unicode slug = none) (entityConflict "A tag with this slug already exists."))
    let tag : Tag := ⟨nextId Tag.id tables.tags, name, slug⟩
    flush (Tables.addTag tag)
    appendContextAuditEvent env audit .tagCreated (py "tag") tag.id [(py "slug", tag.slug)]
    return tag

/-- `TagService.update`. -/
def update (tagId : Nat) (name slug : PyStr) (audit : Option AuditContext) : EditProgram Tag := do
  let name ← lift (normalizeName name 120)
  let slug ← lift (normalizeSlug env slug 140 name)
  atomically do
    let tables ← read id
    lift (bindKeys [tagId])
    match tables.tag? tagId with
    | none => raise (entityNotFound "Tag not found.")
    | some tag => do
        lift (require (∀ conflict ∈ tables.tagBySlug env.unicode slug, conflict.id = tag.id)
          (entityConflict "A tag with this slug already exists."))
        let tag := { tag with name := name, slug := slug }
        flush (Tables.saveTag tag)
        appendContextAuditEvent env audit .tagUpdated (py "tag") tag.id [(py "slug", tag.slug)]
        return tag

/-- `TagService.delete`, which takes the links with it. -/
def delete (tagId : Nat) (audit : Option AuditContext) : EditProgram Unit :=
  atomically do
    let tables ← read id
    lift (bindKeys [tagId])
    match tables.tag? tagId with
    | none => raise (entityNotFound "Tag not found.")
    | some tag => do
        flush (Tables.deleteTag tag.id)
        appendContextAuditEvent env audit .tagDeleted (py "tag") tagId [(py "slug", tag.slug)]

end TagService

namespace SoftwareService

/-- The row with the texts of the form. -/
def withTexts (software : Software) (texts : SoftwareTexts) : Software :=
  { software with
    name := texts.name
    slug := texts.slug
    shortDescription := texts.shortDescription
    fullDescription := texts.fullDescription
    developerName := texts.developerName
    officialWebsiteUrl := texts.officialWebsiteUrl
    sourceUrl := texts.sourceUrl
    licenseName := texts.licenseName
    supportedOs := texts.supportedOs
    systemRequirements := texts.systemRequirements }

/-- A draft under a new key. -/
def draft (id : Nat) (texts : SoftwareTexts) (categoryId : Option Nat) (visibility : Visibility) (isFeatured : Bool)
    (now : Instant) : Software where
  id := id
  status := .draft
  visibility := visibility
  publishedAt := none
  archivedAt := none
  name := texts.name
  slug := texts.slug
  shortDescription := texts.shortDescription
  fullDescription := texts.fullDescription
  developerName := texts.developerName
  officialWebsiteUrl := texts.officialWebsiteUrl
  sourceUrl := texts.sourceUrl
  licenseName := texts.licenseName
  categoryId := categoryId
  supportedOs := texts.supportedOs
  systemRequirements := texts.systemRequirements
  isFeatured := isFeatured
  updatedAt := now

/-- `onupdate=utc_now`, when a column of the row has changed. -/
def touch (before after : Software) (now : Instant) : Software :=
  if after = before then before else { after with updatedAt := now }

/-- `_resolve_category_and_tags`. -/
def resolveCategoryAndTags (categoryId : Option Nat) (tagIds : List Nat) (tables : Tables) :
    Except PyException (List Nat) := do
  bindKeys categoryId.toList
  require (∀ id ∈ categoryId, (tables.category? id).isSome = true) (entityNotFound "Category not found.")
  bindKeys tagIds
  require ((tables.getMany tagIds).length = tagIds.dedup.length) (entityNotFound "One or more tags were not found.")
  return tables.getMany tagIds

/-- `SoftwareService.create`: always a draft. -/
def create (texts : SoftwareTexts) (categoryId : Option Nat) (tagIds : List Nat) (visibility : Visibility)
    (isFeatured : Bool) (now : Instant) (audit : Option AuditContext) : EditProgram Software := do
  let fields ← lift (normalizeFields env texts)
  atomically do
    let tables ← read id
    lift (require (tables.softwareBySlug env.unicode fields.slug = none)
      (entityConflict "Software with this slug already exists."))
    let tags ← lift (resolveCategoryAndTags categoryId tagIds tables)
    let software := draft (nextId (fun row : Software => row.id) tables.software) fields categoryId visibility isFeatured now
    flush (Tables.addTagged software tags)
    appendContextAuditEvent env audit .softwareCreated (py "software") software.id [(py "slug", software.slug)]
    return software

/-- `SoftwareService.update`: the texts, the category, the tags, the visibility and
the mark. -/
def update (softwareId : Nat) (texts : SoftwareTexts) (categoryId : Option Nat) (tagIds : List Nat)
    (visibility : Visibility) (isFeatured : Bool) (now : Instant) (audit : Option AuditContext) :
    EditProgram Software := do
  let fields ← lift (normalizeFields env texts)
  atomically do
    let tables ← read id
    lift (bindKeys [softwareId])
    match tables.software? softwareId with
    | none => raise (entityNotFound "Software not found.")
    | some software => do
        lift (require (∀ conflict ∈ tables.softwareBySlug env.unicode fields.slug, conflict.id = software.id)
          (entityConflict "Software with this slug already exists."))
        let tags ← lift (resolveCategoryAndTags categoryId tagIds tables)
        let changed := { withTexts software fields with
          categoryId := categoryId
          visibility := visibility
          isFeatured := isFeatured }
        let software := touch software changed now
        flush (Tables.saveTagged software tags)
        appendContextAuditEvent env audit .softwareUpdated (py "software") software.id [(py "slug", software.slug)]
        return software

/-- `SoftwareService.replace_tags`. -/
def replaceTags (softwareId : Nat) (tagIds : List Nat) (audit : Option AuditContext) : EditProgram Software :=
  atomically do
    let tables ← read id
    lift (bindKeys [softwareId])
    match tables.software? softwareId with
    | none => raise (entityNotFound "Software not found.")
    | some software => do
        lift (bindKeys tagIds)
        let tags := tables.getMany tagIds
        lift (require (tags.length = tagIds.dedup.length) (entityNotFound "One or more tags were not found."))
        flush (Tables.setTags software.id tags)
        appendContextAuditEvent env audit .softwareUpdated (py "software") software.id [(py "changed", py "tags")]
        return software

/-- `SoftwareService.transition_status`, by the policy of the catalog. -/
def transitionStatus (softwareId : Nat) (target : SoftwareStatus) (now : Instant) (audit : Option AuditContext) :
    EditProgram Software :=
  atomically do
    let tables ← read id
    lift (bindKeys [softwareId])
    match tables.software? softwareId with
    | none => raise (entityNotFound "Software not found.")
    | some software => do
        let columns ← lift (applySoftwareTransition software.toSoftware target now)
        let changed := touch software { software with toSoftware := columns } now
        flush (Tables.saveSoftware changed)
        appendContextAuditEvent env audit .softwareStatusChanged (py "software") changed.id
          [(py "from", py software.status.value), (py "to", py target.value)]
        return changed

/-- The value of a visibility, as it is recorded. -/
def visibilityValue : Visibility → PyStr
  | .isPublic => py "public"
  | .unlisted => py "unlisted"
  | .isPrivate => py "private"

/-- `SoftwareService.set_visibility`. -/
def setVisibility (softwareId : Nat) (visibility : Visibility) (now : Instant) (audit : Option AuditContext) :
    EditProgram Software :=
  atomically do
    let tables ← read id
    lift (bindKeys [softwareId])
    match tables.software? softwareId with
    | none => raise (entityNotFound "Software not found.")
    | some software => do
        let changed := touch software { software with visibility := visibility } now
        flush (Tables.saveSoftware changed)
        appendContextAuditEvent env audit .softwareVisibilityChanged (py "software") changed.id
          [(py "from", visibilityValue software.visibility), (py "to", visibilityValue visibility)]
        return changed

end SoftwareService

/-- The editing calls, each with the one who asks for it. -/
inductive EditRequest
  | createCategory (name slug : PyStr) (description : Option PyStr) (sortOrder : Int) (isVisible : Bool)
  | updateCategory (categoryId : Nat) (name slug : PyStr) (description : Option PyStr) (sortOrder : Int) (isVisible : Bool)
  | deleteCategory (categoryId : Nat)
  | createTag (name slug : PyStr)
  | updateTag (tagId : Nat) (name slug : PyStr)
  | deleteTag (tagId : Nat)
  | createSoftware (texts : SoftwareTexts) (categoryId : Option Nat) (tagIds : List Nat) (visibility : Visibility)
      (isFeatured : Bool) (now : Instant)
  | updateSoftware (softwareId : Nat) (texts : SoftwareTexts) (categoryId : Option Nat) (tagIds : List Nat)
      (visibility : Visibility) (isFeatured : Bool) (now : Instant)
  | replaceTags (softwareId : Nat) (tagIds : List Nat)
  | transitionStatus (softwareId : Nat) (target : SoftwareStatus) (now : Instant)
  | setVisibility (softwareId : Nat) (visibility : Visibility) (now : Instant)

/-- The numbers that a request hands to the database. -/
def EditRequest.parameters : EditRequest → List Int
  | createCategory _ _ _ sortOrder _ => [sortOrder]
  | updateCategory categoryId _ _ _ sortOrder _ => [categoryId, sortOrder]
  | deleteCategory categoryId => [categoryId]
  | createTag _ _ => []
  | updateTag tagId _ _ => [tagId]
  | deleteTag tagId => [tagId]
  | createSoftware _ categoryId tagIds _ _ _ => (categoryId.toList ++ tagIds).map fun id : Nat => (id : Int)
  | updateSoftware softwareId _ categoryId tagIds _ _ _ => (softwareId :: categoryId.toList ++ tagIds).map fun id : Nat => (id : Int)
  | replaceTags softwareId tagIds => (softwareId :: tagIds).map fun id : Nat => (id : Int)
  | transitionStatus softwareId _ _ => [softwareId]
  | setVisibility softwareId _ _ => [softwareId]

/-- The database can store and look up every number of the request. -/
def EditRequest.Bindable (request : EditRequest) : Prop := ∀ value ∈ request.parameters, isBindable value = true

/-- What a request is refused with: an application error, or the error of the
driver when a number does not fit. -/
def EditRequest.Refuses (request : EditRequest) (e : PyException) : Prop :=
  e.isApplication = true ∨ e = .overflowError ∧ ¬request.Bindable

/-- The answer is the key of the entity. -/
def EditRequest.perform (audit : Option AuditContext) : EditRequest → EditProgram Nat
  | createCategory name slug description sortOrder isVisible =>
      Category.id <$> CategoryService.create env name slug description sortOrder isVisible audit
  | updateCategory categoryId name slug description sortOrder isVisible =>
      Category.id <$> CategoryService.update env categoryId name slug description sortOrder isVisible audit
  | deleteCategory categoryId => (fun _ => categoryId) <$> CategoryService.delete env categoryId audit
  | createTag name slug => Tag.id <$> TagService.create env name slug audit
  | updateTag tagId name slug => Tag.id <$> TagService.update env tagId name slug audit
  | deleteTag tagId => (fun _ => tagId) <$> TagService.delete env tagId audit
  | createSoftware texts categoryId tagIds visibility isFeatured now =>
      (fun software => software.id) <$> SoftwareService.create env texts categoryId tagIds visibility isFeatured now audit
  | updateSoftware softwareId texts categoryId tagIds visibility isFeatured now =>
      (fun software => software.id) <$>
        SoftwareService.update env softwareId texts categoryId tagIds visibility isFeatured now audit
  | replaceTags softwareId tagIds =>
      (fun software => software.id) <$> SoftwareService.replaceTags env softwareId tagIds audit
  | transitionStatus softwareId target now =>
      (fun software => software.id) <$> SoftwareService.transitionStatus env softwareId target now audit
  | setVisibility softwareId visibility now =>
      (fun software => software.id) <$> SoftwareService.setVisibility env softwareId visibility now audit

/-- One call on behalf of someone, or of no one. -/
structure EditCall where
  request : EditRequest
  audit : Option AuditContext

/-- The call on behalf of its context. -/
def EditCall.perform (call : EditCall) : EditProgram Nat := call.request.perform env call.audit

end SoftwareHub.Editing
