import SoftwareHub.Editing.Soundness

/-! What one editing call does: it is refused and changes nothing, or it leaves
sound tables and one audit row if it was asked for by someone. -/
namespace SoftwareHub.Editing

open SoftwareHub.Python SoftwareHub.Semantics SoftwareHub.Semantics.Program
open SoftwareHub.Catalog (Slug SoftwareStatus Visibility normalizeOptionalText)
open SoftwareHub.Public (Category Software SoftwareTag Tag)

namespace EditRequest

/-- The action that is recorded for a request. -/
def action : EditRequest → AuditAction
  | createCategory .. => .categoryCreated
  | updateCategory .. => .categoryUpdated
  | deleteCategory .. => .categoryDeleted
  | createTag .. => .tagCreated
  | updateTag .. => .tagUpdated
  | deleteTag .. => .tagDeleted
  | createSoftware .. => .softwareCreated
  | updateSoftware .. => .softwareUpdated
  | replaceTags .. => .softwareUpdated
  | transitionStatus .. => .softwareStatusChanged
  | setVisibility .. => .softwareVisibilityChanged

/-- The kind of entity that is recorded. -/
def entityType : EditRequest → PyStr
  | createCategory .. => py "category"
  | updateCategory .. => py "category"
  | deleteCategory .. => py "category"
  | createTag .. => py "tag"
  | updateTag .. => py "tag"
  | deleteTag .. => py "tag"
  | createSoftware .. => py "software"
  | updateSoftware .. => py "software"
  | replaceTags .. => py "software"
  | transitionStatus .. => py "software"
  | setVisibility .. => py "software"

/-- What is recorded of a change: the slug that the entity has, or had before
it was deleted, or the status or the visibility before and after. -/
def metadata (id : Nat) (before after : Tables) : EditRequest → List (PyStr × PyStr)
  | createCategory .. => ((after.category? id).map fun row => (py "slug", row.slug)).toList
  | updateCategory .. => ((after.category? id).map fun row => (py "slug", row.slug)).toList
  | deleteCategory .. => ((before.category? id).map fun row => (py "slug", row.slug)).toList
  | createTag .. => ((after.tag? id).map fun row => (py "slug", row.slug)).toList
  | updateTag .. => ((after.tag? id).map fun row => (py "slug", row.slug)).toList
  | deleteTag .. => ((before.tag? id).map fun row => (py "slug", row.slug)).toList
  | createSoftware .. => ((after.software? id).map fun row => (py "slug", row.slug)).toList
  | updateSoftware .. => ((after.software? id).map fun row => (py "slug", row.slug)).toList
  | replaceTags .. => [(py "changed", py "tags")]
  | transitionStatus _ target _ =>
      ((before.software? id).map fun row => [(py "from", py row.status.value), (py "to", py target.value)]).getD []
  | setVisibility _ visibility _ =>
      ((before.software? id).map fun row => [(py "from", SoftwareService.visibilityValue row.visibility),
        (py "to", SoftwareService.visibilityValue visibility)]).getD []

/-- The tags that an entry has. -/
def TagsStored (softwareId : Nat) (tagIds : List Nat) (tables : Tables) : Prop :=
  (∀ id ∈ tagIds, id ∈ tables.tags.map (·.id)) ∧ ∀ tagId, ⟨softwareId, tagId⟩ ∈ tables.softwareTags ↔ tagId ∈ tagIds

/-- What the request asks for is there: the entity `id` has it, or has been deleted. -/
def Settled (env : EditEnvironment) (id : Nat) (tables : Tables) : EditRequest → Prop
  | createCategory name slug description sortOrder _ =>
      ∃ category ∈ tables.categories, normalizeName name 120 = .ok category.name ∧
        normalizeSlug env slug 140 category.name = .ok category.slug ∧
        normalizeOptionalText description 2000 = .ok category.description ∧ 0 ≤ sortOrder
  | updateCategory categoryId name slug description sortOrder isVisible =>
      ∃ category ∈ tables.categories, category.id = id ∧ categoryId = id ∧ normalizeName name 120 = .ok category.name ∧
        normalizeSlug env slug 140 category.name = .ok category.slug ∧
        normalizeOptionalText description 2000 = .ok category.description ∧ 0 ≤ sortOrder ∧
        sortOrder.toNat = category.sortOrder ∧ isVisible = category.isVisible
  | deleteCategory categoryId => categoryId ∉ tables.categories.map (·.id)
  | createTag name slug =>
      ∃ tag ∈ tables.tags, normalizeName name 120 = .ok tag.name ∧ normalizeSlug env slug 140 tag.name = .ok tag.slug
  | updateTag tagId name slug =>
      ∃ tag ∈ tables.tags, tag.id = id ∧ tagId = id ∧ normalizeName name 120 = .ok tag.name ∧
        normalizeSlug env slug 140 tag.name = .ok tag.slug
  | deleteTag tagId => tagId ∉ tables.tags.map (·.id)
  | createSoftware texts _ _ _ _ _ => ∃ software ∈ tables.software, normalizeFields env texts = .ok (textsOf software)
  | updateSoftware softwareId texts categoryId tagIds visibility isFeatured _ =>
      (∃ software ∈ tables.software, software.id = id ∧ softwareId = id ∧ normalizeFields env texts = .ok (textsOf software) ∧
        categoryId = software.categoryId ∧ visibility = software.visibility ∧ isFeatured = software.isFeatured) ∧
        TagsStored id tagIds tables
  | replaceTags softwareId tagIds => (softwareId = id ∧ id ∈ tables.software.map (·.id)) ∧ TagsStored id tagIds tables
  | transitionStatus softwareId target _ =>
      ∃ software ∈ tables.software, software.id = id ∧ softwareId = id ∧ target = software.status
  | setVisibility softwareId visibility _ =>
      ∃ software ∈ tables.software, software.id = id ∧ softwareId = id ∧ visibility = software.visibility

end EditRequest

/-- The one who asks has a row of his own. -/
def AuditorExists (audit : Option AuditContext) (tables : Tables) : Prop := ∀ context ∈ audit, context.userId ∈ tables.users

/-- The tables with the audit row, if there is someone to name in it. -/
def recorded (env : EditEnvironment) (audit : Option AuditContext) (action : AuditAction) (entityType : PyStr) (id : Nat)
    (metadata : List (PyStr × PyStr)) (tables : Tables) : Tables :=
  audit.elim tables fun context => tables.addLog (auditEvent env context action entityType id metadata)

/-- The call has answered `id` in `tables` and left `after`. -/
def Edited (env : EditEnvironment) (call : EditCall) (tables : Tables) (id : Nat) (after : Tables) : Prop :=
  ∃ changed, Sound env changed ∧ changed.users = tables.users ∧ changed.auditLogs = tables.auditLogs ∧
    after = recorded env call.audit call.request.action call.request.entityType id
      (call.request.metadata id tables changed) changed

/-- Besides, what it has asked for is there. -/
def Done (env : EditEnvironment) (call : EditCall) (tables : Tables) (id : Nat) (after : Tables) : Prop :=
  Edited env call tables id after ∧ call.request.Settled env id after

/-- The call does what it has been asked for, or is refused and leaves the tables as they are. -/
def Performs (env : EditEnvironment) (call : EditCall) (tables : Tables) : Prop :=
  Triple (· = tables) (call.perform env) (Done env call tables) fun e now => call.request.Refuses e ∧ now = tables

variable {env : EditEnvironment} {tables : Tables}

section Writing

/-- The database takes tables that keep its constraints. -/
theorem flush_run {change : Tables → Tables} (h : Constraints (change tables)) : flush change tables = (.ok (), change tables) := by
  rw [flush, read_bind, if_pos h]
  rfl

/-- The audit row of someone who exists is accepted. -/
theorem append_run (h : Sound env tables) {audit : Option AuditContext} (hUser : AuditorExists audit tables)
    (action : AuditAction) (entityType : PyStr) (id : Nat) (metadata : List (PyStr × PyStr)) :
    appendContextAuditEvent env audit action entityType id metadata tables =
      (.ok (), recorded env audit action entityType id metadata tables) := by
  cases audit with
  | none => rfl
  | some context =>
      have hLogged : Sound env (tables.addLog (auditEvent env context action entityType id metadata)) := by
        apply h.addLog
        rintro userId hUserId
        obtain rfl := Option.mem_some_iff.mp hUserId
        exact hUser context rfl
      exact flush_run hLogged.constraints

/-- A change that keeps the tables sound, and its audit row. -/
theorem flush_recorded {α : Type} {change : Tables → Tables} (h : Sound env (change tables)) {audit : Option AuditContext}
    (hUser : AuditorExists audit (change tables)) (action : AuditAction) (entityType : PyStr) (id : Nat)
    (metadata : List (PyStr × PyStr)) (answer : EditProgram α) :
    (flush change >>= fun _ => appendContextAuditEvent env audit action entityType id metadata >>= fun _ => answer) tables =
      answer (recorded env audit action entityType id metadata (change tables)) := by
  rw [bind_ok (flush_run h.constraints), bind_ok (append_run h hUser _ _ _ _)]

/-- The audit row is no part of what is asked for. -/
theorem settled_recorded {audit : Option AuditContext} {id : Nat} {request : EditRequest} (h : request.Settled env id tables) (action : AuditAction)
    (entityType : PyStr) (entityId : Nat) (metadata : List (PyStr × PyStr)) :
    request.Settled env id (recorded env audit action entityType entityId metadata tables) := by
  cases audit with
  | none => exact h
  | some context => cases request <;> exact h

/-- A change that does what was asked for, with its audit row. -/
theorem done_of_changed {call : EditCall} {changed : Tables} (h : Sound env changed) (hUsers : changed.users = tables.users)
    (hLogs : changed.auditLogs = tables.auditLogs) {id : Nat} {metadata : List (PyStr × PyStr)}
    (hMetadata : call.request.metadata id tables changed = metadata) (hSettled : call.request.Settled env id changed) :
    Done env call tables id (recorded env call.audit call.request.action call.request.entityType id metadata changed) := by
  subst hMetadata
  exact ⟨⟨changed, h, hUsers, hLogs, rfl⟩, settled_recorded hSettled _ _ _ _⟩

/-- The end of a transaction that answers with the key of what it has written. -/
theorem commit_done {α : Type} {change : Tables → Tables} (h : Sound env (change tables)) {call : EditCall}
    (hUser : AuditorExists call.audit (change tables)) (hUsers : (change tables).users = tables.users)
    (hLogs : (change tables).auditLogs = tables.auditLogs) {key : α → Nat} {a : α} {id : Nat} (hKey : key a = id)
    {metadata : List (PyStr × PyStr)} (hMetadata : call.request.metadata id tables (change tables) = metadata)
    (hSettled : call.request.Settled env id (change tables)) :
    Outcome (fun a after => Done env call tables (key a) after) (fun e _ => call.request.Refuses e)
      ((flush change >>= fun _ => appendContextAuditEvent env call.audit call.request.action call.request.entityType id
        metadata >>= fun _ => pure a) tables) := by
  subst hKey
  rw [flush_recorded h hUser]
  exact done_of_changed h hUsers hLogs hMetadata hSettled

/-- A refusal is no error of the database. -/
theorem EditRequest.Refuses.ne_integrityError {request : EditRequest} {e : PyException} (h : request.Refuses e) :
    e ≠ .integrityError := by
  rintro rfl
  rcases h with hApplication | ⟨hOverflow, -⟩
  · cases hApplication
  · cases hOverflow

/-- Nothing but a refusal can be raised. -/
def EditRequest.RefusedBy {α : Type} (request : EditRequest) (x : Except PyException α) : Prop :=
  ∀ e, x = .error e → request.Refuses e

/-- A check of the service refuses by application errors. -/
theorem refusedBy_check {α : Type} {x : Except PyException α} (hRaises : RaisesApplication x) {request : EditRequest} :
    request.RefusedBy x := fun e hError => Or.inl (hRaises e hError)

/-- The driver raises only when one of the numbers does not fit. -/
theorem refusedBy_bindAll {request : EditRequest} {parameters : List Int} (h : ∀ value ∈ parameters, value ∈ request.parameters) :
    request.RefusedBy (bindAll parameters) := by
  intro e hError
  unfold bindAll require at hError
  split_ifs at hError with hFit
  cases hError
  exact Or.inr ⟨rfl, fun hBindable => hFit fun value hMem => hBindable value (h value hMem)⟩

theorem EditRequest.RefusedBy.bind {α γ : Type} {request : EditRequest} {x : Except PyException α} {f : α → Except PyException γ}
    (hx : request.RefusedBy x) (hf : ∀ a, request.RefusedBy (f a)) : request.RefusedBy (x >>= f) := forall_error_bind hx hf

/-- The checks come first; the transaction starts from the tables as they are. -/
theorem checked_spec {α γ : Type} {request : EditRequest} {x : Except PyException α} (hRaises : RaisesApplication x)
    {f : α → EditProgram γ} {Q : γ → Tables → Prop}
    (hf : ∀ a, x = .ok a → Triple (· = tables) (f a) Q fun e now => request.Refuses e ∧ now = tables) :
    Triple (· = tables) (lift x >>= f) Q fun e now => request.Refuses e ∧ now = tables := by
  have hLift : Triple (· = tables) (lift x : EditProgram α) (fun a now => x = .ok a ∧ now = tables)
      fun e now => request.Refuses e ∧ now = tables :=
    Triple.lift (fun _ hOk _ hNow => ⟨hOk, hNow⟩) fun e hError _ hNow => ⟨refusedBy_check hRaises e hError, hNow⟩
  apply hLift.bind
  rintro a now ⟨hOk, rfl⟩
  exact hf a hOk now rfl

theorem required_spec {α γ : Type} {request : EditRequest} {x : Except PyException α} (hRefused : request.RefusedBy x)
    {f : α → EditProgram γ} {Q : γ → Tables → Prop}
    (hf : ∀ a, x = .ok a → Outcome Q (fun e _ => request.Refuses e) (f a tables)) :
    Outcome Q (fun e _ => request.Refuses e) ((lift x >>= f) tables) := by
  cases hOutcome : x with
  | error e => exact hRefused e hOutcome
  | ok a => exact hf a hOutcome

/-- A transaction that raises leaves the tables as they are. -/
theorem transaction_spec {α : Type} {request : EditRequest} {x : EditProgram α} {Q : α → Tables → Prop}
    (h : Outcome Q (fun e _ => request.Refuses e) (x tables)) :
    Triple (· = tables) (atomically x) Q fun e now => request.Refuses e ∧ now = tables := by
  have hBody : Triple (· = tables) x Q fun e _ => request.Refuses e := by
    rintro now rfl
    exact h
  exact Triple.atomically hBody

end Writing

section LookUps

/-- A slug in its normal form is looked up as it is. -/
theorem normalizeSlug_slug (hLaws : env.Lawful) {maxLength : Nat} {slug : PyStr} (h : Slug env.unicode maxLength slug) :
    Public.normalizeSlug env.unicode slug = slug := Public.normalizeSlug_of_isSlug hLaws.foldsAscii h.isSlug

/-- A slug that is looked up in vain is that of no row. -/
theorem free_of_none {ρ : Type} {slugOf : ρ → PyStr} {rows : List ρ} {slug found : PyStr} (hSlug : found = slug)
    (h : rows.find? (fun row => slugOf row = found) = none) : ∀ other ∈ rows, slugOf other ≠ slug := by
  intro other hOther hSame
  rw [List.find?_eq_none] at h
  exact h other hOther (decide_eq_true (hSame.trans hSlug.symm))

/-- A slug that finds at most the row itself is that of no other row. -/
theorem free_of_forall {ρ : Type} {slugOf : ρ → PyStr} {key : ρ → Nat} {rows : List ρ} {slug found : PyStr} {id : Nat}
    (hNodup : (rows.map slugOf).Nodup) (hSlug : found = slug)
    (h : ∀ conflict ∈ rows.find? (fun row => slugOf row = found), key conflict = id) :
    ∀ other ∈ rows, slugOf other = slug → key other = id := by
  intro other hOther hSame
  apply h
  exact (find?_eq_some_iff_of_nodup hNodup).mpr ⟨hOther, hSame.trans hSlug.symm⟩

/-- The key leads to the one category that has it. -/
theorem Constraints.category? (h : Constraints tables) {id : Nat} {category : Category} :
    tables.category? id = some category ↔ category ∈ tables.categories ∧ category.id = id :=
  find?_eq_some_iff_of_nodup (h.categoryKeys.imp Nat.ne_of_lt)

theorem Constraints.tag? (h : Constraints tables) {id : Nat} {tag : Tag} :
    tables.tag? id = some tag ↔ tag ∈ tables.tags ∧ tag.id = id :=
  find?_eq_some_iff_of_nodup (h.tagKeys.imp Nat.ne_of_lt)

theorem Constraints.software? (h : Constraints tables) {id : Nat} {software : Software} :
    tables.software? id = some software ↔ software ∈ tables.software ∧ software.id = id :=
  find?_eq_some_iff_of_nodup (h.softwareKeys.imp Nat.ne_of_lt)

/-- A saved row is among the rows. -/
theorem saved_mem {ρ : Type} {key : ρ → Nat} {rows : List ρ} {row saved : ρ} (hRow : row ∈ rows) (hKey : key row = key saved) :
    saved ∈ updateRows (fun other => key other = key saved) (fun _ => saved) rows :=
  mem_updateRows.mpr ⟨row, hRow, (if_pos hKey).symm⟩

theorem not_mem_deleted {ρ : Type} {key : ρ → Nat} {rows : List ρ} {id : Nat} :
    id ∉ (deleteRows (fun row => key row = id) rows).map key := by
  intro hMem
  obtain ⟨row, hRow, hKey⟩ := List.mem_map.mp hMem
  exact (mem_deleteRows.mp hRow).2 hKey

end LookUps

section Categories

/-- A category is created under a new key. -/
theorem createCategory_spec (hLaws : env.Lawful) (h : Sound env tables) {audit : Option AuditContext}
    (hUser : AuditorExists audit tables) (name slug : PyStr) (description : Option PyStr) (sortOrder : Int) (isVisible : Bool) :
    Performs env ⟨.createCategory name slug description sortOrder isVisible, audit⟩ tables := by
  apply Triple.map
  apply checked_spec (raises_normalizeName name 120)
  intro normalName hName
  apply checked_spec (raises_normalizeSlug slug normalName 140)
  intro normalSlug hSlug
  apply checked_spec (Catalog.raisesApplication_normalizeOptionalText description 2000)
  intro normalDescription hDescription
  apply checked_spec (RaisesApplication.require rfl)
  intro _ hOrder
  apply transaction_spec
  rw [read_bind, id_eq]
  apply required_spec (refusedBy_check (.require rfl))
  intro _ hFree
  have hCanonical := normalizeSlug_eq_ok hLaws hSlug
  have hNew := free_of_none (normalizeSlug_slug hLaws hCanonical) (require_eq_ok_iff.mp hFree)
  have hSound := @Sound.addCategory env tables h ⟨nextId Category.id tables.categories, normalName, normalSlug, normalDescription, sortOrder.toNat, isVisible⟩ rfl hNew
    ⟨normalizeName_eq_ok hName, hCanonical, normalizeOptionalText_eq_ok hDescription⟩
  have hThere := List.mem_append_right tables.categories (List.mem_singleton_self (Category.mk
    (nextId Category.id tables.categories) normalName normalSlug normalDescription sortOrder.toNat isVisible))
  have hFound := hSound.constraints.category?.mpr ⟨hThere, rfl⟩
  apply required_spec (refusedBy_bindAll (by simp [EditRequest.parameters]))
  intro _ _
  refine commit_done hSound hUser rfl rfl rfl ?_ ?_
  · simp only [EditRequest.metadata]
    rw [hFound]
    rfl
  · exact ⟨_, hThere, hName, hSlug, hDescription, require_eq_ok_iff.mp hOrder⟩

theorem updateCategory_spec (hLaws : env.Lawful) (h : Sound env tables) {audit : Option AuditContext}
    (hUser : AuditorExists audit tables) (categoryId : Nat) (name slug : PyStr) (description : Option PyStr)
    (sortOrder : Int) (isVisible : Bool) :
    Performs env ⟨.updateCategory categoryId name slug description sortOrder isVisible, audit⟩ tables := by
  apply Triple.map
  apply checked_spec (raises_normalizeName name 120)
  intro normalName hName
  apply checked_spec (raises_normalizeSlug slug normalName 140)
  intro normalSlug hSlug
  apply checked_spec (Catalog.raisesApplication_normalizeOptionalText description 2000)
  intro normalDescription hDescription
  apply checked_spec (RaisesApplication.require rfl)
  intro _ hOrder
  apply transaction_spec
  rw [read_bind, id_eq]
  apply required_spec (refusedBy_bindAll (by simp [EditRequest.parameters]))
  intro _ _
  cases hRow : tables.category? categoryId with
  | none => exact Or.inl rfl
  | some category =>
      dsimp only
      apply required_spec (refusedBy_check (.require rfl))
      intro _ hFree
      obtain ⟨hMem, rfl⟩ := h.constraints.category?.mp hRow
      have hCanonical := normalizeSlug_eq_ok hLaws hSlug
      have hOthers := free_of_forall h.constraints.categorySlugs (normalizeSlug_slug hLaws hCanonical)
        (require_eq_ok_iff.mp hFree)
      have hSound := @Sound.saveCategory env tables h
        ⟨category.id, normalName, normalSlug, normalDescription, sortOrder.toNat, isVisible⟩ hOthers
        ⟨normalizeName_eq_ok hName, hCanonical, normalizeOptionalText_eq_ok hDescription⟩
      have hFound := hSound.constraints.category?.mpr ⟨saved_mem hMem rfl, rfl⟩
      apply required_spec (refusedBy_bindAll (by simp [EditRequest.parameters]))
      intro _ _
      refine commit_done hSound ?_ rfl rfl ?_ ?_ ?_
      · exact hUser
      · rfl
      · simp only [EditRequest.metadata]
        rw [hFound]
        rfl
      · exact ⟨_, saved_mem hMem rfl, rfl, rfl, hName, hSlug, hDescription, require_eq_ok_iff.mp hOrder, rfl, rfl⟩

/-- A category is deleted, and its entries lose it. -/
theorem deleteCategory_spec (h : Sound env tables) {audit : Option AuditContext} (hUser : AuditorExists audit tables)
    (categoryId : Nat) :
    Performs env ⟨.deleteCategory categoryId, audit⟩ tables := by
  apply Triple.map
  apply transaction_spec
  rw [read_bind, id_eq]
  apply required_spec (refusedBy_bindAll (by simp [EditRequest.parameters]))
  intro _ _
  cases hRow : tables.category? categoryId with
  | none => exact Or.inl rfl
  | some category =>
      obtain ⟨-, rfl⟩ := h.constraints.category?.mp hRow
      have hSound := h.deleteCategory category.id
      have hMetadata : (EditRequest.deleteCategory category.id).metadata category.id tables (tables.deleteCategory category.id) =
          [(py "slug", category.slug)] := by
        rw [EditRequest.metadata, hRow]
        rfl
      have hGone : (EditRequest.deleteCategory category.id).Settled env category.id (tables.deleteCategory category.id) :=
        @not_mem_deleted _ Category.id _ _
      dsimp only
      rw [bind_ok (flush_run hSound.constraints), append_run hSound hUser]
      exact @done_of_changed env tables ⟨.deleteCategory category.id, audit⟩ _ hSound rfl rfl _ _ hMetadata hGone

end Categories

section Tags

/-- A tag is created under a new key. -/
theorem createTag_spec (hLaws : env.Lawful) (h : Sound env tables) {audit : Option AuditContext}
    (hUser : AuditorExists audit tables) (name slug : PyStr) :
    Performs env ⟨.createTag name slug, audit⟩ tables := by
  apply Triple.map
  apply checked_spec (raises_normalizeName name 120)
  intro normalName hName
  apply checked_spec (raises_normalizeSlug slug normalName 140)
  intro normalSlug hSlug
  apply transaction_spec
  rw [read_bind, id_eq]
  apply required_spec (refusedBy_check (.require rfl))
  intro _ hFree
  have hCanonical := normalizeSlug_eq_ok hLaws hSlug
  have hNew := free_of_none (normalizeSlug_slug hLaws hCanonical) (require_eq_ok_iff.mp hFree)
  have hSound := @Sound.addTag env tables h ⟨nextId Tag.id tables.tags, normalName, normalSlug⟩ rfl hNew
    ⟨normalizeName_eq_ok hName, hCanonical⟩
  have hThere := List.mem_append_right tables.tags (List.mem_singleton_self
    (Tag.mk (nextId Tag.id tables.tags) normalName normalSlug))
  have hFound := hSound.constraints.tag?.mpr ⟨hThere, rfl⟩
  refine commit_done hSound hUser rfl rfl rfl ?_ ?_
  · simp only [EditRequest.metadata]
    rw [hFound]
    rfl
  · exact ⟨_, hThere, hName, hSlug⟩

/-- A tag gets another name and slug. -/
theorem updateTag_spec (hLaws : env.Lawful) (h : Sound env tables) {audit : Option AuditContext}
    (hUser : AuditorExists audit tables) (tagId : Nat) (name slug : PyStr) :
    Performs env ⟨.updateTag tagId name slug, audit⟩ tables := by
  apply Triple.map
  apply checked_spec (raises_normalizeName name 120)
  intro normalName hName
  apply checked_spec (raises_normalizeSlug slug normalName 140)
  intro normalSlug hSlug
  apply transaction_spec
  rw [read_bind, id_eq]
  apply required_spec (refusedBy_bindAll (by simp [EditRequest.parameters]))
  intro _ _
  cases hRow : tables.tag? tagId with
  | none => exact Or.inl rfl
  | some tag =>
      dsimp only
      apply required_spec (refusedBy_check (.require rfl))
      intro _ hFree
      obtain ⟨hMem, rfl⟩ := h.constraints.tag?.mp hRow
      have hCanonical := normalizeSlug_eq_ok hLaws hSlug
      have hOthers := free_of_forall h.constraints.tagSlugs (normalizeSlug_slug hLaws hCanonical)
        (require_eq_ok_iff.mp hFree)
      have hSound := @Sound.saveTag env tables h ⟨tag.id, normalName, normalSlug⟩ hOthers
        ⟨normalizeName_eq_ok hName, hCanonical⟩
      have hFound := hSound.constraints.tag?.mpr ⟨saved_mem hMem rfl, rfl⟩
      refine commit_done hSound ?_ rfl rfl ?_ ?_ ?_
      · exact hUser
      · rfl
      · simp only [EditRequest.metadata]
        rw [hFound]
        rfl
      · exact ⟨_, saved_mem hMem rfl, rfl, rfl, hName, hSlug⟩

/-- A tag is deleted, with its links. -/
theorem deleteTag_spec (h : Sound env tables) {audit : Option AuditContext} (hUser : AuditorExists audit tables)
    (tagId : Nat) :
    Performs env ⟨.deleteTag tagId, audit⟩ tables := by
  apply Triple.map
  apply transaction_spec
  rw [read_bind, id_eq]
  apply required_spec (refusedBy_bindAll (by simp [EditRequest.parameters]))
  intro _ _
  cases hRow : tables.tag? tagId with
  | none => exact Or.inl rfl
  | some tag =>
      obtain ⟨-, rfl⟩ := h.constraints.tag?.mp hRow
      have hSound := h.deleteTag tag.id
      have hMetadata : (EditRequest.deleteTag tag.id).metadata tag.id tables (tables.deleteTag tag.id) =
          [(py "slug", tag.slug)] := by
        rw [EditRequest.metadata, hRow]
        rfl
      have hGone : (EditRequest.deleteTag tag.id).Settled env tag.id (tables.deleteTag tag.id) :=
        @not_mem_deleted _ Tag.id _ _
      dsimp only
      rw [bind_ok (flush_run hSound.constraints), append_run hSound hUser]
      exact @done_of_changed env tables ⟨.deleteTag tag.id, audit⟩ _ hSound rfl rfl _ _ hMetadata hGone

end Tags

section SoftwareEntries

open SoftwareService

theorem getMany_nodup (h : Constraints tables) (tagIds : List Nat) : (tables.getMany tagIds).Nodup :=
  (h.tagKeys.imp Nat.ne_of_lt).sublist (List.filter_sublist.map _)

theorem mem_tags_of_getMany {tagIds : List Nat} {id : Nat} (h : id ∈ tables.getMany tagIds) : id ∈ tables.tags.map (·.id) :=
  (List.filter_sublist.map _).subset h

/-- Where all tags exist, all of them are found. -/
theorem mem_getMany {tagIds : List Nat} (hExist : ∀ id ∈ tagIds, id ∈ tables.tags.map (·.id)) {tagId : Nat} :
    tagId ∈ tables.getMany tagIds ↔ tagId ∈ tagIds := by
  constructor
  · intro hFound
    obtain ⟨tag, hTag, rfl⟩ := List.mem_map.mp hFound
    exact of_decide_eq_true (List.mem_filter.mp hTag).2
  · intro hId
    obtain ⟨tag, hTag, rfl⟩ := List.mem_map.mp (hExist tagId hId)
    exact List.mem_map_of_mem (List.mem_filter.mpr ⟨hTag, decide_eq_true hId⟩)

/-- As many tags as distinct keys are found when every key has its tag. -/
theorem getMany_length_iff (h : Constraints tables) (tagIds : List Nat) :
    (tables.getMany tagIds).length = tagIds.dedup.length ↔ ∀ id ∈ tagIds, id ∈ tables.tags.map (·.id) := by
  have hNodup := getMany_nodup h tagIds
  have hSubset : tables.getMany tagIds ⊆ tagIds.dedup := by
    intro id hId
    obtain ⟨tag, hTag, rfl⟩ := List.mem_map.mp hId
    exact List.mem_dedup.mpr (of_decide_eq_true (List.mem_filter.mp hTag).2)
  constructor
  · intro hLength id hId
    have hPerm := (hNodup.subperm hSubset).perm_of_length_le hLength.ge
    exact mem_tags_of_getMany (hPerm.mem_iff.mpr (List.mem_dedup.mpr hId))
  · intro hExist
    apply List.Perm.length_eq
    apply (List.perm_ext_iff_of_nodup hNodup (List.nodup_dedup tagIds)).mpr
    intro id
    constructor
    · exact fun hId => hSubset hId
    · exact fun hId => (mem_getMany hExist).mpr (List.mem_dedup.mp hId)

/-- The tags that have been set are those that were asked for. -/
theorem tagsStored_setTags {stored : Tables} (hSame : stored.tags = tables.tags) (softwareId : Nat) {tagIds : List Nat}
    (hExist : ∀ id ∈ tagIds, id ∈ tables.tags.map (·.id)) :
    EditRequest.TagsStored softwareId tagIds (stored.setTags softwareId (tables.getMany tagIds)) := by
  constructor
  · intro id hId
    rw [Tables.setTags, hSame]
    exact hExist id hId
  · intro tagId
    rw [Sound.mem_setTags, mem_getMany hExist]
    simp

/-- The look-ups of a request that names the category and the tags. -/
theorem refusedBy_resolve {request : EditRequest} {categoryId : Option Nat} {tagIds : List Nat}
    (hCategory : ∀ id ∈ categoryId, (id : Int) ∈ request.parameters) (hTags : ∀ id ∈ tagIds, (id : Int) ∈ request.parameters) :
    request.RefusedBy (resolveCategoryAndTags categoryId tagIds tables) := by
  refine (refusedBy_bindAll ?_).bind fun _ => (refusedBy_check (.require rfl)).bind fun _ =>
    (refusedBy_bindAll ?_).bind fun _ => refusedBy_check (.bind (.require rfl) fun _ => .ok _)
  · simpa using hCategory
  · simpa using hTags

/-- Look-ups that return have found the category and all tags. -/
theorem resolve_eq_ok (h : Constraints tables) {categoryId : Option Nat} {tagIds tags : List Nat}
    (hResolve : resolveCategoryAndTags categoryId tagIds tables = .ok tags) :
    (∀ id ∈ categoryId, id ∈ tables.categories.map (·.id)) ∧ (∀ id ∈ tagIds, id ∈ tables.tags.map (·.id)) ∧
      tags = tables.getMany tagIds := by
  obtain ⟨_, -, hResolve⟩ := except_bind_eq_ok hResolve
  obtain ⟨_, hCategory, hResolve⟩ := except_bind_eq_ok hResolve
  obtain ⟨_, -, hResolve⟩ := except_bind_eq_ok hResolve
  obtain ⟨_, hLength, hResolve⟩ := except_bind_eq_ok hResolve
  cases hResolve
  refine ⟨?_, (getMany_length_iff h tagIds).mp (require_eq_ok_iff.mp hLength), rfl⟩
  intro id hId
  obtain ⟨category, hFound⟩ := Option.isSome_iff_exists.mp (require_eq_ok_iff.mp hCategory id hId)
  obtain ⟨hMem, rfl⟩ := h.category?.mp hFound
  exact List.mem_map_of_mem hMem

/-- Touching a row changes its time at most. -/
theorem touch_cases (before after : Software) (now : Instant) :
    ∃ updatedAt, touch before after now = { after with updatedAt := updatedAt } := by
  unfold touch
  split
  · rename_i hSame
    exact ⟨after.updatedAt, hSame.symm⟩
  · exact ⟨now, rfl⟩

@[simp] theorem touch_toSoftware (before after : Software) (now : Instant) :
    (touch before after now).toSoftware = after.toSoftware := by
  obtain ⟨updatedAt, hTouch⟩ := touch_cases before after now
  rw [hTouch]

/-- The category stays, too. -/
@[simp] theorem touch_categoryId (before after : Software) (now : Instant) :
    (touch before after now).categoryId = after.categoryId := by
  obtain ⟨updatedAt, hTouch⟩ := touch_cases before after now
  rw [hTouch]

@[simp] theorem textsOf_touch (before after : Software) (now : Instant) :
    textsOf (touch before after now) = textsOf after := by
  obtain ⟨updatedAt, hTouch⟩ := touch_cases before after now
  rw [hTouch]
  rfl

/-- A row that keeps its key can be saved with texts, a category and tags that pass the checks. -/
theorem saveTagged_sound (h : Sound env tables) {software saved : Software} (hMem : software ∈ tables.software)
    (hId : saved.id = software.id) (hNormal : NormalTexts env (textsOf saved))
    (hFree : ∀ other ∈ tables.software, other.slug = saved.slug → other.id = saved.id)
    (hCategory : ∀ id ∈ saved.categoryId, id ∈ tables.categories.map (·.id)) (tagIds : List Nat) :
    Sound env (tables.saveTagged saved (tables.getMany tagIds)) ∧
      (tables.saveTagged saved (tables.getMany tagIds)).software? saved.id = some saved := by
  have hThere := @saved_mem _ (fun row : Software => row.id) tables.software software saved hMem hId.symm
  have hSound := (h.saveSoftware hFree hCategory hNormal).setTags (getMany_nodup h.constraints tagIds)
    (List.mem_map_of_mem hThere) fun id hId => mem_tags_of_getMany hId
  exact ⟨hSound, hSound.constraints.software?.mpr ⟨hThere, rfl⟩⟩

/-- An entry is created as a draft under a new key, with its tags. -/
theorem createSoftware_spec (hLaws : env.Lawful) (h : Sound env tables) {audit : Option AuditContext}
    (hUser : AuditorExists audit tables) (texts : SoftwareTexts) (categoryId : Option Nat) (tagIds : List Nat)
    (visibility : Visibility) (isFeatured : Bool) (now : Instant) :
    Performs env ⟨.createSoftware texts categoryId tagIds visibility isFeatured now, audit⟩ tables := by
  apply Triple.map
  apply checked_spec (raises_normalizeFields hLaws texts)
  intro fields hFields
  apply transaction_spec
  rw [read_bind, id_eq]
  apply required_spec (refusedBy_check (.require rfl))
  intro _ hFree
  apply required_spec (refusedBy_resolve (by simp +contextual [EditRequest.parameters]) (by simp +contextual [EditRequest.parameters]))
  intro tags hTags
  have hNormal := normalizeFields_eq_ok hLaws hFields
  have hNew := free_of_none (normalizeSlug_slug hLaws hNormal.slug) (require_eq_ok_iff.mp hFree)
  obtain ⟨hCategory, -, rfl⟩ := resolve_eq_ok h.constraints hTags
  have hAdded := @Sound.addSoftware env tables h
    (draft (nextId (fun row : Software => row.id) tables.software) fields categoryId visibility isFeatured now)
    rfl hNew hCategory hNormal
  have hThere := List.mem_append_right tables.software (List.mem_singleton_self
    (draft (nextId (fun row : Software => row.id) tables.software) fields categoryId visibility isFeatured now))
  have hSound : Sound env (tables.addTagged _ _) := hAdded.setTags (getMany_nodup h.constraints tagIds)
    (List.mem_map_of_mem hThere) fun id hId => mem_tags_of_getMany hId
  have hFound := hSound.constraints.software?.mpr ⟨hThere, rfl⟩
  refine commit_done hSound hUser rfl rfl rfl ?_ ?_
  · simp only [EditRequest.metadata]
    rw [hFound]
    rfl
  · exact ⟨_, hThere, hFields⟩

/-- An entry gets other columns and tags. -/
theorem updateSoftware_spec (hLaws : env.Lawful) (h : Sound env tables) {audit : Option AuditContext}
    (hUser : AuditorExists audit tables) (softwareId : Nat) (texts : SoftwareTexts) (categoryId : Option Nat)
    (tagIds : List Nat) (visibility : Visibility) (isFeatured : Bool) (now : Instant) :
    Performs env ⟨.updateSoftware softwareId texts categoryId tagIds visibility isFeatured now, audit⟩ tables := by
  apply Triple.map
  apply checked_spec (raises_normalizeFields hLaws texts)
  intro fields hFields
  apply transaction_spec
  rw [read_bind, id_eq]
  apply required_spec (refusedBy_bindAll (by simp [EditRequest.parameters]))
  intro _ _
  cases hRow : tables.software? softwareId with
  | none => exact Or.inl rfl
  | some software =>
      dsimp only
      apply required_spec (refusedBy_check (.require rfl))
      intro _ hFree
      apply required_spec (refusedBy_resolve (by simp +contextual [EditRequest.parameters]) (by simp +contextual [EditRequest.parameters]))
      intro tags hTags
      obtain ⟨hMem, rfl⟩ := h.constraints.software?.mp hRow
      have hNormal := normalizeFields_eq_ok hLaws hFields
      have hOthers := @free_of_forall _ _ (fun row : Software => row.id) _ _ _ _ h.constraints.softwareSlugs
        (normalizeSlug_slug hLaws hNormal.slug) (require_eq_ok_iff.mp hFree)
      obtain ⟨hCategory, hExist, rfl⟩ := resolve_eq_ok h.constraints hTags
      obtain ⟨updatedAt, hTouch⟩ := touch_cases software { withTexts software fields with
        categoryId := categoryId, visibility := visibility, isFeatured := isFeatured } now
      generalize touch software { withTexts software fields with
        categoryId := categoryId, visibility := visibility, isFeatured := isFeatured } now = saved at hTouch ⊢
      have hId : saved.id = software.id := hTouch ▸ rfl
      have hTexts : textsOf saved = fields := hTouch ▸ rfl
      have hReference : saved.categoryId = categoryId := hTouch ▸ rfl
      have hVisibility : saved.visibility = visibility := hTouch ▸ rfl
      have hFeatured : saved.isFeatured = isFeatured := hTouch ▸ rfl
      have hSlug : saved.slug = fields.slug := congrArg SoftwareTexts.slug hTexts
      obtain ⟨hSound, hFound⟩ := saveTagged_sound h hMem hId (hTexts ▸ hNormal)
        (by rw [hSlug, hId]; exact hOthers) (by rw [hReference]; exact hCategory) tagIds
      obtain ⟨hThere, -⟩ := hSound.constraints.software?.mp hFound
      rw [← hTexts] at hFields
      refine commit_done hSound hUser rfl rfl rfl ?_ ?_
      · simp only [EditRequest.metadata]
        rw [hFound]
        rfl
      · exact ⟨⟨saved, hThere, rfl, hId.symm, hFields, hReference.symm, hVisibility.symm, hFeatured.symm⟩,
          tagsStored_setTags rfl saved.id hExist⟩

theorem replaceTags_spec (h : Sound env tables) {audit : Option AuditContext} (hUser : AuditorExists audit tables)
    (softwareId : Nat) (tagIds : List Nat) :
    Performs env ⟨.replaceTags softwareId tagIds, audit⟩ tables := by
  apply Triple.map
  apply transaction_spec
  rw [read_bind, id_eq]
  apply required_spec (refusedBy_bindAll (by simp [EditRequest.parameters]))
  intro _ _
  cases hRow : tables.software? softwareId with
  | none => exact Or.inl rfl
  | some software =>
      dsimp only
      apply required_spec (refusedBy_bindAll (by simp +contextual [EditRequest.parameters]))
      intro _ _
      apply required_spec (refusedBy_check (.require rfl))
      intro _ hLength
      obtain ⟨hMem, rfl⟩ := h.constraints.software?.mp hRow
      have hThere : software.id ∈ tables.software.map (·.id) := List.mem_map_of_mem hMem
      have hSound := h.setTags (getMany_nodup h.constraints tagIds) hThere fun id hId => mem_tags_of_getMany hId
      have hExist := (getMany_length_iff h.constraints tagIds).mp (require_eq_ok_iff.mp hLength)
      refine commit_done hSound hUser rfl rfl rfl rfl ?_
      exact ⟨⟨rfl, hThere⟩, tagsStored_setTags rfl software.id hExist⟩

/-- A row that keeps its key, its texts and its category can be saved. -/
theorem saveColumns_sound (h : Sound env tables) {software saved : Software} (hMem : software ∈ tables.software)
    (hId : saved.id = software.id) (hTexts : textsOf saved = textsOf software)
    (hCategory : saved.categoryId = software.categoryId) : Sound env (tables.saveSoftware saved) := by
  have hSlug : saved.slug = software.slug := congrArg SoftwareTexts.slug hTexts
  apply h.saveSoftware
  · intro other hOther hSame
    have hRow := List.inj_on_of_nodup_map h.constraints.softwareSlugs hOther hMem (hSame.trans hSlug)
    rw [hRow, hId]
  · rw [hCategory]
    exact h.constraints.softwareCategory software hMem
  · rw [hTexts]
    exact h.software software hMem

/-- An entry makes a transition of its status. -/
theorem transitionStatus_spec (h : Sound env tables) {audit : Option AuditContext} (hUser : AuditorExists audit tables)
    (softwareId : Nat) (target : SoftwareStatus) (now : Instant) :
    Performs env ⟨.transitionStatus softwareId target now, audit⟩ tables := by
  apply Triple.map
  apply transaction_spec
  rw [read_bind, id_eq]
  apply required_spec (refusedBy_bindAll (by simp [EditRequest.parameters]))
  intro _ _
  cases hRow : tables.software? softwareId with
  | none => exact Or.inl rfl
  | some software =>
      dsimp only
      apply required_spec (refusedBy_check (Catalog.raisesApplication_applySoftwareTransition _ _ _))
      intro columns hColumns
      obtain ⟨hMem, rfl⟩ := h.constraints.software?.mp hRow
      obtain ⟨hId, hStatus⟩ := Catalog.applySoftwareTransition_eq_ok hColumns
      have hSaved : (touch software { software with toSoftware := columns } now).id = software.id := by
        rw [touch_toSoftware]
        exact hId
      have hNow : target = (touch software { software with toSoftware := columns } now).status := by
        rw [touch_toSoftware]
        exact hStatus.symm
      have hSound := saveColumns_sound h hMem hSaved (textsOf_touch _ _ _) (touch_categoryId _ _ _)
      have hThere := @saved_mem _ (fun row : Software => row.id) _ _ _ hMem hSaved.symm
      refine commit_done hSound hUser rfl rfl rfl ?_ ?_
      · simp only [EditRequest.metadata]
        rw [hSaved, hRow]
        rfl
      · exact ⟨_, hThere, rfl, hSaved.symm, hNow⟩

theorem setVisibility_spec (h : Sound env tables) {audit : Option AuditContext} (hUser : AuditorExists audit tables)
    (softwareId : Nat) (visibility : Visibility) (now : Instant) :
    Performs env ⟨.setVisibility softwareId visibility now, audit⟩ tables := by
  apply Triple.map
  apply transaction_spec
  rw [read_bind, id_eq]
  apply required_spec (refusedBy_bindAll (by simp [EditRequest.parameters]))
  intro _ _
  cases hRow : tables.software? softwareId with
  | none => exact Or.inl rfl
  | some software =>
      dsimp only
      obtain ⟨hMem, rfl⟩ := h.constraints.software?.mp hRow
      have hSaved : (touch software { software with visibility := visibility } now).id = software.id := by
        rw [touch_toSoftware]
      have hNow : visibility = (touch software { software with visibility := visibility } now).visibility := by
        rw [touch_toSoftware]
      have hSound := saveColumns_sound h hMem hSaved (textsOf_touch _ _ _) (touch_categoryId _ _ _)
      have hThere := @saved_mem _ (fun row : Software => row.id) _ _ _ hMem hSaved.symm
      refine commit_done hSound hUser rfl rfl rfl ?_ ?_
      · simp only [EditRequest.metadata]
        rw [hSaved, hRow]
        rfl
      · exact ⟨_, hThere, rfl, hSaved.symm, hNow⟩

end SoftwareEntries
end SoftwareHub.Editing
