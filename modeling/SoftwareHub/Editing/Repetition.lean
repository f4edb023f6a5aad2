import SoftwareHub.Editing.Acceptance

/-! Calls that come twice. A call that has returned leaves what it asks for, and a
call that asks for what is there is refused or changes nothing but the audit log. -/
namespace SoftwareHub.Editing

open SoftwareHub.Python SoftwareHub.Semantics SoftwareHub.Semantics.Program
open SoftwareHub.Catalog (SoftwareStatus Visibility normalizeOptionalText applySoftwareTransition)
open SoftwareHub.Public (Category Software SoftwareTag Tag)

namespace EditRequest

/-- The same request at another reading of the clock. -/
def atClock (now : Instant) : EditRequest → EditRequest
  | createSoftware texts categoryId tagIds visibility isFeatured _ =>
      createSoftware texts categoryId tagIds visibility isFeatured now
  | updateSoftware softwareId texts categoryId tagIds visibility isFeatured _ =>
      updateSoftware softwareId texts categoryId tagIds visibility isFeatured now
  | transitionStatus softwareId target _ => transitionStatus softwareId target now
  | setVisibility softwareId visibility _ => setVisibility softwareId visibility now
  | request => request

/-- The answer to a request that is settled. -/
def again (env : EditEnvironment) (audit : Option AuditContext) (id : Nat) (tables : Tables) :
    EditRequest → Except PyException Nat × Tables
  | createCategory .. => (.error (entityConflict "A category with this slug already exists."), tables)
  | deleteCategory .. => (.error (Catalog.entityNotFound "Category not found."), tables)
  | createTag .. => (.error (entityConflict "A tag with this slug already exists."), tables)
  | deleteTag .. => (.error (Catalog.entityNotFound "Tag not found."), tables)
  | createSoftware .. => (.error (entityConflict "Software with this slug already exists."), tables)
  | request =>
      (.ok id, recorded env audit request.action request.entityType id (request.metadata id tables tables) tables)

/-- The clock is none of the numbers of a request. -/
theorem bindable_atClock (request : EditRequest) (now : Instant) : (request.atClock now).Bindable ↔ request.Bindable := by
  cases request <;> exact Iff.rfl

theorem settled_atClock (env : EditEnvironment) (request : EditRequest) (now : Instant) (id : Nat) (tables : Tables) :
    (request.atClock now).Settled env id tables ↔ request.Settled env id tables := by
  cases request <;> exact Iff.rfl

/-- It is no part of the answer to a settled request. -/
theorem again_atClock (env : EditEnvironment) (audit : Option AuditContext) (request : EditRequest) (now : Instant) (id : Nat)
    (tables : Tables) : (request.atClock now).again env audit id tables = request.again env audit id tables := by
  cases request <;> rfl

end EditRequest

variable {env : EditEnvironment} {tables : Tables}

section Unchanged

/-- Saving a row that is there changes nothing. -/
theorem save_stored {ρ : Type} {key : ρ → Nat} {rows : List ρ} {saved : ρ} (hKeys : (rows.map key).Pairwise (· < ·))
    (hMem : saved ∈ rows) : updateRows (fun row => key row = key saved) (fun _ => saved) rows = rows := by
  have hSame : ∀ row ∈ rows, key row = key saved → id saved = id row := fun row hRow hKey =>
    (List.inj_on_of_nodup_map (hKeys.imp Nat.ne_of_lt) hRow hMem hKey).symm
  simpa using Sound.map_saved hSame

/-- The order of the primary key determines the list of links. -/
theorem links_ext {other : Tables} (h : Constraints tables) (hOther : Constraints other)
    (hSame : ∀ row, row ∈ tables.softwareTags ↔ row ∈ other.softwareTags) : tables.softwareTags = other.softwareTags := by
  have : Std.Irrefl fun first second => linkKey first < linkKey second := ⟨fun row => lt_irrefl (linkKey row)⟩
  exact List.Pairwise.eq_of_mem_iff (List.pairwise_map.mp h.softwareTagKeys) (List.pairwise_map.mp hOther.softwareTagKeys) hSame

/-- Setting the tags that are there changes nothing. -/
theorem setTags_stored (h : Sound env tables) {softwareId : Nat} (hSoftware : softwareId ∈ tables.software.map (·.id))
    {tagIds : List Nat} (hTags : EditRequest.TagsStored softwareId tagIds tables) :
    tables.setTags softwareId (tables.getMany tagIds) = tables := by
  have hSound := h.setTags (getMany_nodup h.constraints tagIds) hSoftware fun id hId => mem_tags_of_getMany hId
  have hRows : (tables.setTags softwareId (tables.getMany tagIds)).softwareTags = tables.softwareTags := by
    apply links_ext hSound.constraints h.constraints
    intro row
    rw [Sound.mem_setTags, mem_getMany hTags.1]
    rcases eq_or_ne row.softwareId softwareId with rfl | hOther
    · simp [hTags.2 row.tagId]
    · simp [hOther]
  calc tables.setTags softwareId (tables.getMany tagIds)
      = { tables with softwareTags := (tables.setTags softwareId (tables.getMany tagIds)).softwareTags } := rfl
    _ = tables := by rw [hRows]

/-- A change that changes nothing leaves its audit row. -/
theorem unchanged_run {α : Type} {change : Tables → Tables} (h : Sound env tables) (hSame : change tables = tables)
    {audit : Option AuditContext} (hUser : AuditorExists audit tables) (action : AuditAction) (entityType : PyStr) (id : Nat)
    (metadata : List (PyStr × PyStr)) (a : α) :
    (flush change >>= fun _ => appendContextAuditEvent env audit action entityType id metadata >>= fun _ => pure a) tables =
      (.ok a, recorded env audit action entityType id metadata tables) := by
  have hStill : Sound env (change tables) := by rwa [hSame]
  have hThere : AuditorExists audit (change tables) := by rwa [hSame]
  rw [flush_recorded hStill hThere, hSame]
  rfl

/-- A check that returns, and what follows it. -/
theorem checked_run {α γ δ : Type} {f : γ → δ} {check : Except PyException α} {a : α} (hCheck : check = .ok a)
    {rest : α → EditProgram γ} {result : Except PyException δ × Tables} (h : (f <$> rest a) tables = result) :
    (f <$> (lift check >>= rest)) tables = result := by
  rw [hCheck]
  exact h

theorem returned_run {α γ : Type} {f : α → γ} {x : EditProgram α} {a : α} {after : Tables} (h : x tables = (.ok a, after)) :
    (f <$> atomically x) tables = (.ok (f a), after) := by
  rw [map_apply, atomically_ok h]
  rfl

/-- The driver takes the numbers of a request that fit. -/
theorem EditRequest.Bindable.bindAll_ok {request : EditRequest} (h : request.Bindable) {parameters : List Int}
    (hSubset : ∀ value ∈ parameters, value ∈ request.parameters) : bindAll parameters = .ok () :=
  require_ok fun value hMem => h value (hSubset value hMem)

theorem require_refused {c : Prop} [Decidable c] {e : PyException} (h : ¬c) : require c e = .error e := if_neg h

theorem refused_run {α γ : Type} {f : α → γ} {x : EditProgram α} {e : PyException} {after : Tables}
    (h : x tables = (.error e, after)) : (f <$> atomically x) tables = (.error e, tables) := by
  rw [map_apply, atomically_error h]
  rfl

theorem find?_gone {ρ : Type} {key : ρ → Nat} {rows : List ρ} {id : Nat} (h : id ∉ rows.map key) :
    rows.find? (fun row => key row = id) = none := by
  rw [List.find?_eq_none]
  intro row hRow hKey
  exact h (of_decide_eq_true hKey ▸ List.mem_map_of_mem hRow)

end Unchanged

section Settled

variable {audit : Option AuditContext} {id : Nat}

/-- The second call answers as described. -/
def Repeats (env : EditEnvironment) (audit : Option AuditContext) (id : Nat) (tables : Tables) (request : EditRequest) : Prop :=
  request.perform env audit tables = request.again env audit id tables

/-- The slug of a category that is there is not free. -/
theorem settled_createCategory (hLaws : env.Lawful) (h : Sound env tables) {name slug : PyStr} {description : Option PyStr}
    {sortOrder : Int} {isVisible : Bool}
    (hSettled : (EditRequest.createCategory name slug description sortOrder isVisible).Settled env id tables) :
    Repeats env audit id tables (.createCategory name slug description sortOrder isVisible) := by
  obtain ⟨category, hMem, hName, hSlug, hText, hOrder⟩ := hSettled
  have hTaken : tables.categoryBySlug env.unicode category.slug ≠ none := fun hFree =>
    (bySlug_none_iff (normalizeSlug_slug hLaws (h.categories category hMem).slug)).mp hFree category hMem rfl
  rw [Repeats, EditRequest.again]
  apply checked_run hName
  apply checked_run hSlug
  apply checked_run hText
  apply checked_run (require_ok hOrder)
  apply refused_run
  rw [read_bind, id_eq, require_refused hTaken, lift_error_bind]

/-- A category that is gone is not found. -/
theorem settled_deleteCategory {categoryId : Nat} (hFits : (EditRequest.deleteCategory categoryId).Bindable)
    (hSettled : (EditRequest.deleteCategory categoryId).Settled env id tables) :
    Repeats env audit id tables (.deleteCategory categoryId) := by
  have hKey : bindKeys [categoryId] = .ok () := hFits.bindAll_ok (by simp [EditRequest.parameters])
  have hGone : tables.category? categoryId = none := @find?_gone _ Category.id _ _ hSettled
  rw [Repeats, EditRequest.again]
  apply refused_run
  rw [read_bind, id_eq, hKey, lift_ok_bind, hGone]
  rfl

/-- The slug of a tag that is there is not free. -/
theorem settled_createTag (hLaws : env.Lawful) (h : Sound env tables) {name slug : PyStr}
    (hSettled : (EditRequest.createTag name slug).Settled env id tables) : Repeats env audit id tables (.createTag name slug) := by
  obtain ⟨tag, hMem, hName, hSlug⟩ := hSettled
  have hTaken : tables.tagBySlug env.unicode tag.slug ≠ none := fun hFree =>
    (bySlug_none_iff (normalizeSlug_slug hLaws (h.tags tag hMem).slug)).mp hFree tag hMem rfl
  rw [Repeats, EditRequest.again]
  apply checked_run hName
  apply checked_run hSlug
  apply refused_run
  rw [read_bind, id_eq, require_refused hTaken, lift_error_bind]

/-- A tag that is gone is not found. -/
theorem settled_deleteTag {tagId : Nat} (hFits : (EditRequest.deleteTag tagId).Bindable)
    (hSettled : (EditRequest.deleteTag tagId).Settled env id tables) :
    Repeats env audit id tables (.deleteTag tagId) := by
  have hKey : bindKeys [tagId] = .ok () := hFits.bindAll_ok (by simp [EditRequest.parameters])
  have hGone : tables.tag? tagId = none := @find?_gone _ Tag.id _ _ hSettled
  rw [Repeats, EditRequest.again]
  apply refused_run
  rw [read_bind, id_eq, hKey, lift_ok_bind, hGone]
  rfl

/-- The slug of an entry that is there is not free. -/
theorem settled_createSoftware (hLaws : env.Lawful) (h : Sound env tables) {texts : SoftwareTexts} {categoryId : Option Nat}
    {tagIds : List Nat} {visibility : Visibility} {isFeatured : Bool} {now : Instant}
    (hSettled : (EditRequest.createSoftware texts categoryId tagIds visibility isFeatured now).Settled env id tables) :
    Repeats env audit id tables (.createSoftware texts categoryId tagIds visibility isFeatured now) := by
  obtain ⟨software, hMem, hFields⟩ := hSettled
  have hTaken : tables.softwareBySlug env.unicode (textsOf software).slug ≠ none := fun hFree =>
    (bySlug_none_iff (normalizeSlug_slug hLaws (h.software software hMem).slug)).mp hFree software hMem rfl
  rw [Repeats, EditRequest.again]
  apply checked_run hFields
  apply refused_run
  rw [read_bind, id_eq, require_refused hTaken, lift_error_bind]

/-- A category that has the columns is written as it is. -/
theorem settled_updateCategory (hLaws : env.Lawful) (h : Sound env tables) (hUser : AuditorExists audit tables) {categoryId : Nat}
    {name slug : PyStr} {description : Option PyStr} {sortOrder : Int} {isVisible : Bool}
    (hFits : (EditRequest.updateCategory categoryId name slug description sortOrder isVisible).Bindable)
    (hSettled : (EditRequest.updateCategory categoryId name slug description sortOrder isVisible).Settled env id tables) :
    Repeats env audit id tables (.updateCategory categoryId name slug description sortOrder isVisible) := by
  obtain ⟨category, hMem, rfl, rfl, hName, hSlug, hText, hOrder, hSort, rfl⟩ := hSettled
  have hKey : bindKeys [category.id] = .ok () := hFits.bindAll_ok (by simp [EditRequest.parameters])
  have hOrderFits : bindAll [sortOrder] = .ok () := hFits.bindAll_ok (by simp [EditRequest.parameters])
  have hFound := h.constraints.category?.mpr ⟨hMem, rfl⟩
  have hFree : ∀ conflict ∈ tables.categoryBySlug env.unicode category.slug, conflict.id = category.id :=
    (bySlug_forall_iff h.constraints.categorySlugs (normalizeSlug_slug hLaws (h.categories category hMem).slug)).mpr
      fun other hOther hSame => congrArg Category.id (List.inj_on_of_nodup_map h.constraints.categorySlugs hOther hMem hSame)
  have hSame : tables.saveCategory category = tables := by
    rw [Tables.saveCategory, save_stored h.constraints.categoryKeys hMem]
  simp only [Repeats, EditRequest.again, EditRequest.metadata]
  rw [hFound]
  apply checked_run hName
  apply checked_run hSlug
  apply checked_run hText
  apply checked_run (require_ok hOrder)
  apply returned_run
  rw [read_bind, id_eq, hKey, lift_ok_bind, hFound]
  dsimp only
  rw [require_ok hFree, lift_ok_bind, hOrderFits, lift_ok_bind, hSort]
  exact unchanged_run h hSame hUser _ _ _ _ _

/-- So is a tag that has the name and the slug. -/
theorem settled_updateTag (hLaws : env.Lawful) (h : Sound env tables) (hUser : AuditorExists audit tables) {tagId : Nat}
    {name slug : PyStr} (hFits : (EditRequest.updateTag tagId name slug).Bindable)
    (hSettled : (EditRequest.updateTag tagId name slug).Settled env id tables) :
    Repeats env audit id tables (.updateTag tagId name slug) := by
  obtain ⟨tag, hMem, rfl, rfl, hName, hSlug⟩ := hSettled
  have hKey : bindKeys [tag.id] = .ok () := hFits.bindAll_ok (by simp [EditRequest.parameters])
  have hFound := h.constraints.tag?.mpr ⟨hMem, rfl⟩
  have hFree : ∀ conflict ∈ tables.tagBySlug env.unicode tag.slug, conflict.id = tag.id :=
    (bySlug_forall_iff h.constraints.tagSlugs (normalizeSlug_slug hLaws (h.tags tag hMem).slug)).mpr
      fun other hOther hSame => congrArg Tag.id (List.inj_on_of_nodup_map h.constraints.tagSlugs hOther hMem hSame)
  have hSame : tables.saveTag tag = tables := by
    rw [Tables.saveTag, save_stored h.constraints.tagKeys hMem]
  simp only [Repeats, EditRequest.again, EditRequest.metadata]
  rw [hFound]
  apply checked_run hName
  apply checked_run hSlug
  apply returned_run
  rw [read_bind, id_eq, hKey, lift_ok_bind, hFound]
  dsimp only
  rw [require_ok hFree, lift_ok_bind]
  exact unchanged_run h hSame hUser _ _ _ _ _

/-- Saving an entry that is there changes nothing. -/
theorem saveSoftware_stored (h : Sound env tables) {software : Software} (hMem : software ∈ tables.software) :
    tables.saveSoftware software = tables := by
  rw [Tables.saveSoftware, @save_stored _ (fun row : Software => row.id) _ _ h.constraints.softwareKeys hMem]

/-- An entry that has the columns and the tags is not touched. -/
theorem settled_updateSoftware (hLaws : env.Lawful) (h : Sound env tables) (hUser : AuditorExists audit tables) {softwareId : Nat}
    {texts : SoftwareTexts} {categoryId : Option Nat} {tagIds : List Nat} {visibility : Visibility} {isFeatured : Bool}
    {now : Instant}
    (hFits : (EditRequest.updateSoftware softwareId texts categoryId tagIds visibility isFeatured now).Bindable)
    (hSettled : (EditRequest.updateSoftware softwareId texts categoryId tagIds visibility isFeatured now).Settled env id tables) :
    Repeats env audit id tables (.updateSoftware softwareId texts categoryId tagIds visibility isFeatured now) := by
  obtain ⟨⟨software, hMem, rfl, rfl, hFields, rfl, rfl, rfl⟩, hTags⟩ := hSettled
  have hKey : bindKeys [software.id] = .ok () := hFits.bindAll_ok (by simp [EditRequest.parameters])
  have hFound := h.constraints.software?.mpr ⟨hMem, rfl⟩
  have hFree : ∀ conflict ∈ tables.softwareBySlug env.unicode (textsOf software).slug, conflict.id = software.id :=
    (bySlug_forall_iff h.constraints.softwareSlugs (normalizeSlug_slug hLaws (h.software software hMem).slug)).mpr
      fun other hOther hSame =>
        congrArg (fun row : Software => row.id) (List.inj_on_of_nodup_map h.constraints.softwareSlugs hOther hMem hSame)
  obtain ⟨tags, hResolve⟩ := (resolve_ok_iff h.constraints software.categoryId tagIds).mpr
    ⟨fun value hValue => hFits value (List.mem_cons_of_mem _ hValue), h.constraints.softwareCategory software hMem, hTags.1⟩
  obtain ⟨-, -, rfl⟩ := resolve_eq_ok h.constraints hResolve
  have hTouched : SoftwareService.touch software { SoftwareService.withTexts software (textsOf software) with
      categoryId := software.categoryId, visibility := software.visibility, isFeatured := software.isFeatured } now = software :=
    if_pos rfl
  have hThere : software.id ∈ tables.software.map (·.id) := List.mem_map_of_mem hMem
  have hSame : tables.saveTagged software (tables.getMany tagIds) = tables := by
    rw [Tables.saveTagged, saveSoftware_stored h hMem, setTags_stored h hThere hTags]
  simp only [Repeats, EditRequest.again, EditRequest.metadata]
  rw [hFound]
  apply checked_run hFields
  apply returned_run
  rw [read_bind, id_eq, hKey, lift_ok_bind, hFound]
  dsimp only
  rw [require_ok hFree, lift_ok_bind, hResolve, lift_ok_bind, hTouched]
  exact unchanged_run h hSame hUser _ _ _ _ _

theorem settled_replaceTags (h : Sound env tables) (hUser : AuditorExists audit tables) {softwareId : Nat} {tagIds : List Nat}
    (hFits : (EditRequest.replaceTags softwareId tagIds).Bindable)
    (hSettled : (EditRequest.replaceTags softwareId tagIds).Settled env id tables) :
    Repeats env audit id tables (.replaceTags softwareId tagIds) := by
  obtain ⟨⟨rfl, hThere⟩, hTags⟩ := hSettled
  have hSame := setTags_stored h hThere hTags
  obtain ⟨software, hMem, rfl⟩ := List.mem_map.mp hThere
  have hKey : bindKeys [software.id] = .ok () := hFits.bindAll_ok (by simp [EditRequest.parameters])
  have hTagsFit : bindKeys tagIds = .ok () := hFits.bindAll_ok (by simp +contextual [EditRequest.parameters])
  have hFound := h.constraints.software?.mpr ⟨hMem, rfl⟩
  apply returned_run
  rw [read_bind, id_eq, hKey, lift_ok_bind, hFound]
  dsimp only
  rw [hTagsFit, lift_ok_bind, require_ok ((getMany_length_iff h.constraints tagIds).mpr hTags.1), lift_ok_bind]
  exact unchanged_run h hSame hUser _ _ _ _ _

/-- A status that is there is accepted, and nothing is written. -/
theorem settled_transitionStatus (h : Sound env tables) (hUser : AuditorExists audit tables) {softwareId : Nat}
    {target : SoftwareStatus} {now : Instant}
    (hFits : (EditRequest.transitionStatus softwareId target now).Bindable)
    (hSettled : (EditRequest.transitionStatus softwareId target now).Settled env id tables) :
    Repeats env audit id tables (.transitionStatus softwareId target now) := by
  obtain ⟨software, hMem, rfl, rfl, rfl⟩ := hSettled
  have hKey : bindKeys [software.id] = .ok () := hFits.bindAll_ok (by simp [EditRequest.parameters])
  have hFound := h.constraints.software?.mpr ⟨hMem, rfl⟩
  have hColumns : applySoftwareTransition software.toSoftware software.status now = .ok software.toSoftware := by
    unfold applySoftwareTransition
    rw [Catalog.ensureTransition, require_ok (Or.inl rfl)]
    exact if_pos rfl
  have hTouched : SoftwareService.touch software { software with toSoftware := software.toSoftware } now = software := if_pos rfl
  simp only [Repeats, EditRequest.again, EditRequest.metadata]
  rw [hFound]
  apply returned_run
  rw [read_bind, id_eq, hKey, lift_ok_bind, hFound]
  dsimp only
  rw [hColumns, lift_ok_bind, hTouched]
  exact unchanged_run h (saveSoftware_stored h hMem) hUser _ _ _ _ _

/-- A visibility that is there is written as it is, without touching the row. -/
theorem settled_setVisibility (h : Sound env tables) (hUser : AuditorExists audit tables) {softwareId : Nat}
    {visibility : Visibility} {now : Instant}
    (hFits : (EditRequest.setVisibility softwareId visibility now).Bindable)
    (hSettled : (EditRequest.setVisibility softwareId visibility now).Settled env id tables) :
    Repeats env audit id tables (.setVisibility softwareId visibility now) := by
  obtain ⟨software, hMem, rfl, rfl, rfl⟩ := hSettled
  have hKey : bindKeys [software.id] = .ok () := hFits.bindAll_ok (by simp [EditRequest.parameters])
  have hFound := h.constraints.software?.mpr ⟨hMem, rfl⟩
  have hTouched : SoftwareService.touch software { software with visibility := software.visibility } now = software := if_pos rfl
  simp only [Repeats, EditRequest.again, EditRequest.metadata]
  rw [hFound]
  apply returned_run
  rw [read_bind, id_eq, hKey, lift_ok_bind, hFound]
  dsimp only
  rw [hTouched]
  exact unchanged_run h (saveSoftware_stored h hMem) hUser _ _ _ _ _

/-- A settled request is refused, or writes its audit row and nothing else. -/
theorem settled_repeats (hLaws : env.Lawful) (h : Sound env tables) (hUser : AuditorExists audit tables)
    {request : EditRequest} (hFits : request.Bindable) (hSettled : request.Settled env id tables) :
    Repeats env audit id tables request := by
  cases request with
  | createCategory => exact settled_createCategory hLaws h hSettled
  | updateCategory => exact settled_updateCategory hLaws h hUser hFits hSettled
  | deleteCategory => exact settled_deleteCategory hFits hSettled
  | createTag => exact settled_createTag hLaws h hSettled
  | updateTag => exact settled_updateTag hLaws h hUser hFits hSettled
  | deleteTag => exact settled_deleteTag hFits hSettled
  | createSoftware => exact settled_createSoftware hLaws h hSettled
  | updateSoftware => exact settled_updateSoftware hLaws h hUser hFits hSettled
  | replaceTags => exact settled_replaceTags h hUser hFits hSettled
  | transitionStatus => exact settled_transitionStatus h hUser hFits hSettled
  | setVisibility => exact settled_setVisibility h hUser hFits hSettled

end Settled

section Runs

/-- A call that has returned comes again, whatever the clock says by then. -/
theorem repeated_step (hLaws : env.Lawful) (h : Sound env tables) (call : EditCall) (hUser : AuditorExists call.audit tables)
    {id : Nat} (hOk : (call.perform env tables).1 = .ok id) (now : Instant) :
    (call.request.atClock now).perform env call.audit (call.perform env tables).2 =
      call.request.again env call.audit id (call.perform env tables).2 := by
  have hStep := soundStep hLaws h call hUser
  have hUsers : (call.perform env tables).2.users = tables.users := hStep.users
  have hStill : AuditorExists call.audit (call.perform env tables).2 := by
    rw [AuditorExists, hUsers]
    exact hUser
  have hRun : call.perform env tables = (.ok id, (call.perform env tables).2) := Prod.ext hOk rfl
  obtain ⟨-, hSettled⟩ := (perform_spec hLaws h call hUser).of_ok rfl hRun
  obtain ⟨hFits, -⟩ := (returns_iff hLaws h call hUser).mp ⟨id, hOk⟩
  rw [← call.request.again_atClock env call.audit now]
  exact settled_repeats hLaws hStep.after hStill ((call.request.bindable_atClock now).mpr hFits)
    ((call.request.settled_atClock env now id _).mpr hSettled)

/-- In every run, a call that has returned and comes a second time, at any
reading of the clock, creates and deletes nothing: it is refused, or it finds
what it has left and writes its audit row only. -/
theorem edits_come_twice (hLaws : env.Lawful) (h : Sound env tables) {calls : List EditCall}
    (hUsers : ∀ call ∈ calls, AuditorExists call.audit tables) : ∀ step ∈ trace (EditCall.perform env) tables calls,
      ∀ id, step.outcome = .ok id → ∀ now,
        (step.request.request.atClock now).perform env step.request.audit step.after =
          step.request.request.again env step.request.audit id step.after :=
  forall_steps hLaws h hUsers fun call _ hNow hUser _ hOk now => repeated_step hLaws hNow call hUser hOk now

/-- An entry is created, and hidden at the instant 42. -/
def hidingCalls : List EditCall :=
  [⟨.createSoftware sampleTexts none [] .isPublic false ⟨41, by decide⟩, some sampleAudit⟩,
    ⟨.setVisibility 1 .unlisted ⟨42, by decide⟩, some sampleAudit⟩]

/-- Hiding it once more at the instant 43 leaves the time of the first change. -/
theorem edits_come_twice_sample :
    ((EditRequest.setVisibility 1 .unlisted ⟨43, by decide⟩).perform sampleEnvironment (some sampleAudit)
      (final (EditCall.perform sampleEnvironment) (newTables [1]) hidingCalls)).2.software.map (·.updatedAt) =
        [⟨42, by decide⟩] := by
  have hUsers : ∀ call ∈ hidingCalls, AuditorExists call.audit (newTables [1]) := by
    have hAll : ∀ call ∈ hidingCalls, ∀ context ∈ call.audit, context.userId ∈ [1] := by decide
    exact hAll
  have hTwice := edits_come_twice sampleEnvironment_lawful (newTables_sound sampleEnvironment [1]) hUsers
    (answer (EditCall.perform sampleEnvironment) ⟨.setVisibility 1 .unlisted ⟨42, by decide⟩, some sampleAudit⟩
      (EditCall.perform sampleEnvironment ⟨.createSoftware sampleTexts none [] .isPublic false ⟨41, by decide⟩, some sampleAudit⟩
        (newTables [1])).2) (List.mem_cons_of_mem _ List.mem_cons_self) 1 (by decide) ⟨43, by decide⟩
  refine (congrArg (fun run => run.2.software.map (·.updatedAt)) hTwice).trans ?_
  decide

end Runs
end SoftwareHub.Editing
