import SoftwareHub.Catalog.SoftwareMetadata
import SoftwareHub.Editing.Runs

/-! The editing services refine the software calls of the catalog, which know the
columns of the lifecycle only and take the checks as outcomes. -/
namespace SoftwareHub.Editing

open SoftwareHub.Python SoftwareHub.Semantics SoftwareHub.Semantics.Program
open SoftwareHub.Catalog (SoftwareEdit SoftwareStatus Visibility entityNotFound)
open SoftwareHub.Public (Software)

/-- What the catalog knows of the tables, beside its releases and files. -/
def Tables.catalog (others : Catalog.Database) (tables : Tables) : Catalog.Database :=
  { others with software := tables.software.map (·.toSoftware) }

/-- The outcome of a check, without what it returns. -/
def outcomeOf {α : Type} (x : Except PyException α) : Except PyException Unit := x.map fun _ => ()

section Outcomes

variable (env : EditEnvironment)

/-- The slug is free, and the category and the tags exist. -/
def createReferences (categoryId : Option Nat) (tagIds : List Nat) (tables : Tables) (fields : SoftwareTexts) :
    Except PyException (List Nat) := do
  require (tables.softwareBySlug env.unicode fields.slug = none) (entityConflict "Software with this slug already exists.")
  SoftwareService.resolveCategoryAndTags categoryId tagIds tables

/-- The slug is that of no other entry, and the category and the tags exist. -/
def updateReferences (softwareId : Nat) (categoryId : Option Nat) (tagIds : List Nat) (tables : Tables)
    (fields : SoftwareTexts) : Except PyException (List Nat) := do
  require (∀ conflict ∈ tables.softwareBySlug env.unicode fields.slug, conflict.id = softwareId)
    (entityConflict "Software with this slug already exists.")
  SoftwareService.resolveCategoryAndTags categoryId tagIds tables

def tagReferences (tagIds : List Nat) (tables : Tables) : Except PyException Unit := do
  bindKeys tagIds
  require ((tables.getMany tagIds).length = tagIds.dedup.length) (entityNotFound "One or more tags were not found.")

end Outcomes

/-- The calls of the catalog for a software entry. -/
inductive CatalogCall
  | edit (edit : SoftwareEdit)
  | transition (softwareId : Nat) (target : SoftwareStatus) (now : Instant)

/-- The answer is the key of the entry. -/
def CatalogCall.perform : CatalogCall → Catalog.CatalogProgram Nat
  | edit request => Catalog.Software.id <$> request.perform
  | transition softwareId target now => Catalog.Software.id <$> Catalog.SoftwareService.transitionStatus softwareId target now

/-- The call that an editing request is to the catalog, if any. -/
def EditRequest.catalogCall (env : EditEnvironment) (tables : Tables) : EditRequest → Option CatalogCall
  | createSoftware texts categoryId tagIds visibility _ _ =>
      some (.edit (.create (outcomeOf (normalizeFields env texts))
        (outcomeOf (normalizeFields env texts >>= createReferences env categoryId tagIds tables)) visibility))
  | updateSoftware softwareId texts categoryId tagIds visibility _ _ =>
      some (.edit (.update softwareId (outcomeOf (normalizeFields env texts))
        (outcomeOf (normalizeFields env texts >>= updateReferences env softwareId categoryId tagIds tables)) visibility))
  | replaceTags softwareId tagIds => some (.edit (.replaceTags softwareId (tagReferences tagIds tables)))
  | transitionStatus softwareId target now => some (.transition softwareId target now)
  | setVisibility softwareId visibility _ => some (.edit (.setVisibility softwareId visibility))
  | _ => none

variable {env : EditEnvironment} {tables : Tables} {others : Catalog.Database}

section Follows

variable {α γ : Type}

/-- The second program does to the catalog what the first one does to the tables, unless the database refuses them. -/
def Follows (others : Catalog.Database) (f : α → γ) (tables : Tables) (x : EditProgram α) (y : Catalog.CatalogProgram γ) : Prop :=
  (x tables).1 = .error .integrityError ∨ y (tables.catalog others) = ((x tables).1.map f, (x tables).2.catalog others)

variable {f : α → γ}

theorem Follows.atomically {x : EditProgram α} {y : Catalog.CatalogProgram γ} (h : Follows others f tables x y) :
    Follows others f tables (atomically x) (atomically y) := by
  rcases hRun : x tables with ⟨outcome, after⟩
  rw [Follows, hRun] at h
  cases outcome with
  | ok a =>
      have hReturned : (Except.ok a : Except PyException α) ≠ .error .integrityError := by
        intro hRefused
        cases hRefused
      have hSame : y (tables.catalog others) = (.ok (f a), after.catalog others) := h.resolve_left hReturned
      right
      rw [atomically_ok hRun, atomically_ok hSame]
      rfl
  | error e =>
      rw [Follows, atomically_error hRun]
      apply h.imp id
      intro hSame
      rw [atomically_error hSame]
      rfl

/-- A check of the first program is an outcome for the second. -/
theorem Follows.check {β : Type} {check : Except PyException β} {rest : β → EditProgram α} {y : Catalog.CatalogProgram γ}
    (h : ∀ b, check = .ok b → Follows others f tables (rest b) y) :
    Follows others f tables (lift check >>= rest) (lift (outcomeOf check) >>= fun _ => y) := by
  cases check with
  | error e => exact Or.inr rfl
  | ok b => exact h b rfl

theorem Follows.lift {β : Type} {check : Except PyException β} {rest : β → EditProgram α}
    {other : β → Catalog.CatalogProgram γ} (h : ∀ b, check = .ok b → Follows others f tables (rest b) (other b)) :
    Follows others f tables (lift check >>= rest) (lift check >>= other) := by
  cases check with
  | error e => exact Or.inr rfl
  | ok b => exact h b rfl

theorem software?_catalog (id : Nat) : (tables.catalog others).software? id = (tables.software? id).map (·.toSoftware) :=
  List.find?_map

/-- The first program reads the tables. -/
theorem Follows.read {rest : Tables → EditProgram α} {y : Catalog.CatalogProgram γ} (h : Follows others f tables (rest tables) y) :
    Follows others f tables (read id >>= rest) y := h

/-- Both programs look the entry up under a key that the driver takes or not. -/
theorem Follows.key {softwareId : Nat} {x : Unit → EditProgram α} {rest : Catalog.Software → Catalog.CatalogProgram γ}
    (h : bindKeys [softwareId] = .ok () → Follows others f tables (x ()) (Catalog.SoftwareService.require softwareId >>= rest)) :
    Follows others f tables (Program.lift (bindKeys [softwareId]) >>= x) (Catalog.SoftwareService.require softwareId >>= rest) := by
  cases hKey : bindKeys [softwareId] with
  | error e =>
      have hRun : Catalog.SoftwareService.require softwareId (tables.catalog others) = (.error e, tables.catalog others) := by
        rw [Catalog.SoftwareService.require, hKey, lift_error_bind]
      right
      rw [lift_error_bind, bind_error hRun]
      rfl
  | ok u => exact h hKey

theorem Follows.found {softwareId : Nat} (hKey : bindKeys [softwareId] = .ok ()) {software : Software}
    (hRow : tables.software? softwareId = some software) {x : EditProgram α}
    {rest : Catalog.Software → Catalog.CatalogProgram γ} (h : Follows others f tables x (rest software.toSoftware)) :
    Follows others f tables x (Catalog.SoftwareService.require softwareId >>= rest) := by
  have hRun : Catalog.SoftwareService.require softwareId (tables.catalog others) =
      (.ok software.toSoftware, tables.catalog others) := by
    rw [Catalog.SoftwareService.require, hKey, lift_ok_bind, read_bind, software?_catalog, hRow]
    rfl
  rwa [Follows, bind_ok hRun]

theorem Follows.missing {softwareId : Nat} (hKey : bindKeys [softwareId] = .ok ())
    (hRow : tables.software? softwareId = none) {rest : Catalog.Software → Catalog.CatalogProgram γ} :
    Follows others f tables (raise (entityNotFound "Software not found."))
      (Catalog.SoftwareService.require softwareId >>= rest) := by
  have hRun : Catalog.SoftwareService.require softwareId (tables.catalog others) =
      (.error (entityNotFound "Software not found."), tables.catalog others) := by
    rw [Catalog.SoftwareService.require, hKey, lift_ok_bind, read_bind, software?_catalog, hRow]
    rfl
  right
  rw [bind_error hRun]
  rfl

/-- A change and its audit row, for what the second program does in one write. -/
theorem Follows.commit {change : Tables → Tables} {audit : Option AuditContext} {action : AuditAction} {entityType : PyStr}
    {id : Nat} {metadata : List (PyStr × PyStr)} {a : α} {y : Catalog.CatalogProgram γ}
    (h : y (tables.catalog others) = (.ok (f a), (change tables).catalog others)) :
    Follows others f tables
      (flush change >>= fun _ => appendContextAuditEvent env audit action entityType id metadata >>= fun _ => pure a) y := by
  by_cases hChange : Constraints (change tables)
  · cases audit with
    | none =>
        right
        rw [bind_ok (flush_run hChange), h]
        rfl
    | some context =>
        by_cases hLogged : Constraints ((change tables).addLog (auditEvent env context action entityType id metadata))
        · right
          rw [bind_ok (flush_run hChange), appendContextAuditEvent, bind_ok (flush_run hLogged), h]
          rfl
        · left
          rw [bind_ok (flush_run hChange), appendContextAuditEvent, flush, bind_def, read_bind, if_neg hLogged]
          rfl
  · left
    rw [flush, bind_def, read_bind, if_neg hChange]
    rfl

end Follows

section Calls

variable {audit : Option AuditContext}

/-- Two checks in a row are one. -/
theorem lift_lift {β δ α : Type} (first : Except PyException β) (second : Except PyException δ) (rest : δ → EditProgram α) :
    (lift first >>= fun _ => lift second >>= rest) = (lift (first >>= fun _ => second) >>= rest) := by
  cases first with
  | error e => rfl
  | ok b => rfl

/-- Saving a row saves its columns of the lifecycle. -/
theorem saveSoftware_catalog (saved : Software) :
    (tables.saveSoftware saved).catalog others = (tables.catalog others).saveSoftware saved.toSoftware := by
  have hRows : (updateRows (fun row : Software => row.id = saved.id) (fun _ => saved) tables.software).map (·.toSoftware) =
      updateRows (fun row : Catalog.Software => row.id = saved.id) (fun _ => saved.toSoftware)
        (tables.software.map (·.toSoftware)) := by
    rw [updateRows, updateRows, List.map_map, List.map_map]
    apply List.map_congr_left
    intro row _
    exact apply_ite (fun software : Software => software.toSoftware) (row.id = saved.id) saved row
  rw [Tables.catalog, Tables.saveSoftware, hRows]
  rfl

/-- The time of the row is no matter to the catalog. -/
theorem saveTouched_catalog (before changed : Software) (now : Instant) :
    (tables.saveSoftware (SoftwareService.touch before changed now)).catalog others =
      (tables.catalog others).saveSoftware changed.toSoftware := by
  rw [saveSoftware_catalog, touch_toSoftware]

/-- The tags are no matter to the catalog. -/
theorem saveTagged_catalog (saved : Software) (tagIds : List Nat) :
    (tables.saveTagged saved tagIds).catalog others = (tables.saveSoftware saved).catalog others := rfl

theorem nextId_catalog : nextId Catalog.Software.id (tables.software.map (·.toSoftware)) =
    nextId (fun row : Software => row.id) tables.software := by
  rw [nextId, List.map_map]
  rfl

theorem createSoftware_follows (texts : SoftwareTexts) (categoryId : Option Nat) (tagIds : List Nat)
    (visibility : Visibility) (isFeatured : Bool) (now : Instant) :
    Follows others (·.toSoftware) tables
      (SoftwareService.create env texts categoryId tagIds visibility isFeatured now audit)
      (Catalog.SoftwareService.create (outcomeOf (normalizeFields env texts))
        (outcomeOf (normalizeFields env texts >>= createReferences env categoryId tagIds tables)) visibility) := by
  apply Follows.check
  intro fields hFields
  apply Follows.atomically
  apply Follows.read
  rw [hFields, lift_lift]
  apply Follows.check
  intro tags _
  apply Follows.commit
  rw [read_bind, write_bind, pure_apply]
  simp only [Tables.catalog, nextId_catalog, Tables.addTagged, Tables.setTags, Tables.addSoftware, List.map_append]
  rfl

/-- An entry with other columns: its visibility is what the catalog sees. -/
theorem updateSoftware_follows (softwareId : Nat) (texts : SoftwareTexts) (categoryId : Option Nat) (tagIds : List Nat)
    (visibility : Visibility) (isFeatured : Bool) (now : Instant) :
    Follows others (·.toSoftware) tables
      (SoftwareService.update env softwareId texts categoryId tagIds visibility isFeatured now audit)
      (Catalog.SoftwareService.update softwareId (outcomeOf (normalizeFields env texts))
        (outcomeOf (normalizeFields env texts >>= updateReferences env softwareId categoryId tagIds tables)) visibility) := by
  apply Follows.check
  intro fields hFields
  apply Follows.atomically
  apply Follows.read
  apply Follows.key
  intro hKey
  cases hRow : tables.software? softwareId with
  | none => exact Follows.missing hKey hRow
  | some software =>
      apply Follows.found hKey hRow
      have hFound := List.find?_some hRow
      obtain rfl : software.id = softwareId := of_decide_eq_true hFound
      dsimp only
      rw [hFields, lift_lift]
      apply Follows.check
      intro tags _
      apply Follows.commit
      rw [write_bind, pure_apply, saveTagged_catalog, saveTouched_catalog, touch_toSoftware]
      rfl

/-- An entry with other tags: the catalog sees the checks. -/
theorem replaceTags_follows (softwareId : Nat) (tagIds : List Nat) :
    Follows others (·.toSoftware) tables (SoftwareService.replaceTags env softwareId tagIds audit)
      (Catalog.SoftwareService.replaceTags softwareId (tagReferences tagIds tables)) := by
  apply Follows.atomically
  apply Follows.read
  apply Follows.key
  intro hKey
  cases hRow : tables.software? softwareId with
  | none => exact Follows.missing hKey hRow
  | some software =>
      apply Follows.found hKey hRow
      dsimp only
      rw [lift_lift]
      apply Follows.lift
      intro _ _
      exact Follows.commit rfl

/-- A transition of the status, by the same table. -/
theorem transitionStatus_follows (softwareId : Nat) (target : SoftwareStatus) (now : Instant) :
    Follows others (·.toSoftware) tables (SoftwareService.transitionStatus env softwareId target now audit)
      (Catalog.SoftwareService.transitionStatus softwareId target now) := by
  apply Follows.atomically
  apply Follows.read
  apply Follows.key
  intro hKey
  cases hRow : tables.software? softwareId with
  | none => exact Follows.missing hKey hRow
  | some software =>
      apply Follows.found hKey hRow
      apply Follows.lift
      intro columns _
      apply Follows.commit
      rw [write_bind, pure_apply, saveTouched_catalog, touch_toSoftware]

theorem setVisibility_follows (softwareId : Nat) (visibility : Visibility) (now : Instant) :
    Follows others (·.toSoftware) tables (SoftwareService.setVisibility env softwareId visibility now audit)
      (Catalog.SoftwareService.setVisibility softwareId visibility) := by
  apply Follows.atomically
  apply Follows.read
  apply Follows.key
  intro hKey
  cases hRow : tables.software? softwareId with
  | none => exact Follows.missing hKey hRow
  | some software =>
      apply Follows.found hKey hRow
      apply Follows.commit
      rw [write_bind, pure_apply, saveTouched_catalog, touch_toSoftware]

end Calls

section Silent

variable (env)

/-- A change that the catalog does not see. -/
theorem flush_silent {change : Tables → Tables} (h : ∀ tables, (change tables).catalog others = tables.catalog others) :
    Silent (Tables.catalog others) (flush change) := by
  intro tables
  rw [flush, read_bind]
  split_ifs
  · exact h tables
  · rfl

theorem append_silent (audit : Option AuditContext) (action : AuditAction) (entityType : PyStr) (id : Nat)
    (metadata : List (PyStr × PyStr)) :
    Silent (Tables.catalog others) (appendContextAuditEvent env audit action entityType id metadata) := by
  cases audit with
  | none => exact Silent.pure ()
  | some context => exact flush_silent fun _ => rfl

theorem commit_silent {change : Tables → Tables} (h : ∀ tables, (change tables).catalog others = tables.catalog others)
    {audit : Option AuditContext} {action : AuditAction} {entityType : PyStr} {id : Nat} {metadata : List (PyStr × PyStr)}
    {α : Type} {a : α} : Silent (Tables.catalog others)
      (flush change >>= fun _ => appendContextAuditEvent env audit action entityType id metadata >>= fun _ => pure a) :=
  (flush_silent h).bind fun _ => (append_silent env _ _ _ _ _).bind fun _ => Silent.pure a

/-- Entries lose their category, which the catalog does not know of. -/
theorem deleteCategory_catalog (id : Nat) (tables : Tables) :
    (tables.deleteCategory id).catalog others = tables.catalog others := by
  have hRows : (tables.deleteCategory id).software.map (·.toSoftware) = tables.software.map (·.toSoftware) :=
    map_updateRows fun _ _ _ => rfl
  rw [Tables.catalog, hRows]
  rfl

/-- Categories and tags are no matter to the catalog. -/
theorem catalog_silent (call : EditCall) (tables : Tables) (h : call.request.catalogCall env tables = none) :
    Silent (Tables.catalog others) (call.perform env) := by
  rcases call with ⟨request, audit⟩
  cases request with
  | createCategory name slug description sortOrder isVisible =>
      apply Silent.map
      iterate 4 refine (Silent.lift _).bind fun _ => ?_
      apply Silent.atomically
      refine (Silent.read _).bind fun _ => (Silent.lift _).bind fun _ => (Silent.lift _).bind fun _ => ?_
      apply commit_silent
      intro _
      rfl
  | updateCategory categoryId name slug description sortOrder isVisible =>
      apply Silent.map
      iterate 4 refine (Silent.lift _).bind fun _ => ?_
      apply Silent.atomically
      refine (Silent.read _).bind fun tables => (Silent.lift _).bind fun _ => ?_
      split
      · exact Silent.raise _
      · refine (Silent.lift _).bind fun _ => (Silent.lift _).bind fun _ => ?_
        apply commit_silent
        intro _
        rfl
  | deleteCategory categoryId =>
      apply Silent.map
      apply Silent.atomically
      refine (Silent.read _).bind fun tables => (Silent.lift _).bind fun _ => ?_
      split
      · exact Silent.raise _
      · exact (flush_silent (deleteCategory_catalog _)).bind fun _ => append_silent env _ _ _ _ _
  | createTag name slug =>
      apply Silent.map
      iterate 2 refine (Silent.lift _).bind fun _ => ?_
      apply Silent.atomically
      refine (Silent.read _).bind fun _ => (Silent.lift _).bind fun _ => ?_
      apply commit_silent
      intro _
      rfl
  | updateTag tagId name slug =>
      apply Silent.map
      iterate 2 refine (Silent.lift _).bind fun _ => ?_
      apply Silent.atomically
      refine (Silent.read _).bind fun tables => (Silent.lift _).bind fun _ => ?_
      split
      · exact Silent.raise _
      · refine (Silent.lift _).bind fun _ => ?_
        apply commit_silent
        intro _
        rfl
  | deleteTag tagId =>
      apply Silent.map
      apply Silent.atomically
      refine (Silent.read _).bind fun tables => (Silent.lift _).bind fun _ => ?_
      split
      · exact Silent.raise _
      · exact (@flush_silent others (Tables.deleteTag _) fun _ => rfl).bind fun _ => append_silent env _ _ _ _ _
  | createSoftware texts categoryId tagIds visibility isFeatured now => cases h
  | updateSoftware softwareId texts categoryId tagIds visibility isFeatured now => cases h
  | replaceTags softwareId tagIds => cases h
  | transitionStatus softwareId target now => cases h
  | setVisibility softwareId visibility now => cases h

end Silent

section Runs

/-- The key of the answer is the key of the entry in both programs. -/
theorem catalog_answer {x : EditProgram Software} {y : Catalog.CatalogProgram Catalog.Software}
    (h : Follows others (·.toSoftware) tables x y) {outcome : Except PyException Nat} {after : Tables}
    (hRun : ((fun software => software.id) <$> x) tables = (outcome, after)) (hRaised : outcome ≠ .error .integrityError) :
    (Catalog.Software.id <$> y) (tables.catalog others) = (outcome, after.catalog others) := by
  rcases hX : x tables with ⟨answer, last⟩
  rw [map_apply, hX] at hRun
  cases hRun
  rw [Follows, hX] at h
  rcases h with hRefused | hSame
  · cases answer with
    | error e =>
        obtain rfl := Except.error.inj hRefused
        exact (hRaised rfl).elim
    | ok software => cases hRefused
  · rw [map_apply, hSame]
    cases answer with
    | error e => rfl
    | ok software => rfl

/-- One call of the catalog, in tables that the database accepts. -/
theorem catalogCall_run (hLaws : env.Lawful) (h : Sound env tables) (call : EditCall) (hUser : AuditorExists call.audit tables)
    {request : CatalogCall} (hCall : call.request.catalogCall env tables = some request) :
    request.perform (tables.catalog others) = ((call.perform env tables).1, (call.perform env tables).2.catalog others) := by
  have hStep := soundStep hLaws h call hUser
  have hRaised : (call.perform env tables).1 ≠ .error .integrityError := by
    intro hError
    exact (hStep.failed _ hError).1.ne_integrityError rfl
  rcases call with ⟨edit, audit⟩
  cases edit with
  | createCategory name slug description sortOrder isVisible => cases hCall
  | updateCategory categoryId name slug description sortOrder isVisible => cases hCall
  | deleteCategory categoryId => cases hCall
  | createTag name slug => cases hCall
  | updateTag tagId name slug => cases hCall
  | deleteTag tagId => cases hCall
  | createSoftware texts categoryId tagIds visibility isFeatured now =>
      cases hCall
      exact catalog_answer (createSoftware_follows _ _ _ _ _ _) rfl hRaised
  | updateSoftware softwareId texts categoryId tagIds visibility isFeatured now =>
      cases hCall
      exact catalog_answer (updateSoftware_follows _ _ _ _ _ _ _) rfl hRaised
  | replaceTags softwareId tagIds =>
      cases hCall
      exact catalog_answer (replaceTags_follows _ _) rfl hRaised
  | transitionStatus softwareId target now =>
      cases hCall
      exact catalog_answer (transitionStatus_follows _ _ _) rfl hRaised
  | setVisibility softwareId visibility now =>
      cases hCall
      exact catalog_answer (setVisibility_follows _ _ _) rfl hRaised

/-- What the steps of a run are to the catalog, with their answers. -/
def catalogSteps (env : EditEnvironment) (steps : List (Step EditCall Tables PyException Nat)) :
    List (CatalogCall × Except PyException Nat) :=
  steps.filterMap fun step => (step.request.request.catalogCall env step.before).map fun request => (request, step.outcome)

/-- Every run of edits is a run of the catalog: its software calls, in their
order, have the same answers there and lead to the same columns. -/
theorem edits_refine_catalog (hLaws : env.Lawful) (h : Sound env tables) {calls : List EditCall}
    (hUsers : ∀ call ∈ calls, AuditorExists call.audit tables) (others : Catalog.Database) :
    (trace CatalogCall.perform (tables.catalog others)
        ((catalogSteps env (trace (EditCall.perform env) tables calls)).map Prod.fst)).map
          (fun step => (step.request, step.outcome)) = catalogSteps env (trace (EditCall.perform env) tables calls) ∧
      final CatalogCall.perform (tables.catalog others)
        ((catalogSteps env (trace (EditCall.perform env) tables calls)).map Prod.fst) =
          (final (EditCall.perform env) tables calls).catalog others := by
  induction calls generalizing tables with
  | nil => exact ⟨rfl, rfl⟩
  | cons call calls ih =>
      have hStep := soundStep hLaws h call (hUsers call List.mem_cons_self)
      have hKept : (call.perform env tables).2.users = tables.users := hStep.users
      have hRest := @ih (call.perform env tables).2 hStep.after fun other hOther context hContext => by
        rw [hKept]
        exact hUsers other (List.mem_cons_of_mem _ hOther) context hContext
      rw [trace_cons, final_cons]
      cases hCall : call.request.catalogCall env tables with
      | none =>
          have hSteps : catalogSteps env (answer (EditCall.perform env) call tables ::
              trace (EditCall.perform env) (call.perform env tables).2 calls) =
                catalogSteps env (trace (EditCall.perform env) (call.perform env tables).2 calls) := by
            apply List.filterMap_cons_none
            rw [answer, hCall]
            rfl
          rw [hSteps, ← catalog_silent env call tables hCall tables]
          exact hRest
      | some request =>
          have hSteps : catalogSteps env (answer (EditCall.perform env) call tables ::
              trace (EditCall.perform env) (call.perform env tables).2 calls) = (request, (call.perform env tables).1) ::
                catalogSteps env (trace (EditCall.perform env) (call.perform env tables).2 calls) := by
            apply List.filterMap_cons_some
            rw [answer, hCall]
            rfl
          have hRun := @catalogCall_run env tables others hLaws h call (hUsers call List.mem_cons_self) request hCall
          rw [hSteps, List.map_cons, trace_cons, final_cons, List.map_cons, answer, hRun]
          exact ⟨congrArg _ hRest.1, hRest.2⟩

theorem edits_refine_catalog_sample :
    (final CatalogCall.perform (Tables.catalog ⟨[], [], [], []⟩ (newTables [1]))
      ((catalogSteps sampleEnvironment (trace (EditCall.perform sampleEnvironment) (newTables [1]) sampleCalls)).map Prod.fst)).software =
        [⟨1, .draft, .isPublic, none, none⟩] := by
  rw [(edits_refine_catalog sampleEnvironment_lawful (newTables_sound sampleEnvironment [1]) sampleCalls_users ⟨[], [], [], []⟩).2]
  decide

end Runs
end SoftwareHub.Editing
