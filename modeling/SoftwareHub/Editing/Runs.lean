import SoftwareHub.Editing.Effects
import SoftwareHub.Semantics.Trace

/-! Runs of the editing services: sound tables after every call, no error of the
database, and an audit log that tells what has happened. -/
namespace SoftwareHub.Editing

open SoftwareHub.Python SoftwareHub.Semantics SoftwareHub.Semantics.Program
open SoftwareHub.Catalog (Slug SoftwareStatus Visibility)
open SoftwareHub.Core (Cleaned SafeScalar SafeValue asMapping isSensitiveKey sanitizeAuditMetadata sanitizeItems_of_cleaned)

variable {env : EditEnvironment} {tables : Tables}

theorem perform_spec (hLaws : env.Lawful) (h : Sound env tables) (call : EditCall) (hUser : AuditorExists call.audit tables) :
    Performs env call tables := by
  rcases call with ⟨request, audit⟩
  cases request with
  | createCategory name slug description sortOrder isVisible =>
      exact createCategory_spec hLaws h hUser name slug description sortOrder isVisible
  | updateCategory categoryId name slug description sortOrder isVisible =>
      exact updateCategory_spec hLaws h hUser categoryId name slug description sortOrder isVisible
  | deleteCategory categoryId => exact deleteCategory_spec h hUser categoryId
  | createTag name slug => exact createTag_spec hLaws h hUser name slug
  | updateTag tagId name slug => exact updateTag_spec hLaws h hUser tagId name slug
  | deleteTag tagId => exact deleteTag_spec h hUser tagId
  | createSoftware texts categoryId tagIds visibility isFeatured now =>
      exact createSoftware_spec hLaws h hUser texts categoryId tagIds visibility isFeatured now
  | updateSoftware softwareId texts categoryId tagIds visibility isFeatured now =>
      exact updateSoftware_spec hLaws h hUser softwareId texts categoryId tagIds visibility isFeatured now
  | replaceTags softwareId tagIds => exact replaceTags_spec h hUser softwareId tagIds
  | transitionStatus softwareId target now => exact transitionStatus_spec h hUser softwareId target now
  | setVisibility softwareId visibility now => exact setVisibility_spec h hUser softwareId visibility now

section Metadata

/-- Short texts under keys that may be recorded. -/
structure Recordable (metadata : List (PyStr × PyStr)) : Prop where
  length : metadata.length ≤ 2
  nodup : (metadata.map Prod.fst).Nodup
  keys : ∀ item ∈ metadata, item.1 ∈ [py "slug", py "changed", py "from", py "to"]
  values : ∀ item ∈ metadata, item.2.length ≤ 200

/-- The keys of the events name no secret. -/
theorem isSensitiveKey_recordable (hLaws : env.Lawful) {key : PyStr}
    (h : key ∈ [py "slug", py "changed", py "from", py "to"]) : isSensitiveKey env.lower key = false := by
  have hAll : ∀ key ∈ [py "slug", py "changed", py "from", py "to"], (∀ c ∈ key, c < 0x80) ∧
      isSensitiveKey (List.map asciiLower) key = false := by decide
  obtain ⟨hAscii, hShown⟩ := hAll key h
  rw [isSensitiveKey, hLaws.lowersAscii key hAscii]
  exact hShown

/-- The stored metadata of a recordable event. -/
def plainMetadata (metadata : List (PyStr × PyStr)) : List (PyStr × PyValue) :=
  metadata.map fun item => (item.1, .scalar (.str item.2))

/-- The sanitizer leaves such metadata as it is. -/
theorem sanitize_recordable (hLaws : env.Lawful) {metadata : List (PyStr × PyStr)} (h : Recordable metadata) :
    sanitizeAuditMetadata env.unicode env.lower (some (metadata.map fun item => (.str item.1, .scalar (.str item.2)))) =
      plainMetadata metadata := by
  have hCleaned : Cleaned env.lower ([] ++ plainMetadata metadata) := {
    length := by
      rw [List.nil_append, plainMetadata, List.length_map]
      exact h.length.trans (by decide)
    nodup := by
      rw [List.nil_append, plainMetadata, List.map_map]
      exact h.nodup
    keys := by
      intro item hItem
      obtain ⟨source, hSource, rfl⟩ := List.mem_map.mp hItem
      have hAllowed : ∀ key ∈ [py "slug", py "changed", py "from", py "to"], key ∈ Core.allowedMetadataKeys := by decide
      exact ⟨hAllowed _ (h.keys source hSource), isSensitiveKey_recordable hLaws (h.keys source hSource)⟩
    values := by
      intro item hItem
      obtain ⟨source, hSource, rfl⟩ := List.mem_map.mp hItem
      exact .scalar ((h.values source hSource).trans (by decide)) }
  have hKept := sanitizeItems_of_cleaned hLaws.foldsAscii hCleaned
  rw [List.nil_append, asMapping, plainMetadata, List.map_map] at hKept
  exact hKept

theorem recordable_nil : Recordable [] := ⟨Nat.zero_le 2, List.nodup_nil, nofun, nofun⟩

/-- A slug can be recorded. -/
theorem recordable_slug {ρ : Type} {row : Option ρ} {slugOf : ρ → PyStr} (h : ∀ found ∈ row, (slugOf found).length ≤ 200) :
    Recordable (row.map fun found => (py "slug", slugOf found)).toList := by
  cases row with
  | none => exact recordable_nil
  | some found =>
      refine ⟨Nat.le_succ 1, List.nodup_singleton _, ?_, ?_⟩
      · rintro item hItem
        rw [List.mem_singleton.mp hItem]
        exact List.mem_cons_self
      · rintro item hItem
        rw [List.mem_singleton.mp hItem]
        exact h found rfl

theorem recordable_change {ρ : Type} {row : Option ρ} {first second : ρ → PyStr}
    (hFirst : ∀ found, (first found).length ≤ 200) (hSecond : ∀ found, (second found).length ≤ 200) :
    Recordable ((row.map fun found => [(py "from", first found), (py "to", second found)]).getD []) := by
  have hNodup : [py "from", py "to"].Nodup := by decide
  have hFrom : py "from" ∈ [py "slug", py "changed", py "from", py "to"] := by decide
  have hTo : py "to" ∈ [py "slug", py "changed", py "from", py "to"] := by decide
  cases row with
  | none => exact recordable_nil
  | some found =>
      exact ⟨Nat.le_refl 2, hNodup, List.forall_mem_cons.mpr ⟨hFrom, List.forall_mem_cons.mpr ⟨hTo, nofun⟩⟩,
        List.forall_mem_cons.mpr ⟨hFirst found, List.forall_mem_cons.mpr ⟨hSecond found, nofun⟩⟩⟩

theorem recordable_tags : Recordable [(py "changed", py "tags")] := by
  have hKey : py "changed" ∈ [py "slug", py "changed", py "from", py "to"] := by decide
  have hValue : (py "tags").length ≤ 200 := by decide
  exact ⟨Nat.le_succ 1, List.nodup_singleton _, List.forall_mem_cons.mpr ⟨hKey, nofun⟩,
    List.forall_mem_cons.mpr ⟨hValue, nofun⟩⟩

/-- The value of a status is short. -/
theorem length_status (status : SoftwareStatus) : (py status.value).length ≤ 200 := by cases status <;> decide

theorem length_visibility (visibility : Visibility) : (SoftwareService.visibilityValue visibility).length ≤ 200 := by
  cases visibility <;> decide

theorem length_categorySlug (h : Sound env tables) (id : Nat) : ∀ row ∈ tables.category? id, row.slug.length ≤ 200 :=
  fun row hRow => (h.categories row (h.constraints.category?.mp hRow).1).slug.length.trans (by decide)

theorem length_tagSlug (h : Sound env tables) (id : Nat) : ∀ row ∈ tables.tag? id, row.slug.length ≤ 200 :=
  fun row hRow => (h.tags row (h.constraints.tag?.mp hRow).1).slug.length.trans (by decide)

theorem length_softwareSlug (h : Sound env tables) (id : Nat) : ∀ row ∈ tables.software? id, row.slug.length ≤ 200 :=
  fun row hRow => (h.software row (h.constraints.software?.mp hRow).1).slug.length

/-- The metadata of a call in sound tables. -/
theorem metadata_recordable {before after : Tables} (hBefore : Sound env before) (hAfter : Sound env after) (id : Nat)
    (request : EditRequest) : Recordable (request.metadata id before after) := by
  cases request with
  | createCategory => exact recordable_slug (length_categorySlug hAfter id)
  | updateCategory => exact recordable_slug (length_categorySlug hAfter id)
  | deleteCategory => exact recordable_slug (length_categorySlug hBefore id)
  | createTag => exact recordable_slug (length_tagSlug hAfter id)
  | updateTag => exact recordable_slug (length_tagSlug hAfter id)
  | deleteTag => exact recordable_slug (length_tagSlug hBefore id)
  | createSoftware => exact recordable_slug (length_softwareSlug hAfter id)
  | updateSoftware => exact recordable_slug (length_softwareSlug hAfter id)
  | replaceTags => exact recordable_tags
  | transitionStatus softwareId target now => exact recordable_change (fun _ => length_status _) fun _ => length_status _
  | setVisibility softwareId visibility now =>
      exact recordable_change (fun _ => length_visibility _) fun _ => length_visibility _

end Metadata

section Steps

/-- What the audit log says of a step: nothing of a call that raises or that
no one has asked for, and one event with the entity and what has changed. -/
def eventsOf (step : Step EditCall Tables PyException Nat) : List AuditEvent :=
  match step.outcome, step.request.audit with
  | .ok id, some context => [{
      userId := some context.userId
      action := step.request.request.action.value
      entityType := some step.request.request.entityType
      entityId := some (decimal id)
      result := py "success"
      requestId := context.requestId
      ipHash := context.ipHash
      safeMetadata := plainMetadata (step.request.request.metadata id step.before step.after) }]
  | _, _ => []

/-- The events of the audit log, in their order. -/
def events (tables : Tables) : List AuditEvent := tables.auditLogs.map (·.toAuditEvent)

/-- What one step keeps and does. -/
structure SoundStep (env : EditEnvironment) (step : Step EditCall Tables PyException Nat) : Prop where
  before : Sound env step.before
  after : Sound env step.after
  users : step.after.users = step.before.users
  failed : ∀ e, step.outcome = .error e → step.request.request.Refuses e ∧ step.after = step.before
  logged : events step.after = events step.before ++ eventsOf step

/-- The audit row keeps the tables sound. -/
theorem recorded_sound (h : Sound env tables) {audit : Option AuditContext} (hUser : AuditorExists audit tables)
    (action : AuditAction) (entityType : PyStr) (id : Nat) (metadata : List (PyStr × PyStr)) :
    Sound env (recorded env audit action entityType id metadata tables) := by
  cases audit with
  | none => exact h
  | some context =>
      apply h.addLog
      rintro userId hUserId
      obtain rfl := Option.mem_some_iff.mp hUserId
      exact hUser context rfl

theorem recorded_users (audit : Option AuditContext) (action : AuditAction) (entityType : PyStr) (id : Nat)
    (metadata : List (PyStr × PyStr)) : (recorded env audit action entityType id metadata tables).users = tables.users := by
  cases audit <;> rfl

/-- The audit row is written last: the look-ups of an entity do not see it. -/
theorem metadata_recorded (audit : Option AuditContext) (action : AuditAction) (entityType : PyStr) (id : Nat)
    (metadata : List (PyStr × PyStr)) (before : Tables) (request : EditRequest) :
    request.metadata id before (recorded env audit action entityType id metadata tables) = request.metadata id before tables := by
  cases audit with
  | none => rfl
  | some context => cases request <;> rfl

/-- One step of a run from sound tables. -/
theorem soundStep (hLaws : env.Lawful) (h : Sound env tables) (call : EditCall) (hUser : AuditorExists call.audit tables) :
    SoundStep env (answer (EditCall.perform env) call tables) := by
  have hSpec := perform_spec hLaws h call hUser
  rcases hRun : call.perform env tables with ⟨outcome, after⟩
  rw [answer_of_run hRun]
  cases outcome with
  | error e =>
      obtain ⟨hError, rfl⟩ := hSpec.of_error rfl hRun
      refine ⟨h, h, rfl, ?_, (List.append_nil _).symm⟩
      rintro raised hRaised
      cases hRaised
      exact ⟨hError, rfl⟩
  | ok id =>
      obtain ⟨⟨changed, hChanged, hUsers, hLogs, rfl⟩, -⟩ := hSpec.of_ok rfl hRun
      have hStill : AuditorExists call.audit changed := by rwa [AuditorExists, hUsers]
      refine ⟨h, recorded_sound hChanged hStill _ _ _ _, (recorded_users _ _ _ _ _).trans hUsers, nofun, ?_⟩
      rcases hAudit : call.audit with _ | context
      · simp [events, eventsOf, hAudit, recorded, hLogs]
      · have hMetadata := @metadata_recorded env changed (some context) call.request.action call.request.entityType id
          (call.request.metadata id tables changed) tables call.request
        have hKept := sanitize_recordable hLaws (metadata_recordable h hChanged id call.request)
        simp only [events, eventsOf, hAudit, hMetadata]
        simp only [recorded, Option.elim, Tables.addLog, List.map_append, List.map_singleton, hLogs, auditEvent, hKept]

/-- Each call keeps the tables sound and the users there. -/
theorem kept_by_calls (hLaws : env.Lawful) {calls : List EditCall} (hUsers : ∀ call ∈ calls, AuditorExists call.audit tables) :
    ∀ call ∈ calls, ∀ now, Sound env now ∧ now.users = tables.users →
      Sound env (call.perform env now).2 ∧ (call.perform env now).2.users = tables.users := by
  intro call hCall now hNow
  have hUser : AuditorExists call.audit now := by
    rw [AuditorExists, hNow.2]
    exact hUsers call hCall
  have hStep := soundStep hLaws hNow.1 call hUser
  exact ⟨hStep.after, hStep.users.trans hNow.2⟩

/-- What holds of each call in sound tables holds of each step of a run. -/
theorem forall_steps (hLaws : env.Lawful) (h : Sound env tables) {calls : List EditCall}
    (hUsers : ∀ call ∈ calls, AuditorExists call.audit tables) {Holds : Step EditCall Tables PyException Nat → Prop}
    (hCalls : ∀ call now, Sound env now → AuditorExists call.audit now → Holds (answer (EditCall.perform env) call now)) :
    ∀ step ∈ trace (EditCall.perform env) tables calls, Holds step := by
  intro step hStep
  obtain ⟨hBefore, hSame⟩ := (trace_of_invariant ⟨h, rfl⟩ (kept_by_calls hLaws hUsers) step hStep).1
  have hCall : step.request ∈ calls := by
    rw [← map_request_trace (EditCall.perform env) tables calls]
    exact List.mem_map_of_mem hStep
  rw [eq_answer_of_mem_trace (EditCall.perform env) hStep]
  apply hCalls step.request step.before hBefore
  rw [AuditorExists, hSame]
  exact hUsers step.request hCall

theorem run_sound (hLaws : env.Lawful) (h : Sound env tables) {calls : List EditCall}
    (hUsers : ∀ call ∈ calls, AuditorExists call.audit tables) : Sound env (final (EditCall.perform env) tables calls) := by
  have hFinal := final_of_invariant ⟨h, rfl⟩ (kept_by_calls hLaws hUsers)
  exact hFinal.1

/-- What every step adds to the log is what the run adds to it, in order. -/
theorem run_events {calls : List EditCall} (h : ∀ step ∈ trace (EditCall.perform env) tables calls, SoundStep env step) :
    events (final (EditCall.perform env) tables calls) =
      events tables ++ (trace (EditCall.perform env) tables calls).flatMap eventsOf := by
  induction calls generalizing tables with
  | nil => simp
  | cons call calls ih =>
      rw [trace_cons, List.forall_mem_cons] at h
      have hLogged : events (call.perform env tables).2 = events tables ++ eventsOf (answer (EditCall.perform env) call tables) :=
        h.1.logged
      rw [final_cons, ih h.2, hLogged, trace_cons, List.flatMap_cons, List.append_assoc]

/-- Every step of a run starts from sound tables and leaves sound tables. It is
refused, by an application error or for a number that does not fit, and changes
nothing; or its event is all that is added to the audit log. -/
theorem edits_keep_catalog (hLaws : env.Lawful) (h : Sound env tables) {calls : List EditCall}
    (hUsers : ∀ call ∈ calls, AuditorExists call.audit tables) :
    (∀ step ∈ trace (EditCall.perform env) tables calls, SoundStep env step) ∧
      events (final (EditCall.perform env) tables calls) =
        events tables ++ (trace (EditCall.perform env) tables calls).flatMap eventsOf := by
  have hSteps := forall_steps hLaws h hUsers fun call now hNow => soundStep hLaws hNow call
  exact ⟨hSteps, run_events hSteps⟩

/-- Only users are there. -/
def newTables (users : List Nat) : Tables := ⟨users, [], [], [], [], []⟩

theorem newTables_sound (env : EditEnvironment) (users : List Nat) : Sound env (newTables users) where
  constraints := accepts_iff.mp (by simp [accepts, newTables])
  categories _ h := (List.not_mem_nil h).elim
  tags _ h := (List.not_mem_nil h).elim
  software _ h := (List.not_mem_nil h).elim

/-- ASCII letters, and no address that is accepted. -/
def sampleEnvironment : EditEnvironment where
  unicode := Unicode.ascii
  lower := List.map asciiLower
  urlsplit _ := .error (.validationError "Invalid URL")

theorem sampleEnvironment_lawful : sampleEnvironment.Lawful :=
  ⟨Unicode.ascii_foldsAscii, fun _ _ => rfl, fun _ => .error rfl⟩

/-- The texts of an entry, most of them absent. -/
def sampleTexts : SoftwareTexts :=
  ⟨py " Disk  Tool ", [], py "A tool.", none, none, none, none, none, none, none⟩

def sampleAudit : AuditContext := ⟨1, none, none⟩

/-- A category, a tag, an entry with both, a second category of the same slug,
and the deletion of the first one. -/
def sampleCalls : List EditCall :=
  [⟨.createCategory (py "System") (py "system") none 0 true, some sampleAudit⟩, ⟨.createTag (py "Portable") [], none⟩,
    ⟨.createSoftware sampleTexts (some 1) [1, 1] .isPublic false ⟨7, by decide⟩, some sampleAudit⟩,
    ⟨.createCategory (py "Other") (py "SYSTEM_") none 0 true, some sampleAudit⟩, ⟨.deleteCategory 1, some sampleAudit⟩]

theorem sampleCalls_users : ∀ call ∈ sampleCalls, AuditorExists call.audit (newTables [1]) := by
  have hAll : ∀ call ∈ sampleCalls, ∀ context ∈ call.audit, context.userId ∈ [1] := by decide
  exact hAll

/-- What the audit log tells of these calls. -/
theorem edits_keep_catalog_sample :
    (events (final (EditCall.perform sampleEnvironment) (newTables [1]) sampleCalls)).map (·.action) =
      [py "category_created", py "software_created", py "category_deleted"] := by
  rw [(edits_keep_catalog sampleEnvironment_lawful (newTables_sound sampleEnvironment [1]) sampleCalls_users).2]
  decide

end Steps
end SoftwareHub.Editing
