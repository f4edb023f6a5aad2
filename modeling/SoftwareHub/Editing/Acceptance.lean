import SoftwareHub.Editing.Runs

/-! When an editing call is accepted: exactly when its numbers fit the database, its
texts can be normalized, its slug is free and everything it refers to exists. -/
namespace SoftwareHub.Editing

open SoftwareHub.Python SoftwareHub.Semantics SoftwareHub.Semantics.Program
open SoftwareHub.Catalog (SoftwareStatus applySoftwareTransition normalizeOptionalText softwareTransitions)
open SoftwareHub.Public (Category Software Tag)

section Accepted

variable (env : EditEnvironment)

/-- The form of a category, with what its slug has to be. -/
def CategoryForm (name slug : PyStr) (description : Option PyStr) (sortOrder : Int) (Free : PyStr → Prop) : Prop :=
  ∃ normalName, normalizeName name 120 = .ok normalName ∧ ∃ normalSlug, normalizeSlug env slug 140 normalName = .ok normalSlug ∧
    ∃ text, normalizeOptionalText description 2000 = .ok text ∧ 0 ≤ sortOrder ∧ Free normalSlug

/-- The form of a tag, likewise. -/
def TagForm (name slug : PyStr) (Free : PyStr → Prop) : Prop :=
  ∃ normalName, normalizeName name 120 = .ok normalName ∧ ∃ normalSlug, normalizeSlug env slug 140 normalName = .ok normalSlug ∧
    Free normalSlug

/-- The category and the tags of an entry exist. -/
def ReferencesExist (categoryId : Option Nat) (tagIds : List Nat) (tables : Tables) : Prop :=
  (∀ id ∈ categoryId, id ∈ tables.categories.map (·.id)) ∧ ∀ id ∈ tagIds, id ∈ tables.tags.map (·.id)

/-- What the tables have to be like for a request. -/
def EditRequest.Accepted (tables : Tables) : EditRequest → Prop
  | createCategory name slug description sortOrder _ =>
      CategoryForm env name slug description sortOrder fun slug => ∀ other ∈ tables.categories, other.slug ≠ slug
  | updateCategory categoryId name slug description sortOrder _ =>
      CategoryForm env name slug description sortOrder fun slug =>
        categoryId ∈ tables.categories.map (·.id) ∧ ∀ other ∈ tables.categories, other.slug = slug → other.id = categoryId
  | deleteCategory categoryId => categoryId ∈ tables.categories.map (·.id)
  | createTag name slug => TagForm env name slug fun slug => ∀ other ∈ tables.tags, other.slug ≠ slug
  | updateTag tagId name slug =>
      TagForm env name slug fun slug =>
        tagId ∈ tables.tags.map (·.id) ∧ ∀ other ∈ tables.tags, other.slug = slug → other.id = tagId
  | deleteTag tagId => tagId ∈ tables.tags.map (·.id)
  | createSoftware texts categoryId tagIds _ _ _ =>
      ∃ fields, normalizeFields env texts = .ok fields ∧
        (∀ other ∈ tables.software, other.slug ≠ fields.slug) ∧ ReferencesExist categoryId tagIds tables
  | updateSoftware softwareId texts categoryId tagIds _ _ _ =>
      ∃ fields, normalizeFields env texts = .ok fields ∧ softwareId ∈ tables.software.map (·.id) ∧
        (∀ other ∈ tables.software, other.slug = fields.slug → other.id = softwareId) ∧
          ReferencesExist categoryId tagIds tables
  | replaceTags softwareId tagIds =>
      softwareId ∈ tables.software.map (·.id) ∧ ∀ id ∈ tagIds, id ∈ tables.tags.map (·.id)
  | transitionStatus softwareId target _ =>
      ∃ software ∈ tables.software, software.id = softwareId ∧
        (target = software.status ∨ target ∈ softwareTransitions software.status)
  | setVisibility softwareId _ _ => softwareId ∈ tables.software.map (·.id)

end Accepted

variable {env : EditEnvironment} {tables : Tables}

section Passes

variable {α γ : Type}

/-- No check raises: only the constraints of the schema can refuse. -/
def Passes (x : EditProgram α) (tables : Tables) : Prop := ∀ e, (x tables).1 = .error e → e = .integrityError

/-- What is made of the answer is no matter. -/
theorem passes_map {x : EditProgram α} {g : α → γ} : Passes (g <$> x) tables ↔ Passes x tables := by
  rcases hRun : x tables with ⟨outcome, after⟩
  rw [Passes, Passes, map_apply, hRun]
  cases outcome with
  | ok a =>
      apply iff_of_true
      · intro raised hRaised
        cases hRaised
      · intro raised hRaised
        cases hRaised
  | error e =>
      constructor
      · intro h raised hRaised
        cases hRaised
        exact h e rfl
      · intro h raised hRaised
        cases hRaised
        exact h e rfl

theorem passes_read {rest : Tables → EditProgram α} : Passes (read id >>= rest) tables ↔ Passes (rest tables) tables := Iff.rfl

/-- A transaction raises what its body raises. -/
theorem passes_atomically {x : EditProgram α} : Passes (atomically x) tables ↔ Passes x tables := by
  rcases hRun : x tables with ⟨outcome, after⟩
  cases outcome with
  | ok a => rw [Passes, Passes, atomically_ok hRun, hRun]
  | error e => rw [Passes, Passes, atomically_error hRun, hRun]

theorem passes_check {check : Except PyException α} (hRaises : ∀ e, check = .error e → e ≠ .integrityError)
    {rest : α → EditProgram γ} {P : α → Prop} (h : ∀ a, check = .ok a → (Passes (rest a) tables ↔ P a)) :
    Passes (lift check >>= rest) tables ↔ ∃ a, check = .ok a ∧ P a := by
  cases hCheck : check with
  | error e =>
      apply iff_of_false
      · intro hPasses
        exact hRaises e hCheck (hPasses e rfl)
      · rintro ⟨a, hOk, -⟩
        cases hOk
  | ok a =>
      have hRest : Passes (lift (.ok a) >>= rest) tables ↔ P a := h a hCheck
      rw [hRest]
      constructor
      · intro hP
        exact ⟨a, rfl, hP⟩
      · rintro ⟨b, hOk, hP⟩
        cases hOk
        exact hP

theorem passes_text {check : Except PyException α} (hRaises : RaisesApplication check) {rest : α → EditProgram γ}
    {P : α → Prop} (h : ∀ a, check = .ok a → (Passes (rest a) tables ↔ P a)) :
    Passes (lift check >>= rest) tables ↔ ∃ a, check = .ok a ∧ P a :=
  passes_check (fun _ => hRaises.ne_integrityError) h

theorem passes_require {c : Prop} [Decidable c] {e : PyException} (he : e.isApplication = true) {rest : Unit → EditProgram γ}
    {P : Prop} (h : c → (Passes (rest ()) tables ↔ P)) : Passes (lift (require c e) >>= rest) tables ↔ c ∧ P := by
  rw [passes_text (.require he) fun _ hOk => h (require_eq_ok_iff.mp hOk)]
  constructor
  · rintro ⟨u, hOk, hP⟩
    exact ⟨require_eq_ok_iff.mp hOk, hP⟩
  · rintro ⟨hc, hP⟩
    exact ⟨(), require_ok hc, hP⟩

theorem passes_last {c : Prop} [Decidable c] {e : PyException} (he : e.isApplication = true) {rest : Unit → EditProgram γ}
    (h : Passes (rest ()) tables) : Passes (lift (require c e) >>= rest) tables ↔ c :=
  (passes_require he fun _ => iff_of_true h trivial).trans (and_iff_left trivial)

/-- The driver takes all numbers of a statement, or raises. -/
theorem passes_bound {parameters : List Int} {rest : Unit → EditProgram γ} {P : Prop} (h : Passes (rest ()) tables ↔ P) :
    Passes (lift (bindAll parameters) >>= rest) tables ↔ (∀ value ∈ parameters, isBindable value = true) ∧ P := by
  refine (passes_check (fun _ => bindAll_ne_integrityError) fun _ _ => h).trans ?_
  constructor
  · rintro ⟨u, hOk, hP⟩
    exact ⟨require_eq_ok_iff.mp hOk, hP⟩
  · rintro ⟨hFit, hP⟩
    exact ⟨(), require_ok hFit, hP⟩

/-- A program that raises an application error does not pass. -/
theorem not_passes_raise {e : PyException} (he : e.isApplication = true) : ¬Passes (raise e : EditProgram α) tables := by
  intro hPasses
  rw [hPasses e rfl] at he
  cases he

/-- The database raises errors of its own. -/
theorem flush_refuses (change : Tables → Tables) :
    Triple (fun _ => True) (flush change) (fun _ _ => True) fun e _ => e = .integrityError := by
  intro tables _
  rw [flush, read_bind]
  split_ifs
  · exact trivial
  · exact rfl

theorem append_refuses (audit : Option AuditContext) (action : AuditAction) (entityType : PyStr) (id : Nat)
    (metadata : List (PyStr × PyStr)) : Triple (fun _ => True) (appendContextAuditEvent env audit action entityType id metadata)
      (fun _ _ => True) fun e _ => e = .integrityError := by
  cases audit with
  | none => exact fun _ _ => trivial
  | some context => exact flush_refuses _

/-- What raises nothing else than that passes its checks. -/
theorem passes_of_refuses {x : EditProgram α}
    (h : Triple (fun _ => True) x (fun _ _ => True) fun e _ => e = .integrityError) : Passes x tables := by
  intro e hError
  rcases hRun : x tables with ⟨outcome, after⟩
  rw [hRun] at hError
  obtain rfl : outcome = .error e := hError
  exact h.of_error trivial hRun

/-- The end of a transaction checks nothing. -/
theorem passes_commit {change : Tables → Tables} {audit : Option AuditContext} {action : AuditAction} {entityType : PyStr}
    {id : Nat} {metadata : List (PyStr × PyStr)} {a : α} : Passes
      (flush change >>= fun _ => appendContextAuditEvent env audit action entityType id metadata >>= fun _ => pure a) tables :=
  passes_of_refuses ((flush_refuses change).bind fun _ => (append_refuses audit action entityType id metadata).bind fun _ =>
    Triple.pure fun _ _ => trivial)

end Passes

section Rows

variable {ρ : Type} {slugOf : ρ → PyStr} {key : ρ → Nat} {rows : List ρ}

/-- A slug that is looked up in vain is free. -/
theorem bySlug_none_iff {slug found : PyStr} (hSlug : found = slug) :
    rows.find? (fun row => slugOf row = found) = none ↔ ∀ other ∈ rows, slugOf other ≠ slug := by
  subst hSlug
  simp [List.find?_eq_none]

/-- A slug that leads to the row itself at most is that of no other. -/
theorem bySlug_forall_iff (hNodup : (rows.map slugOf).Nodup) {slug found : PyStr} (hSlug : found = slug) {id : Nat} :
    (∀ conflict ∈ rows.find? (fun row => slugOf row = found), key conflict = id) ↔
      ∀ other ∈ rows, slugOf other = slug → key other = id := by
  constructor
  · exact free_of_forall hNodup hSlug
  · intro h conflict hConflict
    obtain ⟨hMem, hSame⟩ := (find?_eq_some_iff_of_nodup hNodup).mp hConflict
    exact h conflict hMem (hSame.trans hSlug)

/-- A key that is looked up in vain is that of no row. -/
theorem not_mem_of_missing {id : Nat} (h : rows.find? (fun row => key row = id) = none) : id ∉ rows.map key := by
  intro hMem
  obtain ⟨row, hRow, hKey⟩ := List.mem_map.mp hMem
  exact List.find?_eq_none.mp h row hRow (decide_eq_true hKey)

end Rows

/-- A category is found under its key. -/
theorem category?_isSome (id : Nat) : (tables.category? id).isSome = true ↔ id ∈ tables.categories.map (·.id) := by
  rw [Tables.category?, List.find?_isSome, List.mem_map]
  simp

/-- The look-ups of the category and the tags return exactly when all of them
exist. -/
theorem resolve_ok_iff (h : Constraints tables) (categoryId : Option Nat) (tagIds : List Nat) :
    (∃ tags, SoftwareService.resolveCategoryAndTags categoryId tagIds tables = .ok tags) ↔
      (∀ value ∈ (categoryId.toList ++ tagIds).map fun id : Nat => (id : Int), isBindable value = true) ∧
        ReferencesExist categoryId tagIds tables := by
  rw [ReferencesExist, ← getMany_length_iff h, List.map_append, List.forall_mem_append]
  constructor
  · rintro ⟨tags, hTags⟩
    obtain ⟨_, hFirst, hTags⟩ := except_bind_eq_ok hTags
    obtain ⟨_, hCategory, hTags⟩ := except_bind_eq_ok hTags
    obtain ⟨_, hSecond, hTags⟩ := except_bind_eq_ok hTags
    obtain ⟨_, hLength, -⟩ := except_bind_eq_ok hTags
    refine ⟨⟨require_eq_ok_iff.mp hFirst, require_eq_ok_iff.mp hSecond⟩, fun id hId => ?_, require_eq_ok_iff.mp hLength⟩
    exact (category?_isSome id).mp (require_eq_ok_iff.mp hCategory id hId)
  · rintro ⟨⟨hFirst, hSecond⟩, hCategory, hLength⟩
    have hFound : ∀ id ∈ categoryId, (tables.category? id).isSome = true :=
      fun id hId => (category?_isSome id).mpr (hCategory id hId)
    refine ⟨tables.getMany tagIds, ?_⟩
    rw [SoftwareService.resolveCategoryAndTags, bindKeys, bindKeys, bindAll, bindAll, require_ok hFirst, require_ok hFound,
      require_ok hSecond, require_ok hLength]
    rfl

/-- What does not depend on the slug can be asked first. -/
theorem categoryForm_and {name slug : PyStr} {description : Option PyStr} {sortOrder : Int} {Fits : Prop} {Free : PyStr → Prop} :
    CategoryForm env name slug description sortOrder (fun slug => Fits ∧ Free slug) ↔
      Fits ∧ CategoryForm env name slug description sortOrder Free := by
  constructor
  · rintro ⟨normalName, hName, normalSlug, hSlug, text, hText, hOrder, hFits, hFree⟩
    exact ⟨hFits, normalName, hName, normalSlug, hSlug, text, hText, hOrder, hFree⟩
  · rintro ⟨hFits, normalName, hName, normalSlug, hSlug, text, hText, hOrder, hFree⟩
    exact ⟨normalName, hName, normalSlug, hSlug, text, hText, hOrder, hFits, hFree⟩

theorem tagForm_and {name slug : PyStr} {Fits : Prop} {Free : PyStr → Prop} :
    TagForm env name slug (fun slug => Fits ∧ Free slug) ↔ Fits ∧ TagForm env name slug Free := by
  constructor
  · rintro ⟨normalName, hName, normalSlug, hSlug, hFits, hFree⟩
    exact ⟨hFits, normalName, hName, normalSlug, hSlug, hFree⟩
  · rintro ⟨hFits, normalName, hName, normalSlug, hSlug, hFree⟩
    exact ⟨normalName, hName, normalSlug, hSlug, hFits, hFree⟩

section Requests

variable {audit : Option AuditContext}

/-- A new category: its form, and a free slug. -/
theorem passes_createCategory (hLaws : env.Lawful) (name slug : PyStr) (description : Option PyStr) (sortOrder : Int)
    (isVisible : Bool) : Passes (CategoryService.create env name slug description sortOrder isVisible audit) tables ↔
      (EditRequest.createCategory name slug description sortOrder isVisible).Bindable ∧
        CategoryForm env name slug description sortOrder fun slug => ∀ other ∈ tables.categories, other.slug ≠ slug := by
  rw [← categoryForm_and]
  apply passes_text (raises_normalizeName name 120)
  intro normalName _
  apply passes_text (raises_normalizeSlug slug normalName 140)
  intro normalSlug hSlug
  apply passes_text (Catalog.raisesApplication_normalizeOptionalText description 2000)
  intro text _
  apply passes_require rfl
  intro _
  have hFree := @bySlug_none_iff _ Category.slug tables.categories _ _ (normalizeSlug_slug hLaws (normalizeSlug_eq_ok hLaws hSlug))
  refine passes_atomically.trans (passes_read.trans ?_)
  refine (passes_require rfl fun _ => passes_bound (iff_of_true passes_commit trivial)).trans ?_
  rw [and_true, and_comm]
  exact and_congr_right' hFree

/-- A category that is there: its form, and a slug of no other. -/
theorem passes_updateCategory (hLaws : env.Lawful) (h : Constraints tables) (categoryId : Nat) (name slug : PyStr)
    (description : Option PyStr) (sortOrder : Int) (isVisible : Bool) :
    Passes (CategoryService.update env categoryId name slug description sortOrder isVisible audit) tables ↔
      (EditRequest.updateCategory categoryId name slug description sortOrder isVisible).Bindable ∧
        CategoryForm env name slug description sortOrder fun slug =>
          categoryId ∈ tables.categories.map (·.id) ∧ ∀ other ∈ tables.categories, other.slug = slug → other.id = categoryId := by
  rw [← categoryForm_and]
  apply passes_text (raises_normalizeName name 120)
  intro normalName _
  apply passes_text (raises_normalizeSlug slug normalName 140)
  intro normalSlug hSlug
  apply passes_text (Catalog.raisesApplication_normalizeOptionalText description 2000)
  intro text _
  apply passes_require rfl
  intro _
  refine passes_atomically.trans (passes_read.trans ?_)
  have hSplit : (EditRequest.updateCategory categoryId name slug description sortOrder isVisible).Bindable ↔
      (∀ value ∈ [(categoryId : Int)], isBindable value = true) ∧ ∀ value ∈ [sortOrder], isBindable value = true :=
    @List.forall_mem_append _ _ [(categoryId : Int)] _
  beta_reduce
  rw [hSplit, and_assoc]
  apply passes_bound
  cases hRow : tables.category? categoryId with
  | none => exact iff_of_false (not_passes_raise rfl) fun hAll => @not_mem_of_missing _ Category.id _ _ hRow hAll.2.1
  | some category =>
      obtain ⟨hMem, rfl⟩ := h.category?.mp hRow
      have hFree := @bySlug_forall_iff _ Category.slug Category.id tables.categories h.categorySlugs _ _
        (normalizeSlug_slug hLaws (normalizeSlug_eq_ok hLaws hSlug)) category.id
      have hThere : category.id ∈ tables.categories.map (·.id) := List.mem_map_of_mem hMem
      refine (passes_require rfl fun _ => passes_bound (iff_of_true passes_commit trivial)).trans ?_
      rw [and_true, and_comm, and_iff_right hThere]
      exact and_congr_right' hFree

/-- Deleting a category asks for the category only. -/
theorem passes_deleteCategory (h : Constraints tables) (categoryId : Nat) :
    Passes (CategoryService.delete env categoryId audit) tables ↔
      (EditRequest.deleteCategory categoryId).Bindable ∧ categoryId ∈ tables.categories.map (·.id) := by
  refine passes_atomically.trans (passes_read.trans (passes_bound ?_))
  cases hRow : tables.category? categoryId with
  | none => exact iff_of_false (not_passes_raise rfl) (@not_mem_of_missing _ Category.id _ _ hRow)
  | some category =>
      obtain ⟨hMem, rfl⟩ := h.category?.mp hRow
      exact iff_of_true (passes_of_refuses ((flush_refuses _).bind fun _ => append_refuses _ _ _ _ _)) (List.mem_map_of_mem hMem)

/-- A new tag: its form, and a free slug. -/
theorem passes_createTag (hLaws : env.Lawful) (name slug : PyStr) : Passes (TagService.create env name slug audit) tables ↔
    (EditRequest.createTag name slug).Bindable ∧ TagForm env name slug fun slug => ∀ other ∈ tables.tags, other.slug ≠ slug := by
  have hFits : (EditRequest.createTag name slug).Bindable := List.forall_mem_nil _
  rw [and_iff_right hFits]
  apply passes_text (raises_normalizeName name 120)
  intro normalName _
  apply passes_text (raises_normalizeSlug slug normalName 140)
  intro normalSlug hSlug
  have hFree := @bySlug_none_iff _ Tag.slug tables.tags _ _ (normalizeSlug_slug hLaws (normalizeSlug_eq_ok hLaws hSlug))
  refine passes_atomically.trans (passes_read.trans (Iff.trans ?_ hFree))
  exact passes_last rfl passes_commit

/-- A tag that is there: its form, and a slug of no other. -/
theorem passes_updateTag (hLaws : env.Lawful) (h : Constraints tables) (tagId : Nat) (name slug : PyStr) :
    Passes (TagService.update env tagId name slug audit) tables ↔ (EditRequest.updateTag tagId name slug).Bindable ∧
      TagForm env name slug fun slug =>
        tagId ∈ tables.tags.map (·.id) ∧ ∀ other ∈ tables.tags, other.slug = slug → other.id = tagId := by
  rw [← tagForm_and]
  apply passes_text (raises_normalizeName name 120)
  intro normalName _
  apply passes_text (raises_normalizeSlug slug normalName 140)
  intro normalSlug hSlug
  refine passes_atomically.trans (passes_read.trans (passes_bound ?_))
  cases hRow : tables.tag? tagId with
  | none => exact iff_of_false (not_passes_raise rfl) fun hBoth => @not_mem_of_missing _ Tag.id _ _ hRow hBoth.1
  | some tag =>
      obtain ⟨hMem, rfl⟩ := h.tag?.mp hRow
      have hFree := @bySlug_forall_iff _ Tag.slug Tag.id tables.tags h.tagSlugs _ _
        (normalizeSlug_slug hLaws (normalizeSlug_eq_ok hLaws hSlug)) tag.id
      have hThere : tag.id ∈ tables.tags.map (·.id) := List.mem_map_of_mem hMem
      exact (passes_last rfl passes_commit).trans (hFree.trans (and_iff_right hThere).symm)

/-- Deleting a tag asks for the tag only. -/
theorem passes_deleteTag (h : Constraints tables) (tagId : Nat) : Passes (TagService.delete env tagId audit) tables ↔
    (EditRequest.deleteTag tagId).Bindable ∧ tagId ∈ tables.tags.map (·.id) := by
  refine passes_atomically.trans (passes_read.trans (passes_bound ?_))
  cases hRow : tables.tag? tagId with
  | none => exact iff_of_false (not_passes_raise rfl) (@not_mem_of_missing _ Tag.id _ _ hRow)
  | some tag =>
      obtain ⟨hMem, rfl⟩ := h.tag?.mp hRow
      exact iff_of_true (passes_of_refuses ((flush_refuses _).bind fun _ => append_refuses _ _ _ _ _)) (List.mem_map_of_mem hMem)

/-- The look-ups of the category and the tags raise no error of the database. -/
theorem resolve_ne_integrityError (categoryId : Option Nat) (tagIds : List Nat) :
    ∀ e, SoftwareService.resolveCategoryAndTags categoryId tagIds tables = .error e → e ≠ .integrityError := by
  have hBound : ∀ (ids : List Nat) (e : PyException), bindKeys ids = .error e → e ≠ .integrityError :=
    fun _ _ => bindAll_ne_integrityError
  have hLast : RaisesApplication (require ((tables.getMany tagIds).length = tagIds.dedup.length)
      (Catalog.entityNotFound "One or more tags were not found.") >>= fun _ => .ok (tables.getMany tagIds)) :=
    .bind (.require rfl) fun _ => .ok _
  refine forall_error_bind (hBound _) fun _ => ?_
  refine forall_error_bind (fun _ => (RaisesApplication.require rfl).ne_integrityError) fun _ => ?_
  exact forall_error_bind (hBound _) fun _ _ => hLast.ne_integrityError

/-- The look-ups of the category and the tags come last. -/
theorem passes_resolve (h : Constraints tables) {categoryId : Option Nat} {tagIds : List Nat} {α : Type}
    {rest : List Nat → EditProgram α} (hRest : ∀ tags, Passes (rest tags) tables) :
    Passes (lift (SoftwareService.resolveCategoryAndTags categoryId tagIds tables) >>= rest) tables ↔
      (∀ value ∈ (categoryId.toList ++ tagIds).map fun id : Nat => (id : Int), isBindable value = true) ∧
        ReferencesExist categoryId tagIds tables := by
  rw [← resolve_ok_iff h]
  refine (passes_check (resolve_ne_integrityError categoryId tagIds) fun tags _ => iff_of_true (hRest tags) trivial).trans ?_
  exact exists_congr fun tags => and_iff_left trivial

/-- A new entry: its texts, a free slug, and the category and the tags that it
refers to. -/
theorem passes_createSoftware (hLaws : env.Lawful) (h : Constraints tables) (texts : SoftwareTexts) (categoryId : Option Nat)
    (tagIds : List Nat) (visibility : Catalog.Visibility) (isFeatured : Bool) (now : Instant) :
    Passes (SoftwareService.create env texts categoryId tagIds visibility isFeatured now audit) tables ↔
      (EditRequest.createSoftware texts categoryId tagIds visibility isFeatured now).Bindable ∧
        ∃ fields, normalizeFields env texts = .ok fields ∧
          (∀ other ∈ tables.software, other.slug ≠ fields.slug) ∧ ReferencesExist categoryId tagIds tables := by
  rw [← exists_and_left]
  simp only [and_left_comm]
  apply passes_text (raises_normalizeFields hLaws texts)
  intro fields hFields
  have hFree := @bySlug_none_iff _ (fun row : Software => row.slug) tables.software _ _
    (normalizeSlug_slug hLaws (normalizeFields_eq_ok hLaws hFields).slug)
  rw [and_left_comm, ← hFree]
  refine passes_atomically.trans (passes_read.trans ?_)
  exact passes_require rfl fun _ => passes_resolve h fun _ => passes_commit

/-- An entry that is there: its texts, a slug of no other, and what it refers to. -/
theorem passes_updateSoftware (hLaws : env.Lawful) (h : Constraints tables) (softwareId : Nat) (texts : SoftwareTexts)
    (categoryId : Option Nat) (tagIds : List Nat) (visibility : Catalog.Visibility) (isFeatured : Bool) (now : Instant) :
    Passes (SoftwareService.update env softwareId texts categoryId tagIds visibility isFeatured now audit) tables ↔
      (EditRequest.updateSoftware softwareId texts categoryId tagIds visibility isFeatured now).Bindable ∧
        ∃ fields, normalizeFields env texts = .ok fields ∧ softwareId ∈ tables.software.map (·.id) ∧
          (∀ other ∈ tables.software, other.slug = fields.slug → other.id = softwareId) ∧
            ReferencesExist categoryId tagIds tables := by
  rw [← exists_and_left]
  simp only [and_left_comm]
  apply passes_text (raises_normalizeFields hLaws texts)
  intro fields hFields
  refine passes_atomically.trans (passes_read.trans ?_)
  have hSplit : (EditRequest.updateSoftware softwareId texts categoryId tagIds visibility isFeatured now).Bindable ↔
      (∀ value ∈ [(softwareId : Int)], isBindable value = true) ∧
        ∀ value ∈ (categoryId.toList ++ tagIds).map fun id : Nat => (id : Int), isBindable value = true :=
    @List.forall_mem_append _ _ [(softwareId : Int)] _
  rw [hSplit, and_assoc]
  apply passes_bound
  cases hRow : tables.software? softwareId with
  | none =>
      exact iff_of_false (not_passes_raise rfl) fun hAll => @not_mem_of_missing _ (fun row : Software => row.id) _ _ hRow hAll.2.1
  | some software =>
      obtain ⟨hMem, rfl⟩ := h.software?.mp hRow
      have hFree := @bySlug_forall_iff _ (fun row : Software => row.slug) (fun row : Software => row.id) tables.software
        h.softwareSlugs _ _ (normalizeSlug_slug hLaws (normalizeFields_eq_ok hLaws hFields).slug) software.id
      have hThere : software.id ∈ tables.software.map (·.id) := List.mem_map_of_mem hMem
      rw [← hFree, and_iff_right hThere, and_left_comm]
      exact passes_require rfl fun _ => passes_resolve h fun _ => passes_commit

/-- The entry and the new tags must be there. -/
theorem passes_replaceTags (h : Constraints tables) (softwareId : Nat) (tagIds : List Nat) :
    Passes (SoftwareService.replaceTags env softwareId tagIds audit) tables ↔
      (EditRequest.replaceTags softwareId tagIds).Bindable ∧
        softwareId ∈ tables.software.map (·.id) ∧ ∀ id ∈ tagIds, id ∈ tables.tags.map (·.id) := by
  refine passes_atomically.trans (passes_read.trans ?_)
  have hSplit : (EditRequest.replaceTags softwareId tagIds).Bindable ↔ (∀ value ∈ [(softwareId : Int)], isBindable value = true) ∧
      ∀ value ∈ tagIds.map fun id : Nat => (id : Int), isBindable value = true := @List.forall_mem_append _ _ [(softwareId : Int)] _
  rw [hSplit, and_assoc]
  apply passes_bound
  cases hRow : tables.software? softwareId with
  | none =>
      exact iff_of_false (not_passes_raise rfl) fun hAll => @not_mem_of_missing _ (fun row : Software => row.id) _ _ hRow hAll.2.1
  | some software =>
      obtain ⟨hMem, rfl⟩ := h.software?.mp hRow
      have hThere : software.id ∈ tables.software.map (·.id) := List.mem_map_of_mem hMem
      rw [← getMany_length_iff h, and_iff_right hThere]
      exact passes_bound (passes_last rfl passes_commit)

/-- A status that is already there is accepted, too. -/
theorem transition_ok_iff (software : Catalog.Software) (target : SoftwareStatus) (now : Instant) :
    (∃ columns, applySoftwareTransition software target now = .ok columns) ↔
      target = software.status ∨ target ∈ softwareTransitions software.status := by
  constructor
  · rintro ⟨columns, hColumns⟩
    obtain ⟨_, hAllowed, -⟩ := except_bind_eq_ok hColumns
    exact require_eq_ok_iff.mp hAllowed
  · intro hAllowed
    unfold applySoftwareTransition
    rw [Catalog.ensureTransition, require_ok hAllowed]
    by_cases hSame : target = software.status
    · exact ⟨software, if_pos hSame⟩
    · exact ⟨_, if_neg hSame⟩

/-- The entry must be there, and the table must allow the transition. -/
theorem passes_transitionStatus (h : Constraints tables) (softwareId : Nat) (target : SoftwareStatus) (now : Instant) :
    Passes (SoftwareService.transitionStatus env softwareId target now audit) tables ↔
      (EditRequest.transitionStatus softwareId target now).Bindable ∧ ∃ software ∈ tables.software, software.id = softwareId ∧
        (target = software.status ∨ target ∈ softwareTransitions software.status) := by
  refine passes_atomically.trans (passes_read.trans (passes_bound ?_))
  cases hRow : tables.software? softwareId with
  | none =>
      apply iff_of_false (not_passes_raise rfl)
      rintro ⟨software, hMem, hKey, -⟩
      exact @not_mem_of_missing _ (fun row : Software => row.id) _ _ hRow (List.mem_map.mpr ⟨software, hMem, hKey⟩)
  | some software =>
      obtain ⟨hMem, rfl⟩ := h.software?.mp hRow
      refine (passes_text (Catalog.raisesApplication_applySoftwareTransition _ _ _) fun _ _ => iff_of_true passes_commit trivial).trans ?_
      constructor
      · rintro ⟨columns, hColumns, -⟩
        exact ⟨software, hMem, rfl, (transition_ok_iff _ _ _).mp ⟨columns, hColumns⟩⟩
      · rintro ⟨other, hOther, hKey, hAllowed⟩
        have hSame : other = software :=
          List.inj_on_of_nodup_map (h.softwareKeys.imp Nat.ne_of_lt) hOther hMem hKey
        rw [hSame] at hAllowed
        obtain ⟨columns, hColumns⟩ := (transition_ok_iff software.toSoftware target now).mpr hAllowed
        exact ⟨columns, hColumns, trivial⟩

theorem passes_setVisibility (h : Constraints tables) (softwareId : Nat) (visibility : Catalog.Visibility) (now : Instant) :
    Passes (SoftwareService.setVisibility env softwareId visibility now audit) tables ↔
      (EditRequest.setVisibility softwareId visibility now).Bindable ∧ softwareId ∈ tables.software.map (·.id) := by
  refine passes_atomically.trans (passes_read.trans (passes_bound ?_))
  cases hRow : tables.software? softwareId with
  | none => exact iff_of_false (not_passes_raise rfl) (@not_mem_of_missing _ (fun row : Software => row.id) _ _ hRow)
  | some software =>
      obtain ⟨hMem, rfl⟩ := h.software?.mp hRow
      exact iff_of_true passes_commit (List.mem_map_of_mem hMem)

end Requests

section Runs

/-- Every request, in terms of its tables. -/
theorem passes_iff (hLaws : env.Lawful) (h : Constraints tables) (call : EditCall) :
    Passes (call.perform env) tables ↔ call.request.Bindable ∧ call.request.Accepted env tables := by
  rcases call with ⟨request, audit⟩
  cases request with
  | createCategory name slug description sortOrder isVisible =>
      exact passes_map.trans (passes_createCategory hLaws name slug description sortOrder isVisible)
  | updateCategory categoryId name slug description sortOrder isVisible =>
      exact passes_map.trans (passes_updateCategory hLaws h categoryId name slug description sortOrder isVisible)
  | deleteCategory categoryId => exact passes_map.trans (passes_deleteCategory h categoryId)
  | createTag name slug => exact passes_map.trans (passes_createTag hLaws name slug)
  | updateTag tagId name slug => exact passes_map.trans (passes_updateTag hLaws h tagId name slug)
  | deleteTag tagId => exact passes_map.trans (passes_deleteTag h tagId)
  | createSoftware texts categoryId tagIds visibility isFeatured now =>
      exact passes_map.trans (passes_createSoftware hLaws h texts categoryId tagIds visibility isFeatured now)
  | updateSoftware softwareId texts categoryId tagIds visibility isFeatured now =>
      exact passes_map.trans (passes_updateSoftware hLaws h softwareId texts categoryId tagIds visibility isFeatured now)
  | replaceTags softwareId tagIds => exact passes_map.trans (passes_replaceTags h softwareId tagIds)
  | transitionStatus softwareId target now => exact passes_map.trans (passes_transitionStatus h softwareId target now)
  | setVisibility softwareId visibility now => exact passes_map.trans (passes_setVisibility h softwareId visibility now)

/-- In tables that the database accepts, a call returns when it passes its checks. -/
theorem returns_iff (hLaws : env.Lawful) (h : Sound env tables) (call : EditCall) (hUser : AuditorExists call.audit tables) :
    (∃ id, (call.perform env tables).1 = .ok id) ↔ call.request.Bindable ∧ call.request.Accepted env tables := by
  rw [← passes_iff hLaws h.constraints call]
  have hFailed : ∀ e, (call.perform env tables).1 = .error e → e ≠ .integrityError := by
    intro e hError
    exact ((soundStep hLaws h call hUser).failed e hError).1.ne_integrityError
  cases hOutcome : (call.perform env tables).1 with
  | ok id =>
      apply iff_of_true ⟨id, rfl⟩
      intro e hError
      rw [hOutcome] at hError
      cases hError
  | error e =>
      apply iff_of_false
      · rintro ⟨id, hOk⟩
        cases hOk
      · intro hPasses
        exact hFailed e hOutcome (hPasses e hOutcome)

/-- In every run each call is accepted exactly when its numbers fit the
database, its texts can be normalized, its slug is free and everything it
refers to exists. -/
theorem edits_accepted_iff (hLaws : env.Lawful) (h : Sound env tables) {calls : List EditCall}
    (hUsers : ∀ call ∈ calls, AuditorExists call.audit tables) : ∀ step ∈ trace (EditCall.perform env) tables calls,
      (∃ id, step.outcome = .ok id) ↔ step.request.request.Bindable ∧ step.request.request.Accepted env step.before :=
  forall_steps hLaws h hUsers fun call _ hNow => returns_iff hLaws hNow call

/-- A category is created by someone who exists. -/
theorem edits_accepted_iff_sample :
    (EditRequest.createCategory (py "System") (py "system") none 0 true).Bindable ∧
      (EditRequest.createCategory (py "System") (py "system") none 0 true).Accepted sampleEnvironment (newTables [1]) := by
  have hFirst := edits_accepted_iff sampleEnvironment_lawful (newTables_sound sampleEnvironment [1]) sampleCalls_users
    (answer (EditCall.perform sampleEnvironment) ⟨.createCategory (py "System") (py "system") none 0 true, some sampleAudit⟩
      (newTables [1])) List.mem_cons_self
  exact hFirst.mp ⟨1, rfl⟩

end Runs
end SoftwareHub.Editing
