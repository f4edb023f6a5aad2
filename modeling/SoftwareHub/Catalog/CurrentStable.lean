import SoftwareHub.Catalog.Releases
import SoftwareHub.Semantics.Trace

/-! At most one current release for each software entry, stable and published. Every
call is shown to keep this, and never to run into one of the two indexes that
enforce it. -/
namespace SoftwareHub.Catalog

open SoftwareHub.Python SoftwareHub.Semantics Program

/-- The calls that change releases, or the software above them. -/
inductive ReleaseRequest
  | create (softwareId : Nat) (version : PyStr) (releaseChannel : ReleaseChannel) (releaseDate : Option Date)
      (changelog : Option PyStr)
  | update (releaseId : Nat) (version : PyStr) (releaseChannel : ReleaseChannel) (releaseDate : Option Date)
      (changelog : Option PyStr)
  | transitionStatus (releaseId : Nat) (target : ReleaseStatus) (now : Instant)
  | setCurrentStable (releaseId : Nat)
  | clearCurrent (releaseId : Nat)
  | transitionSoftware (softwareId : Nat) (target : SoftwareStatus) (now : Instant)

inductive ReleaseAnswer
  | release (release : Release)
  | software (software : Software)
  deriving DecidableEq

def ReleaseRequest.perform : ReleaseRequest → CatalogProgram ReleaseAnswer
  | create softwareId version releaseChannel releaseDate changelog =>
      .release <$> ReleaseService.create softwareId version releaseChannel releaseDate changelog
  | update releaseId version releaseChannel releaseDate changelog =>
      .release <$> ReleaseService.update releaseId version releaseChannel releaseDate changelog
  | transitionStatus releaseId target now => .release <$> ReleaseService.transitionStatus releaseId target now
  | setCurrentStable releaseId => .release <$> ReleaseService.setCurrentStable releaseId
  | clearCurrent releaseId => .release <$> ReleaseService.clearCurrent releaseId
  | transitionSoftware softwareId target now => .software <$> SoftwareService.transitionStatus softwareId target now

/-- Only a published stable release is current, and only one of each software entry.
The tables have the keys and the identities that the schema declares. -/
structure CurrentReleases (database : Database) : Prop where
  ids : (database.releases.map Release.id).Nodup
  identities : (database.releases.map identity).Nodup
  one : UniqueWhere (fun release => release.isCurrent = true) Release.softwareId database.releases
  stable : ∀ release ∈ database.releases, release.isCurrent = true →
    release.releaseChannel = .stable ∧ release.status = .published

namespace CurrentReleases

variable {database : Database}

theorem indexes (h : CurrentReleases database) : ReleaseIndexes database.releases :=
  ⟨h.identities, h.one.imp fun _ _ hIndexed => hIndexed.1⟩

theorem release?_eq_some_iff (h : CurrentReleases database) {id : Nat} {release : Release} :
    database.release? id = some release ↔ release ∈ database.releases ∧ release.id = id :=
  find?_eq_some_iff_of_nodup h.ids

/-- What a saved row has to satisfy against the stored one and all others for the
indexes to accept it. -/
structure Saveable (database : Database) (release : Release) : Prop where
  stored : ∃ old, database.release? release.id = some old ∧ old.softwareId = release.softwareId
  identity : ∀ other ∈ database.releases, other.id ≠ release.id → identity other ≠ identity release
  stable : release.isCurrent = true → release.releaseChannel = .stable ∧ release.status = .published
  one : release.isCurrent = true → ∀ other ∈ database.releases, other.id ≠ release.id →
    other.softwareId = release.softwareId → other.isCurrent = false

theorem save (h : CurrentReleases database) {release : Release} (hSave : Saveable database release) :
    CurrentReleases
      (database.updateReleases (updateRows (fun row => row.id = release.id) (fun _ => release))) where
  ids := by
    rw [Database.updateReleases, map_updateRows fun _ _ hSame => hSame.symm]
    exact h.ids
  identities := by
    have hUnique : UniqueWhere (fun _ => True) Catalog.identity database.releases :=
      (List.pairwise_map.mp h.identities).imp fun hNe _ _ => hNe
    have hUpdated := hUnique.updateRows h.ids (c := fun row => row.id = release.id) (f := fun _ => release)
      fun row _ other hOther hNe hRow _ _ => by
        have hId : other.id ≠ release.id := fun hSame => hNe (hRow.trans hSame.symm)
        rw [if_neg hId]
        exact (hSave.identity other hOther hId).symm
    exact List.pairwise_map.mpr (List.Pairwise.imp (fun hNe => hNe trivial trivial) hUpdated)
  one := by
    refine h.one.updateRows h.ids fun row hMem other hOther hNe hRow hCurrent hOtherCurrent => ?_
    have hId : other.id ≠ release.id := fun hSame => hNe (hRow.trans hSame.symm)
    rw [if_neg hId] at hOtherCurrent ⊢
    intro hSoftware
    have hNot := hSave.one hCurrent other hOther hId hSoftware.symm
    rw [hOtherCurrent] at hNot
    cases hNot
  stable := by
    intro row hRow
    obtain ⟨old, hOld, rfl⟩ := mem_updateRows.mp hRow
    split_ifs
    · exact hSave.stable
    · exact h.stable old hOld

/-- Saving such a row passes both indexes and keeps the invariant. -/
theorem saveRelease_spec (release : Release) :
    Triple (fun s => CurrentReleases s ∧ Saveable s release) (saveRelease release)
      (fun _ => CurrentReleases) (fun e _ => e ≠ .integrityError) :=
  writeReleases_spec fun _ ⟨h, hSave⟩ => ⟨(h.save hSave).indexes, h.save hSave⟩

theorem clear (h : CurrentReleases database) (softwareId exceptReleaseId : Nat) :
    CurrentReleases (database.updateReleases (updateRows
      (fun row => row.softwareId = softwareId ∧ row.releaseChannel = .stable ∧ row.id ≠ exceptReleaseId ∧
        row.isCurrent = true)
      (fun row => { row with isCurrent := false }))) where
  ids := by
    rw [Database.updateReleases, map_updateRows]
    · exact h.ids
    · exact fun _ _ _ => rfl
  identities := by
    rw [Database.updateReleases, map_updateRows]
    · exact h.identities
    · exact fun _ _ _ => rfl
  one := h.one.updateRows h.ids fun row _ other _ _ _ hCurrent => by cases hCurrent
  stable := by
    intro row hRow hCurrent
    obtain ⟨old, hOld, rfl⟩ := mem_updateRows.mp hRow
    split_ifs at hCurrent ⊢
    exact h.stable old hOld hCurrent

/-- The bulk update leaves no other current release of the software entry: the
ones that are not stable were not current. -/
theorem clearCurrentStable_spec (release : Release) :
    Triple (fun s => CurrentReleases s ∧ release ∈ s.releases) (clearCurrentStable release.softwareId release.id)
      (fun _ s => CurrentReleases s ∧ release ∈ s.releases ∧ ∀ other ∈ s.releases, other.id ≠ release.id →
        other.softwareId = release.softwareId → other.isCurrent = false)
      (fun e _ => e ≠ .integrityError) := by
  refine writeReleases_spec fun s ⟨h, hRelease⟩ => ?_
  have hNew := h.clear release.softwareId release.id
  refine ⟨hNew.indexes, hNew, mem_updateRows.mpr ⟨release, hRelease, by simp⟩, fun other hOther hNe hSoftware => ?_⟩
  obtain ⟨old, hOld, rfl⟩ := mem_updateRows.mp hOther
  split_ifs at hNe hSoftware ⊢ with hCleared
  · rfl
  · by_contra hCurrent
    rw [Bool.not_eq_false] at hCurrent
    exact hCleared ⟨hSoftware, (h.stable old hOld hCurrent).1, hNe, hCurrent⟩

/-- A new draft takes no marker and an identity of its own, so that it collides with
nothing. -/
theorem append (h : CurrentReleases database) (release : Release) (hId : release.id = nextId Release.id database.releases)
    (hCurrent : release.isCurrent = false)
    (hIdentity : ∀ other ∈ database.releases, identity other ≠ identity release) :
    CurrentReleases (database.updateReleases (· ++ [release])) where
  ids := nodup_append_nextId h.ids hId
  identities := by
    rw [Database.updateReleases, List.map_append, List.nodup_append]
    refine ⟨h.identities, by simp, fun old hOld new hNew => ?_⟩
    obtain ⟨other, hOther, rfl⟩ := List.mem_map.mp hOld
    obtain rfl : new = Catalog.identity release := by simpa using hNew
    exact hIdentity other hOther
  one := h.one.append fun hMarked => by simp [hCurrent] at hMarked
  stable := by
    intro other hOther hMarked
    rcases List.mem_append.mp hOther with hOld | hNew
    · exact h.stable other hOld hMarked
    · rw [List.mem_singleton.mp hNew, hCurrent] at hMarked
      cases hMarked

/-- A stored row may be changed without marking it, and without moving it to another
software entry or identity. -/
theorem saveable_of_not_marked (h : CurrentReleases database) {old release : Release} (hOld : old ∈ database.releases)
    (hId : release.id = old.id) (hSoftware : release.softwareId = old.softwareId)
    (hIdentity : ∀ other ∈ database.releases, other.id ≠ release.id → identity other ≠ identity release)
    (hCurrent : release.isCurrent = true →
      old.isCurrent = true ∧ release.releaseChannel = .stable ∧ release.status = .published) :
    Saveable database release where
  stored := ⟨old, h.release?_eq_some_iff.mpr ⟨hOld, hId.symm⟩, hSoftware.symm⟩
  identity := hIdentity
  stable := fun hMarked => (hCurrent hMarked).2
  one := by
    intro hMarked other hOther hNe hSame
    by_contra hOtherMarked
    rw [Bool.not_eq_false] at hOtherMarked
    obtain rfl := h.one.eq_of_key_eq hOther hOld hOtherMarked (hCurrent hMarked).1 (hSame.trans hSoftware)
    exact hNe hId.symm

/-- Nothing else has the identity of a stored row. -/
theorem identity_ne (h : CurrentReleases database) {old other : Release} (hOld : old ∈ database.releases)
    (hOther : other ∈ database.releases) (hNe : other.id ≠ old.id) : identity other ≠ identity old :=
  fun hSame => hNe (congrArg Release.id (List.inj_on_of_nodup_map h.identities hOther hOld hSame))

/-- The release that a service loads is a stored row, and a failure of the look-up
is no violated index. -/
theorem getWithGraph_spec (releaseId : Nat) :
    Triple CurrentReleases (getWithGraph releaseId)
      (fun graph s => CurrentReleases s ∧ graph.1 ∈ s.releases) (fun e _ => e ≠ .integrityError) := by
  intro s hs
  rcases getWithGraph_cases releaseId s with ⟨e, hNe, hRun⟩ | ⟨release, software, hFind, -, hRun⟩
  · rw [hRun]
    exact hNe
  · rw [hRun]
    exact ⟨hs, (hs.release?_eq_some_iff.mp hFind).1⟩

theorem require_spec (softwareId : Nat) :
    Triple CurrentReleases (SoftwareService.require softwareId)
      (fun software s => CurrentReleases s ∧ software.id = softwareId) (fun e _ => e ≠ .integrityError) := by
  intro s hs
  rcases SoftwareService.require_cases softwareId s with ⟨e, hNe, hRun⟩ | ⟨software, hFind, hRun⟩
  · rw [hRun]
    exact hNe
  · rw [hRun]
    exact ⟨hs, by simpa using List.find?_some hFind⟩

theorem raisesApplication_normalizeVersion (version : PyStr) : RaisesApplication (normalizeVersion version) :=
  .bind (.require rfl) fun _ => .ok _

theorem raisesApplication_applyReleaseTransition (software : Software) (release : Release) (target : ReleaseStatus)
    (now : Instant) : RaisesApplication (applyReleaseTransition software release target now) := by
  refine .bind (.require rfl) fun _ => ?_
  split_ifs
  · exact .ok _
  · exact .bind (.require rfl) fun _ => .ok _
  · exact .ok _

theorem raisesApplication_ensureCurrentStableCandidate (software : Software) (release : Release) :
    RaisesApplication (ensureCurrentStableCandidate software release) :=
  .bind (.require rfl) fun _ => .bind (.require rfl) fun _ => .require rfl

/-- A computation with application errors in front of a service writes nothing. -/
theorem lift_spec {α : Type} {x : Except PyException α} (hx : RaisesApplication x) :
    Triple CurrentReleases (lift x) (fun _ => CurrentReleases)
      (fun e s => e ≠ .integrityError ∧ CurrentReleases s) :=
  .lift (fun _ _ _ hs => hs) fun _ h _ hs => ⟨hx.ne_integrityError h, hs⟩

/-- A new release is a draft without a marker, under an identity that the service
has checked to be free. -/
theorem create_spec (softwareId : Nat) (version : PyStr) (releaseChannel : ReleaseChannel)
    (releaseDate : Option Date) (changelog : Option PyStr) :
    Triple CurrentReleases (ReleaseService.create softwareId version releaseChannel releaseDate changelog)
      (fun _ => CurrentReleases) (fun e s => e ≠ .integrityError ∧ CurrentReleases s) := by
  refine (lift_spec (raisesApplication_normalizeVersion version)).bind fun version => ?_
  refine (lift_spec (raisesApplication_normalizeOptionalText changelog 20000)).bind fun changelog => ?_
  refine Triple.atomically ((require_spec softwareId).bind fun software => ?_)
  refine .bind (Q := fun duplicate s => CurrentReleases s ∧ software.id = softwareId ∧
    duplicate = getByIdentity softwareId version releaseChannel s) (.read fun s hs => ⟨hs.1, hs.2, rfl⟩)
    fun duplicate => ?_
  refine .ite (fun _ => .raise fun _ _ => by simp) fun hNone => ?_
  refine .bind (Q := fun releases s => CurrentReleases s ∧ software.id = softwareId ∧
    duplicate = getByIdentity softwareId version releaseChannel s ∧ releases = s.releases)
    (.read fun s hs => ⟨hs.1, hs.2.1, hs.2.2, rfl⟩) fun releases => ?_
  refine .bind (Q := fun _ => CurrentReleases) (writeReleases_spec ?_) fun _ => .pure fun _ hs => hs
  rintro s ⟨hs, rfl, rfl, rfl⟩
  have hNew := hs.append {
    id := nextId Release.id s.releases
    softwareId := software.id
    version := version
    releaseChannel := releaseChannel
    releaseDate := releaseDate
    changelog := changelog
    isCurrent := false
    status := .draft
    publishedAt := none } rfl rfl fun other hOther hSame => ?_
  · exact ⟨hNew.indexes, hNew⟩
  · rw [Option.not_isSome_iff_eq_none] at hNone
    exact List.find?_eq_none.mp hNone other hOther (decide_eq_true hSame)

/-- A release may get another identity when no other one has it, and one with a
marker has to stay stable. -/
theorem update_spec (releaseId : Nat) (version : PyStr) (releaseChannel : ReleaseChannel)
    (releaseDate : Option Date) (changelog : Option PyStr) :
    Triple CurrentReleases (ReleaseService.update releaseId version releaseChannel releaseDate changelog)
      (fun _ => CurrentReleases) (fun e s => e ≠ .integrityError ∧ CurrentReleases s) := by
  refine (lift_spec (raisesApplication_normalizeVersion version)).bind fun version => ?_
  refine (lift_spec (raisesApplication_normalizeOptionalText changelog 20000)).bind fun changelog => ?_
  refine Triple.atomically ((getWithGraph_spec releaseId).bind fun ⟨release, software⟩ => ?_)
  refine .ite (fun _ => .raise fun _ _ => by simp) fun hChannel => ?_
  refine .bind (Q := fun duplicate s => (CurrentReleases s ∧ release ∈ s.releases) ∧
    duplicate = getByIdentity release.softwareId version releaseChannel s) (.read fun _ hs => ⟨hs, rfl⟩)
    fun duplicate => ?_
  refine .ite (fun _ => .raise fun _ _ => by simp) fun hDuplicate => ?_
  refine .bind (Q := fun _ => CurrentReleases) ((saveRelease_spec _).mono (fun s hs => ⟨hs.1.1, ?_⟩) (fun _ _ h => h)
    fun _ _ h => h) fun _ => .pure fun _ hs => hs
  obtain ⟨⟨hReleases, hRelease⟩, rfl⟩ := hs
  refine hReleases.saveable_of_not_marked hRelease rfl rfl (fun other hOther hNe hSame => hDuplicate ?_)
    fun hMarked => ⟨hMarked, ?_, (hReleases.stable release hRelease hMarked).2⟩
  · -- a row with the new identity is found as the duplicate
    cases hFind : getByIdentity release.softwareId version releaseChannel s with
    | none => exact (List.find?_eq_none.mp hFind other hOther (decide_eq_true hSame)).elim
    | some found =>
        have hFound : identity found = (release.softwareId, version, releaseChannel) := by
          simpa using List.find?_some hFind
        obtain rfl := List.inj_on_of_nodup_map hReleases.identities (List.mem_of_find?_eq_some hFind) hOther
          (hFound.trans hSame.symm)
        exact ⟨found, rfl, hNe⟩
  · by_contra hOther
    exact hChannel ⟨hMarked, hOther⟩

/-- No transition marks a release, and leaving the published status unmarks it. -/
theorem transitionStatus_spec (releaseId : Nat) (target : ReleaseStatus) (now : Instant) :
    Triple CurrentReleases (ReleaseService.transitionStatus releaseId target now)
      (fun _ => CurrentReleases) (fun e s => e ≠ .integrityError ∧ CurrentReleases s) := by
  refine Triple.atomically ((getWithGraph_spec releaseId).bind fun ⟨release, software⟩ => ?_)
  refine .bind (Q := fun after s => CurrentReleases s ∧ Saveable s after)
    (.lift (fun after hAfter s ⟨hReleases, hRelease⟩ => ⟨hReleases, ?_⟩) fun e h _ _ =>
      (raisesApplication_applyReleaseTransition _ _ _ _).ne_integrityError h)
    fun after => (saveRelease_spec after).bind fun _ => .pure fun _ hs => hs
  obtain ⟨hId, hSoftware, hVersion, hChannel, hStatus, hCurrent⟩ := applyReleaseTransition_eq_ok hAfter
  have hSame : identity after = identity release := by simp [identity, hSoftware, hVersion, hChannel]
  refine hReleases.saveable_of_not_marked hRelease hId hSoftware (fun other hOther hNe => ?_) fun hMarked => ?_
  · rw [hSame]
    exact hReleases.identity_ne hRelease hOther (hId ▸ hNe)
  · obtain ⟨hWas, hTarget⟩ := hCurrent hMarked
    obtain ⟨hStable, hPublished⟩ := hReleases.stable release hRelease hWas
    refine ⟨hWas, hChannel.trans hStable, hStatus.trans ?_⟩
    rcases hTarget with rfl | rfl
    · rfl
    · exact hPublished

/-- The marker is taken from all other releases of the entry before it is given, in
this order, so that the index never sees two. -/
theorem setCurrentStable_spec (releaseId : Nat) :
    Triple CurrentReleases (ReleaseService.setCurrentStable releaseId)
      (fun _ => CurrentReleases) (fun e s => e ≠ .integrityError ∧ CurrentReleases s) := by
  refine Triple.atomically ((getWithGraph_spec releaseId).bind fun ⟨release, software⟩ => ?_)
  refine .bind (Q := fun _ s => (CurrentReleases s ∧ release ∈ s.releases) ∧
    release.releaseChannel = .stable ∧ release.status = .published)
    (.lift (fun u hOk _ hs => ⟨hs, ?_⟩) fun e h _ _ =>
      (raisesApplication_ensureCurrentStableCandidate _ _).ne_integrityError h) fun _ => ?_
  · obtain ⟨hStable, hPublished, -⟩ := ensureCurrentStableCandidate_eq_ok hOk
    exact ⟨hStable, hPublished⟩
  intro s ⟨hs, hCandidate⟩
  refine ((clearCurrentStable_spec release).bind fun _ => .bind (Q := fun _ => CurrentReleases)
    ((saveRelease_spec { release with isCurrent := true }).mono
      (fun t ⟨hReleases, hRelease, hOthers⟩ => ⟨hReleases, ?_⟩) (fun _ _ h => h) fun _ _ h => h)
    fun _ => .pure fun _ ht => ht) s hs
  exact {
    stored := ⟨release, hReleases.release?_eq_some_iff.mpr ⟨hRelease, rfl⟩, rfl⟩
    identity := fun _ hOther hNe => @identity_ne _ hReleases release _ hRelease hOther hNe
    stable := fun _ => hCandidate
    one := fun _ => hOthers }

/-- Taking a marker away can collide with nothing. -/
theorem clearCurrent_spec (releaseId : Nat) :
    Triple CurrentReleases (ReleaseService.clearCurrent releaseId)
      (fun _ => CurrentReleases) (fun e s => e ≠ .integrityError ∧ CurrentReleases s) := by
  refine Triple.atomically ((getWithGraph_spec releaseId).bind fun ⟨release, software⟩ => ?_)
  refine .bind (Q := fun _ => CurrentReleases) ((saveRelease_spec { release with isCurrent := false }).mono
    (fun s ⟨hReleases, hRelease⟩ => ⟨hReleases, ?_⟩) (fun _ _ h => h) fun _ _ h => h) fun _ => .pure fun _ hs => hs
  exact hReleases.saveable_of_not_marked hRelease rfl rfl
    (fun _ hOther hNe => @identity_ne _ hReleases release _ hRelease hOther hNe) fun hMarked => by cases hMarked

/-- A software entry changes without its releases. -/
theorem transitionSoftware_spec (softwareId : Nat) (target : SoftwareStatus) (now : Instant) :
    Triple CurrentReleases (SoftwareService.transitionStatus softwareId target now)
      (fun _ => CurrentReleases) (fun e s => e ≠ .integrityError ∧ CurrentReleases s) := by
  refine Triple.atomically ((require_spec softwareId).bind fun software => ?_)
  refine .bind (Q := fun _ => CurrentReleases) (.lift (fun _ _ _ hs => hs.1) fun e h _ _ =>
    (raisesApplication_applySoftwareTransition _ _ _).ne_integrityError h) fun after => ?_
  exact .bind (Q := fun _ => CurrentReleases) (.write fun s hs => ⟨hs.ids, hs.identities, hs.one, hs.stable⟩)
    fun _ => .pure fun _ hs => hs

end CurrentReleases

/-- One request keeps the invariant and is never rejected by an index. -/
theorem CurrentReleases.perform {database : Database} (h : CurrentReleases database) (request : ReleaseRequest) :
    CurrentReleases (request.perform database).2 ∧ (request.perform database).1 ≠ .error .integrityError := by
  have hAnswer {α : Type} {x : CatalogProgram α} (f : α → ReleaseAnswer)
      (hx : Triple CurrentReleases x (fun _ => CurrentReleases)
        (fun e s => e ≠ .integrityError ∧ CurrentReleases s)) :
      CurrentReleases ((f <$> x) database).2 ∧ ((f <$> x) database).1 ≠ .error .integrityError := by
    have hRun := hx database h
    rw [map_apply]
    rcases hStep : x database with ⟨outcome, after⟩
    rw [hStep] at hRun
    cases outcome with
    | error e =>
        obtain ⟨hNe, hAfter⟩ := hRun
        exact ⟨hAfter, fun hEq => hNe (Except.error.inj hEq)⟩
    | ok a => exact ⟨hRun, fun hEq => by cases hEq⟩
  cases request with
  | create => exact hAnswer _ (create_spec _ _ _ _ _)
  | update => exact hAnswer _ (update_spec _ _ _ _ _)
  | transitionStatus => exact hAnswer _ (transitionStatus_spec _ _ _)
  | setCurrentStable => exact hAnswer _ (setCurrentStable_spec _)
  | clearCurrent => exact hAnswer _ (clearCurrent_spec _)
  | transitionSoftware => exact hAnswer _ (transitionSoftware_spec _ _ _)

/-- In every state that a run reaches, a software entry has at most one current
release, current releases are stable and published, and no call has raised an
`IntegrityError`. -/
theorem current_stable_in_every_run {start : Database} (hStart : start.releases = []) (requests : List ReleaseRequest) :
    (∀ softwareId, (final ReleaseRequest.perform start requests).releases.countP
        (fun release => release.isCurrent = true ∧ release.softwareId = softwareId) ≤ 1) ∧
      (∀ release ∈ (final ReleaseRequest.perform start requests).releases, release.isCurrent = true →
        release.releaseChannel = .stable ∧ release.status = .published) ∧
      ∀ step ∈ trace ReleaseRequest.perform start requests, step.outcome ≠ .error .integrityError := by
  have hEmpty : CurrentReleases start := by
    refine ⟨?_, ?_, ?_, ?_⟩
    all_goals simp [hStart, UniqueWhere]
  have hFinal : CurrentReleases (final ReleaseRequest.perform start requests) :=
    final_of_invariant hEmpty fun request _ s hs => (hs.perform request).1
  refine ⟨hFinal.one.countP_le_one, hFinal.stable, fun step hStep => ?_⟩
  have hBefore := trace_of_invariant hEmpty (fun request _ s hs => (CurrentReleases.perform hs request).1) step hStep
  rw [eq_answer_of_mem_trace _ hStep]
  exact (hBefore.1.perform step.request).2

/-- One published software entry, without releases. -/
def sampleDatabase : Database := ⟨[⟨1, .published, .isPublic, none, none⟩], [], [], []⟩

/-- Two releases are published and made current one after the other. -/
def sampleRequests : List ReleaseRequest :=
  [.create 1 (py "1.0") .stable none none, .transitionStatus 1 .published ⟨0, Instant.instantCount_pos⟩, .setCurrentStable 1,
    .create 1 (py "1.1") .stable none none, .transitionStatus 2 .published ⟨0, Instant.instantCount_pos⟩, .setCurrentStable 2]

theorem current_stable_sample :
    (final ReleaseRequest.perform sampleDatabase sampleRequests).releases.map Release.isCurrent = [false, true] ∧
      (∀ softwareId, (final ReleaseRequest.perform sampleDatabase sampleRequests).releases.countP
        (fun release => release.isCurrent = true ∧ release.softwareId = softwareId) ≤ 1) ∧
      (∀ release ∈ (final ReleaseRequest.perform sampleDatabase sampleRequests).releases, release.isCurrent = true →
        release.releaseChannel = .stable ∧ release.status = .published) ∧
      ∀ step ∈ trace ReleaseRequest.perform sampleDatabase sampleRequests, step.outcome ≠ .error .integrityError :=
  ⟨by decide, @current_stable_in_every_run sampleDatabase rfl sampleRequests⟩

end SoftwareHub.Catalog
