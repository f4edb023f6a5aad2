import SoftwareHub.Reconciliation.Healthy

/-! Recalculating checksums: one run brings every row to the file it finds, and a
second run has nothing left to do. -/
namespace SoftwareHub.Reconciliation

open SoftwareHub.Python SoftwareHub.Tree SoftwareHub.Semantics SoftwareHub.Catalog SoftwareHub.Lifecycle Program
open SoftwareHub.Backup (Directory)
open SoftwareHub.Lifecycle.FileService (sha256File)
open SoftwareHub.Storage (StorageArea posixText)

/-- No call of a pass fails. -/
structure PassEnvironment.Quiet (pass : PassEnvironment) : Prop where
  inspect : ∀ fileId, pass.inspect fileId = .never
  hash : ∀ fileId, pass.hash fileId = none
  lstat : ∀ fileId, pass.lstat fileId = none

/-- No call fails, and nobody else writes to files or rows. -/
structure Undisturbed (env : ChecksumEnvironment) : Prop where
  first : env.first.Quiet
  second : env.second.Quiet
  mtime : env.second.mtime = env.first.mtime
  meanwhile : env.meanwhile = id
  loadFault : env.loadFault = none
  auditFault : env.auditFault = none
  commitFault : env.commitFault = none

/-- The content of the single file of a row. -/
def physical (contents : StorageArea → Directory) (path : PyStr) : Option Bytes :=
  match rowState contents path with
  | .single _ _ data => some data
  | _ => none

/-- A published row that the run must not touch. -/
def Protected (includePublished : Bool) (status : FileStatus) : Prop := status = .published ∧ includePublished = false

instance (includePublished : Bool) (status : FileStatus) : Decidable (Protected includePublished status) :=
  inferInstanceAs (Decidable (_ ∧ _))

/-- The change of a row that has one file, is not protected, and differs from the file. -/
def changeOf (contents : StorageArea → Directory) (includePublished : Bool) (item : FileMetadata) : Option ChecksumChange :=
  match physical contents item.relativePath with
  | some data =>
      if Measures item data ∨ Protected includePublished item.status then none
      else some ⟨item.fileId, item.relativePath, item.sha256, Sha256.hexdigest data, item.sizeBytes, data.length,
        item.status = .published⟩
  | none => none

def writeChange (change : ChecksumChange) (row : ReleaseFile) : ReleaseFile :=
  { row with sha256 := change.newSha256, fileSizeBytes := change.newSizeBytes }

section Passes

variable {env : ChecksumEnvironment} {tree : Directory} {contents : StorageArea → Directory}

/-- What a pass remembers of the single file of a path. -/
def stateAt (paths : StoragePaths) (mtime : List PyStr → Nat) (contents : StorageArea → Directory) (path : PyStr) :
    Option (StoredFile × PhysicalState) :=
  match rowState contents path with
  | .single area names data => some (⟨area, posixText path, paths.root area ++ names, data.length⟩,
      Sha256.hexdigest data, data.length, mtime (paths.root area ++ names))
  | _ => none

/-- A pass that nothing disturbs measures what is there. -/
theorem measure_eq {pass : PassEnvironment} (hPass : pass.Quiet) (h : Roots env.paths tree contents) {path : PyStr}
    (hText : ∀ c ∈ path, isScalar c = true) (fileId : Nat) :
    measure env pass fileId path tree = .ok (stateAt env.paths pass.mtime contents path) := by
  have hAnswer := @inspectStoredFiles_answer env.links env.paths tree contents h _ hText
  unfold measure stateAt
  rw [hPass.inspect, hPass.hash, hPass.lstat]
  cases hState : rowState contents path with
  | refused =>
      rw [hState] at hAnswer
      obtain ⟨message, hAnswer⟩ := hAnswer
      rw [hAnswer]
      rfl
  | missing =>
      rw [hState] at hAnswer
      change inspectStoredFiles _ _ _ _ _ = _ at hAnswer
      rw [hAnswer]
      rfl
  | duplicated =>
      rw [hState] at hAnswer
      obtain ⟨first, second, hAnswer⟩ := hAnswer
      rw [hAnswer]
      rfl
  | single area names data =>
      rw [hState] at hAnswer
      change inspectStoredFiles _ _ _ _ _ = _ at hAnswer
      have hHash := sha256File_eq h (rowState_eq_single_iff.mp hState).2.1
      simp only [hAnswer, bind, Except.bind, hHash]
      rfl

/-- What the first pass makes of the file of a row. -/
def examinedOf (includePublished : Bool) (item : FileMetadata) : Option (StoredFile × PhysicalState) → Examined
  | none => .failed
  | some (_, state) =>
      if state.1 = item.sha256 ∧ state.2.1 = item.sizeBytes then .unchanged
      else if Protected includePublished item.status then .skippedPublished
      else .changed ⟨item.fileId, item.relativePath, item.sha256, state.1, item.sizeBytes, state.2.1,
        item.status = .published⟩ state

/-- So the first pass compares the row with its file. -/
theorem examineItem_eq (hEnv : Undisturbed env) (h : Roots env.paths tree contents) (includePublished : Bool)
    {item : FileMetadata} (hText : ∀ c ∈ item.relativePath, isScalar c = true) :
    examineItem env includePublished tree item =
      .ok (examinedOf includePublished item (stateAt env.paths env.first.mtime contents item.relativePath)) := by
  unfold examineItem
  rw [except_bind_ok (measure_eq hEnv.first h hText item.fileId)]
  cases stateAt env.paths env.first.mtime contents item.relativePath with
  | none => rfl
  | some found =>
      obtain ⟨stored, state⟩ := found
      unfold examinedOf
      dsimp only
      by_cases hSame : state.1 = item.sha256 ∧ state.2.1 = item.sizeBytes
      · rw [if_pos hSame, if_pos hSame]
        rfl
      · rw [if_neg hSame, if_neg hSame]
        by_cases hProtected : Protected includePublished item.status
        · rw [if_pos hProtected]
          exact if_pos hProtected
        · rw [if_neg hProtected]
          exact if_neg hProtected

/-- The change of a row, with the state that the second pass compares. -/
def changeAt (env : ChecksumEnvironment) (contents : StorageArea → Directory) (includePublished : Bool)
    (item : FileMetadata) : Option (ChecksumChange × PhysicalState) :=
  (changeOf contents includePublished item).bind fun change =>
    (stateAt env.paths env.first.mtime contents item.relativePath).map fun found => (change, found.2)

/-- What it remembers is the change and the state of the file. -/
theorem change?_examinedOf (env : ChecksumEnvironment) (includePublished : Bool) (item : FileMetadata) :
    (examinedOf includePublished item (stateAt env.paths env.first.mtime contents item.relativePath)).change? =
      changeAt env contents includePublished item := by
  unfold changeAt stateAt changeOf physical
  cases rowState contents item.relativePath with
  | refused => rfl
  | missing => rfl
  | duplicated => rfl
  | single area names data =>
      dsimp only
      unfold examinedOf
      dsimp only
      by_cases hMeasures : Measures item data
      · rw [if_pos ⟨hMeasures.2, hMeasures.1⟩, if_pos (Or.inl hMeasures)]
        rfl
      · have hDiffers : ¬(Sha256.hexdigest data = item.sha256 ∧ data.length = item.sizeBytes) :=
          fun hSame => hMeasures ⟨hSame.2, hSame.1⟩
        rw [if_neg hDiffers]
        by_cases hProtected : Protected includePublished item.status
        · rw [if_pos hProtected, if_pos (Or.inr hProtected)]
          rfl
        · rw [if_neg hProtected, if_neg (not_or.mpr ⟨hMeasures, hProtected⟩)]
          rfl

/-- A remembered change is about a single file. -/
theorem changeAt_eq_some {includePublished : Bool} {item : FileMetadata} {change : ChecksumChange} {state : PhysicalState}
    (hChange : changeAt env contents includePublished item = some (change, state)) :
    change.fileId = item.fileId ∧ (state.1, state.2.1) = (change.newSha256, change.newSizeBytes) ∧
      ∃ stored, stateAt env.paths env.first.mtime contents item.relativePath = some (stored, state) := by
  unfold changeAt changeOf physical at hChange
  unfold stateAt at hChange ⊢
  cases hState : rowState contents item.relativePath with
  | refused =>
      rw [hState] at hChange
      cases hChange
  | missing =>
      rw [hState] at hChange
      cases hChange
  | duplicated =>
      rw [hState] at hChange
      cases hChange
  | single area names data =>
      rw [hState] at hChange
      dsimp only at hChange ⊢
      split_ifs at hChange
      · cases hChange
      · cases hChange
        exact ⟨rfl, rfl, _, rfl⟩

/-- Every remembered change is about a row that still finds what it found. -/
def Remembered (env : ChecksumEnvironment) (contents : StorageArea → Directory) (files : List ReleaseFile)
    (changes : List (ChecksumChange × PhysicalState)) : Prop :=
  ∀ change ∈ changes, (change.2.1, change.2.2.1) = (change.1.newSha256, change.1.newSizeBytes) ∧
    ∃ row ∈ files, row.id = change.1.fileId ∧ (∀ c ∈ row.relativeStoragePath, isScalar c = true) ∧
      ∃ stored, stateAt env.paths env.first.mtime contents row.relativeStoragePath = some (stored, change.2)

def recalculated (changes : List ChecksumChange) (files : List ReleaseFile) : List ReleaseFile :=
  files.map (rewriteRow ReleaseFile.id ChecksumChange.fileId writeChange changes)

/-- A change keeps the id of its row. -/
theorem id_rewriteRow (changes : List ChecksumChange) (row : ReleaseFile) :
    (rewriteRow ReleaseFile.id ChecksumChange.fileId writeChange changes row).id = row.id := by
  apply @column_rewriteRow _ _ _ _ _ _ writeChange _ ReleaseFile.id
  intro change row
  rfl

theorem path_rewriteRow (changes : List ChecksumChange) (row : ReleaseFile) :
    (rewriteRow ReleaseFile.id ChecksumChange.fileId writeChange changes row).relativeStoragePath =
      row.relativeStoragePath := by
  apply @column_rewriteRow _ _ _ _ _ _ writeChange _ ReleaseFile.relativeStoragePath
  intro change row
  rfl

theorem map_id_recalculated (changes : List ChecksumChange) (files : List ReleaseFile) :
    (recalculated changes files).map (·.id) = files.map (·.id) := by
  unfold recalculated
  rw [List.map_map]
  apply List.map_congr_left
  intro row _
  exact id_rewriteRow changes row

/-- The second pass finds the state that was remembered, and writes. -/
theorem applyChange_eq (hEnv : Undisturbed env) (h : Roots env.paths tree contents) {database : Database}
    (hIds : (database.files.map (·.id)).Nodup) {change : ChecksumChange} {state : PhysicalState}
    (hChange : Remembered env contents database.files [(change, state)]) :
    applyChange env tree change state database =
      (.ok true, { database with files := recalculated [change] database.files }) := by
  obtain ⟨hState, row, hRow, hId, hText, stored, hStored⟩ := hChange (change, state) (List.mem_singleton_self _)
  have hFind : database.file? change.fileId = some row := by
    unfold Database.file?
    exact (find?_eq_some_iff_of_nodup hIds).mpr ⟨hRow, hId⟩
  have hMeasure : measure env env.second change.fileId row.relativeStoragePath tree = .ok (some (stored, state)) := by
    rw [measure_eq hEnv.second h hText, hEnv.mtime, hStored]
  have hLoad : guarded env.loadFault (read (Database.file? change.fileId)) database = (.ok (some row), database) := by
    rw [hEnv.loadFault, guarded_none, read_apply, hFind]
  unfold applyChange
  rw [bind_ok hLoad]
  dsimp only
  rw [bind_ok (show lift (measure env env.second change.fileId row.relativeStoragePath tree) database =
    (.ok (some (stored, state)), database) by rw [hMeasure]; rfl)]
  dsimp only
  rw [if_neg (not_not.mpr rfl), hEnv.auditFault]
  -- The saved row is the only one with its id.
  have hSaved : database.saveFile { row with sha256 := state.1, fileSizeBytes := state.2.1 } =
      { database with files := recalculated [change] database.files } := by
    unfold Database.saveFile recalculated updateRows
    congr 1
    apply List.map_congr_left
    intro other hOther
    change _ = if other.id = change.fileId then writeChange change other else other
    rw [← hId]
    by_cases hSame : other.id = row.id
    · obtain rfl := List.inj_on_of_nodup_map hIds hOther hRow hSame
      obtain ⟨hSha, hSize⟩ := Prod.mk.inj hState
      rw [if_pos rfl, if_pos rfl, writeChange, ← hSha, ← hSize]
    · rw [if_neg hSame, if_neg hSame]
  change (Except.ok true, database.saveFile { row with sha256 := state.1, fileSizeBytes := state.2.1 }) = _
  rw [hSaved]

theorem applyChanges_eq (hEnv : Undisturbed env) (h : Roots env.paths tree contents)
    {changes : List (ChecksumChange × PhysicalState)} {database : Database}
    (hIds : (database.files.map (·.id)).Nodup) (hChanges : Remembered env contents database.files changes) :
    applyChanges env tree changes database = (.ok (changes.map fun _ => true),
      { database with files := recalculated (changes.map (·.1)) database.files }) := by
  induction changes generalizing database with
  | nil =>
      change (Except.ok [], database) = (Except.ok [], { database with files := database.files.map id })
      rw [List.map_id]
  | cons first changes ih =>
      obtain ⟨change, state⟩ := first
      have hFirst := applyChange_eq hEnv h hIds fun other hOther =>
        hChanges other (List.mem_singleton.mp hOther ▸ List.mem_cons_self)
      have hIdsAfter : ((recalculated [change] database.files).map (·.id)).Nodup := by
        rw [map_id_recalculated]
        exact hIds
      have hRest : Remembered env contents (recalculated [change] database.files) changes := by
        intro other hOther
        obtain ⟨hState, row, hRow, hId, hText, hStored⟩ := hChanges other (List.mem_cons_of_mem _ hOther)
        refine ⟨hState, _, List.mem_map.mpr ⟨row, hRow, rfl⟩, ?_, ?_, ?_⟩
        · rw [id_rewriteRow, hId]
        · rw [path_rewriteRow]
          exact hText
        · rw [path_rewriteRow]
          exact hStored
      have hApplied := @ih { database with files := recalculated [change] database.files } hIdsAfter hRest
      unfold applyChanges
      rw [bind_ok hFirst, bind_ok hApplied]
      unfold recalculated
      rw [List.map_map]
      rfl

/-- The changes that a run reports. -/
def reportedChanges (contents : StorageArea → Directory) (includePublished : Bool) (database : Database) :
    List ChecksumChange :=
  (metadataSnapshot database).filterMap (changeOf contents includePublished)

/-- The changes themselves do not depend on the states. -/
theorem map_changeAt (env : ChecksumEnvironment) (contents : StorageArea → Directory) (includePublished : Bool)
    (items : List FileMetadata) : (items.filterMap (changeAt env contents includePublished)).map (·.1) =
      items.filterMap (changeOf contents includePublished) := by
  rw [List.map_filterMap]
  congr 1
  funext item
  unfold changeAt changeOf physical stateAt
  cases rowState contents item.relativePath with
  | refused => rfl
  | missing => rfl
  | duplicated => rfl
  | single area names data =>
      dsimp only
      split_ifs <;> rfl

theorem remembered_changeAt (contents : StorageArea → Directory) (includePublished : Bool) {database : Database}
    (hText : StorableText database) :
    Remembered env contents database.files ((metadataSnapshot database).filterMap (changeAt env contents includePublished)) := by
  rintro ⟨change, state⟩ hChange
  obtain ⟨item, hItem, hSome⟩ := List.mem_filterMap.mp hChange
  obtain ⟨row, hRow, rfl⟩ := mem_metadataSnapshot.mp hItem
  obtain ⟨hId, hState, hStored⟩ := changeAt_eq_some hSome
  exact ⟨hState, row, hRow, hId.symm, hText row hRow, hStored⟩

/-- What a run reports and leaves behind. -/
theorem recalculateChecksums_eq (hEnv : Undisturbed env) {host : Host} (h : Roots env.paths host.tree contents)
    (hText : StorableText host.database) (hIds : (host.database.files.map (·.id)).Nodup) (dryRun includePublished : Bool) :
    ∃ report after, recalculateChecksums env dryRun includePublished host = (.ok report, after) ∧
      report.changes = reportedChanges contents includePublished host.database ∧
      report.updatedCount = (if dryRun = true then 0 else report.changes.length) ∧ after.tree = host.tree ∧
      after.database = (if dryRun = true then host.database else { host.database with
        files := recalculated (reportedChanges contents includePublished host.database) host.database.files }) ∧
      (dryRun = true ∨ reportedChanges contents includePublished host.database = [] → after = host) := by
  have hExamined : (metadataSnapshot host.database).mapM (examineItem env includePublished host.tree) =
      .ok ((metadataSnapshot host.database).map fun item =>
        examinedOf includePublished item (stateAt env.paths env.first.mtime contents item.relativePath)) := by
    apply except_mapM_ok
    intro item hItem
    obtain ⟨row, hRow, rfl⟩ := mem_metadataSnapshot.mp hItem
    exact examineItem_eq hEnv h includePublished (hText row hRow)
  have hChanges : ((metadataSnapshot host.database).map fun item => examinedOf includePublished item
      (stateAt env.paths env.first.mtime contents item.relativePath)).filterMap Examined.change? =
        (metadataSnapshot host.database).filterMap (changeAt env contents includePublished) := by
    rw [List.filterMap_map]
    congr 1
    funext item
    exact change?_examinedOf env includePublished item
  have hReported := map_changeAt env contents includePublished (metadataSnapshot host.database)
  generalize hAll : (metadataSnapshot host.database).filterMap (changeAt env contents includePublished) = changes at *
  change changes.map (·.1) = reportedChanges contents includePublished host.database at hReported
  unfold recalculateChecksums
  rw [read_bind, read_bind, bind_ok (show lift _ host = (.ok _, host) by rw [hExamined]; rfl)]
  dsimp only
  rw [hChanges]
  by_cases hRun : dryRun = false ∧ changes ≠ []
  · obtain ⟨rfl, hNil⟩ := hRun
    have hApplied := applyChanges_eq hEnv h hIds (hAll ▸ remembered_changeAt contents includePublished hText)
    have hTransaction : transaction env.commitFault (applyChanges env host.tree changes) host =
        (.ok (changes.map fun _ => true), { host with
          database := { host.database with files := recalculated (changes.map (·.1)) host.database.files }
          commits := host.commits + 1 }) := by
      unfold transaction
      rw [bind_ok hApplied, hEnv.commitFault]
      rfl
    rw [if_pos ⟨rfl, hNil⟩, write_bind, hEnv.meanwhile]
    dsimp only [id]
    rw [bind_ok hTransaction, hReported]
    refine ⟨_, _, rfl, rfl, ?_, rfl, rfl, ?_⟩
    · dsimp only
      rw [← hReported, List.countP_eq_length.mpr (by simp)]
      simp
    · rintro (hDry | hNone)
      · cases hDry
      · rw [← hReported, List.map_eq_nil_iff] at hNone
        exact (hNil hNone).elim
  · rw [if_neg hRun]
    refine ⟨_, _, rfl, hReported, ?_, rfl, ?_, fun _ => rfl⟩
    · cases dryRun with
      | true => rfl
      | false =>
          have hNil : changes = [] := by
            by_contra hNe
            exact hRun ⟨rfl, hNe⟩
          rw [hNil]
          rfl
    · cases dryRun with
      | true => rfl
      | false =>
          have hNil : changes = [] := by
            by_contra hNe
            exact hRun ⟨rfl, hNe⟩
          rw [← hReported, hNil]
          change host.database = { host.database with files := host.database.files.map id }
          rw [List.map_id]

end Passes

section Rows

variable {contents : StorageArea → Directory} {includePublished : Bool} {database : Database}

/-- The columns of a row that the snapshot holds. -/
def metadataOf (row : ReleaseFile) : FileMetadata :=
  ⟨row.id, row.relativeStoragePath, row.sha256, row.fileSizeBytes, row.status⟩

theorem fileId_of_changeOf {item : FileMetadata} {change : ChecksumChange}
    (h : changeOf contents includePublished item = some change) : change.fileId = item.fileId := by
  unfold changeOf at h
  split at h
  · split_ifs at h
    cases h
    rfl
  · cases h

/-- A row with a change finds a single file that differs, and is not protected. -/
theorem changeOf_eq_some {item : FileMetadata} {change : ChecksumChange}
    (h : changeOf contents includePublished item = some change) : ∃ area names data,
      rowState contents item.relativePath = .single area names data ∧ ¬Measures item data ∧
        ¬Protected includePublished item.status ∧ change = ⟨item.fileId, item.relativePath, item.sha256,
          Sha256.hexdigest data, item.sizeBytes, data.length, item.status = .published⟩ := by
  unfold changeOf physical at h
  cases hState : rowState contents item.relativePath with
  | refused =>
      rw [hState] at h
      cases h
  | missing =>
      rw [hState] at h
      cases h
  | duplicated =>
      rw [hState] at h
      cases h
  | single area names data =>
      rw [hState] at h
      dsimp only at h
      split_ifs at h with hSkip
      cases h
      exact ⟨area, names, data, rfl, fun hMeasures => hSkip (Or.inl hMeasures),
        fun hProtected => hSkip (Or.inr hProtected), rfl⟩

/-- A row without a change is protected, or already as the file it finds. -/
theorem changeOf_eq_none {item : FileMetadata} (h : changeOf contents includePublished item = none)
    {area : StorageArea} {names : List PyStr} {data : Bytes}
    (hState : rowState contents item.relativePath = .single area names data) :
    Measures item data ∨ Protected includePublished item.status := by
  unfold changeOf physical at h
  rw [hState] at h
  dsimp only at h
  split_ifs at h with hSkip
  exact hSkip

/-- The reported changes are those of the rows. -/
theorem mem_reportedChanges {change : ChecksumChange} : change ∈ reportedChanges contents includePublished database ↔
    ∃ row ∈ database.files, changeOf contents includePublished (metadataOf row) = some change := by
  unfold reportedChanges
  rw [List.mem_filterMap]
  constructor
  · rintro ⟨item, hItem, hChange⟩
    obtain ⟨row, hRow, rfl⟩ := mem_metadataSnapshot.mp hItem
    exact ⟨row, hRow, hChange⟩
  · rintro ⟨row, hRow, hChange⟩
    exact ⟨metadataOf row, mem_metadataSnapshot.mpr ⟨row, hRow, rfl⟩, hChange⟩

theorem nodup_reportedChanges (hIds : (database.files.map (·.id)).Nodup) :
    ((reportedChanges contents includePublished database).map (·.fileId)).Nodup := by
  have hItems : (metadataSnapshot database).Pairwise fun first second => first.fileId ≠ second.fileId := by
    unfold metadataSnapshot
    rw [List.pairwise_map]
    have hPerm := (List.perm_insertionSort (fun first second : ReleaseFile => first.id ≤ second.id) database.files).map (·.id)
    exact List.pairwise_map.mp (hPerm.nodup_iff.mpr hIds)
  unfold reportedChanges List.Nodup
  rw [List.pairwise_map, List.pairwise_filterMap]
  apply hItems.imp
  intro first second hNe change hChange other hOther hSame
  rw [fileId_of_changeOf hChange, fileId_of_changeOf hOther] at hSame
  exact hNe hSame

/-- The change of a row, if the run reports one. -/
theorem changeOf_of_mem (hIds : (database.files.map (·.id)).Nodup) {row : ReleaseFile} (hRow : row ∈ database.files)
    {change : ChecksumChange} (hChange : change ∈ reportedChanges contents includePublished database)
    (hId : row.id = change.fileId) : changeOf contents includePublished (metadataOf row) = some change := by
  obtain ⟨other, hOther, hSome⟩ := mem_reportedChanges.mp hChange
  have hSame : other.id = row.id := ((fileId_of_changeOf hSome).symm.trans hId.symm)
  obtain rfl := List.inj_on_of_nodup_map hIds hOther hRow hSame
  exact hSome

/-- What a run makes of one row. -/
def recalculatedRow (contents : StorageArea → Directory) (includePublished : Bool) (row : ReleaseFile) : ReleaseFile :=
  match changeOf contents includePublished (metadataOf row) with
  | some change => writeChange change row
  | none => row

theorem recalculated_eq (hIds : (database.files.map (·.id)).Nodup) :
    recalculated (reportedChanges contents includePublished database) database.files =
      database.files.map (recalculatedRow contents includePublished) := by
  apply List.map_congr_left
  intro row hRow
  unfold recalculatedRow
  cases hChange : changeOf contents includePublished (metadataOf row) with
  | some change =>
      have hKeep : ∀ change row, (writeChange change row).id = row.id := fun _ _ => rfl
      exact rewriteRow_of_mem hKeep (nodup_reportedChanges hIds) (mem_reportedChanges.mpr ⟨row, hRow, hChange⟩)
        (fileId_of_changeOf hChange).symm
  | none =>
      apply rewriteRow_of_not_mem
      intro change hMem hId
      rw [changeOf_of_mem hIds hRow hMem hId] at hChange
      cases hChange

/-- What the run may do to a row, and what it reports about it. -/
structure RowRecalculated (contents : StorageArea → Directory) (includePublished : Bool) (changes : List ChecksumChange)
    (before after : ReleaseFile) : Prop where
  columns : after = { before with sha256 := after.sha256, fileSizeBytes := after.fileSizeBytes }
  kept : Protected includePublished before.status → after = before
  measured : ∀ area names data, rowState contents before.relativeStoragePath = .single area names data →
    ¬Protected includePublished before.status → after.sha256 = Sha256.hexdigest data ∧ after.fileSizeBytes = data.length
  reported : ∀ change, change ∈ changes ∧ change.fileId = before.id ↔ after ≠ before ∧
    change = ⟨before.id, before.relativeStoragePath, before.sha256, after.sha256, before.fileSizeBytes,
      after.fileSizeBytes, before.status = .published⟩

/-- Each row is measured, or left alone. -/
theorem recalculatedRow_spec (hIds : (database.files.map (·.id)).Nodup) {row : ReleaseFile} (hRow : row ∈ database.files) :
    RowRecalculated contents includePublished (reportedChanges contents includePublished database) row
      (recalculatedRow contents includePublished row) := by
  have hReported (change : ChecksumChange) : change ∈ reportedChanges contents includePublished database ∧
      change.fileId = row.id ↔ changeOf contents includePublished (metadataOf row) = some change := by
    constructor
    · rintro ⟨hMem, hId⟩
      exact changeOf_of_mem hIds hRow hMem hId.symm
    · intro hSome
      exact ⟨mem_reportedChanges.mpr ⟨row, hRow, hSome⟩, fileId_of_changeOf hSome⟩
  unfold recalculatedRow
  cases hChange : changeOf contents includePublished (metadataOf row) with
  | none =>
      refine ⟨rfl, fun _ => rfl, ?_, ?_⟩
      · intro area names data hState hNot
        rcases changeOf_eq_none hChange hState with hMeasures | hProtected
        · exact ⟨hMeasures.2.symm, hMeasures.1.symm⟩
        · exact (hNot hProtected).elim
      · intro change
        rw [hReported, hChange]
        constructor
        · intro hNone
          cases hNone
        · rintro ⟨hNe, -⟩
          exact (hNe rfl).elim
  | some change =>
      obtain ⟨area, names, data, hState, hDiffers, hNot, rfl⟩ := changeOf_eq_some hChange
      refine ⟨rfl, fun hProtected => (hNot hProtected).elim, ?_, ?_⟩
      · intro other found content hFound _
        obtain ⟨-, -, rfl⟩ := RowState.single.inj (hState.symm.trans hFound)
        exact ⟨rfl, rfl⟩
      · intro other
        rw [hReported, hChange]
        constructor
        · intro hOther
          obtain rfl := Option.some.inj hOther
          refine ⟨?_, rfl⟩
          intro hSame
          exact hDiffers ⟨congrArg ReleaseFile.fileSizeBytes hSame, congrArg ReleaseFile.sha256 hSame⟩
        · rintro ⟨-, rfl⟩
          rfl

/-- Once recalculated, nothing is left to change. -/
theorem reportedChanges_recalculated (hIds : (database.files.map (·.id)).Nodup) :
    reportedChanges contents includePublished
      { database with files := database.files.map (recalculatedRow contents includePublished) } = [] := by
  apply List.eq_nil_iff_forall_not_mem.mpr
  intro change hChange
  obtain ⟨after, hAfter, hSome⟩ := mem_reportedChanges.mp hChange
  obtain ⟨row, hRow, rfl⟩ := List.mem_map.mp hAfter
  have hSpec := @recalculatedRow_spec contents includePublished database hIds row hRow
  have hColumns := hSpec.columns
  generalize recalculatedRow contents includePublished row = after at *
  obtain ⟨area, names, data, hState, hDiffers, hNot, -⟩ := changeOf_eq_some hSome
  rw [hColumns] at hState hNot
  obtain ⟨hDigest, hSize⟩ := hSpec.measured area names data hState hNot
  exact hDiffers ⟨hSize.symm, hDigest.symm⟩

/-- The walk reports orphans and unsafe entries. -/
theorem kind_of_mem_orphanIssues {env : ScanEnvironment} {known : List PyStr} {tree : Directory} {issue : Issue}
    (h : issue ∈ orphanIssues env known tree) : issue.kind = .orphanFile ∨ issue.kind = .unsafeStorageEntry := by
  have hArea {area : StorageArea} (hIssue : issue ∈ areaIssues env known tree area) :
      issue.kind = .orphanFile ∨ issue.kind = .unsafeStorageEntry := by
    unfold areaIssues at hIssue
    split at hIssue
    · obtain ⟨entry, -, hEntry⟩ := List.mem_filterMap.mp hIssue
      unfold entryIssue at hEntry
      dsimp only at hEntry
      split at hEntry
      · cases hEntry
        exact Or.inr rfl
      · split at hEntry
        · split_ifs at hEntry
          cases hEntry
          exact Or.inl rfl
        · cases hEntry
          exact Or.inr rfl
    · rw [List.mem_singleton.mp hIssue]
      exact Or.inr rfl
  unfold orphanIssues at h
  rw [mem_sortIssues, List.mem_append] at h
  rcases h with h | h
  · exact hArea h
  · exact hArea h

/-- A size or digest mismatch is about a row that differs from its single file. -/
theorem differs_of_mismatch {item : FileMetadata} {state : RowState} {issue : Issue}
    (hIssue : issue ∈ (reportOf item state).issues)
    (hKind : issue.kind = .sizeMismatch ∨ issue.kind = .checksumMismatch) : issue.fileId = some item.fileId ∧
      ∃ area names data, state = .single area names data ∧ ¬Measures item data := by
  have hOther {kind : IssueKind} {area : Option StorageArea} {expected actual : Option Detail}
      (h : issue = rowIssue item kind area expected actual) (hNe : kind ≠ .sizeMismatch ∧ kind ≠ .checksumMismatch) :
      False := by
    rw [h] at hKind
    rcases hKind with hKind | hKind
    · exact hNe.1 hKind
    · exact hNe.2 hKind
  cases state with
  | refused => exact (hOther (List.mem_singleton.mp hIssue) (by decide)).elim
  | missing => exact (hOther (List.mem_singleton.mp hIssue) (by decide)).elim
  | duplicated => exact (hOther (List.mem_singleton.mp hIssue) (by decide)).elim
  | single area names data =>
      unfold reportOf singleReport at hIssue
      rcases List.mem_append.mp hIssue with hIssue | hIssue
      · rcases List.mem_append.mp hIssue with hIssue | hIssue
        · split_ifs at hIssue
          · cases hIssue
          · exact (hOther (List.mem_singleton.mp hIssue) (by decide)).elim
        · split_ifs at hIssue with hSize
          · cases hIssue
          · rw [List.mem_singleton.mp hIssue]
            exact ⟨rfl, area, names, data, rfl, fun hMeasures => hSize hMeasures.1⟩
      · split_ifs at hIssue with hMeasures
        · cases hIssue
        · rw [List.mem_singleton.mp hIssue]
          exact ⟨rfl, area, names, data, rfl, hMeasures⟩

/-- Where nothing is left to change, a mismatch is about a protected row. -/
theorem protected_of_mismatch {scan : ScanEnvironment} (hScan : Quiet scan) {tree : Directory}
    (h : Roots scan.paths tree contents) (hText : StorableText database) (hIds : (database.files.map (·.id)).Nodup)
    (hNone : reportedChanges contents includePublished database = []) :
    ∃ report, verifyStorage scan true database tree = .ok report ∧ ∀ issue ∈ report.issues,
      issue.kind = .sizeMismatch ∨ issue.kind = .checksumMismatch → ∀ row ∈ database.files,
        issue.fileId = some row.id → Protected includePublished row.status := by
  refine ⟨_, verifyStorage_eq hScan h hText, ?_⟩
  intro issue hIssue hKind row hRow hId
  dsimp only at hIssue
  rw [mem_sortIssues, List.mem_append] at hIssue
  rcases hIssue with hIssue | hIssue
  · obtain ⟨item, hItem, hIssue⟩ := List.mem_flatMap.mp hIssue
    obtain ⟨other, hOther, rfl⟩ := mem_metadataSnapshot.mp hItem
    obtain ⟨hFile, area, names, data, hState, hDiffers⟩ := differs_of_mismatch hIssue hKind
    have hSame : other.id = row.id := Option.some.inj (hFile.symm.trans hId)
    obtain rfl := List.inj_on_of_nodup_map hIds hOther hRow hSame
    have hChange : changeOf contents includePublished (metadataOf other) = none := by
      by_contra hNe
      obtain ⟨change, hSome⟩ := Option.ne_none_iff_exists'.mp hNe
      have hMem : change ∈ reportedChanges contents includePublished database :=
        mem_reportedChanges.mpr ⟨other, hOther, hSome⟩
      rw [hNone] at hMem
      cases hMem
    rcases changeOf_eq_none hChange hState with hMeasures | hProtected
    · exact (hDiffers hMeasures).elim
    · exact hProtected
  · rcases kind_of_mem_orphanIssues hIssue with hOrphan | hUnsafe
    · rw [hOrphan] at hKind
      rcases hKind with hKind | hKind <;> cases hKind
    · rw [hUnsafe] at hKind
      rcases hKind with hKind | hKind <;> cases hKind

/-- The run keeps the ids of the rows. -/
theorem id_recalculatedRow (row : ReleaseFile) : (recalculatedRow contents includePublished row).id = row.id := by
  unfold recalculatedRow
  cases changeOf contents includePublished (metadataOf row) <;> rfl

theorem path_recalculatedRow (row : ReleaseFile) :
    (recalculatedRow contents includePublished row).relativeStoragePath = row.relativeStoragePath := by
  unfold recalculatedRow
  cases changeOf contents includePublished (metadataOf row) <;> rfl

/-- The keys of the table stay what they were. -/
theorem map_id_recalculatedRow (files : List ReleaseFile) :
    (files.map (recalculatedRow contents includePublished)).map (·.id) = files.map (·.id) := by
  rw [List.map_map]
  apply List.map_congr_left
  intro row _
  exact id_recalculatedRow row

theorem storableText_recalculatedRow (hText : StorableText database) :
    StorableText { database with files := database.files.map (recalculatedRow contents includePublished) } := by
  intro after hAfter
  obtain ⟨row, hRow, rfl⟩ := List.mem_map.mp hAfter
  rw [path_recalculatedRow]
  exact hText row hRow

/-- Rows that are not written keep their stamps. -/
theorem stamped_self (now : Nat → Instant) (database : Database) (updatedAt : Nat → Instant) :
    stamped now database database updatedAt = updatedAt := by
  funext fileId
  exact if_pos rfl

/-- The stamped rows are those with a reported change. -/
theorem stamped_recalculated (hIds : (database.files.map (·.id)).Nodup) (now updatedAt : Nat → Instant) (fileId : Nat) :
    stamped now database
      { database with files := database.files.map (recalculatedRow contents includePublished) } updatedAt fileId =
        if ∃ change ∈ reportedChanges contents includePublished database, change.fileId = fileId then now fileId
        else updatedAt fileId := by
  have hFind : ({ database with
      files := database.files.map (recalculatedRow contents includePublished) } : Database).file? fileId =
        (database.file? fileId).map (recalculatedRow contents includePublished) := by
    unfold Database.file?
    rw [List.find?_map]
    congr 2
    funext row
    dsimp only [Function.comp]
    rw [id_recalculatedRow]
  unfold stamped
  rw [hFind]
  cases hRow : database.file? fileId with
  | none =>
      have hNot : ¬∃ change ∈ reportedChanges contents includePublished database, change.fileId = fileId := by
        rintro ⟨change, hChange, hId⟩
        obtain ⟨row, hMem, hSome⟩ := mem_reportedChanges.mp hChange
        have hFound : database.file? fileId = some row :=
          (find?_eq_some_iff_of_nodup hIds).mpr ⟨hMem, (fileId_of_changeOf hSome).symm.trans hId⟩
        rw [hRow] at hFound
        cases hFound
      rw [if_neg hNot, Option.map_none, if_pos rfl]
  | some row =>
      obtain ⟨hMem, hId⟩ := (find?_eq_some_iff_of_nodup hIds).mp hRow
      have hSpec := @recalculatedRow_spec contents includePublished database hIds row hMem
      rw [Option.map_some]
      by_cases hSame : recalculatedRow contents includePublished row = row
      · rw [if_pos (congrArg some hSame), if_neg]
        rintro ⟨change, hChange, hFile⟩
        exact ((hSpec.reported change).mp ⟨hChange, hFile.trans hId.symm⟩).1 hSame
      · rw [if_neg fun hEq => hSame (Option.some.inj hEq), if_pos]
        obtain ⟨hChange, hFile⟩ := (hSpec.reported _).mpr ⟨hSame, rfl⟩
        exact ⟨_, hChange, hFile.trans hId⟩

end Rows

/-- One run without disturbance measures every unprotected row with one file
and changes nothing else but the stamps; a dry run foretells it, and a second
run finds nothing to do. -/
theorem recalculation_converges (env again : ChecksumEnvironment) (now later : Nat → Instant) (before : StampedHost)
    (contents : StorageArea → Directory) (includePublished : Bool) (hEnv : Undisturbed env) (hAgain : Undisturbed again)
    (hPaths : again.paths = env.paths) (h : Roots env.paths before.host.tree contents)
    (hText : StorableText before.host.database) (hIds : (before.host.database.files.map (·.id)).Nodup) :
    ∃ report after, recalculateStamped env now false includePublished before = (.ok report, after) ∧
      report.updatedCount = report.changes.length ∧ after.host.tree = before.host.tree ∧
      after.host.database = { before.host.database with files := after.host.database.files } ∧
      List.Forall₂ (RowRecalculated contents includePublished report.changes) before.host.database.files
        after.host.database.files ∧
      (∀ fileId, after.updatedAt fileId =
        if ∃ change ∈ report.changes, change.fileId = fileId then now fileId else before.updatedAt fileId) ∧
      (∃ second, recalculateStamped again later false includePublished after = (.ok second, after) ∧
        second.changes = [] ∧ second.updatedCount = 0) ∧
      (∃ dry, recalculateStamped env now true includePublished before = (.ok dry, before) ∧
        dry.changes = report.changes) ∧
      ∀ scan, Quiet scan → scan.paths = env.paths →
        ∃ verification, verifyStorage scan true after.host.database after.host.tree = .ok verification ∧
          ∀ issue ∈ verification.issues, issue.kind = .sizeMismatch ∨ issue.kind = .checksumMismatch →
            ∀ row ∈ after.host.database.files, issue.fileId = some row.id → Protected includePublished row.status := by
  obtain ⟨report, after, hRun, hChanges, hCount, hTree, hDatabase, -⟩ :=
    recalculateChecksums_eq hEnv h hText hIds false includePublished
  rw [if_neg Bool.false_ne_true, recalculated_eq hIds] at hDatabase
  have hIdsAfter : (after.database.files.map (·.id)).Nodup := by
    rw [hDatabase]
    dsimp only
    rw [map_id_recalculatedRow]
    exact hIds
  have hTextAfter : StorableText after.database := by
    rw [hDatabase]
    exact storableText_recalculatedRow hText
  have hNone : reportedChanges contents includePublished after.database = [] := by
    rw [hDatabase]
    exact reportedChanges_recalculated hIds
  have hRoots : Roots env.paths after.tree contents := by
    rw [hTree]
    exact h
  refine ⟨report, _, by unfold recalculateStamped; rw [hRun], hCount, hTree, ?_, ?_, ?_, ?_, ?_, ?_⟩
  · rw [hDatabase]
  · rw [hChanges, hDatabase]
    dsimp only
    rw [List.forall₂_map_right_iff, List.forall₂_same]
    intro row hRow
    exact recalculatedRow_spec hIds hRow
  · intro fileId
    dsimp only
    rw [hDatabase, hChanges]
    exact stamped_recalculated hIds now before.updatedAt fileId
  · obtain ⟨second, final, hSecond, hSecondChanges, hSecondCount, -, -, hFinal⟩ :=
      recalculateChecksums_eq hAgain (hPaths ▸ hRoots) hTextAfter hIdsAfter false includePublished
    rw [hNone] at hSecondChanges
    obtain rfl := hFinal (Or.inr hNone)
    refine ⟨second, ?_, hSecondChanges, ?_⟩
    · unfold recalculateStamped
      rw [hSecond]
      dsimp only
      rw [stamped_self]
    · rw [hSecondCount, hSecondChanges]
      rfl
  · obtain ⟨dry, final, hDry, hDryChanges, -, -, -, hFinal⟩ :=
      recalculateChecksums_eq hEnv h hText hIds true includePublished
    obtain rfl := hFinal (Or.inl rfl)
    refine ⟨dry, ?_, hDryChanges.trans hChanges.symm⟩
    unfold recalculateStamped
    rw [hDry]
    dsimp only
    rw [stamped_self]
  · intro scan hScan hScanPaths
    exact protected_of_mismatch hScan (hScanPaths ▸ hRoots) hTextAfter hIdsAfter hNone

/-- Its row records a size of three bytes. -/
def staleFile : ReleaseFile := { sampleFile with fileSizeBytes := 3 }

/-- No call fails, and no time changes. -/
def samplePass : PassEnvironment where
  inspect _ := .never
  hash _ := none
  lstat _ := none
  mtime _ := 0

/-- Two such passes, while nobody else writes. -/
def sampleRecalculation : ChecksumEnvironment where
  paths := sampleEnvironment.paths
  links := id
  first := samplePass
  second := samplePass
  meanwhile := id
  loadFault := none
  auditFault := none
  commitFault := none

/-- The file of two bytes with that row. -/
def staleHost : StampedHost where
  host := ⟨⟨[], [], [staleFile], []⟩, sampleTree storedDirectory .nil, 0⟩
  updatedAt _ := ⟨0, Instant.instantCount_pos⟩

theorem sampleClock_lt : 5 < instantCount := by decide

def sampleClock (_ : Nat) : Instant := ⟨5, sampleClock_lt⟩

theorem sampleRecalculation_undisturbed : Undisturbed sampleRecalculation where
  first := ⟨fun _ => rfl, fun _ => rfl, fun _ => rfl⟩
  second := ⟨fun _ => rfl, fun _ => rfl, fun _ => rfl⟩
  mtime := rfl
  meanwhile := rfl
  loadFault := rfl
  auditFault := rfl
  commitFault := rfl

theorem recalculation_converges_sample :
    ∃ report after, recalculateStamped sampleRecalculation sampleClock false false staleHost = (.ok report, after) ∧
      List.Forall₂ (RowRecalculated (sampleContents storedDirectory .nil) false report.changes) [staleFile]
        after.host.database.files := by
  obtain ⟨report, after, hRun, -, -, -, hRows, -⟩ := recalculation_converges sampleRecalculation sampleRecalculation
    sampleClock sampleClock staleHost (sampleContents storedDirectory .nil) false sampleRecalculation_undisturbed
    sampleRecalculation_undisturbed rfl (sampleRoots (by decide)) (by unfold StorableText; decide)
    (by decide)
  exact ⟨report, after, hRun, hRows⟩

/-- The run sets another column of the row, its `updated_at`. -/
theorem recalculation_stamps : Undisturbed sampleRecalculation ∧
    Roots sampleRecalculation.paths staleHost.host.tree (sampleContents storedDirectory .nil) ∧
    (recalculateStamped sampleRecalculation sampleClock false false staleHost).1.isOk = true ∧
    (recalculateStamped sampleRecalculation sampleClock false false staleHost).2.updatedAt staleFile.id ≠
      staleHost.updatedAt staleFile.id := by
  refine ⟨sampleRecalculation_undisturbed, sampleRoots (by decide), ?_, ?_⟩
  · decide +kernel
  · decide +kernel

end SoftwareHub.Reconciliation
