import SoftwareHub.Lifecycle.StorageTree

/-! An upload that nobody interrupts, from its first step to its last: what it adds
to the tree, and the row it adds. -/
namespace SoftwareHub.Lifecycle

open SoftwareHub.Python SoftwareHub.Tree SoftwareHub.Semantics SoftwareHub.Catalog Program
open SoftwareHub.Backup (Directory Leaf isSymlink)
open SoftwareHub.Storage (Grown StorageArea atomicMove atomicMove_grown shardedRelativePath)

/-- The streamed copy that a stage carries. -/
def UploadStage.streamed? : UploadStage → Option StreamedUpload
  | .moving streamed => some streamed
  | .scanning streamed _ => some streamed
  | .persisting streamed _ _ => some streamed
  | _ => none

namespace UploadEnvironment

variable (env : UploadEnvironment)

/-- The path of an upload in an area: two directories and the file. -/
def ShardedPath (parts : List PyStr) : Prop := env.Owned parts ∧ parts.length = 3

/-- The upload may make the directories on the way to its file in the quarantine. -/
def MakesDirectory (path : List PyStr) : Prop :=
  ∃ parts, env.ShardedPath parts ∧ path <+: env.paths.root .quarantine ++ parts ∧
    path ≠ env.paths.root .quarantine ++ parts

/-- Its files are the temporary one and the one in the quarantine. -/
def MakesFile (path : List PyStr) : Prop :=
  path = env.temporaryPath ∨ ∃ parts, env.ShardedPath parts ∧ path = env.paths.root .quarantine ++ parts

variable {env}

/-- The plan has a path of two directories and a file. -/
theorem sharded_of_planUploadPaths {filename : PyStr} {tree : Directory} {plan : UploadPathPlan}
    (h : UploadService.planUploadPaths env filename tree = .ok plan) :
    ∃ parts, parts.length = 3 ∧ (∀ part ∈ parts, PlainName part) ∧ plan.quarantineRelativePath = joinSlash parts := by
  obtain ⟨original, -, h⟩ := except_bind_eq_ok h
  obtain ⟨storageFilename, -, h⟩ := except_bind_eq_ok h
  dsimp only at h
  split at h
  · cases h
  · rename_i parts hParts
    obtain ⟨_, -, h⟩ := except_bind_eq_ok h
    obtain ⟨_, -, h⟩ := except_bind_eq_ok h
    obtain ⟨_, -, h⟩ := except_bind_eq_ok h
    cases h
    refine ⟨parts, ?_, Storage.plainName_of_mem_shardedRelativePath hParts, rfl⟩
    unfold shardedRelativePath at hParts
    split_ifs at hParts
    obtain rfl := Option.some.inj hParts
    rfl

theorem sharded_of_streamUploadToTemporary {request : UploadRequest} {tree after : Directory} {streamed : StreamedUpload}
    (hTree : StorageTree env.paths tree)
    (h : UploadService.streamUploadToTemporary env request tree = (.ok streamed, after)) :
    ∃ parts, env.Planned streamed parts ∧ parts.length = 3 := by
  obtain ⟨parts, hPlanned, -⟩ := streamUploadToTemporary_ok env request hTree.distinct hTree.unlinked h
  unfold UploadService.streamUploadToTemporary at h
  rw [read_bind] at h
  obtain ⟨plan, hPlan, h⟩ := lift_bind_eq_ok h
  obtain ⟨_, -, h⟩ := lift_bind_eq_ok h
  obtain ⟨_, -, h⟩ := lift_bind_eq_ok h
  obtain ⟨content, stored, -, h⟩ := bind_eq_ok h
  cases h
  obtain ⟨others, hLength, hPlain, hPath⟩ := sharded_of_planUploadPaths hPlan
  obtain rfl : parts = others := joinSlash_injective hPlanned.fileNames (fun part hPart => (hPlain part hPart).1)
    (hPlanned.quarantineRelativePath.symm.trans hPath)
  exact ⟨parts, hPlanned, hLength⟩

/-- The temporary path has names of files only. -/
theorem fileNames_temporaryPath {tree : Directory} (hTree : StorageTree env.paths tree) :
    ∀ name ∈ env.temporaryPath, IsFileName name := by
  intro name hName
  rcases List.mem_append.mp hName with hRoot | hFile
  · exact Storage.fileNames_of_kind? hTree.wellFormed (hTree.roots _ (isRoot_temporary _)) name hRoot
  · rw [List.mem_singleton.mp hFile]
    exact isFileName_hexName (by decide) env.temporaryUuid

/-- The copy adds its file and the directories above it. -/
theorem grown_of_streamUploadToTemporary {tree : Directory} (hTree : StorageTree env.paths tree) (request : UploadRequest) :
    Grown env.MakesDirectory env.MakesFile tree (UploadService.streamUploadToTemporary env request tree).2 := by
  rcases streamUploadToTemporary_cases env request hTree.unlinked with ⟨e, hRun⟩ | ⟨plan, -, hRun⟩
  · rw [hRun]
    exact Grown.refl hTree.wellFormed
  · rw [hRun, bind_pure_state]
    exact (grown_of_storeUpload hTree.wellFormed _ (fileNames_temporaryPath hTree)
      (isSymlink_temporaryPath hTree.unlinked)).mono (fun _ h => h) fun _ h => Or.inl h

end UploadEnvironment

namespace Upload

variable {upload : Upload} {host : Host}

/-- The planned path is one of three names. -/
def Sharded (upload : Upload) : Prop := ∀ streamed, upload.stage.streamed? = some streamed →
  ∃ parts, upload.env.Planned streamed parts ∧ parts.length = 3

theorem Sharded.of_stage {streamed : StreamedUpload} (h : upload.Sharded) (hStage : upload.stage.streamed? = some streamed)
    {stage : UploadStage} (hNext : stage.streamed? = some streamed) : (upload.at stage).Sharded := by
  intro other hOther
  obtain rfl : streamed = other := Option.some.inj (hNext.symm.trans hOther)
  exact h streamed hStage

/-- A stage without a copy has no path. -/
theorem sharded_of_none {stage : UploadStage} (h : stage.streamed? = none) : (upload.at stage).Sharded := by
  intro streamed hStreamed
  rw [at_stage, h] at hStreamed
  cases hStreamed

/-- A path that the handler removes is no link. -/
theorem Sound.candidate (hTree : StorageTree upload.env.paths host.tree) {path : List PyStr}
    (h : path = upload.env.temporaryPath ∨ upload.env.OwnPath path) : isSymlink (host.tree.node? path) = false := by
  rcases h with rfl | ⟨names, -, -, rfl⟩
  · exact UploadEnvironment.isSymlink_temporaryPath hTree.unlinked
  · exact hTree.unlinked _ (isRoot_area _ _) _ (Or.inr (List.prefix_append _ _))

/-- What one step adds to the tree. -/
theorem step_grown (hTree : StorageTree upload.env.paths host.tree) (hSharded : upload.Sharded) (hSound : upload.Sound host) :
    Grown upload.env.MakesDirectory upload.env.MakesFile host.tree (upload.step host).2.tree ∧ (upload.step host).1.Sharded := by
  have hRefl : Grown upload.env.MakesDirectory upload.env.MakesFile host.tree host.tree := Grown.refl hTree.wellFormed
  unfold step
  cases hStage : upload.stage with
  | requiring =>
      dsimp only
      split
      · exact ⟨hRefl, sharded_of_none rfl⟩
      · split_ifs
        · exact ⟨hRefl, sharded_of_none rfl⟩
        · exact ⟨hRefl, sharded_of_none rfl⟩
  | streaming =>
      have hGrown := UploadEnvironment.grown_of_streamUploadToTemporary hTree upload.request
      rcases hRun : UploadService.streamUploadToTemporary upload.env upload.request host.tree with ⟨outcome, tree⟩
      rw [hRun] at hGrown
      cases outcome with
      | error e => exact ⟨hGrown, sharded_of_none rfl⟩
      | ok streamed =>
          refine ⟨hGrown, ?_⟩
          intro other hOther
          obtain rfl : streamed = other := Option.some.inj hOther
          exact UploadEnvironment.sharded_of_streamUploadToTemporary hTree hRun
  | moving streamed =>
      have hHere : upload.stage.streamed? = some streamed := by rw [hStage]; rfl
      obtain ⟨parts, hPlanned, hLength⟩ := hSharded streamed hHere
      have hDestined : Storage.Destined upload.env.moving (UploadService.quarantineMove upload.env streamed) parts host.tree :=
        hTree.destined upload.env.moving (isRoot_area _ .quarantine) hPlanned.rejectUnsafeRelativePath_eq hPlanned.fileNames
      have hMove := atomicMove_grown hDestined
      have hGrown : Grown upload.env.MakesDirectory upload.env.MakesFile host.tree
          (atomicMove upload.env.moving (UploadService.quarantineMove upload.env streamed) host.tree).2 :=
        hMove.mono (fun path hPath => ⟨parts, ⟨hPlanned.owned, hLength⟩, hPath⟩)
          fun path hPath => Or.inr ⟨parts, ⟨hPlanned.owned, hLength⟩, hPath⟩
      rcases hRun : atomicMove upload.env.moving (UploadService.quarantineMove upload.env streamed) host.tree with ⟨outcome, tree⟩
      rw [hRun] at hGrown
      dsimp only
      rw [hRun]
      cases outcome with
      | error e => exact ⟨hGrown, sharded_of_none rfl⟩
      | ok result => exact ⟨hGrown, hSharded.of_stage hHere rfl⟩
  | scanning streamed destination =>
      have hHere : upload.stage.streamed? = some streamed := by rw [hStage]; rfl
      dsimp only
      split
      · exact ⟨hRefl, hSharded.of_stage hHere rfl⟩
      · exact ⟨hRefl, sharded_of_none rfl⟩
  | persisting streamed destination scanResult =>
      have hSame := @persistMetadata_tree upload.env upload.request streamed
        (Storage.validateFileSignature upload.env.unicode streamed.pathPlan.original.extension streamed.signatureSample)
        scanResult host
      rcases hRun : UploadService.persistMetadata upload.env upload.request streamed
        (Storage.validateFileSignature upload.env.unicode streamed.pathPlan.original.extension streamed.signatureSample)
        scanResult host with ⟨outcome, after⟩
      rw [hRun] at hSame
      have hGrown : Grown upload.env.MakesDirectory upload.env.MakesFile host.tree after.tree := by
        rw [show after.tree = host.tree from hSame]
        exact hRefl
      dsimp only
      rw [hRun]
      cases outcome with
      | error e => exact ⟨hGrown, sharded_of_none rfl⟩
      | ok row => exact ⟨hGrown, sharded_of_none rfl⟩
  | cleaning candidates =>
      cases candidates with
      | nil => exact ⟨hRefl, sharded_of_none rfl⟩
      | cons path candidates =>
          unfold Sound at hSound
          rw [hStage] at hSound
          refine ⟨?_, sharded_of_none rfl⟩
          exact grown_of_unlinkQuietly hTree.wellFormed _ (Sound.candidate hTree (hSound.2 path List.mem_cons_self))
  | finished => exact ⟨hRefl, hSharded⟩

end Upload

/-- The row of an upload, with its file in the quarantine. -/
structure UploadEnvironment.Delivered (env : UploadEnvironment) (database : Database) (row : ReleaseFile) (host : Host) :
    Prop where
  added : host.database = UploadService.addRow row database
  id : row.id = nextId ReleaseFile.id database.files
  unused : ∀ other ∈ database.files, ¬UploadService.Conflicts row other
  file : ∃ parts content, env.ShardedPath parts ∧ (∀ part ∈ parts, PlainName part) ∧
    row.relativeStoragePath = joinSlash parts ∧
    host.tree.file? (env.paths.root .quarantine ++ parts) = some (.file content) ∧ content.length = row.fileSizeBytes ∧
    Sha256.hexdigest content = row.sha256
  waiting : row.status = .quarantine ∨ row.status = .ready ∨ row.status = .rejected

/-- A new file is not published yet. -/
theorem initialStatus_waiting (signature : Storage.SignatureValidation) (status : ScannerStatus) :
    UploadService.initialStatus signature status = .quarantine ∨ UploadService.initialStatus signature status = .ready ∨
      UploadService.initialStatus signature status = .rejected := by
  unfold UploadService.initialStatus
  split_ifs <;> simp

/-- The transaction of an upload that is alone adds one row, and that is new. -/
theorem persistMetadata_eq_ok {env : UploadEnvironment} (hAlone : env.meanwhile = id) {request : UploadRequest}
    {streamed : StreamedUpload} {signature : Storage.SignatureValidation} {scanResult : ScanResult} {host after : Host}
    {row : ReleaseFile} (h : UploadService.persistMetadata env request streamed signature scanResult host = (.ok row, after)) :
    after.database = UploadService.addRow row host.database ∧ after.tree = host.tree ∧
      (∀ other ∈ host.database.files, ¬UploadService.Conflicts row other) ∧ ∃ texts, row =
        UploadService.newRow env (nextId ReleaseFile.id host.database.files) request.releaseId streamed signature scanResult
          request.metadata texts := by
  have hTree := @persistMetadata_tree env request streamed signature scanResult host
  rw [h] at hTree
  unfold UploadService.persistMetadata at h
  obtain ⟨texts, -, h⟩ := lift_bind_eq_ok h
  rw [write_bind, hAlone] at h
  change tryExcept _ _ host = _ at h
  rcases transaction_run env.commitFault (UploadService.persistRow env request streamed signature scanResult texts) host
    with ⟨added, database, hRow, -, hRun⟩ | ⟨e, hRun⟩
  · rw [tryExcept_ok hRun] at h
    cases h
    obtain ⟨hDatabase, hUnused, hNew⟩ := UploadService.persistRow_eq_ok hRow
    exact ⟨hDatabase, hTree, hUnused, texts, hNew⟩
  · rw [tryExcept_error hRun] at h
    split_ifs at h
    · cases h
    · cases h

namespace Upload

variable {upload : Upload} {host start : Host}

theorem step_database (hStage : ∀ streamed destination scanResult, upload.stage ≠ .persisting streamed destination scanResult) :
    (upload.step host).2.database = host.database := by
  unfold step
  split
  · split
    · rfl
    · split_ifs <;> rfl
  · split <;> rfl
  · split <;> rfl
  · split <;> rfl
  · rename_i streamed destination scanResult hPersisting
    exact (hStage streamed destination scanResult hPersisting).elim
  · rfl
  · rfl
  · rfl

/-- A stored file and its row are delivered together. -/
theorem Stored.delivered {streamed : StreamedUpload} {destination : List PyStr} (hSharded : upload.Sharded)
    (hHere : upload.stage.streamed? = some streamed) (hAlone : upload.env.meanwhile = id)
    (hStored : upload.Stored streamed destination host) {scanResult : ScanResult} {row : ReleaseFile} {after : Host}
    (h : UploadService.persistMetadata upload.env upload.request streamed
      (Storage.validateFileSignature upload.env.unicode streamed.pathPlan.original.extension streamed.signatureSample)
      scanResult host = (.ok row, after)) : upload.env.Delivered host.database row after := by
  obtain ⟨hDatabase, hTree, hUnused, texts, rfl⟩ := persistMetadata_eq_ok hAlone h
  obtain ⟨others, hOthers, hLength⟩ := hSharded streamed hHere
  obtain ⟨parts, leaf, hPlanned, rfl, hFile, content, rfl, hSize, hDigest⟩ := hStored
  obtain rfl : others = parts := joinSlash_injective hOthers.fileNames hPlanned.fileNames
    (hOthers.quarantineRelativePath.symm.trans hPlanned.quarantineRelativePath)
  refine ⟨hDatabase, rfl, hUnused, ⟨others, content, ⟨hPlanned.owned, hLength⟩, hPlanned.names,
    hPlanned.quarantineRelativePath, ?_, hSize, hDigest⟩, initialStatus_waiting _ _⟩
  rw [hTree]
  exact hFile

/-- An upload on its way, compared with the state before its first step. -/
structure Running (start : Host) (upload : Upload) (host : Host) : Prop where
  alone : upload.env.meanwhile = id
  tree : StorageTree upload.env.paths host.tree
  sound : upload.Sound host
  sharded : upload.Sharded
  grown : Grown upload.env.MakesDirectory upload.env.MakesFile start.tree host.tree
  changes : Changes upload.Creates upload.Creates start.tree host.tree
  rows : host.database = start.database ∨
    upload.stage = .finished ∧ ∃ row, upload.env.Delivered start.database row host

theorem Running.step (hApart : Apart upload.env.paths) (h : Running start upload host) :
    Running start (upload.step host).1 (upload.step host).2 := by
  have hEffect := step_effect h.tree.distinct h.tree.unlinked hApart h.alone h.sound
  obtain ⟨hGrown, hSharded⟩ := step_grown h.tree h.sharded h.sound
  have hEnv := upload.step_env host
  have hRemoves : ∀ path, upload.Removes path → upload.Creates path := by
    rintro path (hTemporary | ⟨-, hOwn⟩)
    · exact Or.inl hTemporary
    · exact Or.inr hOwn
  have hChanges : Changes upload.Creates upload.Creates start.tree (upload.step host).2.tree :=
    h.changes.trans (hEffect.changes.mono hRemoves fun _ hPath => hPath)
  have hCreates : (upload.step host).1.Creates = upload.Creates := by
    funext path
    unfold Creates
    rw [hEnv]
  refine ⟨hEnv ▸ h.alone, hEnv ▸ h.tree.of_grown hGrown, hEffect.sound, hSharded, hEnv ▸ h.grown.trans hGrown,
    hCreates ▸ hChanges, ?_⟩
  rw [hEnv]
  have hBefore (hFinished : upload.stage ≠ .finished)
      (hPersisting : ∀ streamed destination scanResult, upload.stage ≠ .persisting streamed destination scanResult) :
      (upload.step host).2.database = start.database ∨
        (upload.step host).1.stage = .finished ∧ ∃ row, upload.env.Delivered start.database row (upload.step host).2 := by
    refine Or.inl ((step_database hPersisting).trans ?_)
    exact h.rows.resolve_right fun hDone => hFinished hDone.1
  cases hStage : upload.stage with
  | persisting streamed destination scanResult =>
      have hSame : host.database = start.database := by
        rcases h.rows with hSame | ⟨hFinished, -⟩
        · exact hSame
        · rw [hStage] at hFinished
          cases hFinished
      have hHere : upload.stage.streamed? = some streamed := by rw [hStage]; rfl
      have hStored := h.sound
      unfold Sound at hStored
      rw [hStage] at hStored
      rcases hRun : UploadService.persistMetadata upload.env upload.request streamed
        (Storage.validateFileSignature upload.env.unicode streamed.pathPlan.original.extension streamed.signatureSample)
        scanResult host with ⟨outcome, after⟩
      unfold Upload.step
      rw [hStage]
      dsimp only
      rw [hRun]
      cases outcome with
      | error e =>
          have hAfter := (persistMetadata_spec h.alone upload.request streamed _ scanResult host.database).of_error rfl hRun
          exact Or.inl (hAfter.trans hSame)
      | ok row => exact Or.inr ⟨rfl, row, hSame ▸ Stored.delivered h.sharded hHere h.alone hStored.2 hRun⟩
  | finished =>
      have hSame : upload.step host = (upload, host) := by
        unfold Upload.step
        rw [hStage]
      rw [hSame]
      exact h.rows
  | requiring => exact hBefore (by simp [hStage]) (by simp [hStage])
  | streaming => exact hBefore (by simp [hStage]) (by simp [hStage])
  | moving streamed => exact hBefore (by simp [hStage]) (by simp [hStage])
  | scanning streamed destination => exact hBefore (by simp [hStage]) (by simp [hStage])
  | cleaning candidates => exact hBefore (by simp [hStage]) (by simp [hStage])

/-- From the first step to the last. -/
theorem Running.final (hApart : Apart upload.env.paths) (h : Running start upload host) {last : Upload} {after : Host}
    (hRun : RunsAlone Upload.step (upload, host) (last, after)) : Running start last after ∧ last.env = upload.env := by
  have hInvariant := hRun.invariant (I := fun system => Running start system.1 system.2 ∧ system.1.env = upload.env) (by
    rintro thread s ⟨hRunning, hEnv⟩
    have hSame : (thread.step s).1.env = upload.env := (thread.step_env s).trans hEnv
    exact ⟨Running.step (hEnv ▸ hApart) hRunning, hSame⟩) ⟨h, rfl⟩
  exact hInvariant

end Upload
end SoftwareHub.Lifecycle
