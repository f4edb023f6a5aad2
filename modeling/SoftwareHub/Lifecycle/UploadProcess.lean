import SoftwareHub.Lifecycle.FileChanges
import SoftwareHub.Lifecycle.UploadRow

/-! An upload step by step: the first read, the copy, the move into the quarantine,
the scan, the transaction, and the removal of what a failure left. Between two steps
other processes take theirs. -/
namespace SoftwareHub.Lifecycle

open SoftwareHub.Python SoftwareHub.Tree SoftwareHub.Semantics SoftwareHub.Catalog Program
open SoftwareHub.Backup (Directory Leaf isSymlink)
open SoftwareHub.Storage (StorageArea atomicMove plainName_of_mem_shardedRelativePath realPathFrom realPathFrom_eq
  rejectUnsafeRelativePath rejectUnsafeRelativePath_joinSlash shardedRelativePath validateFileSignature)

/-- How far an upload has come, with what it has learned. -/
inductive UploadStage
  | requiring
  | streaming
  | moving (streamed : StreamedUpload)
  | scanning (streamed : StreamedUpload) (destination : List PyStr)
  | persisting (streamed : StreamedUpload) (destination : List PyStr) (scanResult : ScanResult)
  | cleaning (candidates : List (List PyStr))
  | finished

/-- An upload under way. -/
structure Upload where
  env : UploadEnvironment
  request : UploadRequest
  stage : UploadStage

def Upload.at (upload : Upload) (stage : UploadStage) : Upload := { upload with stage := stage }

namespace Upload

/-- One step. What the handler records and the closing of the submitted file change neither files nor rows. -/
def step (upload : Upload) (host : Host) : Upload × Host :=
  match upload.stage with
  | .requiring => match call upload.env.requireFault id with
      | .error _ => (upload.at .finished, host)
      | .ok _ =>
          if host.database.release? upload.request.releaseId = none then (upload.at .finished, host)
          else (upload.at .streaming, host)
  | .streaming => match UploadService.streamUploadToTemporary upload.env upload.request host.tree with
      | (.ok streamed, tree) => (upload.at (.moving streamed), { host with tree := tree })
      | (.error _, tree) => (upload.at (.cleaning []), { host with tree := tree })
  | .moving streamed => match atomicMove upload.env.moving (UploadService.quarantineMove upload.env streamed) host.tree with
      | (.ok result, tree) => (upload.at (.scanning streamed result.destination), { host with tree := tree })
      | (.error _, tree) => (upload.at (.cleaning [streamed.pathPlan.temporaryPath]), { host with tree := tree })
  | .scanning streamed destination => match upload.env.scan with
      | .ok scanResult => (upload.at (.persisting streamed destination scanResult), host)
      | .error _ => (upload.at (.cleaning [streamed.pathPlan.temporaryPath, destination]), host)
  | .persisting streamed destination scanResult =>
      match UploadService.persistMetadata upload.env upload.request streamed
        (validateFileSignature upload.env.unicode streamed.pathPlan.original.extension streamed.signatureSample) scanResult
        host with
      | (.ok _, after) => (upload.at .finished, after)
      | (.error _, after) => (upload.at (.cleaning [streamed.pathPlan.temporaryPath, destination]), after)
  | .cleaning [] => (upload.at .finished, host)
  | .cleaning (path :: candidates) => (upload.at (.cleaning candidates),
      { host with tree := (unlinkQuietly (upload.env.unlinkCandidate path) path host.tree).2 })
  | .finished => (upload, host)

@[simp] theorem at_env (upload : Upload) (stage : UploadStage) : (upload.at stage).env = upload.env := rfl

@[simp] theorem at_stage (upload : Upload) (stage : UploadStage) : (upload.at stage).stage = stage := rfl

/-- A step leaves the environment of the upload. -/
theorem step_env (upload : Upload) (host : Host) : (upload.step host).1.env = upload.env := by
  unfold step
  split
  · split
    · rfl
    · split_ifs <;> rfl
  · split <;> rfl
  · split <;> rfl
  · split <;> rfl
  · split <;> rfl
  · rfl
  · rfl
  · rfl

end Upload

/-- No link is on the way to a root or below it. -/
def Unlinked (paths : StoragePaths) (tree : Directory) : Prop :=
  ∀ root, (root = paths.temporary ∨ ∃ area, root = paths.root area) → ∀ path, path <+: root ∨ root <+: path →
    isSymlink (tree.node? path) = false

section Unlinked

variable {paths : StoragePaths} {tree after : Directory}

/-- Then a path below a root is a real one. -/
theorem Unlinked.realPath (h : Unlinked paths tree) {root : List PyStr}
    (hRoot : root = paths.temporary ∨ ∃ area, root = paths.root area) (links : Storage.Links) (names : List PyStr) :
    realPathFrom links tree (realPathFrom links tree [] root) names = root ++ names := by
  have hReal : realPathFrom links tree [] root = root := by
    apply realPathFrom_eq
    intro above hAbove _
    exact h root hRoot above (Or.inl hAbove)
  rw [hReal]
  apply realPathFrom_eq
  intro above _ _
  exact h root hRoot _ (Or.inr (List.prefix_append root above))

/-- Changes of regular files bring no links. -/
theorem Unlinked.of_changes {gone added : List PyStr → Prop} (h : Unlinked paths tree) (hChanges : Changes gone added tree after) :
    Unlinked paths after := by
  intro root hRoot path hPath
  rw [hChanges.links]
  exact h root hRoot path hPath

end Unlinked

/-- Three directories, none of which lies in another. -/
structure Apart (paths : StoragePaths) : Prop where
  areas : ∀ first second, first ≠ second → ¬paths.root first <+: paths.root second
  temporary : ∀ area, ¬paths.temporary <+: paths.root area ∧ ¬paths.root area <+: paths.temporary

section Apart

variable {paths : StoragePaths}

/-- Below different areas there are different paths. -/
theorem Apart.place_inj (h : Apart paths) {first second : StorageArea} {names others : List PyStr}
    (hSame : paths.root first ++ names = paths.root second ++ others) : first = second ∧ names = others := by
  have hArea : first = second := by
    by_contra hNe
    rcases List.prefix_or_prefix_of_prefix (List.prefix_append (paths.root first) names)
      ⟨others, hSame.symm⟩ with hPrefix | hPrefix
    · exact h.areas first second hNe hPrefix
    · exact h.areas second first (Ne.symm hNe) hPrefix
  subst hArea
  exact ⟨rfl, List.append_cancel_left hSame⟩

theorem Apart.temporary_ne (h : Apart paths) (names others : List PyStr) (area : StorageArea) :
    paths.temporary ++ names ≠ paths.root area ++ others := by
  intro hSame
  rcases List.prefix_or_prefix_of_prefix (List.prefix_append paths.temporary names) ⟨others, hSame.symm⟩ with
    hPrefix | hPrefix
  · exact (h.temporary area).1 hPrefix
  · exact (h.temporary area).2 hPrefix

end Apart

/-- The name of the temporary file. -/
def temporaryName (uuid : Nat) : PyStr := uuidHex uuid ++ py ".upload"

theorem rejectUnsafeRelativePath_temporary (uuid : Nat) :
    rejectUnsafeRelativePath (uuidHex uuid ++ py ".upload") = .ok [temporaryName uuid] := by
  have hSuffix : ∀ c ∈ py ".upload", c < 0x80 ∧ c ≠ slash ∧ c ≠ 0 ∧ c ≠ 0x5C := by decide
  have hJoin : uuidHex uuid ++ py ".upload" = joinSlash [temporaryName uuid] := by
    rw [joinSlash, List.intercalate_singleton]
    rfl
  rw [hJoin]
  apply rejectUnsafeRelativePath_joinSlash (List.cons_ne_nil _ _)
  · intro name hName
    rw [List.mem_singleton.mp hName]
    exact isFileName_hexName hSuffix uuid
  · intro hMem
    rw [← hJoin] at hMem
    exact (of_mem_hexName hSuffix hMem).2.2.2 rfl

namespace UploadEnvironment

variable (env : UploadEnvironment)

/-- Where the temporary file of the upload lies. -/
def temporaryPath : List PyStr := env.paths.temporary ++ [temporaryName env.temporaryUuid]

/-- The names of a file whose own name begins with the UUID of the upload. -/
def Owned (names : List PyStr) : Prop := ∃ above rest, names = above ++ [uuidHex env.fileUuid ++ rest]

/-- A path in the quarantine that the upload may use. -/
def OwnPath (path : List PyStr) : Prop :=
  ∃ names, env.Owned names ∧ (∀ name ∈ names, IsFileName name) ∧ path = env.paths.root .quarantine ++ names

/-- The plan of the upload. -/
structure Planned (streamed : StreamedUpload) (parts : List PyStr) : Prop where
  temporaryRelativePath : streamed.pathPlan.temporaryRelativePath = uuidHex env.temporaryUuid ++ py ".upload"
  temporaryPath : streamed.pathPlan.temporaryPath = env.temporaryPath
  quarantineRelativePath : streamed.pathPlan.quarantineRelativePath = joinSlash parts
  nonempty : parts ≠ []
  names : ∀ part ∈ parts, PlainName part
  owned : env.Owned parts

variable {env}

/-- A planned path consists of names of files. -/
theorem Planned.fileNames {streamed : StreamedUpload} {parts : List PyStr} (h : env.Planned streamed parts) :
    ∀ part ∈ parts, IsFileName part := fun part hPart => (h.names part hPart).1

theorem Planned.rejectUnsafeRelativePath_eq {streamed : StreamedUpload} {parts : List PyStr}
    (h : env.Planned streamed parts) :
    rejectUnsafeRelativePath streamed.pathPlan.quarantineRelativePath = .ok parts := by
  rw [h.quarantineRelativePath]
  apply rejectUnsafeRelativePath_joinSlash h.nonempty h.fileNames
  intro hMem
  rcases mem_joinSlash hMem with hSlash | ⟨part, hPart, hMem⟩
  · cases hSlash
  · exact (h.names part hPart).2.2 hMem

/-- Its names are found again from the text of the path. -/
theorem Planned.awaited {streamed : StreamedUpload} {parts names : List PyStr} (h : env.Planned streamed parts)
    (hNames : ∀ name ∈ names, IsFileName name)
    (hPath : streamed.pathPlan.quarantineRelativePath = joinSlash names) : env.Owned names := by
  obtain rfl : parts = names := joinSlash_injective h.fileNames hNames (h.quarantineRelativePath.symm.trans hPath)
  exact h.owned

/-- Uploads with different UUIDs have different files. -/
theorem Owned.uuid_eq {other : UploadEnvironment} {names : List PyStr} (h : env.Owned names) (hOther : other.Owned names) :
    uuidHex env.fileUuid = uuidHex other.fileUuid := by
  obtain ⟨above, rest, rfl⟩ := h
  obtain ⟨otherAbove, otherRest, hSame⟩ := hOther
  have hLast := (List.append_inj' hSame rfl).2
  have hHex := (List.append_inj (List.cons.inj hLast).1 (by
    unfold uuidHex
    rw [Sha256.length_hexDigits, Sha256.length_hexDigits])).1
  exact hHex

theorem planned_of_planUploadPaths {filename : PyStr} {tree : Directory} {plan : UploadPathPlan}
    (hUnlinked : Unlinked env.paths tree) (h : UploadService.planUploadPaths env filename tree = .ok plan)
    (size : Nat) (sha256 : PyStr) (sample : Bytes) : ∃ parts, env.Planned ⟨plan, size, sha256, sample⟩ parts := by
  obtain ⟨original, -, h⟩ := except_bind_eq_ok h
  obtain ⟨storageFilename, hStorage, h⟩ := except_bind_eq_ok h
  dsimp only at h
  split at h
  · cases h
  · rename_i parts hParts
    obtain ⟨temporaryPath, hTemporary, h⟩ := except_bind_eq_ok h
    obtain ⟨_, -, h⟩ := except_bind_eq_ok h
    obtain ⟨_, -, h⟩ := except_bind_eq_ok h
    cases h
    obtain ⟨names, hNames, rfl⟩ := Storage.safeResolve_eq_ok hTemporary
    obtain rfl : [temporaryName env.temporaryUuid] = names :=
      Except.ok.inj ((rejectUnsafeRelativePath_temporary _).symm.trans hNames)
    have hPlain := plainName_of_mem_shardedRelativePath hParts
    unfold shardedRelativePath at hParts
    split_ifs at hParts
    obtain rfl := Option.some.inj hParts
    refine ⟨_, rfl, hUnlinked.realPath (Or.inl rfl) _ _, rfl, List.cons_ne_nil _ _, hPlain, ?_⟩
    unfold UploadService.generateStorageFilename at hStorage
    dsimp only at hStorage
    split_ifs at hStorage
    obtain rfl := Except.ok.inj hStorage
    exact ⟨[_, _], _, rfl⟩

/-- The copy either fails before it has made a plan, or only its planned path matters. -/
theorem streamUploadToTemporary_cases (env : UploadEnvironment) (request : UploadRequest) {tree : Directory}
    (hUnlinked : Unlinked env.paths tree) :
    (∃ e, UploadService.streamUploadToTemporary env request tree = (.error e, tree)) ∨
    ∃ plan : UploadPathPlan, (∀ size sha256 sample, ∃ parts, env.Planned ⟨plan, size, sha256, sample⟩ parts) ∧
      UploadService.streamUploadToTemporary env request tree =
        (UploadService.storeUpload env request.reads env.temporaryPath >>= fun content =>
          pure ⟨plan, content.length, Sha256.hexdigest content, content.take env.settings.uploadMagicSampleSize⟩) tree := by
  unfold UploadService.streamUploadToTemporary
  rw [read_bind]
  cases hPlan : UploadService.planUploadPaths env (request.filename.getD []) (id tree) with
  | error e => exact Or.inl ⟨e, rfl⟩
  | ok plan =>
      rw [bind_ok (lift_apply _ tree)]
      cases require (∀ size ∈ request.size, size ≤ env.settings.maxUploadSize) UploadService.payloadTooLarge with
      | error e => exact Or.inl ⟨e, rfl⟩
      | ok _ =>
          rw [bind_ok (lift_apply _ tree)]
          generalize UploadService.ensureFreeSpace env.free _ env.settings.storageMinFreeBytes = space
          cases space with
          | error e => exact Or.inl ⟨e, rfl⟩
          | ok _ =>
              rw [bind_ok (lift_apply _ tree)]
              have hPlanned := fun size sha256 sample => planned_of_planUploadPaths hUnlinked hPlan size sha256 sample
              obtain ⟨parts, hParts⟩ := hPlanned 0 [] []
              have hPath : plan.temporaryPath = env.temporaryPath := hParts.temporaryPath
              rw [hPath]
              exact Or.inr ⟨plan, hPlanned, rfl⟩

/-- No link is in the way of the temporary file. -/
theorem isSymlink_temporaryPath {tree : Directory} (hUnlinked : Unlinked env.paths tree) :
    isSymlink (tree.node? env.temporaryPath) = false :=
  hUnlinked _ (Or.inl rfl) _ (Or.inr (List.prefix_append _ _))

/-- The copy touches the temporary file only. -/
theorem streamUploadToTemporary_changes (env : UploadEnvironment) (request : UploadRequest) {tree : Directory}
    (hTree : DistinctNames tree) (hUnlinked : Unlinked env.paths tree) :
    Changes (· = env.temporaryPath) (· = env.temporaryPath) tree
      (UploadService.streamUploadToTemporary env request tree).2 := by
  rcases streamUploadToTemporary_cases env request hUnlinked with ⟨e, hRun⟩ | ⟨plan, -, hRun⟩
  · rw [hRun]
    exact Changes.refl hTree
  · rw [hRun, bind_pure_state]
    exact UploadService.storeUpload_changes hTree _ (isSymlink_temporaryPath hUnlinked)

/-- What the copy knows of a file. -/
def Describes (streamed : StreamedUpload) (leaf : Leaf) : Prop :=
  ∃ content, leaf = .file content ∧ content.length = streamed.sizeBytes ∧ Sha256.hexdigest content = streamed.sha256

/-- A copy that returns has a plan, and describes its file. -/
theorem streamUploadToTemporary_ok (env : UploadEnvironment) (request : UploadRequest) {tree after : Directory}
    {streamed : StreamedUpload} (hTree : DistinctNames tree) (hUnlinked : Unlinked env.paths tree)
    (h : UploadService.streamUploadToTemporary env request tree = (.ok streamed, after)) :
    ∃ parts, env.Planned streamed parts ∧ ∃ leaf, after.file? env.temporaryPath = some leaf ∧ Describes streamed leaf := by
  rcases streamUploadToTemporary_cases env request hUnlinked with ⟨e, hRun⟩ | ⟨plan, hPlanned, hRun⟩
  · rw [hRun] at h
    cases h
  · rw [hRun] at h
    obtain ⟨content, mid, hStore, hReturn⟩ := bind_eq_ok h
    cases hReturn
    obtain ⟨parts, hParts⟩ := hPlanned content.length (Sha256.hexdigest content)
      (content.take env.settings.uploadMagicSampleSize)
    refine ⟨parts, hParts, .file content, ?_, content, rfl, rfl, rfl⟩
    rw [(createFile_eq_some hTree (storeUpload_eq_ok hStore).2).2.2, if_pos rfl]

end UploadEnvironment

/-- The file of a row, with the recorded bytes. -/
def HasPhysicalFile (paths : StoragePaths) (tree : Directory) (row : ReleaseFile) : Prop :=
  ∃ area names content, (∀ name ∈ names, IsFileName name) ∧ row.relativeStoragePath = joinSlash names ∧
    tree.file? (paths.root area ++ names) = some (.file content) ∧ content.length = row.fileSizeBytes ∧
    Sha256.hexdigest content = row.sha256

namespace Upload

section Sound

variable (upload : Upload)

/-- The files whose row the upload may still add. -/
def Awaits (names : List PyStr) : Prop :=
  match upload.stage with
  | .requiring => upload.env.Owned names
  | .streaming => upload.env.Owned names
  | .moving streamed => streamed.pathPlan.quarantineRelativePath = joinSlash names
  | .scanning streamed _ => streamed.pathPlan.quarantineRelativePath = joinSlash names
  | .persisting streamed _ _ => streamed.pathPlan.quarantineRelativePath = joinSlash names
  | .cleaning _ => False
  | .finished => False

/-- No row has a file of the upload. -/
def Rowless (host : Host) : Prop :=
  ∀ row ∈ host.database.files, ∀ names, (∀ name ∈ names, IsFileName name) → row.relativeStoragePath = joinSlash names →
    ¬upload.env.Owned names

/-- No file of the upload is in an area yet. -/
def Unmoved (host : Host) : Prop :=
  ∀ area names leaf, upload.env.Owned names → host.tree.file? (upload.env.paths.root area ++ names) ≠ some leaf

/-- The moved file is in the quarantine. -/
def Stored (streamed : StreamedUpload) (destination : List PyStr) (host : Host) : Prop :=
  ∃ parts leaf, upload.env.Planned streamed parts ∧ destination = upload.env.paths.root .quarantine ++ parts ∧
    host.tree.file? destination = some leaf ∧ UploadEnvironment.Describes streamed leaf

/-- What an upload relies on at each stage. -/
def Sound (host : Host) : Prop :=
  match upload.stage with
  | .requiring => upload.Rowless host ∧ upload.Unmoved host
  | .streaming => upload.Rowless host ∧ upload.Unmoved host
  | .moving streamed => upload.Rowless host ∧ upload.Unmoved host ∧ ∃ parts, upload.env.Planned streamed parts ∧
      ∀ leaf, host.tree.file? upload.env.temporaryPath = some leaf → UploadEnvironment.Describes streamed leaf
  | .scanning streamed destination => upload.Rowless host ∧ upload.Stored streamed destination host
  | .persisting streamed destination _ => upload.Rowless host ∧ upload.Stored streamed destination host
  | .cleaning candidates => upload.Rowless host ∧
      ∀ path ∈ candidates, path = upload.env.temporaryPath ∨ upload.env.OwnPath path
  | .finished => True

/-- Where a step removes a file: its temporary one, and while it cleans up its own in the quarantine. -/
def Removes (path : List PyStr) : Prop :=
  path = upload.env.temporaryPath ∨ (∃ candidates, upload.stage = .cleaning candidates) ∧ upload.env.OwnPath path

/-- Where a step may add a file: the temporary one, and its own in the quarantine. -/
def Creates (path : List PyStr) : Prop := path = upload.env.temporaryPath ∨ upload.env.OwnPath path

/-- What one step does. -/
structure Effect (host : Host) (after : Upload × Host) : Prop where
  changes : Changes upload.Removes upload.Creates host.tree after.2.tree
  rows : after.2.database = host.database ∨ ∃ row names, after.2.database = UploadService.addRow row host.database ∧
    (∀ name ∈ names, IsFileName name) ∧ row.relativeStoragePath = joinSlash names ∧ upload.env.Owned names ∧
    upload.Awaits names ∧ HasPhysicalFile upload.env.paths after.2.tree row
  awaits : ∀ names, (∀ name ∈ names, IsFileName name) → after.1.Awaits names → upload.Awaits names
  sound : after.1.Sound after.2

end Sound

variable {upload : Upload} {host : Host}

/-- A stored file lies under the planned path alone. -/
theorem Stored.awaited {streamed : StreamedUpload} {destination : List PyStr} (h : upload.Stored streamed destination host)
    {names : List PyStr} (hNames : ∀ name ∈ names, IsFileName name)
    (hPath : streamed.pathPlan.quarantineRelativePath = joinSlash names) :
    upload.env.Owned names ∧ destination = upload.env.paths.root .quarantine ++ names := by
  obtain ⟨parts, leaf, hPlanned, rfl, -, -⟩ := h
  obtain rfl : parts = names :=
    joinSlash_injective hPlanned.fileNames hNames (hPlanned.quarantineRelativePath.symm.trans hPath)
  exact ⟨hPlanned.owned, rfl⟩

theorem Stored.candidates {streamed : StreamedUpload} {destination : List PyStr}
    (h : upload.Stored streamed destination host) :
    ∀ path ∈ [streamed.pathPlan.temporaryPath, destination], path = upload.env.temporaryPath ∨ upload.env.OwnPath path := by
  obtain ⟨parts, leaf, hPlanned, rfl, -, -⟩ := h
  intro path hPath
  rcases List.mem_cons.mp hPath with rfl | hPath
  · exact Or.inl hPlanned.temporaryPath
  · rw [List.mem_singleton.mp hPath]
    exact Or.inr ⟨parts, hPlanned.owned, hPlanned.fileNames, rfl⟩

/-- An upload waits for files of its own only. -/
theorem Sound.owned_of_awaits (h : upload.Sound host) {names : List PyStr} (hNames : ∀ name ∈ names, IsFileName name)
    (hAwaits : upload.Awaits names) : upload.env.Owned names := by
  unfold Sound at h
  unfold Awaits at hAwaits
  cases hStage : upload.stage with
  | requiring =>
      rw [hStage] at hAwaits
      exact hAwaits
  | streaming =>
      rw [hStage] at hAwaits
      exact hAwaits
  | moving streamed =>
      rw [hStage] at h hAwaits
      obtain ⟨-, -, parts, hPlanned, -⟩ := h
      exact hPlanned.awaited hNames hAwaits
  | scanning streamed destination =>
      rw [hStage] at h hAwaits
      exact (h.2.awaited hNames hAwaits).1
  | persisting streamed destination scanResult =>
      rw [hStage] at h hAwaits
      exact (h.2.awaited hNames hAwaits).1
  | cleaning candidates =>
      rw [hStage] at hAwaits
      exact hAwaits.elim
  | finished =>
      rw [hStage] at hAwaits
      exact hAwaits.elim

/-- A step that changes nothing but the stage. -/
theorem Effect.of_same (stage : UploadStage) (hTree : DistinctNames host.tree)
    (hAwaits : ∀ names, (∀ name ∈ names, IsFileName name) → (upload.at stage).Awaits names → upload.Awaits names)
    (hSound : (upload.at stage).Sound host) : upload.Effect host (upload.at stage, host) :=
  ⟨Changes.refl hTree, Or.inl rfl, hAwaits, hSound⟩

/-- Changes of the temporary file leave the areas. -/
theorem Unmoved.of_changes {after : Host} (h : upload.Unmoved host) (hApart : Apart upload.env.paths)
    (hChanges : Changes (· = upload.env.temporaryPath) (· = upload.env.temporaryPath) host.tree after.tree) :
    upload.Unmoved after := by
  intro area names leaf hOwned hFile
  rcases hChanges.appeared _ _ hFile with hOld | ⟨hNew, -⟩
  · exact h area names leaf hOwned hOld
  · exact hApart.temporary_ne _ _ _ hNew.symm

theorem requiring_effect (hTree : DistinctNames host.tree) (hSound : upload.Sound host) (hStage : upload.stage = .requiring) :
    upload.Effect host (upload.step host) := by
  have hFinished : upload.Effect host (upload.at .finished, host) :=
    Effect.of_same .finished hTree (fun _ _ h => h.elim) trivial
  unfold Sound at hSound
  rw [hStage] at hSound
  unfold step
  rw [hStage]
  dsimp only
  split
  · exact hFinished
  · split_ifs
    · exact hFinished
    · apply Effect.of_same .streaming hTree _ hSound
      intro names _ hAwaits
      unfold Awaits
      rw [hStage]
      exact hAwaits

theorem streaming_effect (hTree : DistinctNames host.tree) (hUnlinked : Unlinked upload.env.paths host.tree)
    (hApart : Apart upload.env.paths) (hSound : upload.Sound host) (hStage : upload.stage = .streaming) :
    upload.Effect host (upload.step host) := by
  have hChanges := UploadEnvironment.streamUploadToTemporary_changes upload.env upload.request hTree hUnlinked
  unfold Sound at hSound
  rw [hStage] at hSound
  unfold step
  rw [hStage]
  dsimp only
  rcases hRun : UploadService.streamUploadToTemporary upload.env upload.request host.tree with ⟨outcome, tree⟩
  rw [hRun] at hChanges
  have hUnmoved : upload.Unmoved { host with tree := tree } := hSound.2.of_changes hApart hChanges
  have hOwn : Changes upload.Removes upload.Creates host.tree tree :=
    hChanges.mono (fun _ h => Or.inl h) fun _ h => Or.inl h
  cases outcome with
  | error e =>
      exact ⟨hOwn, Or.inl rfl, fun _ _ h => h.elim, hSound.1, fun _ hPath => absurd hPath List.not_mem_nil⟩
  | ok streamed =>
      obtain ⟨parts, hPlanned, leaf, hFile, hLeaf⟩ :=
        UploadEnvironment.streamUploadToTemporary_ok upload.env upload.request hTree hUnlinked hRun
      refine ⟨hOwn, Or.inl rfl, ?_, hSound.1, hUnmoved, parts, hPlanned, ?_⟩
      · intro names hNames hAwaits
        unfold Awaits
        rw [hStage]
        exact hPlanned.awaited hNames hAwaits
      · intro other hOther
        obtain rfl : leaf = other := Option.some.inj (hFile.symm.trans hOther)
        exact hLeaf

theorem moving_effect (hTree : DistinctNames host.tree) (hUnlinked : Unlinked upload.env.paths host.tree)
    (hSound : upload.Sound host) {streamed : StreamedUpload} (hStage : upload.stage = .moving streamed) :
    upload.Effect host (upload.step host) := by
  unfold Sound at hSound
  rw [hStage] at hSound
  obtain ⟨hRowless, -, parts, hPlanned, hTemporary⟩ := hSound
  have hSource : upload.env.moving.realPath host.tree upload.env.paths.temporary [temporaryName upload.env.temporaryUuid] =
      upload.env.temporaryPath := hUnlinked.realPath (Or.inl rfl) _ _
  have hDestination : upload.env.moving.realPath host.tree (upload.env.paths.root .quarantine) parts =
      upload.env.paths.root .quarantine ++ parts := hUnlinked.realPath (Or.inr ⟨_, rfl⟩) _ _
  have hTemporaryNames : rejectUnsafeRelativePath streamed.pathPlan.temporaryRelativePath =
      .ok [temporaryName upload.env.temporaryUuid] := by
    rw [hPlanned.temporaryRelativePath]
    exact rejectUnsafeRelativePath_temporary _
  have hChanges : Changes upload.Removes upload.Creates host.tree
      (atomicMove upload.env.moving (UploadService.quarantineMove upload.env streamed) host.tree).2 := by
    apply (atomicMove_changes upload.env.moving (UploadService.quarantineMove upload.env streamed) hTree).mono
    · rintro path ⟨names, hNames, rfl⟩
      obtain rfl : [temporaryName upload.env.temporaryUuid] = names :=
        Except.ok.inj (hTemporaryNames.symm.trans hNames)
      exact Or.inl hSource
    · rintro path ⟨names, hNames, rfl⟩
      obtain rfl : parts = names := Except.ok.inj (hPlanned.rejectUnsafeRelativePath_eq.symm.trans hNames)
      exact Or.inr ⟨parts, hPlanned.owned, hPlanned.fileNames, hDestination⟩
  unfold step
  rw [hStage]
  dsimp only
  rcases hRun : atomicMove upload.env.moving (UploadService.quarantineMove upload.env streamed) host.tree with ⟨outcome, tree⟩
  rw [hRun] at hChanges
  cases outcome with
  | error e =>
      refine ⟨hChanges, Or.inl rfl, fun _ _ h => h.elim, hRowless, ?_⟩
      intro path hPath
      rw [List.mem_singleton.mp hPath]
      exact Or.inl hPlanned.temporaryPath
  | ok result =>
      obtain ⟨sourceNames, names, hSourceNames, hNames, hResult, content, hContent, -, -, hFiles⟩ :=
        Storage.allOrNothing_of_ok hTree hRun
      obtain rfl : [temporaryName upload.env.temporaryUuid] = sourceNames :=
        Except.ok.inj (hTemporaryNames.symm.trans hSourceNames)
      obtain rfl : parts = names := Except.ok.inj (hPlanned.rejectUnsafeRelativePath_eq.symm.trans hNames)
      refine ⟨hChanges, Or.inl rfl, ?_, hRowless, parts, .file content, hPlanned, hResult.trans hDestination, ?_, ?_⟩
      · intro names _ hAwaits
        unfold Awaits
        rw [hStage]
        exact hAwaits
      · rw [hFiles, if_pos rfl]
      · apply hTemporary
        rw [← hSource]
        exact hContent

theorem scanning_effect (hTree : DistinctNames host.tree) (hSound : upload.Sound host) {streamed : StreamedUpload}
    {destination : List PyStr} (hStage : upload.stage = .scanning streamed destination) :
    upload.Effect host (upload.step host) := by
  unfold Sound at hSound
  rw [hStage] at hSound
  unfold step
  rw [hStage]
  dsimp only
  split
  · rename_i scanResult _
    apply Effect.of_same (.persisting streamed destination scanResult) hTree _ hSound
    intro names _ hAwaits
    unfold Awaits
    rw [hStage]
    exact hAwaits
  · exact Effect.of_same (.cleaning _) hTree (fun _ _ h => h.elim) ⟨hSound.1, hSound.2.candidates⟩

theorem persisting_effect (hTree : DistinctNames host.tree) (hAlone : upload.env.meanwhile = id) (hSound : upload.Sound host)
    {streamed : StreamedUpload} {destination : List PyStr} {scanResult : ScanResult}
    (hStage : upload.stage = .persisting streamed destination scanResult) : upload.Effect host (upload.step host) := by
  unfold Sound at hSound
  rw [hStage] at hSound
  obtain ⟨hRowless, hStored⟩ := hSound
  have hCandidates := hStored.candidates
  unfold step
  rw [hStage]
  dsimp only
  rcases UploadService.persistMetadata_run upload.request streamed
      (validateFileSignature upload.env.unicode streamed.pathPlan.original.extension streamed.signatureSample) scanResult host
    with ⟨e, after, hRun, hSame, hDatabase⟩ | ⟨row, after, hRun, hSame, hDatabase, hSize, hDigest, hPath⟩
  · rw [hRun]
    dsimp only
    have hRows : after.database = host.database := by
      rcases hDatabase with hDatabase | hDatabase
      · exact hDatabase
      · rw [hDatabase, hAlone]
        rfl
    refine ⟨?_, Or.inl hRows, fun _ _ h => h.elim, ?_, hCandidates⟩
    · rw [hSame]
      exact Changes.refl hTree
    · intro other hOther
      rw [hRows] at hOther
      exact hRowless other hOther
  · rw [hRun]
    dsimp only
    obtain ⟨parts, leaf, hPlanned, rfl, hFile, content, rfl, hLength, hHash⟩ := hStored
    have hNames : row.relativeStoragePath = joinSlash parts := hPath.trans hPlanned.quarantineRelativePath
    refine ⟨?_, Or.inr ⟨row, parts, ?_, hPlanned.fileNames, hNames, hPlanned.owned, ?_, ?_⟩, fun _ _ h => h.elim, trivial⟩
    · rw [hSame]
      exact Changes.refl hTree
    · rw [hDatabase, hAlone]
      rfl
    · unfold Awaits
      rw [hStage]
      exact hPlanned.quarantineRelativePath
    · refine ⟨.quarantine, parts, content, hPlanned.fileNames, hNames, ?_, hLength.trans hSize.symm, hHash.trans hDigest.symm⟩
      rw [hSame]
      exact hFile

/-- The removal of what a failure left. -/
theorem cleaning_effect (hTree : DistinctNames host.tree) (hUnlinked : Unlinked upload.env.paths host.tree)
    (hSound : upload.Sound host) {candidates : List (List PyStr)} (hStage : upload.stage = .cleaning candidates) :
    upload.Effect host (upload.step host) := by
  unfold Sound at hSound
  rw [hStage] at hSound
  unfold step
  rw [hStage]
  cases candidates with
  | nil => exact Effect.of_same .finished hTree (fun _ _ h => h.elim) trivial
  | cons path candidates =>
      have hPath := hSound.2 path List.mem_cons_self
      have hLink : isSymlink (host.tree.node? path) = false := by
        rcases hPath with rfl | ⟨names, -, -, rfl⟩
        · exact UploadEnvironment.isSymlink_temporaryPath hUnlinked
        · exact hUnlinked _ (Or.inr ⟨_, rfl⟩) _ (Or.inr (List.prefix_append _ _))
      refine ⟨?_, Or.inl rfl, fun _ _ h => h.elim, hSound.1, fun other hOther => hSound.2 other (List.mem_cons_of_mem _ hOther)⟩
      apply (unlinkQuietly_changes hTree (upload.env.unlinkCandidate path) hLink).mono
      · rintro other rfl
        rcases hPath with hTemporary | hOwn
        · exact Or.inl hTemporary
        · exact Or.inr ⟨⟨_, hStage⟩, hOwn⟩
      · exact fun _ h => h.elim

/-- What one step of an upload does, whatever fails. -/
theorem step_effect (hTree : DistinctNames host.tree) (hUnlinked : Unlinked upload.env.paths host.tree)
    (hApart : Apart upload.env.paths) (hAlone : upload.env.meanwhile = id) (hSound : upload.Sound host) :
    upload.Effect host (upload.step host) := by
  cases hStage : upload.stage with
  | requiring => exact requiring_effect hTree hSound hStage
  | streaming => exact streaming_effect hTree hUnlinked hApart hSound hStage
  | moving streamed => exact moving_effect hTree hUnlinked hSound hStage
  | scanning streamed destination => exact scanning_effect hTree hSound hStage
  | persisting streamed destination scanResult => exact persisting_effect hTree hAlone hSound hStage
  | cleaning candidates => exact cleaning_effect hTree hUnlinked hSound hStage
  | finished =>
      have hSame : upload.step host = (upload, host) := by
        unfold step
        rw [hStage]
      rw [hSame]
      exact ⟨Changes.refl hTree, Or.inl rfl, fun _ _ h => h, hSound⟩

/-- What others do leaves an upload sound: they take none of its files and add none, and no row with one. -/
theorem Sound.of_others {after : Host} {gone added : List PyStr → Prop} (h : upload.Sound host)
    (hChanges : Changes gone added host.tree after.tree)
    (hGone : ∀ names, (∀ name ∈ names, IsFileName name) → upload.Awaits names →
      ¬gone (upload.env.paths.root .quarantine ++ names))
    (hTemporary : ¬added upload.env.temporaryPath)
    (hAdded : ∀ area names, upload.env.Owned names → ¬added (upload.env.paths.root area ++ names))
    (hRows : upload.Rowless host → upload.Rowless after) : upload.Sound after := by
  have hUnmoved : upload.Unmoved host → upload.Unmoved after := by
    intro hBefore area names leaf hOwned hFile
    rcases hChanges.appeared _ _ hFile with hOld | ⟨hNew, -⟩
    · exact hBefore area names leaf hOwned hOld
    · exact hAdded area names hOwned hNew
  have hStored {streamed : StreamedUpload} {destination : List PyStr}
      (hPath : ∀ names, streamed.pathPlan.quarantineRelativePath = joinSlash names → upload.Awaits names) :
      upload.Stored streamed destination host → upload.Stored streamed destination after := by
    rintro ⟨parts, leaf, hPlanned, rfl, hFile, hLeaf⟩
    refine ⟨parts, leaf, hPlanned, rfl, ?_, hLeaf⟩
    apply (hChanges.kept _ _ hFile).resolve_right
    exact hGone parts hPlanned.fileNames (hPath parts hPlanned.quarantineRelativePath)
  unfold Sound at h ⊢
  unfold Awaits at hStored
  cases hStage : upload.stage with
  | requiring =>
      rw [hStage] at h
      exact ⟨hRows h.1, hUnmoved h.2⟩
  | streaming =>
      rw [hStage] at h
      exact ⟨hRows h.1, hUnmoved h.2⟩
  | moving streamed =>
      rw [hStage] at h
      obtain ⟨hRowless, hBefore, parts, hPlanned, hFile⟩ := h
      refine ⟨hRows hRowless, hUnmoved hBefore, parts, hPlanned, ?_⟩
      intro leaf hLeaf
      rcases hChanges.appeared _ _ hLeaf with hOld | ⟨hNew, -⟩
      · exact hFile leaf hOld
      · exact (hTemporary hNew).elim
  | scanning streamed destination =>
      rw [hStage] at h hStored
      exact ⟨hRows h.1, hStored (fun _ hPath => hPath) h.2⟩
  | persisting streamed destination scanResult =>
      rw [hStage] at h hStored
      exact ⟨hRows h.1, hStored (fun _ hPath => hPath) h.2⟩
  | cleaning candidates =>
      rw [hStage] at h
      exact ⟨hRows h.1, h.2⟩
  | finished => exact trivial

end Upload
end SoftwareHub.Lifecycle
