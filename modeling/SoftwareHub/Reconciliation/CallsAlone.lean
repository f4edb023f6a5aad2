import SoftwareHub.Reconciliation.ConcurrentUploads
import SoftwareHub.Reconciliation.InspectedBytes

/-! Uploads and removals of orphans that nobody interrupts: their steps are the
calls of the services. -/
namespace SoftwareHub.Reconciliation

open SoftwareHub.Python SoftwareHub.Tree SoftwareHub.Semantics SoftwareHub.Catalog SoftwareHub.Lifecycle Program
open SoftwareHub.Backup (Directory Leaf)
open SoftwareHub.Storage (StorageArea TreeProgram atomicMove)

section Uploads

variable {upload : Upload} {host : Host}

/-- The handler removes one file after another. -/
theorem failed_cons {α : Type} (env : UploadEnvironment) (path : List PyStr) (candidates : List (List PyStr)) (e : PyException)
    (host : Host) : (UploadService.failed env (path :: candidates) e : HostProgram α) host =
      UploadService.failed env candidates e { host with tree := (unlinkQuietly (env.unlinkCandidate path) path host.tree).2 } := by
  rfl

theorem failed_nil_state {α : Type} (env : UploadEnvironment) (e : PyException) (host : Host) :
    ((UploadService.failed env [] e : HostProgram α) host).2 = host := by
  unfold UploadService.failed FileService.reraise
  split_ifs <;> rfl

/-- The steps that clean up are the handler. -/
theorem runsAlone_cleaning {α : Type} (upload : Upload) (candidates : List (List PyStr)) (e : PyException) (host : Host) :
    RunsAlone Upload.step (upload.at (.cleaning candidates), host)
      (upload.at .finished, ((UploadService.failed upload.env candidates e : HostProgram α) host).2) := by
  induction candidates generalizing host with
  | nil =>
      rw [failed_nil_state]
      exact .head (.refl _)
  | cons path candidates ih =>
      rw [failed_cons]
      exact .head (ih _)

theorem failed_error {α : Type} (env : UploadEnvironment) (candidates : List (List PyStr)) (e : PyException) (host : Host) :
    ∃ raised after, (UploadService.failed env candidates e : HostProgram α) host = (.error raised, after) := by
  induction candidates generalizing host with
  | nil =>
      unfold UploadService.failed FileService.reraise
      split_ifs
      · exact ⟨_, _, rfl⟩
      · exact ⟨_, _, rfl⟩
  | cons path candidates ih => exact ih _

theorem handled_state {α β : Type} {env : UploadEnvironment} {candidates : List (List PyStr)} {x : HostProgram α} {e : PyException}
    {after : Host} (h : x host = (.error e, after)) (k : α → HostProgram β) :
    ((tryExcept x (UploadService.failed env candidates) >>= k) host).2 =
      ((UploadService.failed env candidates e : HostProgram α) after).2 := by
  obtain ⟨raised, last, hRaised⟩ := @failed_error α env candidates e after
  rw [bind_error ((tryExcept_error h).trans hRaised), hRaised]

/-- A step on the tree changes the tree. -/
theorem onTree_run {α : Type} {x : TreeProgram α} {outcome : Except PyException α} {tree : Directory}
    (h : x host.tree = (outcome, tree)) : onTree x host = (outcome, { host with tree := tree }) := by
  unfold onTree
  rw [h]

theorem runsAlone_scanning (upload : Upload) (streamed : StreamedUpload) (destination : List PyStr) (host : Host) :
    RunsAlone Upload.step (upload.at (.scanning streamed destination), host) (upload.at .finished,
      (tryExcept
        (do
          let scanResult ← lift upload.env.scan
          UploadService.persistMetadata upload.env upload.request streamed
            (Storage.validateFileSignature upload.env.unicode streamed.pathPlan.original.extension streamed.signatureSample)
            scanResult)
        (UploadService.failed upload.env [streamed.pathPlan.temporaryPath, destination]) host).2) := by
  cases hScan : upload.env.scan with
  | error e =>
      have hStep : (upload.at (.scanning streamed destination)).step host =
          (upload.at (.cleaning [streamed.pathPlan.temporaryPath, destination]), host) := by
        unfold Upload.step
        dsimp only [Upload.at]
        rw [hScan]
      rw [tryExcept_error (lift_error_bind e _ host)]
      exact .of_step hStep (runsAlone_cleaning upload _ e host)
  | ok scanResult =>
      have hStep : (upload.at (.scanning streamed destination)).step host =
          (upload.at (.persisting streamed destination scanResult), host) := by
        unfold Upload.step
        dsimp only [Upload.at]
        rw [hScan]
      apply RunsAlone.of_step hStep
      rcases hPersist : UploadService.persistMetadata upload.env upload.request streamed
        (Storage.validateFileSignature upload.env.unicode streamed.pathPlan.original.extension streamed.signatureSample)
        scanResult host with ⟨outcome, after⟩
      cases outcome with
      | ok row =>
          have hLast : (upload.at (.persisting streamed destination scanResult)).step host = (upload.at .finished, after) := by
            unfold Upload.step
            dsimp only [Upload.at]
            rw [hPersist]
          rw [tryExcept_ok ((lift_ok_bind scanResult _ host).trans hPersist)]
          exact .of_step hLast (.refl _)
      | error e =>
          have hLast : (upload.at (.persisting streamed destination scanResult)).step host =
              (upload.at (.cleaning [streamed.pathPlan.temporaryPath, destination]), after) := by
            unfold Upload.step
            dsimp only [Upload.at]
            rw [hPersist]
          rw [tryExcept_error ((lift_ok_bind scanResult _ host).trans hPersist)]
          exact .of_step hLast (runsAlone_cleaning upload _ e after)

/-- The body of the `try`, from the copy on. -/
theorem runsAlone_streaming (upload : Upload) (host : Host) :
    RunsAlone Upload.step (upload.at .streaming, host)
      (upload.at .finished, (UploadService.uploadChecked upload.env upload.request host).2) := by
  unfold UploadService.uploadChecked
  rcases hStream : UploadService.streamUploadToTemporary upload.env upload.request host.tree with ⟨streamOutcome, copied⟩
  have hCopy := onTree_run hStream
  cases streamOutcome with
  | error e =>
      have hStep : (upload.at .streaming).step host = (upload.at (.cleaning []), { host with tree := copied }) := by
        unfold Upload.step
        dsimp only [Upload.at]
        rw [hStream]
      rw [handled_state hCopy]
      exact .of_step hStep (runsAlone_cleaning upload [] e _)
  | ok streamed =>
      have hStep : (upload.at .streaming).step host = (upload.at (.moving streamed), { host with tree := copied }) := by
        unfold Upload.step
        dsimp only [Upload.at]
        rw [hStream]
      rw [bind_ok (tryExcept_ok hCopy)]
      apply RunsAlone.of_step hStep
      rcases hMove : atomicMove upload.env.moving (UploadService.quarantineMove upload.env streamed) copied with
        ⟨moveOutcome, moved⟩
      have hMoved : onTree (atomicMove upload.env.moving (UploadService.quarantineMove upload.env streamed))
          { host with tree := copied } = (moveOutcome, { host with tree := moved }) := onTree_run hMove
      cases moveOutcome with
      | error e =>
          have hNext : (upload.at (.moving streamed)).step { host with tree := copied } =
              (upload.at (.cleaning [streamed.pathPlan.temporaryPath]), { host with tree := moved }) := by
            unfold Upload.step
            dsimp only [Upload.at]
            rw [hMove]
          rw [handled_state hMoved]
          exact .of_step hNext (runsAlone_cleaning upload _ e _)
      | ok result =>
          have hNext : (upload.at (.moving streamed)).step { host with tree := copied } =
              (upload.at (.scanning streamed result.destination), { host with tree := moved }) := by
            unfold Upload.step
            dsimp only [Upload.at]
            rw [hMove]
          rw [bind_ok (tryExcept_ok hMoved)]
          exact .of_step hNext (runsAlone_scanning upload streamed result.destination _)

/-- Closing the submitted file changes nothing here. -/
theorem closeUpload_state (env : UploadEnvironment) (host : Host) : (UploadService.closeUpload env host).2 = host := by
  unfold UploadService.closeUpload
  cases env.uploadCloseFault <;> rfl

/-- An upload that nobody interrupts is the call of the service. -/
theorem upload_runsAlone (env : UploadEnvironment) (request : UploadRequest) (host : Host) :
    RunsAlone Upload.step (⟨env, request, .requiring⟩, host)
      (⟨env, request, .finished⟩, (UploadService.uploadReleaseFile env request host).2) := by
  unfold UploadService.uploadReleaseFile
  cases hRequire : call env.requireFault id with
  | error e =>
      have hStep : (⟨env, request, .requiring⟩ : Upload).step host = (⟨env, request, .finished⟩, host) := by
        unfold Upload.step
        dsimp only [Upload.at]
        rw [hRequire]
      exact .of_step hStep (.refl _)
  | ok _ =>
      rw [lift_ok_bind, read_bind]
      by_cases hRelease : host.database.release? request.releaseId = none
      · have hStep : (⟨env, request, .requiring⟩ : Upload).step host = (⟨env, request, .finished⟩, host) := by
          unfold Upload.step
          dsimp only [Upload.at]
          rw [hRequire]
          exact if_pos hRelease
        rw [if_pos hRelease]
        exact .of_step hStep (.refl _)
      · have hStep : (⟨env, request, .requiring⟩ : Upload).step host = (⟨env, request, .streaming⟩, host) := by
          unfold Upload.step
          dsimp only [Upload.at]
          rw [hRequire]
          exact if_neg hRelease
        rw [if_neg hRelease]
        apply RunsAlone.of_step hStep
        have hBody := runsAlone_streaming ⟨env, request, .streaming⟩ host
        rcases hRun : UploadService.uploadChecked env request host with ⟨outcome, after⟩
        rw [hRun] at hBody
        have hClose : UploadService.closeUpload env after = ((UploadService.closeUpload env after).1, after) :=
          Prod.ext rfl (closeUpload_state env after)
        rw [tryFinally_run hRun hClose]
        exact hBody

end Uploads

section Removals

variable {cleanup : Cleanup} {host : Host}

/-- What the walk reports about files at their paths below an area. -/
def issuesOf (env : ScanEnvironment) (known : List PyStr) (area : StorageArea) (files : List (List PyStr × Leaf)) : List Issue :=
  files.filterMap (entryIssue env known area)

/-- The entries of one directory are looked at in their order. -/
theorem runsAlone_entries (cleanup : Cleanup) (walk : Walk) (area : StorageArea) {files : List (List PyStr × Leaf)}
    (hFiles : ∀ file ∈ files, host.tree.file? (cleanup.env.paths.root area ++ file.1) = some file.2)
    (hEntries : walk.entries = files.map fun file => (area, file.1)) :
    RunsAlone Cleanup.step (cleanup.at (.walking walk), host) (cleanup.at (.walking { walk with
      entries := []
      issues := walk.issues ++ issuesOf cleanup.env walk.known area files }), host) := by
  induction files generalizing walk with
  | nil =>
      have hSame : { walk with entries := [], issues := walk.issues ++ issuesOf cleanup.env walk.known area [] } = walk := by
        have hNone : walk.entries = [] := hEntries
        unfold issuesOf
        rw [List.filterMap_nil, List.append_nil, ← hNone]
      rw [hSame]
      exact .refl _
  | cons file files ih =>
      obtain ⟨names, leaf⟩ := file
      have hLook : lookAt cleanup.env walk.known area names host.tree = entryIssue cleanup.env walk.known area (names, leaf) := by
        unfold lookAt
        rw [hFiles (names, leaf) List.mem_cons_self]
      have hStep : (cleanup.at (.walking walk)).step host = (cleanup.at (.walking { walk with
          entries := files.map fun file => (area, file.1)
          issues := walk.issues ++ (entryIssue cleanup.env walk.known area (names, leaf)).toList }), host) := by
        unfold Cleanup.step
        dsimp only [Cleanup.at]
        rw [hEntries, List.map_cons]
        dsimp only
        rw [hLook]
      have hRest := ih { walk with
        entries := files.map fun file => (area, file.1)
        issues := walk.issues ++ (entryIssue cleanup.env walk.known area (names, leaf)).toList }
        (fun other hOther => hFiles other (List.mem_cons_of_mem _ hOther)) rfl
      have hIssues : issuesOf cleanup.env walk.known area ((names, leaf) :: files) =
          (entryIssue cleanup.env walk.known area (names, leaf)).toList ++ issuesOf cleanup.env walk.known area files := by
        unfold issuesOf
        rw [List.filterMap_cons]
        cases entryIssue cleanup.env walk.known area (names, leaf) <;> rfl
      rw [hIssues, ← List.append_assoc]
      exact .of_step hStep hRest

/-- A listed directory, with what is listed before the others. -/
theorem runsAlone_directory (hTree : DistinctNames host.tree) (cleanup : Cleanup) (known : List PyStr) (area : StorageArea)
    (names : List PyStr) (directories : List (StorageArea × List PyStr)) (issues : List Issue) {content : Directory}
    (hNode : host.tree.node? (cleanup.env.paths.root area ++ names) = some (.dir content)) :
    RunsAlone Cleanup.step (cleanup.at (.walking ⟨known, (area, names) :: directories, [], issues⟩), host)
      (cleanup.at (.walking ⟨known, content.directoryNames.map (fun name => (area, names ++ [name])) ++ directories, [],
        issues ++ issuesOf cleanup.env known area (content.leaves.map fun leaf => (names ++ [leaf.1], leaf.2))⟩), host) := by
  have hContent : content.WellFormed fun _ => True := (hTree.node? hNode).2
  have hStep : (cleanup.at (.walking ⟨known, (area, names) :: directories, [], issues⟩)).step host =
      (cleanup.at (.walking ⟨known, content.directoryNames.map (fun name => (area, names ++ [name])) ++ directories,
        content.leaves.map fun leaf => (area, names ++ [leaf.1]), issues⟩), host) := by
    unfold Cleanup.step Walk.list
    dsimp only [Cleanup.at]
    rw [hNode]
  apply RunsAlone.of_step hStep
  apply runsAlone_entries cleanup ⟨known, _, _, issues⟩ area
  · intro file hFile
    obtain ⟨⟨name, leaf⟩, hLeaf, rfl⟩ := List.mem_map.mp hFile
    dsimp only
    rw [← List.append_assoc, Forest.file?_append hNode, Forest.file?_cons, (Forest.mem_leaves_iff hContent name leaf).mp hLeaf]
    rfl
  · rw [List.map_map]
    rfl

/-- The directories below one are walked like `os.walk` does. -/
theorem runsAlone_below (hTree : DistinctNames host.tree) (cleanup : Cleanup) (known : List PyStr) (area : StorageArea)
    (names : List PyStr) (directories : List (StorageArea × List PyStr)) (issues : List Issue) (content : Directory)
    (hBelow : ∀ entry ∈ content.subdirectories,
      host.tree.node? (cleanup.env.paths.root area ++ (names ++ [entry.1])) = some (.dir entry.2)) :
    RunsAlone Cleanup.step
      (cleanup.at (.walking ⟨known, content.directoryNames.map (fun name => (area, names ++ [name])) ++ directories, [], issues⟩),
        host)
      (cleanup.at (.walking ⟨known, directories, [],
        issues ++ issuesOf cleanup.env known area (Forest.visitedFiles (content.visitsBelow (fun _ => true) names))⟩), host) := by
  induction content generalizing names directories issues with
  | nil =>
      have hNone : issuesOf cleanup.env known area (Forest.visitedFiles (Forest.visitsBelow (fun _ => true) names .nil)) = [] := rfl
      rw [hNone, List.append_nil]
      exact .refl _
  | leaf name value rest ih => exact ih names directories issues hBelow
  | dir name sub rest ihSub ihRest =>
      have hNode := hBelow (name, sub) List.mem_cons_self
      have hSub : sub.WellFormed fun _ => True := (hTree.node? hNode).2
      have hHere := runsAlone_directory hTree cleanup known area (names ++ [name])
        (rest.directoryNames.map (fun other => (area, names ++ [other])) ++ directories) issues hNode
      have hInside := ihSub (names ++ [name]) (rest.directoryNames.map (fun other => (area, names ++ [other])) ++ directories)
        (issues ++ issuesOf cleanup.env known area (sub.leaves.map fun leaf => (names ++ [name] ++ [leaf.1], leaf.2))) (by
          intro entry hEntry
          rw [← List.append_assoc (cleanup.env.paths.root area), Forest.node?_append hNode, Forest.node?_cons,
            (Forest.mem_subdirectories_iff hSub _ _).mp hEntry]
          exact Forest.node?_nil _)
      have hAfter := ihRest names directories
        (issues ++ issuesOf cleanup.env known area (sub.leaves.map fun leaf => (names ++ [name] ++ [leaf.1], leaf.2)) ++
          issuesOf cleanup.env known area (Forest.visitedFiles (sub.visitsBelow (fun _ => true) (names ++ [name]))))
        fun entry hEntry => hBelow entry (List.mem_cons_of_mem _ hEntry)
      have hFiles : Forest.visitedFiles (Forest.visitsBelow (fun _ => true) names (.dir name sub rest)) =
          (sub.leaves.map fun leaf => (names ++ [name] ++ [leaf.1], leaf.2)) ++
            Forest.visitedFiles (sub.visitsBelow (fun _ => true) (names ++ [name])) ++
            Forest.visitedFiles (rest.visitsBelow (fun _ => true) names) := by
        simp [Forest.visitsBelow]
      have hRun := (hHere.trans hInside).trans hAfter
      have hIssues : issues ++ issuesOf cleanup.env known area (Forest.visitedFiles
          (Forest.visitsBelow (fun _ => true) names (.dir name sub rest))) = issues ++
            issuesOf cleanup.env known area (sub.leaves.map fun leaf => (names ++ [name] ++ [leaf.1], leaf.2)) ++
            issuesOf cleanup.env known area (Forest.visitedFiles (sub.visitsBelow (fun _ => true) (names ++ [name]))) ++
            issuesOf cleanup.env known area (Forest.visitedFiles (rest.visitsBelow (fun _ => true) names)) := by
        rw [hFiles]
        unfold issuesOf
        rw [List.filterMap_append, List.filterMap_append, List.append_assoc, List.append_assoc, List.append_assoc]
      rw [hIssues]
      exact hRun

theorem runsAlone_area (hTree : DistinctNames host.tree) (cleanup : Cleanup) (known : List PyStr) (area : StorageArea)
    (directories : List (StorageArea × List PyStr)) (issues : List Issue) :
    RunsAlone Cleanup.step (cleanup.at (.walking ⟨known, (area, []) :: directories, [], issues⟩), host)
      (cleanup.at (.walking ⟨known, directories, [], issues ++ areaIssues cleanup.env known host.tree area⟩), host) := by
  unfold areaIssues
  cases hNode : host.tree.node? (cleanup.env.paths.root area) with
  | none =>
      have hStep : (cleanup.at (.walking ⟨known, (area, []) :: directories, [], issues⟩)).step host =
          (cleanup.at (.walking ⟨known, directories, [], issues ++ [⟨.unsafeStorageEntry, py ".", none, some area, none, none⟩]⟩),
            host) := by
        unfold Cleanup.step Walk.list
        dsimp only [Cleanup.at]
        rw [List.append_nil, hNode]
        rfl
      exact .of_step hStep (.refl _)
  | some entry =>
      cases entry with
      | leaf value =>
          have hStep : (cleanup.at (.walking ⟨known, (area, []) :: directories, [], issues⟩)).step host =
              (cleanup.at (.walking ⟨known, directories, [],
                issues ++ [⟨.unsafeStorageEntry, py ".", none, some area, none, none⟩]⟩), host) := by
            unfold Cleanup.step Walk.list
            dsimp only [Cleanup.at]
            rw [List.append_nil, hNode]
            rfl
          exact .of_step hStep (.refl _)
      | dir content =>
          have hContent : content.WellFormed fun _ => True := (hTree.node? hNode).2
          have hHere := runsAlone_directory hTree cleanup known area [] directories issues
            ((List.append_nil (cleanup.env.paths.root area)).symm ▸ hNode)
          have hBelow := runsAlone_below hTree cleanup known area [] directories
            (issues ++ issuesOf cleanup.env known area (content.leaves.map fun leaf => ([] ++ [leaf.1], leaf.2))) content (by
              intro entry hEntry
              rw [Forest.node?_append hNode, List.nil_append, Forest.node?_cons,
                (Forest.mem_subdirectories_iff hContent _ _).mp hEntry]
              exact Forest.node?_nil _)
          have hIssues : issues ++ (content.walkFiles fun _ => true).filterMap (entryIssue cleanup.env known area) =
              issues ++ issuesOf cleanup.env known area (content.leaves.map fun leaf => ([] ++ [leaf.1], leaf.2)) ++
                issuesOf cleanup.env known area (Forest.visitedFiles (content.visitsBelow (fun _ => true) [])) := by
            unfold issuesOf Forest.walkFiles Forest.walk
            rw [Forest.visitedFiles_cons, List.filterMap_append, List.append_assoc]
          dsimp only
          rw [hIssues]
          exact hHere.trans hBelow

/-- The snapshot and the walk give the issues of one scan. -/
theorem runsAlone_scan (hTree : DistinctNames host.tree) (cleanup : Cleanup) :
    RunsAlone Cleanup.step (cleanup.at .reading, host)
      (cleanup.at (.removing 0 (orphanIssues cleanup.env (knownPaths host.database) host.tree)), host) := by
  have hStart : (cleanup.at .reading).step host =
      (cleanup.at (.walking ⟨knownPaths host.database, [(.quarantine, []), (.software, [])], [], []⟩), host) := rfl
  have hQuarantine := runsAlone_area hTree cleanup (knownPaths host.database) .quarantine [(.software, [])] []
  have hSoftware := runsAlone_area hTree cleanup (knownPaths host.database) .software []
    ([] ++ areaIssues cleanup.env (knownPaths host.database) host.tree .quarantine)
  exact .of_step hStart ((hQuarantine.trans hSoftware).trans (.head (.refl _)))

/-- Where the steps are after an iteration. -/
def afterIssue (cleanup : Cleanup) (index : Nat) (issues : List Issue) (host : Host) :
    Except PyException Bool × Directory → Cleanup × Host
  | (.ok _, tree) => (cleanup.at (.removing (index + 1) issues), { host with tree := tree })
  | (.error _, tree) => (cleanup.at .finished, { host with tree := tree })

/-- A failure ends the iteration or the run. -/
theorem skip_eq (cleanup : Cleanup) (index : Nat) (issues : List Issue) (host : Host) (e : PyException) (tree : Directory)
    (stage : CleanupStage) : ((cleanup.at stage).skip index issues e, { host with tree := tree }) =
      afterIssue cleanup index issues host
        ((if isStorageFailure e = true then pure false else raise e : TreeProgram Bool) tree) := by
  unfold Cleanup.skip
  split_ifs
  · rfl
  · rfl

/-- What follows the check of an entry. -/
def checked (cleanup : Cleanup) (index : Nat) (issue : Issue) (issues : List Issue) (host : Host) :
    Except PyException (Option StoredFile) → Cleanup × Host
  | .ok (some stored) => (cleanup.at (.staging index stored issues), host)
  | .ok none => (cleanup.at (.removing (index + 1) issues), host)
  | .error e => ((cleanup.at (.removing index (issue :: issues))).skip index issues e, host)

theorem runsAlone_issue (cleanup : Cleanup) (index : Nat) (issue : Issue) (issues : List Issue) (host : Host) :
    RunsAlone Cleanup.step (cleanup.at (.removing index (issue :: issues)), host)
      (afterIssue cleanup index issues host
        (cleanupIssue cleanup.env cleanup.device (cleanup.removal index) issue host.tree)) := by
  have hStep : (cleanup.at (.removing index (issue :: issues))).step host =
      checked cleanup index issue issues host (checkEntry cleanup.env (cleanup.removal index) issue host.tree) := rfl
  apply RunsAlone.of_step hStep
  unfold cleanupIssue
  cases hArea : issue.storageArea with
  | none =>
      have hCheck : checkEntry cleanup.env (cleanup.removal index) issue host.tree = .ok none := by
        unfold checkEntry
        rw [hArea]
      rw [hCheck]
      exact .refl _
  | some area =>
      dsimp only [checked]
      rw [removeEntry_eq cleanup.env cleanup.device (cleanup.removal index) issue hArea]
      cases hCheck : checkEntry cleanup.env (cleanup.removal index) issue host.tree with
      | error e =>
          dsimp only [checked]
          rw [tryExcept_error (by rw [read_bind, id, hCheck, lift_error_bind]), ← skip_eq cleanup index issues host e host.tree
            (.removing index (issue :: issues))]
          exact .refl _
      | ok found =>
          cases found with
          | none =>
              rw [tryExcept_ok (by rw [read_bind, id, hCheck, lift_ok_bind]; rfl)]
              exact .refl _
          | some stored =>
              dsimp only [checked]
              rcases hStage : stageForPermanentDeletion ⟨cleanup.env.links, cleanup.device, (cleanup.removal index).move⟩
                cleanup.env.paths (cleanup.removal index).uuid stored host.tree with ⟨stageOutcome, moved⟩
              cases stageOutcome with
              | error e =>
                  have hNext : (cleanup.at (.staging index stored issues)).step host =
                      ((cleanup.at (.staging index stored issues)).skip index issues e, { host with tree := moved }) := by
                    unfold Cleanup.step
                    dsimp only [Cleanup.at]
                    rw [hStage]
                  rw [tryExcept_error (by rw [read_bind, id, hCheck, lift_ok_bind]; exact bind_error hStage _),
                    ← skip_eq cleanup index issues host e moved (.staging index stored issues)]
                  exact .of_step hNext (.refl _)
              | ok staged =>
                  have hNext : (cleanup.at (.staging index stored issues)).step host =
                      (cleanup.at (.unlinking index staged issues), { host with tree := moved }) := by
                    unfold Cleanup.step
                    dsimp only [Cleanup.at]
                    rw [hStage]
                  apply RunsAlone.of_step hNext
                  rcases hUnlink : unlinkStagedDeletion cleanup.env.links (cleanup.removal index).unlink cleanup.env.paths staged
                    moved with ⟨unlinkOutcome, after⟩
                  cases unlinkOutcome with
                  | error e =>
                      have hLast : (cleanup.at (.unlinking index staged issues)).step { host with tree := moved } =
                          ((cleanup.at (.unlinking index staged issues)).skip index issues e, { host with tree := after }) := by
                        unfold Cleanup.step
                        dsimp only [Cleanup.at]
                        rw [hUnlink]
                      rw [tryExcept_error (by
                          rw [read_bind, id, hCheck, lift_ok_bind]
                          dsimp only
                          rw [bind_ok hStage]
                          exact bind_error hUnlink _),
                        ← skip_eq cleanup index issues host e after (.unlinking index staged issues)]
                      exact .of_step hLast (.refl _)
                  | ok deleted =>
                      have hLast : (cleanup.at (.unlinking index staged issues)).step { host with tree := moved } =
                          (cleanup.at (.removing (index + 1) issues), { host with tree := after }) := by
                        unfold Cleanup.step
                        dsimp only [Cleanup.at]
                        rw [hUnlink]
                      rw [tryExcept_ok (by
                          rw [read_bind, id, hCheck, lift_ok_bind]
                          dsimp only
                          rw [bind_ok hStage, bind_ok hUnlink]
                          rfl)]
                      exact .of_step hLast (.refl _)

theorem runsAlone_removing (cleanup : Cleanup) (issues : List Issue) (index : Nat) (host : Host) :
    RunsAlone Cleanup.step (cleanup.at (.removing index issues), host)
      (cleanup.at .finished, { host with
        tree := (cleanupIssues cleanup.env cleanup.device cleanup.removal index issues host.tree).2 }) := by
  induction issues generalizing index host with
  | nil => exact .head (.refl _)
  | cons issue issues ih =>
      have hIssue := runsAlone_issue cleanup index issue issues host
      unfold cleanupIssues
      rcases hRun : cleanupIssue cleanup.env cleanup.device (cleanup.removal index) issue host.tree with ⟨outcome, tree⟩
      rw [hRun] at hIssue
      cases outcome with
      | error e =>
          rw [bind_error hRun]
          exact hIssue
      | ok deleted =>
          rw [bind_ok hRun, bind_pure_state]
          exact hIssue.trans (ih (index + 1) { host with tree := tree })

/-- A removal that nobody interrupts is the call of the service. -/
theorem cleanup_runsAlone (env : ScanEnvironment) (device : List PyStr → Nat) (removal : Nat → RemovalEnvironment)
    (hTree : DistinctNames host.tree) : RunsAlone Cleanup.step (⟨env, device, removal, .reading⟩, host)
      (⟨env, device, removal, .finished⟩, (cleanupOrphans env device removal false host).2) := by
  have hScan := runsAlone_scan hTree ⟨env, device, removal, .reading⟩
  have hLoop := runsAlone_removing ⟨env, device, removal, .reading⟩ (orphanIssues env (knownPaths host.database) host.tree) 0 host
  rw [cleanupOrphans_state]
  exact hScan.trans hLoop

end Removals

namespace Process

/-- The call of the service, of which the state is what matters to others. -/
def call : Process → Host → Host
  | .removal cleanup, host => (cleanupOrphans cleanup.env cleanup.device cleanup.removal false host).2
  | .request upload, host => (UploadService.uploadReleaseFile upload.env upload.request host).2

def done : Process → Process
  | .removal cleanup => .removal (cleanup.at .finished)
  | .request upload => .request (upload.at .finished)

/-- No call spoils the names of the tree. -/
theorem call_distinct (process : Process) {host : Host} (hTree : DistinctNames host.tree) :
    DistinctNames (process.call host).tree := by
  cases process with
  | request upload => exact uploadReleaseFile_preserves upload.request host hTree
  | removal cleanup =>
      have hLoop := @cleanupIssues_preserves cleanup.env cleanup.device cleanup.removal
        (orphanIssues cleanup.env (knownPaths host.database) host.tree) 0 host.tree hTree
      unfold call
      dsimp only
      rw [cleanupOrphans_state]
      exact hLoop

/-- A process that is left alone makes its call. -/
theorem runsAlone_call {process : Process} (hStarted : process.Started) {host : Host} (hTree : DistinctNames host.tree) :
    RunsAlone step (process, host) (process.done, process.call host) := by
  cases process with
  | removal cleanup =>
      obtain ⟨env, device, removal, stage⟩ := cleanup
      obtain rfl : stage = .reading := hStarted
      exact (cleanup_runsAlone env device removal hTree).lift fun _ _ => rfl
  | request upload =>
      obtain ⟨env, request, stage⟩ := upload
      obtain rfl : stage = .requiring := hStarted.1
      exact (upload_runsAlone env request host).lift fun _ _ => rfl

end Process

/-- Among the interleavings of removals and uploads are the calls of the
services one after another. -/
theorem calls_one_after_another (processes : List Process) {host : Host} (hStarted : ∀ process ∈ processes, process.Started)
    (hTree : DistinctNames host.tree) : ∃ schedule, interleave Process.step schedule (processes, host) =
      (processes.map Process.done, processes.foldl (fun host process => process.call host) host) := by
  apply exists_schedule_of_calls (P := fun host => DistinctNames host.tree) processes _ hTree
  intro process hMem other hOther
  exact ⟨Process.runsAlone_call (hStarted process hMem) hOther, process.call_distinct hOther⟩

/-- One removal and one upload on empty storage. -/
theorem calls_one_after_another_sample : ∃ schedule, interleave Process.step schedule (sampleProcesses, emptyHost) =
    (sampleProcesses.map Process.done, sampleProcesses.foldl (fun host process => process.call host) emptyHost) :=
  calls_one_after_another sampleProcesses sampleProcesses_start.started sampleProcesses_start.distinct

end SoftwareHub.Reconciliation
