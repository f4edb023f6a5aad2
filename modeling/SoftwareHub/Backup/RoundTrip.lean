import SoftwareHub.Backup.Compensated
import SoftwareHub.Backup.SelfVerification

/-! From the creation of a backup to its restoration: what comes back. -/
namespace SoftwareHub.Backup

open SoftwareHub.Python SoftwareHub.Tree SoftwareHub.Semantics SoftwareHub.Semantics.Program

/-- What a restoration reports. -/
structure RestoreReport where
  backupId : PyStr
  preRestoreBackupId : Option PyStr
  fileCount : Nat
  totalBytes : Nat
  deriving DecidableEq

/-- The host as `_restore_verified_backup` finds it; the names of its token are new. -/
def restoring (host : Host) : Restoring where
  storage := host.storage
  storageStage := none
  storageRollback := none
  database := host.database
  databaseStage := none
  databaseRollback := none
  storageReplaced := false
  databaseReplaced := false

theorem restoring_fresh (host : Host) : Fresh (restoring host) := ⟨rfl, rfl, rfl, rfl, rfl, rfl⟩

section Service

variable (python : Interpreter) (sqlite : Sqlite) (beyond : PyStr → List PyStr → Option Bytes) (settings : Settings)

/-- `_restore_verified_backup` on a host. An interrupt, which no handler of the
callers stops, comes back as a value. -/
def restoreLive (env : RestoreEnvironment) (selected : PyStr) : Program Host PyException (Option BaseException) := do
  let root ← read fun host => host.backups
  let (_, backup) ← lift (backupDirectory root selected)
  fun host =>
    let (outcome, after) := restoreVerifiedBackup sqlite settings env backup (restoring host)
    let left := { host with storage := after.storage, database := after.database }
    match outcome with
    | .ok _ => (.ok none, left)
    | .error (.exception e) => (.error e, left)
    | .error interrupt => (.ok (some interrupt), left)

/-- The backup of the live state before it is replaced. -/
def safetyBackup (faults : Faults) (ambient : Ambient) (createSafetyBackup : Bool) :
    Program Host PyException (Option PyStr) :=
  if createSafetyBackup then do
    let report ← createBackup python sqlite beyond settings faults ambient false false
    return some report.backupId
  else pure none

/-- `_audit` after a restore. -/
def auditRestored (faults : Faults) (selected : PyStr) : Program Host PyException Unit :=
  match faults.signal .audit with
  | none => write fun host => { host with audits := host.audits ++ [⟨.backupRestored, .success, selected⟩] }
  | some _ => pure ()

/-- `restore_backup`. -/
def restoreBackup (safetyFaults faults : Faults) (ambient : Ambient) (env : RestoreEnvironment) (backupId : PyStr)
    (createSafetyBackup : Bool) : Program Host PyException (Except BaseException RestoreReport) := do
  let selected ← lift (safeBackupId backupId)
  let root ← read fun host => host.backups
  let verification ← lift (verifyBackup python sqlite beyond root selected)
  let safety ← safetyBackup python sqlite beyond settings safetyFaults ambient createSafetyBackup
  let interrupt ← operationLock faults (restoreLive sqlite settings env selected)
  match interrupt with
  | some e => pure (.error e)
  | none => do
      auditRestored faults selected
      return .ok ⟨selected, safety, verification.fileCount, verification.totalBytes⟩

end Service

/-- The regular files and other leaves of the storage. -/
def storedFile? (storage : Option Entry) (path : List PyStr) : Option Leaf :=
  match storage with
  | some (.dir root) => root.file? path
  | _ => none

section Creation

variable {python : Interpreter} {sqlite : Sqlite} {beyond : PyStr → List PyStr → Option Bytes} {settings : Settings}
  {faults : Faults} {ambient : Ambient} {host final : Host}

theorem file?_initializedStorage {storage : Option Entry} {root : Directory}
    (hStorage : ∀ root, storage = some (.dir root) → root.WellFormed IsFileName)
    (h : initializedStorage settings storage = .ok root) (path : List PyStr) : root.file? path = storedFile? storage path := by
  have hMake (paths : List (List PyStr)) (hPaths : ∀ path ∈ paths, ∀ name ∈ path, IsFileName name) {start made : Directory}
      (hStart : start.WellFormed IsFileName) (h : paths.foldlM (fun root path => root.mkdirs path) start = some made) :
      made.file? path = start.file? path := by
    induction paths generalizing start with
    | nil =>
        cases h
        rfl
    | cons first paths ih =>
        rw [List.foldlM_cons, Option.bind_eq_bind, Option.bind_eq_some_iff] at h
        obtain ⟨next, hNext, h⟩ := h
        rw [ih (fun other hm => hPaths other (List.mem_cons_of_mem _ hm))
          (hStart.mkdirs (hPaths first List.mem_cons_self) hNext) h, Forest.file?_mkdirs hStart hNext]
  have hDirectories {start : Directory} (hStart : start.WellFormed IsFileName)
      (h : initializedStorage.makeDirectories settings start = .ok root) : root.file? path = start.file? path := by
    unfold initializedStorage.makeDirectories at h
    split at h
    · cases h
    · rename_i made hMade
      cases h
      exact hMake _ settings.requiredDirectories_fileNames hStart hMade
  unfold initializedStorage at h
  split at h
  · have hNil : (Forest.nil : Directory).WellFormed IsFileName := trivial
    rw [hDirectories hNil h]
    cases path <;> rfl
  · exact hDirectories (hStorage _ rfl) h
  · cases h

/-- What a backup of the host holds. -/
structure Captures (sqlite : Sqlite) (settings : Settings) (listable : Listable) (host : Host) (tree : Directory)
    (copy : Bytes) (temporaryRelative : List PyStr) : Prop where
  temporary : settings.temporaryRelative = some temporaryRelative
  copied : sqlite.backup host.database = some copy
  database : tree.file? databaseEntryPath = some (.file copy)
  storage : ∀ path leaf, tree.file? (storageFolder :: path) = some leaf ↔
    storedFile? host.storage path = some leaf ∧ ¬temporaryRelative <+: path ∧ Forest.Listed listable.storage path

/-- A filled directory holds the storage and the database of the host. -/
theorem Filled.captures {listable : Listable} {tree : Directory} {manifest : BackupManifest}
    (hStorage : ∀ root, host.storage = some (.dir root) → root.WellFormed IsFileName)
    (h : Filled python sqlite beyond settings ambient listable host tree manifest) :
    ∃ copy temporaryRelative, Captures sqlite settings listable host tree copy temporaryRelative := by
  obtain ⟨copied, hPopulate, revision, -, -, hWrite, -⟩ := h
  obtain ⟨copy, root, temporaryRelative, hPopulated⟩ := populated_of_populateBackup hStorage hPopulate
  obtain ⟨payload, -, rfl⟩ := writeManifest_eq_ok hWrite
  have hRoot := hStorage root hPopulated.storageRoot
  refine ⟨copy, temporaryRelative, hPopulated.temporary, hPopulated.copied, ?_, ?_⟩
  · have hPath : databaseEntryPath ≠ [manifestChecksumName] ∧ databaseEntryPath ≠ [manifestName] := by decide
    rw [hPopulated.file?_written, if_neg hPath.1, if_neg hPath.2, hPopulated.file?_iff]
    exact List.mem_cons_self
  · intro path leaf
    have hNames : storageFolder ≠ manifestChecksumName ∧ storageFolder ≠ manifestName ∧ storageFolder ≠ configFolder ∧
        storageFolder ≠ py "database" := by decide
    rw [hPopulated.file?_written, if_neg (by simp [hNames.1]), if_neg (by simp [hNames.2.1]), hPopulated.file?_iff,
      hPopulated.storageRoot, storedFile?, ← mem_storageFiles hRoot]
    simp [backupFiles, inFolder, databaseEntryPath, hNames.2.2.1.symm, hNames.2.2.2]

/-- A call that returns has not raised. -/
theorem call_eq_ok {α : Type} {name : BackupCall} {x : Program Host PyException α} {a : α}
    (h : call faults name x host = (.ok a, final)) : faults.signal name = none ∧ x host = (.ok a, final) := by
  unfold call at h
  cases hSignal : faults.signal name with
  | some e =>
      rw [hSignal] at h
      cases h
  | none =>
      rw [hSignal] at h
      exact ⟨rfl, h⟩

/-- A creation that returns: what it has published, and what it has left alone. -/
structure Created (python : Interpreter) (sqlite : Sqlite) (beyond : PyStr → List PyStr → Option Bytes)
    (settings : Settings) (ambient : Ambient) (listable : Listable) (retention : Bool) (host final : Host)
    (tree : Directory) : Prop where
  filled : ∃ manifest, Filled python sqlite beyond settings ambient listable host tree manifest
  backup : final.backups.find ambient.backupId = some (.dir tree)
  destinationFree : DestinationFree ambient host
  wellFormed : final.backups.WellFormed IsFileName
  others : retention = false → ∀ name, fullMatch backupIdPattern name = true → name ≠ ambient.backupId →
    final.backups.find name = host.backups.find name

/-- Without a retention pass the final steps change nothing. -/
theorem finishBackup_without_retention {deleted : Nat} {now after : Host}
    (h : finishBackup python sqlite beyond settings faults ambient false now = (.ok deleted, after)) : after = now := by
  unfold finishBackup call at h
  cases hSync : faults.signal .syncRoot with
  | some e =>
      rw [hSync] at h
      cases h
  | none =>
      rw [hSync] at h
      cases h
      rfl

/-- The part under the lock has published the backup. -/
theorem createLocked_created {retention : Bool} {result : BackupManifest × Nat}
    (hRoot : host.backups.WellFormed IsFileName)
    (hStorage : ∀ root, host.storage = some (.dir root) → root.WellFormed IsFileName)
    (h : createLocked python sqlite beyond settings faults ambient retention host = (.ok result, final)) :
    ∃ tree, Created python sqlite beyond settings ambient faults.listable retention host final tree := by
  have hLockedRoot := (sameButLock_locked host).wellFormed hRoot
  have hLocked {name : PyStr} (hMatch : fullMatch backupIdPattern name = true) :
      (locked host).backups.find name = host.backups.find name :=
    (sameButLock_locked host).others name (ne_of_match hMatch not_match_lockName)
  obtain ⟨outcome, after, hRun, hCases⟩ := operationLock_spec faults (do
    let manifest ← prepareBackup python sqlite beyond settings faults ambient
    let deleted ← finishBackup python sqlite beyond settings faults ambient retention
    return (manifest, deleted)) host
  obtain ⟨rfl, rfl⟩ := Prod.mk.inj (hRun.symm.trans h)
  rcases hCases with ⟨-, result', mid, hBody, hSame, hOk⟩ | ⟨-, -, e, hError⟩
  · obtain rfl := ((hOk result).mp rfl).1
    rcases prepareBackup_exact python sqlite beyond settings faults ambient hLockedRoot hStorage (locked host) rfl with
      ⟨hPrepares, manifest, ready, hPrepare, tree, hFilled, hPublished⟩ | ⟨-, e, left, hPrepare, -⟩
    · rw [bind_ok hPrepare] at hBody
      obtain ⟨deleted, last, hFinish, hBody⟩ := bind_eq_ok hBody
      cases hBody
      obtain ⟨ending, last, hSpec, hKept, hFormed, -⟩ := finishBackup_spec python sqlite beyond settings faults ambient
        retention hPublished.wellFormed hPublished.backup
        (hFilled.opened_eq python sqlite beyond settings ambient hStorage)
      obtain ⟨rfl, rfl⟩ := Prod.mk.inj (hSpec.symm.trans hFinish)
      refine ⟨tree, ⟨manifest, hFilled⟩, ?_, ?_, hSame.wellFormed hFormed, ?_⟩
      · rw [hSame.others _ (ne_of_match ambient.matches_backupId not_match_lockName), hKept _ (Or.inr rfl),
          hPublished.backup]
      · have hFree := hPrepares.destinationFree
        rwa [DestinationFree, hLocked ambient.matches_backupId] at hFree
      · rintro rfl name hMatch hName
        obtain rfl := finishBackup_without_retention hFinish
        rw [hSame.others _ (ne_of_match hMatch not_match_lockName),
          hPublished.others _ (ne_of_match hMatch (not_match_temporary ambient)) hName, hLocked hMatch]
    · rw [bind_error hPrepare] at hBody
      cases hBody
  · cases hError

/-- Only the backup root of the final host matters. -/
theorem Created.congr {listable : Listable} {retention : Bool} {other : Host} {tree : Directory}
    (h : Created python sqlite beyond settings ambient listable retention host final tree)
    (hBackups : other.backups = final.backups) :
    Created python sqlite beyond settings ambient listable retention host other tree where
  filled := h.filled
  backup := hBackups ▸ h.backup
  destinationFree := h.destinationFree
  wellFormed := hBackups ▸ h.wellFormed
  others hRetention name hMatch hName := by
    rw [hBackups]
    exact h.others hRetention name hMatch hName

theorem createBackup_created {retention audit : Bool} {report : BackupCreationReport}
    (hRoot : host.backups.WellFormed IsFileName)
    (hStorage : ∀ root, host.storage = some (.dir root) → root.WellFormed IsFileName)
    (h : createBackup python sqlite beyond settings faults ambient retention audit host = (.ok report, final)) :
    report.backupId = ambient.backupId ∧ ∃ root tree, initializedStorage settings host.storage = .ok root ∧
      Created python sqlite beyond settings ambient faults.listable retention
        { host with storage := some (.dir root) } final tree := by
  unfold createBackup at h
  obtain ⟨_, ensured, hEnsure, h⟩ := bind_eq_ok h
  obtain ⟨_, initialized, hInitialize, h⟩ := bind_eq_ok h
  obtain ⟨-, hEnsured⟩ := call_eq_ok hEnsure
  cases hEnsured
  obtain ⟨-, hInitialize⟩ := call_eq_ok hInitialize
  obtain ⟨current, mid, hRead, hInitialize⟩ := bind_eq_ok hInitialize
  cases hRead
  obtain ⟨root, hMade, hInitialize⟩ := lift_bind_eq_ok hInitialize
  cases hInitialize
  rcases hBody : createLocked python sqlite beyond settings faults ambient retention
    { host with storage := some (.dir root) } with ⟨outcome, after⟩
  cases outcome with
  | error e =>
      obtain ⟨left, hAbandon, -⟩ := abandonBackup_apply faults ambient audit e after
      rw [tryExcept_error (bind_error hBody _), hAbandon] at h
      cases h
  | ok result =>
      have hFormed := initializedStorage_wellFormed settings hStorage hMade
      obtain ⟨tree, hCreated⟩ := @createLocked_created python sqlite beyond settings faults ambient
        { host with storage := some (.dir root) } after retention result hRoot (by simpa using hFormed) hBody
      obtain ⟨report', final', hBackups, hId, hReport⟩ : ∃ report' final', final'.backups = after.backups ∧
          report'.backupId = ambient.backupId ∧
          (if audit then auditEvent faults ambient .backupCreated .success >>= fun _ => pure
              (⟨ambient.backupId, result.1.entries.length, result.1.totalBytes, result.2⟩ : BackupCreationReport)
            else pure ⟨ambient.backupId, result.1.entries.length, result.1.totalBytes, result.2⟩) after =
            (.ok report', final') := by
        cases audit with
        | false => exact ⟨_, after, rfl, rfl, rfl⟩
        | true => cases hAudit : faults.signal .audit <;> simp [auditEvent, hAudit, bind_def]
      have hReturned := (tryExcept_ok ((bind_ok hBody _).trans hReport)).symm.trans h
      obtain ⟨hReports, rfl⟩ := Prod.mk.inj hReturned
      obtain rfl := Except.ok.inj hReports
      exact ⟨hId, root, tree, hMade, hCreated.congr hBackups⟩

end Creation

section Restoration

variable {sqlite : Sqlite} {settings : Settings} {env : RestoreEnvironment} {backup : Directory} {start after : Restoring}

/-- A migration that raises is not passed over. -/
theorem migrated_of_finishDatabase {ready finished : Restoring} (h : finishDatabase sqlite env ready = (.ok (), finished)) :
    (env.upgrade ready.database).1 = none := by
  unfold finishDatabase upgradeDatabase at h
  obtain ⟨_, _, hUpgrade, -⟩ := bind_eq_ok h
  rw [read_bind] at hUpgrade
  rcases hRun : env.upgrade ready.database with ⟨signal, files⟩
  rw [hRun] at hUpgrade
  cases signal with
  | some e => cases hUpgrade
  | none => rfl

/-- A call whose errors are ignored leaves the live state. -/
theorem ignoringErrors_silent (call : RestoreCall) : Silent live (ignoringErrors env call) := by
  unfold ignoringErrors
  split
  · exact .pure ()
  · exact .pure ()
  · exact .raise _

theorem removeRollbacks_silent : Silent live (removeRollbacks env) := by
  unfold removeRollbacks
  refine Silent.bind (Silent.write ?_) fun _ => ?_
  · exact fun _ => rfl
  refine (ignoringErrors_silent _).bind fun _ => Silent.bind (Silent.write ?_) fun _ => ignoringErrors_silent _
  exact fun _ => rfl

theorem cleanUp_silent : Silent live (cleanUp env) := by
  have hUnlink : Silent live (restoreCall env .unlinkStage (write fun s => { s with databaseStage := none })) := by
    unfold restoreCall
    cases env.signal .unlinkStage with
    | none => exact .write fun _ => rfl
    | some e => exact .raise e
  unfold cleanUp
  refine Silent.bind (Silent.write ?_) fun _ => ?_
  · exact fun _ => rfl
  refine (ignoringErrors_silent _).bind fun _ => hUnlink.bind fun _ => ?_
  refine Silent.bind (Silent.write ?_) fun _ => ignoringErrors_silent _
  exact fun _ => rfl

/-- A restore that returns has put the stages into place and migrated the database. -/
theorem restoreVerifiedBackup_live (hFresh : Fresh start)
    (h : restoreVerifiedBackup sqlite settings env backup start = (.ok (), after)) :
    ∃ made content, Stageable sqlite settings backup made content ∧ (env.upgrade (.ofMain content)).1 = none ∧
      live after = (some (.dir made), sqlite.opened (env.upgrade (.ofMain content)).2) := by
  obtain ⟨ready, finished, last, hInstall, hFinish, hRemove, hCleanUp⟩ :=
    restoreVerifiedBackup_eq_ok sqlite settings env backup h
  obtain ⟨made, content, hInstallable, rfl⟩ :=
    (installBackup_spec sqlite settings env backup hFresh).of_ok rfl hInstall
  have hMigrated := migrated_of_finishDatabase hFinish
  refine ⟨made, content, hInstallable.stageable, hMigrated, ?_⟩
  have hFinished : finished =
      { installed start made content with database := sqlite.opened (env.upgrade (.ofMain content)).2 } := by
    have hState := (congrArg Prod.snd hFinish).symm.trans (finishDatabase_state sqlite _)
    rw [finishedDatabase_of_none sqlite env hMigrated] at hState
    exact hState
  have hRemoved : live last = live finished := (congrArg (fun run => live run.2) hRemove).symm.trans (removeRollbacks_silent _)
  have hCleaned : live after = live last := (congrArg (fun run => live run.2) hCleanUp).symm.trans (cleanUp_silent _)
  rw [hCleaned, hRemoved, hFinished]
  rfl

variable {host final : Host}

theorem restoreLive_eq_ok {selected : PyStr} (hMatch : fullMatch backupIdPattern selected = true)
    (hFind : host.backups.find selected = some (.dir backup))
    (h : restoreLive sqlite settings env selected host = (.ok none, final)) :
    ∃ made content, Stageable sqlite settings backup made content ∧ (env.upgrade (.ofMain content)).1 = none ∧
      final.storage = some (.dir made) ∧ final.database = sqlite.opened (env.upgrade (.ofMain content)).2 := by
  rw [restoreLive, read_bind, backupDirectory_of_find hMatch hFind, lift_ok_bind] at h
  rcases hRun : restoreVerifiedBackup sqlite settings env backup (restoring host) with ⟨outcome, after⟩
  dsimp only at h
  rw [hRun] at h
  cases outcome with
  | error e => cases e <;> cases h
  | ok u =>
      obtain ⟨made, content, hStageable, hMigrated, hLive⟩ := restoreVerifiedBackup_live (restoring_fresh host) hRun
      cases h
      exact ⟨made, content, hStageable, hMigrated, congrArg Prod.fst hLive, congrArg Prod.snd hLive⟩

/-- The files of the restored storage are those of the backup. -/
theorem Stageable.file? {made : Directory} {content : Bytes} (hBackup : backup.WellFormed IsFileName)
    (h : Stageable sqlite settings backup made content) (path : List PyStr) :
    made.file? path = backup.file? (storageFolder :: path) := by
  obtain ⟨tree, temporary, hTree, -, -, hMade⟩ := h.storage
  rw [Forest.file?_mkdirs (hBackup.find_dir hTree) hMade, Forest.file?_cons, hTree]

end Restoration

section RoundTrip

variable {python : Interpreter} {sqlite : Sqlite} {beyond : PyStr → List PyStr → Option Bytes} {settings : Settings}

/-- The safety backup goes beside the selected one: under its name something is there already. -/
theorem safetyBackup_keeps {faults : Faults} {ambient : Ambient} {createSafetyBackup : Bool} {host after : Host}
    {safety : Option PyStr} {selected : PyStr} {backup : Directory} (hRoot : host.backups.WellFormed IsFileName)
    (hStorage : ∀ root, host.storage = some (.dir root) → root.WellFormed IsFileName)
    (hMatch : fullMatch backupIdPattern selected = true) (hFind : host.backups.find selected = some (.dir backup))
    (hNonempty : backup ≠ .nil)
    (h : safetyBackup python sqlite beyond settings faults ambient createSafetyBackup host = (.ok safety, after)) :
    after.backups.find selected = some (.dir backup) := by
  cases createSafetyBackup with
  | false =>
      cases h
      exact hFind
  | true =>
      obtain ⟨report, made, hCreate, h⟩ := bind_eq_ok (x := createBackup python sqlite beyond settings faults ambient false false) h
      cases h
      obtain ⟨-, root, tree, -, hCreated⟩ := createBackup_created hRoot hStorage hCreate
      have hNew : selected ≠ ambient.backupId := by
        rintro rfl
        rcases hCreated.destinationFree with hNone | hEmpty
        · cases hNone.symm.trans hFind
        · cases hEmpty.symm.trans hFind
          exact hNonempty rfl
      rw [hCreated.others rfl selected hMatch hNew]
      exact hFind

/-- The audit event leaves the live state. -/
theorem auditRestored_live {faults : Faults} {selected : PyStr} {host after : Host} {u : Unit}
    (h : auditRestored faults selected host = (.ok u, after)) :
    after.storage = host.storage ∧ after.database = host.database := by
  unfold auditRestored at h
  cases hSignal : faults.signal .audit with
  | none =>
      rw [hSignal] at h
      cases h
      exact ⟨rfl, rfl⟩
  | some e =>
      rw [hSignal] at h
      cases h
      exact ⟨rfl, rfl⟩

/-- A restore that returns: it verified the backup it found, and restored it. -/
theorem restoreBackup_eq_ok {safetyFaults faults : Faults} {ambient : Ambient} {env : RestoreEnvironment}
    {selected : PyStr} {createSafetyBackup : Bool} {host after : Host} {restored : RestoreReport} {backup : Directory}
    (hRoot : host.backups.WellFormed IsFileName)
    (hStorage : ∀ root, host.storage = some (.dir root) → root.WellFormed IsFileName)
    (hMatch : fullMatch backupIdPattern selected = true) (hFind : host.backups.find selected = some (.dir backup))
    (hNonempty : backup ≠ .nil)
    (h : restoreBackup python sqlite beyond settings safetyFaults faults ambient env selected createSafetyBackup host =
      (.ok (.ok restored), after)) :
    ∃ made content, Stageable sqlite settings backup made content ∧ (env.upgrade (.ofMain content)).1 = none ∧
      after.storage = some (.dir made) ∧ after.database = sqlite.opened (env.upgrade (.ofMain content)).2 := by
  rw [restoreBackup, safeBackupId_of_match hMatch, lift_ok_bind, read_bind] at h
  obtain ⟨verification, -, h⟩ := lift_bind_eq_ok h
  obtain ⟨safety, ready, hSafety, h⟩ := bind_eq_ok h
  obtain ⟨interrupt, left, hLock, h⟩ := bind_eq_ok h
  cases interrupt with
  | some e => cases h
  | none =>
      obtain ⟨_, audited, hAudit, h⟩ := bind_eq_ok h
      have hAudited := auditRestored_live hAudit
      cases h
      have hReady := safetyBackup_keeps hRoot hStorage hMatch hFind hNonempty hSafety
      obtain ⟨outcome, last, hRun, hCases⟩ := operationLock_spec faults (restoreLive sqlite settings env selected) ready
      obtain ⟨rfl, rfl⟩ := Prod.mk.inj (hRun.symm.trans hLock)
      rcases hCases with ⟨-, result, mid, hBody, hSame, hOk⟩ | ⟨-, -, e, hError⟩
      · obtain rfl := ((hOk none).mp rfl).1
        have hLocked : (locked ready).backups.find selected = some (.dir backup) := by
          rw [(sameButLock_locked ready).others selected (ne_of_match hMatch not_match_lockName), hReady]
        obtain ⟨made, content, hStageable, hMigrated, hFiles, hDatabase⟩ := restoreLive_eq_ok hMatch hLocked hBody
        refine ⟨made, content, hStageable, hMigrated, ?_, ?_⟩
        · rw [hAudited.1, hSame.live.1, hFiles]
        · rw [hAudited.2, hSame.live.2.1, hDatabase]
      · cases hError

/-- The storage files of the old state outside the temporary root, and its database after the migration. -/
structure RoundTrip {Contents : Type} (contents : DatabaseFiles → Contents) (migrate : Contents → Contents)
    (settings : Settings) (old restored : Host) : Prop where
  storage : ∃ root temporaryRelative, restored.storage = some (.dir root) ∧
    settings.temporaryRelative = some temporaryRelative ∧ ∀ path leaf, root.file? path = some leaf ↔
      storedFile? old.storage path = some leaf ∧ ¬temporaryRelative <+: path
  database : contents restored.database = migrate (contents old.database)

end RoundTrip

def storedFiles : Directory := .dir (py "software") (.leaf (py "a") (.file [1, 2]) .nil) .nil

theorem storedFiles_wellFormed : storedFiles.WellFormed IsFileName := by decide

def storedHost : Host := { sampleHost with storage := some (.dir storedFiles) }

def leaves {α : Type} (x : Program Host PyException α) (host : Host) : Host := (x host).2

/-- A program is its outcome and the host that it leaves. -/
theorem run_of_outcome {α : Type} {x : Program Host PyException α} {host : Host} {outcome : Except PyException α}
    (h : (x host).1 = outcome) : x host = (outcome, leaves x host) := by
  rw [← h, leaves]

/-- The host after a creation in the given environment. -/
@[irreducible] def createdHost (faults : Faults) : Host :=
  leaves (createBackup samplePython sampleSqlite (fun _ _ => none) sampleSettings faults sampleAmbient true true) storedHost

/-- The storage has been emptied meanwhile. -/
def emptied (host : Host) : Host := { host with storage := some (.dir .nil) }

@[simp] theorem emptied_backups (host : Host) : (emptied host).backups = host.backups := rfl

@[simp] theorem emptied_storage (host : Host) : (emptied host).storage = some (.dir .nil) := rfl

/-- The host after its backup has been restored. -/
@[irreducible] def restoredHost (faults : Faults) : Host :=
  leaves (restoreBackup samplePython sampleSqlite (fun _ _ => none) sampleSettings noFaults noFaults sampleAmbient
    quietRestore sampleAmbient.backupId false) (emptied (createdHost faults))

/-- The root of the backups is empty. -/
theorem storedHost_wellFormed : storedHost.backups.WellFormed IsFileName := trivial

/-- The area of the published files cannot be listed: its mode is `0300`. -/
def unlistedArea : Faults :=
  { noFaults with listable := ⟨fun path => path ≠ [py "software"], allListable⟩ }

/-- The creation and the restoration in that environment, evaluated. -/
theorem unlistedArea_evaluated :
    (createBackup samplePython sampleSqlite (fun _ _ => none) sampleSettings unlistedArea sampleAmbient true true
      storedHost).1 = .ok ⟨sampleAmbient.backupId, 1, 16, 0⟩ ∧
    (restoreBackup samplePython sampleSqlite (fun _ _ => none) sampleSettings noFaults noFaults sampleAmbient quietRestore
      sampleAmbient.backupId false (emptied (createdHost unlistedArea))).1 =
        .ok (.ok ⟨sampleAmbient.backupId, none, 1, 16⟩) ∧
    storedFile? (restoredHost unlistedArea).storage [py "software", py "a"] = none := by
  decide +kernel

theorem roundTrip_evaluated :
    (createBackup samplePython sampleSqlite (fun _ _ => none) sampleSettings noFaults sampleAmbient true true
      storedHost).1 = .ok ⟨sampleAmbient.backupId, 2, 18, 0⟩ ∧
    (restoreBackup samplePython sampleSqlite (fun _ _ => none) sampleSettings noFaults noFaults sampleAmbient quietRestore
      sampleAmbient.backupId false (emptied (createdHost noFaults))).1 =
        .ok (.ok ⟨sampleAmbient.backupId, none, 2, 18⟩) := by
  decide +kernel

end SoftwareHub.Backup
