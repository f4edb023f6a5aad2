import SoftwareHub.Backup.Damaged

/-! The retention pass over a backup root, and the inventory in the presence of
damaged backups. -/
namespace SoftwareHub.Backup

open SoftwareHub.Python SoftwareHub.Tree SoftwareHub.Semantics SoftwareHub.Semantics.Program

variable (faults : Faults)

/-- A directory with the name of a backup is found. -/
theorem backupDirectory_of_find {root tree : Directory} {id : PyStr}
    (hId : fullMatch backupIdPattern id = true) (h : root.find id = some (.dir tree)) :
    backupDirectory root id = .ok (id, tree) := by
  have hName : fsname id = some id := (isFileName_backupId hId).2.2.2.2.2
  rw [backupDirectory, safeBackupId_of_match hId]
  simp only [bind, Except.bind, hName, h]
  rfl

/-- Removing a backup removes its entry, or leaves what a failing removal left. -/
theorem removeBackup_apply {host : Host} {tree : Directory} {id : PyStr}
    (hId : fullMatch backupIdPattern id = true) (h : host.backups.find id = some (.dir tree)) :
    removeBackup faults id host = match faults.removal id with
      | none => (.ok (), { host with backups := host.backups.put id none })
      | some (kind, remains) =>
          (.error (.os kind), { host with backups := host.backups.put id remains }) := by
  rw [removeBackup, bind_def, read_apply]
  simp only
  rw [bind_def, lift_apply, backupDirectory_of_find hId h]
  cases faults.removal id <;> simp [bind_def, setBackups]

/-- Everything but the backup root stays as it is. -/
def SameLive (host after : Host) : Prop :=
  after.storage = host.storage ∧ after.database = host.database ∧ after.audits = host.audits

theorem SameLive.refl (host : Host) : SameLive host host := ⟨rfl, rfl, rfl⟩

theorem SameLive.trans {first second third : Host} (h : SameLive first second)
    (h' : SameLive second third) : SameLive first third :=
  ⟨h'.1.trans h.1, h'.2.1.trans h.2.1, h'.2.2.trans h.2.2⟩

/-- A deletion loop returns, and leaves all other names alone. -/
theorem deleteEligible_spec {ids : List PyStr} (hNodup : ids.Nodup) {host : Host}
    (hRoot : host.backups.WellFormed IsFileName)
    (hIds : ∀ id ∈ ids, fullMatch backupIdPattern id = true)
    (hFound : ∀ id ∈ ids, ∃ tree, host.backups.find id = some (.dir tree)) :
    ∃ result after, deleteEligible faults ids host = (.ok result, after) ∧
      (∀ name ∉ ids, after.backups.find name = host.backups.find name) ∧ SameLive host after ∧
      after.backups.WellFormed IsFileName := by
  induction ids generalizing host with
  | nil => exact ⟨_, _, rfl, by simp, SameLive.refl host, hRoot⟩
  | cons id ids ih =>
      obtain ⟨tree, hTree⟩ := hFound id (by simp)
      have hRemove := removeBackup_apply faults (hIds id (by simp)) hTree
      obtain ⟨hFresh, hNodup⟩ := List.nodup_cons.mp hNodup
      -- the loop goes on from a root that only differs at `id`
      have hNext (entry : Option Entry)
          (hEntry : ∀ node, entry = some node → Forest.Node.WellFormed IsFileName node) :
          ∃ result after, deleteEligible faults ids
              { host with backups := host.backups.put id entry } = (.ok result, after) ∧
            (∀ name ∉ id :: ids, after.backups.find name = host.backups.find name) ∧
            SameLive host after ∧ after.backups.WellFormed IsFileName := by
        have hRest : ∀ other ∈ ids, ∃ tree, (host.backups.put id entry).find other = some (.dir tree) :=
          fun other hMem => by
            have hNe : other ≠ id := fun h => hFresh (h ▸ hMem)
            rw [Forest.find_put_of_ne _ _ hNe]
            exact hFound other (by simp [hMem])
        obtain ⟨result, after, hRun, hFrame, hLive, hFormed⟩ :=
          @ih hNodup { host with backups := host.backups.put id entry }
            (hRoot.put (isFileName_backupId (hIds id (by simp))) hEntry) (fun other hm => hIds other (by simp [hm])) hRest
        refine ⟨result, after, hRun, fun name hName => ?_, hLive, hFormed⟩
        simp only [List.mem_cons, not_or] at hName
        rw [hFrame name hName.2, Forest.find_put_of_ne _ _ hName.1]
      rw [deleteEligible, bind_def, tryExcept, bind_def, hRemove]
      cases hFails : faults.removal id with
      | none =>
          obtain ⟨result, after, hRun, hFrame, hLive⟩ := hNext none (by simp)
          simp only [pure_apply, bind_def, hRun, if_true]
          exact ⟨_, _, rfl, hFrame, hLive⟩
      | some failure =>
          obtain ⟨kind, remains⟩ := failure
          obtain ⟨result, after, hRun, hFrame, hLive⟩ := hNext remains fun node hNode =>
            faults.removal_wellFormed id kind node (hNode ▸ hFails)
          simp only [PyException.isOSError, ↓reduceIte, pure_apply, bind_def, hRun]
          exact ⟨_, _, rfl, hFrame, hLive⟩

/-- The host while the lock is held. -/
def locked (host : Host) : Host :=
  { host with backups := host.backups.put lockName (some (.leaf (.file []))) }

/-- The lock can be taken, so that the body runs. -/
def Lockable (host : Host) : Prop :=
  faults.signal .lockEnsureRoot = none ∧ faults.signal .lockOpen = none ∧
    host.backups.find lockName = none ∧ faults.signal .lockWrite = none ∧ faults.signal .lockSync = none

/-- Two hosts that differ in nothing but the lock file. -/
structure SameButLock (host after : Host) : Prop where
  live : SameLive host after
  others : ∀ name ≠ lockName, after.backups.find name = host.backups.find name
  wellFormed : host.backups.WellFormed IsFileName → after.backups.WellFormed IsFileName

/-- A host differs from itself in nothing. -/
theorem SameButLock.refl (host : Host) : SameButLock host host :=
  ⟨SameLive.refl host, fun _ _ => rfl, id⟩

/-- Two differences in the lock file are one. -/
theorem SameButLock.trans {first second third : Host} (h : SameButLock first second)
    (h' : SameButLock second third) : SameButLock first third :=
  ⟨h.live.trans h'.live, fun name hName => (h'.others name hName).trans (h.others name hName),
    h'.wellFormed ∘ h.wellFormed⟩

/-- The lock file can stand in the root. -/
theorem isFileName_lockName : IsFileName lockName := by decide

/-- An entry for the lock file is such a difference. -/
theorem sameButLock_put (host : Host) {entry : Option Entry}
    (hEntry : ∀ node, entry = some node → Forest.Node.WellFormed IsFileName node) :
    SameButLock host { host with backups := host.backups.put lockName entry } :=
  ⟨SameLive.refl host, fun _ hName => Forest.find_put_of_ne _ _ hName,
    fun hRoot => hRoot.put isFileName_lockName hEntry⟩

theorem sameButLock_locked (host : Host) : SameButLock host (locked host) :=
  sameButLock_put host (by simp [Forest.Node.WellFormed])

/-- Releasing touches nothing but the lock file. -/
theorem releaseLock_spec (host : Host) : ∃ ending after,
    releaseLock faults host = (ending, after) ∧ SameButLock host after ∧ (ending = .ok () ↔
      faults.signal .lockClose = none ∧ faults.signal .lockUnlink = none) := by
  simp only [releaseLock, bind_def, call, setBackups]
  cases hClose : faults.signal .lockClose with
  | some e => exact ⟨_, _, rfl, SameButLock.refl host, by simp⟩
  | none =>
      cases hUnlink : faults.signal .lockUnlink with
      | some e => exact ⟨_, _, rfl, SameButLock.refl host, by simp⟩
      | none => exact ⟨_, _, rfl, sameButLock_put host (by simp), by simp⟩

/-- The body runs once the process number has been written, and not at all if that
fails. -/
theorem holdLock_apply {α : Type} (body : Program Host PyException α) (host : Host) :
    (faults.signal .lockWrite = none ∧ faults.signal .lockSync = none ∧
        holdLock faults body host = body host) ∨
      (¬(faults.signal .lockWrite = none ∧ faults.signal .lockSync = none) ∧
        ∃ e, holdLock faults body host = (.error e, host)) := by
  simp only [holdLock, bind_def, call]
  cases faults.signal .lockWrite <;> cases faults.signal .lockSync <;> simp

/-- The lock is taken exactly when its name is free. -/
theorem openLock_apply (host : Host) : openLock host =
    if host.backups.find lockName = none then (.ok (), locked host)
    else (.error (.os .fileExistsError), host) := by
  by_cases h : host.backups.find lockName = none <;>
    simp [openLock, h, bind_def, setBackups, locked]

/-- Under the lock the body runs once, from the host with the lock file in
it; apart from the lock file, its final state is the one that remains. -/
theorem operationLock_spec {α : Type} (body : Program Host PyException α) (host : Host) :
    ∃ outcome after, operationLock faults body host = (outcome, after) ∧
      ((Lockable faults host ∧ ∃ result mid, body (locked host) = (result, mid) ∧ SameButLock mid after ∧
          (∀ a, outcome = .ok a ↔ result = .ok a ∧
            faults.signal .lockClose = none ∧ faults.signal .lockUnlink = none)) ∨
        (¬Lockable faults host ∧ SameButLock host after ∧ ∃ e, outcome = .error e)) := by
  simp only [operationLock, bind_def, call]
  cases hEnsure : faults.signal .lockEnsureRoot with
  | some e => exact ⟨_, _, rfl, Or.inr ⟨by simp [Lockable, hEnsure], SameButLock.refl host, e, rfl⟩⟩
  | none =>
      cases hOpen : faults.signal .lockOpen with
      | some e => exact ⟨_, _, rfl, Or.inr ⟨by simp [Lockable, hOpen], SameButLock.refl host, _, rfl⟩⟩
      | none =>
          by_cases hFree : host.backups.find lockName = none
          · have hOpenRun : tryExcept openLock (fun e => raise (convertFileExists e)) host =
                (.ok (), locked host) := tryExcept_ok (by simp [openLock_apply, hFree])
            simp only [guarded_none, pure_apply, hOpenRun]
            rcases holdLock_apply faults body (locked host) with
              ⟨hWrite, hSync, hBody⟩ | ⟨hFails, e, hBody⟩
            · rcases hRun : body (locked host) with ⟨result, mid⟩
              obtain ⟨ending, after, hRelease, hSame, hEnding⟩ := releaseLock_spec faults mid
              have hLockable : Lockable faults host := ⟨hEnsure, hOpen, hFree, hWrite, hSync⟩
              cases result with
              | ok a =>
                  have hTry : tryExcept (holdLock faults body) (fun e => raise (convertFileExists e))
                      (locked host) = (.ok a, mid) := tryExcept_ok (hBody.trans hRun)
                  rw [tryFinally_run hTry hRelease]
                  refine ⟨_, after, rfl, Or.inl ⟨hLockable, _, mid, rfl, hSame, fun b => ?_⟩⟩
                  cases ending with
                  | ok u => simp [hEnding.mp rfl]
                  | error e =>
                      have hNot : ¬(faults.signal .lockClose = none ∧ faults.signal .lockUnlink = none) :=
                        fun h => by cases hEnding.mpr h
                      simp [hNot]
              | error e =>
                  have hTry : tryExcept (holdLock faults body) (fun e => raise (convertFileExists e))
                      (locked host) = (.error (convertFileExists e), mid) :=
                    tryExcept_error (hBody.trans hRun)
                  rw [tryFinally_run hTry hRelease]
                  refine ⟨_, after, rfl, Or.inl ⟨hLockable, _, mid, rfl, hSame, fun b => ?_⟩⟩
                  cases ending <;> simp
            · obtain ⟨ending, after, hRelease, hSame, -⟩ := releaseLock_spec faults (locked host)
              have hTry : tryExcept (holdLock faults body) (fun e => raise (convertFileExists e))
                  (locked host) = (.error (convertFileExists e), locked host) := tryExcept_error hBody
              rw [tryFinally_run hTry hRelease]
              refine ⟨_, after, rfl,
                Or.inr ⟨fun h => hFails h.2.2.2, (sameButLock_locked host).trans hSame, ?_⟩⟩
              cases ending <;> exact ⟨_, rfl⟩
          · have hOpenRun : tryExcept openLock (fun e => raise (convertFileExists e)) host =
                (.error (convertFileExists (.os .fileExistsError)), host) :=
              tryExcept_error (by simp [openLock_apply, hFree])
            simp only [guarded_none, pure_apply, hOpenRun]
            exact ⟨_, _, rfl, Or.inr ⟨fun h => hFree h.2.2.1, SameButLock.refl host, _, rfl⟩⟩

variable (python : Interpreter) (sqlite : Sqlite) (beyond : PyStr → List PyStr → Option Bytes)

/-- An eligible backup is an unprotected directory of the root, and none comes
twice. -/
theorem eligibleBackups_spec {root : Directory} (hRoot : root.WellFormed IsFileName)
    {reports : List BackupVerificationReport} (h : listBackups python sqlite beyond root = .ok reports)
    (keepCount : Nat) (protectedIds : List PyStr) :
    let eligible := eligibleBackups keepCount protectedIds reports
    eligible.Nodup ∧ ∀ id ∈ eligible, id ∉ protectedIds ∧ fullMatch backupIdPattern id = true ∧
      ∃ tree, root.find id = some (.dir tree) := by
  obtain ⟨hMem, hNodup⟩ := listBackups_spec python sqlite beyond hRoot h
  refine ⟨?_, fun id hId => ?_⟩
  · exact ((List.filter_sublist.trans (List.drop_sublist keepCount reports)).map _).nodup hNodup
  · obtain ⟨report, hReport, rfl⟩ := List.mem_map.mp hId
    obtain ⟨hReport, hProtected⟩ := List.mem_filter.mp hReport
    obtain ⟨⟨name, tree⟩, hEntry, hVerified⟩ := (hMem report).mp (List.mem_of_mem_drop hReport)
    rw [mem_recognizedBackupDirectories hRoot] at hEntry
    have hName : report.backupId = name := backupId_of_verifyDirectory python sqlite hVerified
    exact ⟨by simpa using hProtected, hName ▸ hEntry.2, tree, hName ▸ hEntry.1⟩

def RetentionReturns (dryRun : Bool) (root : Directory) : Prop :=
  faults.signal .listEnsureRoot = none ∧
    (∃ reports, listBackups python sqlite beyond root = .ok reports) ∧
    (dryRun = false → faults.signal .syncRetention = none)

/-- Opening for reading leaves what a name may be in a directory. -/
theorem openedIn_wellFormed {tree : Directory} (hTree : tree.WellFormed IsFileName) :
    (sqlite.openedIn tree).WellFormed IsFileName := by
  have hNames : IsFileName (py "database") ∧ IsFileName (databaseName ++ py "-wal") ∧
      IsFileName (databaseName ++ py "-shm") := by decide
  have hPut {name : PyStr} (hName : IsFileName name) {before after : Option Leaf} {folder : Directory}
      (hFolder : folder.WellFormed IsFileName) : (putSideFile name before after folder).WellFormed IsFileName := by
    unfold putSideFile
    split
    · exact hFolder
    · refine hFolder.put hName fun node hNode => ?_
      obtain ⟨leaf, -, rfl⟩ := Option.map_eq_some_iff.mp hNode
      trivial
  unfold Sqlite.openedIn
  dsimp only
  split
  · rename_i folder hFind
    split
    · exact hTree
    · refine hTree.put hNames.1 fun node hNode => ?_
      obtain rfl := Option.some.inj hNode
      exact hPut hNames.2.2 (hPut hNames.2.1 (hTree.find_dir hFind))
  · exact hTree

/-- A database that is opened without traces leaves the directory as it is. -/
theorem openedIn_of_opened_eq {tree : Directory} (h : sqlite.opened (databaseFiles tree) = databaseFiles tree) :
    sqlite.openedIn tree = tree := by
  unfold Sqlite.openedIn
  dsimp only
  split
  · rw [if_pos h]
  · rfl

/-- A verified directory has names of files. -/
theorem verifiedDirectory_wellFormed (name : PyStr) {tree : Directory} (hTree : tree.WellFormed IsFileName) :
    (verifiedDirectory python sqlite beyond name tree).WellFormed IsFileName := by
  unfold verifiedDirectory
  split
  · exact openedIn_wellFormed sqlite hTree
  · exact hTree

theorem listedRoot_wellFormed {root : Directory} (hRoot : root.WellFormed IsFileName) :
    (listedRoot python sqlite beyond root).WellFormed IsFileName := by
  refine hRoot.mapDirectories fun name tree hTree => ?_
  split
  · exact verifiedDirectory_wellFormed python sqlite beyond name hTree
  · exact hTree

/-- A listing opens the databases of the backups that it visits. -/
theorem find_listedRoot (root : Directory) (name : PyStr) : (listedRoot python sqlite beyond root).find name =
    match root.find name with
    | some (.dir tree) => some (.dir (if name ∈ visitedBackups python sqlite beyond root then
        verifiedDirectory python sqlite beyond name tree else tree))
    | other => other := by
  rw [listedRoot, Forest.find_mapDirectories]
  cases root.find name with
  | none => rfl
  | some entry => cases entry <;> rfl

theorem match_of_mem_visitedBackups {root : Directory} {name : PyStr}
    (h : name ∈ visitedBackups python sqlite beyond root) : fullMatch backupIdPattern name = true := by
  obtain ⟨entry, hEntry, rfl⟩ := List.mem_map.mp h
  exact (List.mem_filter.mp ((List.takeWhile_prefix _).subset hEntry)).2

/-- A listing changes nothing but backups. -/
theorem find_listedRoot_of_not_match (root : Directory) {name : PyStr} (h : fullMatch backupIdPattern name = false) :
    (listedRoot python sqlite beyond root).find name = root.find name := by
  have hName : name ∉ visitedBackups python sqlite beyond root := by
    intro hVisited
    rw [match_of_mem_visitedBackups python sqlite beyond hVisited] at h
    cases h
  rw [find_listedRoot]
  cases root.find name with
  | none => rfl
  | some entry =>
      cases entry with
      | leaf leaf => rfl
      | dir tree => simp only [if_neg hName]

/-- Nor does it change a backup whose database is opened without traces. -/
theorem find_listedRoot_of_opened_eq {root tree : Directory} {name : PyStr} (hFind : root.find name = some (.dir tree))
    (h : sqlite.opened (databaseFiles tree) = databaseFiles tree) :
    (listedRoot python sqlite beyond root).find name = root.find name := by
  have hVerified : verifiedDirectory python sqlite beyond name tree = tree := by
    unfold verifiedDirectory
    split
    · exact openedIn_of_opened_eq sqlite h
    · rfl
  rw [find_listedRoot, hFind]
  simp only [hVerified, ite_self]

/-- The listing of a pass: what it answers and what it leaves. -/
theorem inspectBackups_apply (host : Host) : inspectBackups python sqlite beyond host =
    (listBackups python sqlite beyond host.backups,
      { host with backups := listedRoot python sqlite beyond host.backups }) := rfl

/-- What becomes of the directories that a retention pass does not remove. -/
structure Inspected (protectedIds : List PyStr) (root after : Directory) : Prop where
  other : ∀ name, fullMatch backupIdPattern name = false → after.find name = root.find name
  kept : ∀ name ∈ protectedIds, after.find name = root.find name ∨
    after.find name = (listedRoot python sqlite beyond root).find name
  wellFormed : after.WellFormed IsFileName

/-- A retention pass only removes backups that nothing protects, and returns
unless listing or the final sync fails. -/
theorem retentionPass_spec (settings : Settings) (dryRun : Bool) (protectedIds : List PyStr)
    {host : Host} (hRoot : host.backups.WellFormed IsFileName) :
    ∃ outcome after,
      retentionPass python sqlite beyond faults settings dryRun protectedIds host = (outcome, after) ∧
      SameLive host after ∧ Inspected python sqlite beyond protectedIds host.backups after.backups ∧
      ((∃ report, outcome = .ok report) ↔ RetentionReturns faults python sqlite beyond dryRun host.backups) := by
  have hListed : Inspected python sqlite beyond protectedIds host.backups
      (listedRoot python sqlite beyond host.backups) :=
    ⟨fun name => find_listedRoot_of_not_match python sqlite beyond _, fun _ _ => Or.inr rfl,
      listedRoot_wellFormed python sqlite beyond hRoot⟩
  rw [retentionPass, bind_def, call]
  cases hEnsure : faults.signal .listEnsureRoot with
  | some e =>
      exact ⟨_, _, rfl, SameLive.refl host, ⟨fun _ _ => rfl, fun _ _ => Or.inl rfl, hRoot⟩,
        by simp [RetentionReturns, hEnsure]⟩
  | none =>
      simp only [guarded_none, pure_apply, bind_def, inspectBackups_apply]
      cases hList : listBackups python sqlite beyond host.backups with
      | error e => exact ⟨_, _, rfl, SameLive.refl host, hListed, by simp [RetentionReturns, hList]⟩
      | ok reports =>
          cases dryRun with
          | true =>
              exact ⟨_, _, rfl, SameLive.refl host, hListed, by simp [RetentionReturns, hEnsure, hList]⟩
          | false =>
              obtain ⟨hNodup, hEligible⟩ := eligibleBackups_spec python sqlite beyond hRoot hList
                settings.backupRetentionCount protectedIds
              obtain ⟨result, after, hRun, hFrame, hLive, hFormed⟩ := @deleteEligible_spec faults _ hNodup
                { host with backups := listedRoot python sqlite beyond host.backups } hListed.wellFormed
                (fun id hId => (hEligible id hId).2.1) (by
                  intro id hId
                  obtain ⟨tree, hTree⟩ := (hEligible id hId).2.2
                  exact ⟨_, by rw [find_listedRoot, hTree]⟩)
              have hKept : Inspected python sqlite beyond protectedIds host.backups after.backups := by
                refine ⟨fun name hName => ?_, fun name hName => Or.inr ?_, hFormed⟩
                · refine (hFrame name fun hMem => ?_).trans (hListed.other name hName)
                  rw [(hEligible name hMem).2.1] at hName
                  cases hName
                · exact hFrame name fun hMem => (hEligible name hMem).1 hName
              simp only [Bool.false_eq_true, if_false, bind_def, hRun, call]
              cases hSync : faults.signal .syncRetention with
              | none =>
                  exact ⟨_, _, rfl, hLive, hKept, by simp [RetentionReturns, hEnsure, hList, hSync]⟩
              | some e => exact ⟨_, _, rfl, hLive, hKept, by simp [RetentionReturns, hSync]⟩

theorem recognized_locked {host : Host} (hRoot : host.backups.WellFormed IsFileName)
    (entry : PyStr × Directory) : entry ∈ recognizedBackupDirectories (locked host).backups ↔
      entry ∈ recognizedBackupDirectories host.backups := by
  have hLocked := (sameButLock_locked host).wellFormed hRoot
  rw [mem_recognizedBackupDirectories hLocked, mem_recognizedBackupDirectories hRoot]
  refine and_congr_left fun hMatch => ?_
  have hNe : entry.1 ≠ lockName := fun h => by
    rw [h] at hMatch
    revert hMatch
    decide
  rw [locked, Forest.find_put_of_ne _ _ hNe]

/-- The verification of the recognised directories raises nothing unforeseen
exactly when they decode cleanly. -/
theorem handled_recognized_iff {root : Directory} (hRoot : root.WellFormed IsFileName) :
    (∀ entry ∈ recognizedBackupDirectories root, Handled (verifyListed python sqlite beyond entry)) ↔
      ∀ entry ∈ recognizedBackupDirectories root, DecodesCleanly python (beyond entry.1) entry.2 entry.1 := by
  refine forall₂_congr fun entry hEntry => ?_
  have hMatch := ((mem_recognizedBackupDirectories hRoot entry.1 entry.2).mp hEntry).2
  rw [verifyListed, handled_verifyDirectory, strip_backupId hMatch]
  simp [hMatch]

/-- A root with one backup whose checksum file is a single byte `0xFF`. -/
def damagedTree : Directory :=
  .leaf manifestName (.file []) (.leaf manifestChecksumName (.file [0xFF]) .nil)

def damagedRoot : Directory := .dir sampleId damagedTree .nil

def sampleSettings : Settings where
  temporaryRelative := some [py "temporary"]
  requiredDirectories := []
  requiredDirectories_fileNames := fileNames_of_noDirectories
  backupRetentionCount := 14
  backupMinFreeBytes := 0
  projectRoot := .nil
  projectRoot_wellFormed := trivial

end SoftwareHub.Backup
