import SoftwareHub.Backup.Retention
import SoftwareHub.Semantics.Ranking

/-! Which backups a retention pass keeps: the newest ones, and those that are
protected. -/
namespace SoftwareHub.Backup

open SoftwareHub.Python SoftwareHub.Tree SoftwareHub.Semantics SoftwareHub.Semantics.Program

variable (python : Interpreter) (sqlite : Sqlite) (beyond : PyStr → List PyStr → Option Bytes)

/-- The report on a directory, if it is valid. -/
def validReport (entry : PyStr × Directory) : Option BackupVerificationReport :=
  (verifyListed python sqlite beyond entry).toOption

/-- The reports of the valid backups, in listing order. -/
def validBackups (root : Directory) : List BackupVerificationReport :=
  (recognizedBackupDirectories root).filterMap (validReport python sqlite beyond)

/-- The order of the inventory: newest first. -/
def NewestFirst (first second : BackupVerificationReport) : Prop := second.createdAt.instant ≤ first.createdAt.instant

instance : DecidableRel NewestFirst := fun first second =>
  inferInstanceAs (Decidable (second.createdAt.instant ≤ first.createdAt.instant))

instance : Std.Total NewestFirst := ⟨fun first second => Int.le_total second.createdAt.instant first.createdAt.instant⟩

instance : IsTrans BackupVerificationReport NewestFirst := ⟨fun _ _ _ h h' => Int.le_trans h' h⟩

/-- The backup is valid, `keepCount` valid backups are newer or as new and
listed earlier, and nothing protects it. -/
def Doomed (root : Directory) (keepCount : Nat) (protectedIds : List PyStr) (id : PyStr) : Prop :=
  id ∉ protectedIds ∧ ∃ report ∈ validBackups python sqlite beyond root, report.backupId = id ∧
    keepCount ≤ (validBackups python sqlite beyond root).countP fun other =>
      Before NewestFirst (validBackups python sqlite beyond root) other report

/-- The check of a directory leaves its validity. It opens the database for
reading, and one in WAL mode then has side files that no manifest declares. -/
def KeepsValidity (entry : PyStr × Directory) : Prop :=
  validReport python sqlite beyond (entry.1, verifiedDirectory python sqlite beyond entry.1 entry.2) =
    validReport python sqlite beyond entry

variable {python sqlite beyond}

/-- A directory that is accepted is valid. -/
theorem validReport_of_ok {entry : PyStr × Directory} {report : BackupVerificationReport}
    (h : verifyListed python sqlite beyond entry = .ok report) : validReport python sqlite beyond entry = some report := by
  rw [validReport, h]
  rfl

theorem validReport_of_error {entry : PyStr × Directory} {e : PyException}
    (h : verifyListed python sqlite beyond entry = .error e) : validReport python sqlite beyond entry = none := by
  rw [validReport, h]
  rfl

/-- A listing that returns holds the reports of the valid directories. -/
theorem verifiedReports_eq_filterMap {entries : List (PyStr × Directory)} {reports : List BackupVerificationReport}
    (h : verifiedReports python sqlite beyond entries = .ok reports) :
    reports = entries.filterMap (validReport python sqlite beyond) := by
  induction entries generalizing reports with
  | nil =>
      cases h
      rfl
  | cons entry entries ih =>
      obtain ⟨name, tree⟩ := entry
      rw [verifiedReports] at h
      cases hEntry : verifyDirectory python sqlite allListable (beyond name) (some (.dir tree)) name with
      | ok found =>
          have hSome : validReport python sqlite beyond (name, tree) = some found :=
            @validReport_of_ok python sqlite beyond (name, tree) found hEntry
          cases hRest : verifiedReports python sqlite beyond entries with
          | error e => simp [hEntry, hRest, Except.map] at h
          | ok others =>
              simp only [hEntry, hRest, Except.map, Except.ok.injEq] at h
              subst h
              rw [List.filterMap_cons_some hSome, ← ih hRest]
      | error e =>
          have hNone : validReport python sqlite beyond (name, tree) = none :=
            @validReport_of_error python sqlite beyond (name, tree) e hEntry
          by_cases he : e.isInvalidEntry
          · rw [List.filterMap_cons_none hNone]
            exact ih (by simpa [hEntry, he] using h)
          · simp [hEntry, he] at h

theorem listBackups_eq_sort {root : Directory} {reports : List BackupVerificationReport}
    (h : listBackups python sqlite beyond root = .ok reports) :
    reports = (validBackups python sqlite beyond root).insertionSort NewestFirst := by
  unfold listBackups at h
  cases hFound : verifiedReports python sqlite beyond (recognizedBackupDirectories root) with
  | error e => simp [hFound, Except.map] at h
  | ok found =>
      simp only [hFound, Except.map, Except.ok.injEq] at h
      rw [← h, verifiedReports_eq_filterMap hFound]
      rfl

/-- The names of the valid backups are those of their directories. -/
theorem sublist_map_validBackups (entries : List (PyStr × Directory)) :
    ((entries.filterMap (validReport python sqlite beyond)).map (·.backupId)).Sublist (entries.map (·.1)) := by
  induction entries with
  | nil => exact .slnil
  | cons entry entries ih =>
      cases hEntry : verifyListed python sqlite beyond entry with
      | ok report =>
          have hId := backupId_of_verifyDirectory python sqlite hEntry
          rw [List.filterMap_cons_some (validReport_of_ok hEntry), List.map_cons, List.map_cons, hId]
          exact ih.cons_cons _
      | error e =>
          rw [List.filterMap_cons_none (validReport_of_error hEntry), List.map_cons]
          exact ih.cons _

theorem nodup_validBackups {root : Directory} (hRoot : root.WellFormed IsFileName) :
    ((validBackups python sqlite beyond root).map (·.backupId)).Nodup :=
  (sublist_map_validBackups _).nodup (nodup_recognizedBackupDirectories hRoot)

/-- The report of a valid directory is the one of its name in the inventory. -/
theorem validReport_eq_some_iff {root : Directory} (hRoot : root.WellFormed IsFileName) {entry : PyStr × Directory}
    (hEntry : entry ∈ recognizedBackupDirectories root) (report : BackupVerificationReport) :
    validReport python sqlite beyond entry = some report ↔
      report ∈ validBackups python sqlite beyond root ∧ report.backupId = entry.1 := by
  have hName {entry : PyStr × Directory} (h : validReport python sqlite beyond entry = some report) :
      report.backupId = entry.1 := by
    cases hRun : verifyListed python sqlite beyond entry with
    | error e => simp [validReport_of_error hRun] at h
    | ok found =>
        obtain rfl := Option.some.inj ((validReport_of_ok hRun).symm.trans h)
        exact backupId_of_verifyDirectory python sqlite hRun
  constructor
  · intro h
    exact ⟨List.mem_filterMap.mpr ⟨entry, hEntry, h⟩, hName h⟩
  · intro ⟨hReport, hId⟩
    obtain ⟨other, hOther, h⟩ := List.mem_filterMap.mp hReport
    obtain rfl := List.inj_on_of_nodup_map (nodup_recognizedBackupDirectories hRoot) hOther hEntry
      ((hName h).symm.trans hId)
    exact h

/-- Opening the database leaves the files of the manifest. -/
theorem regularFile?_openedIn (beyond : List PyStr → Option Bytes) (tree : Directory) {name : PyStr}
    (h : name ≠ py "database") :
    regularFile? beyond (sqlite.openedIn tree) [name] = regularFile? beyond tree [name] := by
  have hFind : (sqlite.openedIn tree).find name = tree.find name := by
    unfold Sqlite.openedIn
    dsimp only
    split
    · split
      · rfl
      · exact Forest.find_put_of_ne _ _ h
    · rfl
  have hNode : (sqlite.openedIn tree).node? [name] = tree.node? [name] := by
    rw [Forest.node?_cons, Forest.node?_cons, hFind]
  have hLink (tree : Directory) : throughLink tree [name] = false := by cases tree <;> rfl
  rw [regularFile?, hNode, hLink, regularFile?, hLink]

/-- Declared paths that were found encode, whatever directory they are looked up in. -/
theorem pathsEncode_of_verifyEntries {beyond : List PyStr → Option Bytes} {tree : Directory}
    {entries : List BackupEntry} {declared : List PyStr} (h : verifyEntries beyond tree entries = .ok declared)
    (other : Directory) : PathsEncode beyond other entries := by
  induction entries generalizing declared with
  | nil => trivial
  | cons entry entries ih =>
      obtain ⟨text, hText, h⟩ := except_bind_eq_ok h
      obtain ⟨texts, hTexts, -⟩ := except_bind_eq_ok h
      have hEncodes : Handled (verifyEntry beyond tree entry) := by
        rw [hText]
        exact handled_ok text
      exact ⟨(handled_verifyEntry beyond tree entry).mp hEncodes, fun _ _ => ih hTexts⟩

/-- A directory whose database has been opened is handled again. -/
theorem decodesCleanly_openedIn {beyond : List PyStr → Option Bytes} {tree : Directory} {id : PyStr}
    {manifest : BackupManifest} (h : verifyContent python allListable beyond tree id = .ok manifest) :
    DecodesCleanly python beyond (sqlite.openedIn tree) id := by
  have hHandled : Handled (verifyContent python allListable beyond tree id) := by
    rw [h]
    exact handled_ok manifest
  have hClean := (handled_verifyContent python allListable beyond tree id).mp hHandled
  intro payload hPayload hSize checksum hChecksum
  rw [regularFile?_openedIn beyond tree (by decide)] at hPayload hChecksum
  obtain ⟨hAscii, hDecodes⟩ := hClean payload hPayload hSize checksum hChecksum
  refine ⟨hAscii, fun hDigest => ⟨(hDecodes hDigest).1, fun found hFound hId => ?_⟩⟩
  obtain ⟨read, hRead, h⟩ := except_bind_eq_ok h
  obtain rfl : payload = read :=
    Option.some.inj (hPayload.symm.trans ((verifyChecksum_eq_ok_iff beyond tree read).mp hRead).1)
  obtain ⟨parsed, hParsed, h⟩ := except_bind_eq_ok h
  obtain rfl : found = parsed := Except.ok.inj (hFound.symm.trans hParsed)
  obtain ⟨_, -, h⟩ := except_bind_eq_ok h
  obtain ⟨declared, hDeclared, -⟩ := except_bind_eq_ok h
  exact pathsEncode_of_verifyEntries hDeclared _

/-- A directory that was handled is handled again. -/
theorem handled_verifiedDirectory {entry : PyStr × Directory} (h : Handled (verifyListed python sqlite beyond entry)) :
    Handled (verifyListed python sqlite beyond
      (entry.1, verifiedDirectory python sqlite beyond entry.1 entry.2)) := by
  cases hContent : verifyContent python allListable (beyond entry.1) entry.2 entry.1 with
  | error e =>
      have hSame : verifiedDirectory python sqlite beyond entry.1 entry.2 = entry.2 := by
        rw [verifiedDirectory, hContent]
      rw [hSame]
      exact h
  | ok manifest =>
      have hOpened : verifiedDirectory python sqlite beyond entry.1 entry.2 = sqlite.openedIn entry.2 := by
        rw [verifiedDirectory, hContent]
      rw [hOpened]
      refine (handled_verifyDirectory python sqlite allListable _ _ _).mpr fun _ tree hTree => ?_
      obtain rfl := Node.dir.inj (Option.some.inj hTree)
      exact decodesCleanly_openedIn hContent

section Listed

variable {root : Directory}
  (hAll : ∀ entry ∈ recognizedBackupDirectories root, Handled (verifyListed python sqlite beyond entry))

include hAll

/-- A listing that returns has looked at every recognised directory. -/
theorem visitedBackups_eq_of_handled : visitedBackups python sqlite beyond root =
    (recognizedBackupDirectories root).map (·.1) := by
  rw [visitedBackups, List.takeWhile_eq_self_iff.mpr]
  intro entry hEntry
  have hHandled : Handled (verifyDirectory python sqlite allListable (beyond entry.1) (some (.dir entry.2)) entry.1) :=
    hAll entry hEntry
  unfold passes
  split
  · rfl
  · rename_i e hRun
    exact hHandled e hRun

theorem recognized_listedRoot : recognizedBackupDirectories (listedRoot python sqlite beyond root) =
    (recognizedBackupDirectories root).map fun entry =>
      (entry.1, verifiedDirectory python sqlite beyond entry.1 entry.2) := by
  have hVisited := visitedBackups_eq_of_handled hAll
  rw [recognizedBackupDirectories, listedRoot, Forest.subdirectories_mapDirectories, List.filter_map, hVisited]
  refine List.map_congr_left fun entry hEntry => ?_
  have hMem : entry.1 ∈ (recognizedBackupDirectories root).map (·.1) := List.mem_map_of_mem hEntry
  simp only [if_pos hMem]

/-- Directories that keep their validity keep the inventory. -/
theorem validBackups_listedRoot
    (hKeep : ∀ entry ∈ recognizedBackupDirectories root, KeepsValidity python sqlite beyond entry) :
    validBackups python sqlite beyond (listedRoot python sqlite beyond root) =
      validBackups python sqlite beyond root := by
  rw [validBackups, recognized_listedRoot hAll, List.filterMap_map, validBackups]
  exact List.filterMap_congr hKeep

/-- Conversely, an inventory that stays the same is one of directories that keep their validity. -/
theorem keepsValidity_of_mem_iff (hRoot : root.WellFormed IsFileName)
    (h : ∀ report, report ∈ validBackups python sqlite beyond (listedRoot python sqlite beyond root) ↔
      report ∈ validBackups python sqlite beyond root) :
    ∀ entry ∈ recognizedBackupDirectories root, KeepsValidity python sqlite beyond entry := by
  intro entry hEntry
  have hListed : (entry.1, verifiedDirectory python sqlite beyond entry.1 entry.2) ∈
      recognizedBackupDirectories (listedRoot python sqlite beyond root) := by
    rw [recognized_listedRoot hAll]
    exact List.mem_map_of_mem hEntry
  refine Option.ext fun report => ?_
  rw [validReport_eq_some_iff (listedRoot_wellFormed python sqlite beyond hRoot) hListed,
    validReport_eq_some_iff hRoot hEntry, h]

theorem handled_listedRoot : ∀ entry ∈ recognizedBackupDirectories (listedRoot python sqlite beyond root),
    Handled (verifyListed python sqlite beyond entry) := by
  rw [recognized_listedRoot hAll]
  intro entry hEntry
  obtain ⟨before, hBefore, rfl⟩ := List.mem_map.mp hEntry
  exact handled_verifiedDirectory (hAll before hBefore)

end Listed

/-- The backups a pass considers are the doomed ones. -/
theorem mem_eligibleBackups {root : Directory} (hRoot : root.WellFormed IsFileName)
    {reports : List BackupVerificationReport} (h : listBackups python sqlite beyond root = .ok reports)
    (keepCount : Nat) (protectedIds : List PyStr) (id : PyStr) :
    id ∈ eligibleBackups keepCount protectedIds reports ↔ Doomed python sqlite beyond root keepCount protectedIds id := by
  have hNodup : (validBackups python sqlite beyond root).Nodup := (nodup_validBackups hRoot).of_map
  obtain rfl := listBackups_eq_sort h
  simp only [eligibleBackups, List.mem_map, List.mem_filter, decide_eq_true_eq]
  constructor
  · intro ⟨report, ⟨hDrop, hProtected⟩, hId⟩
    have hValid := (List.mem_insertionSort NewestFirst).mp (List.mem_of_mem_drop hDrop)
    exact ⟨hId ▸ hProtected, report, hValid, hId, (mem_drop_insertionSort hNodup hValid keepCount).mp hDrop⟩
  · intro ⟨hProtected, report, hValid, hId, hCount⟩
    exact ⟨report, ⟨(mem_drop_insertionSort hNodup hValid keepCount).mpr hCount, hId ▸ hProtected⟩, hId⟩

/-- The backup root without some of its backups. -/
structure Pruned (ids : List PyStr) (root after : Directory) : Prop where
  find : ∀ name, after.find name = if name ∈ ids then none else root.find name
  subdirectories : after.subdirectories = root.subdirectories.filter fun entry => entry.1 ∉ ids
  wellFormed : after.WellFormed IsFileName

theorem Pruned.refl {root : Directory} (hRoot : root.WellFormed IsFileName) : Pruned [] root root where
  find _ := by simp
  subdirectories := by simp
  wellFormed := hRoot

theorem Pruned.cons {id : PyStr} {ids : List PyStr} {root after : Directory}
    (hRoot : root.WellFormed IsFileName) (h : Pruned ids (root.put id none) after) : Pruned (id :: ids) root after where
  find name := by
    by_cases hName : name = id
    · rw [h.find, hName, Forest.find_put_self hRoot, if_pos List.mem_cons_self, ite_self]
    · rw [h.find, Forest.find_put_of_ne _ _ hName]
      simp [hName]
  subdirectories := by
    rw [h.subdirectories, Forest.subdirectories_put_none hRoot, List.filter_filter]
    refine List.filter_congr fun entry _ => ?_
    simp [Bool.and_comm]
  wellFormed := h.wellFormed

/-- Without failures every backup of the list is deleted. -/
theorem deleteEligible_noFaults {ids : List PyStr} (hNodup : ids.Nodup) {host : Host}
    (hRoot : host.backups.WellFormed IsFileName) (hIds : ∀ id ∈ ids, fullMatch backupIdPattern id = true)
    (hFound : ∀ id ∈ ids, ∃ tree, host.backups.find id = some (.dir tree)) :
    ∃ root, deleteEligible noFaults ids host = (.ok (ids, 0), { host with backups := root }) ∧
      Pruned ids host.backups root := by
  induction ids generalizing host with
  | nil => exact ⟨host.backups, rfl, .refl hRoot⟩
  | cons id ids ih =>
      obtain ⟨tree, hTree⟩ := hFound id (by simp)
      obtain ⟨hFresh, hNodup⟩ := List.nodup_cons.mp hNodup
      have hName := isFileName_backupId (hIds id (by simp))
      have hRest : ∀ other ∈ ids, ∃ tree, (host.backups.put id none).find other = some (.dir tree) := by
        intro other hMem
        have hNe : other ≠ id := fun hEq => hFresh (hEq ▸ hMem)
        rw [Forest.find_put_of_ne _ _ hNe]
        exact hFound other (by simp [hMem])
      obtain ⟨root, hRun, hPruned⟩ := @ih hNodup { host with backups := host.backups.put id none }
        (hRoot.put hName (by simp)) (fun other hMem => hIds other (by simp [hMem])) hRest
      have hRemove : tryExcept (do removeBackup noFaults id; pure true)
          (fun e => if e.isOSError then pure false else raise e) host =
          (.ok true, { host with backups := host.backups.put id none }) :=
        tryExcept_ok (bind_ok (removeBackup_apply noFaults (hIds id (by simp)) hTree) _)
      refine ⟨root, ?_, hPruned.cons hRoot⟩
      rw [deleteEligible]
      exact (bind_ok hRemove _).trans (bind_ok hRun _)

/-- A pass without failures deletes the eligible backups, a dry run nothing.
What it does not delete is as the listing left it. -/
theorem retentionPass_noFaults {host : Host} (hRoot : host.backups.WellFormed IsFileName)
    {reports : List BackupVerificationReport} (h : listBackups python sqlite beyond host.backups = .ok reports)
    (settings : Settings) (dryRun : Bool) (protectedIds : List PyStr) :
    let eligible := eligibleBackups settings.backupRetentionCount protectedIds reports
    let deleted := if dryRun then [] else eligible
    ∃ root, retentionPass python sqlite beyond noFaults settings dryRun protectedIds host =
        (.ok ⟨reports.length, eligible, deleted, 0, dryRun⟩, { host with backups := root }) ∧
      Pruned deleted (listedRoot python sqlite beyond host.backups) root := by
  intro eligible deleted
  have hListed := listedRoot_wellFormed python sqlite beyond hRoot
  cases dryRun with
  | true =>
      refine ⟨listedRoot python sqlite beyond host.backups, ?_, .refl hListed⟩
      rw [retentionPass, bind_def, call]
      simp only [noFaults, guarded_none, pure_apply, bind_def, inspectBackups_apply, h]
      rfl
  | false =>
      obtain ⟨hNodup, hEligible⟩ := eligibleBackups_spec python sqlite beyond hRoot h
        settings.backupRetentionCount protectedIds
      obtain ⟨root, hRun, hPruned⟩ := @deleteEligible_noFaults _ hNodup
        { host with backups := listedRoot python sqlite beyond host.backups } hListed
        (fun id hId => (hEligible id hId).2.1) (by
          intro id hId
          obtain ⟨tree, hTree⟩ := (hEligible id hId).2.2
          exact ⟨_, by rw [find_listedRoot, hTree]⟩)
      refine ⟨root, ?_, hPruned⟩
      rw [retentionPass, bind_def, call]
      simp only [noFaults, guarded_none, pure_apply, bind_def, inspectBackups_apply, h] at hRun ⊢
      simp only [Bool.false_eq_true, if_false, bind_def, hRun, call, guarded_none, pure_apply]
      rfl

/-- The recognised directories depend on the directories of the root only. -/
theorem recognized_of_subdirectories_eq {root after : Directory} (h : after.subdirectories = root.subdirectories) :
    recognizedBackupDirectories after = recognizedBackupDirectories root := by
  rw [recognizedBackupDirectories, recognizedBackupDirectories, h]

/-- Without failures the lock is taken around the body and given back. -/
theorem operationLock_noFaults {α : Type} {body : Program Host PyException α} {host mid : Host} {a : α}
    (hFree : host.backups.find lockName = none) (hBody : body (locked host) = (.ok a, mid)) :
    operationLock noFaults body host = (.ok a, { mid with backups := mid.backups.put lockName none }) := by
  have hOpen : tryExcept (call noFaults .lockOpen openLock) (fun e => raise (convertFileExists e)) host =
      (.ok (), locked host) := tryExcept_ok (by simp [call, noFaults, openLock_apply, hFree])
  have hHeld : tryExcept (holdLock noFaults body) (fun e => raise (convertFileExists e)) (locked host) =
      (.ok a, mid) := tryExcept_ok hBody
  have hRelease : releaseLock noFaults mid = (.ok (), { mid with backups := mid.backups.put lockName none }) := rfl
  exact (bind_ok (rfl : call noFaults .lockEnsureRoot (pure ()) host = (.ok (), host)) _).trans
    ((bind_ok hOpen _).trans (tryFinally_run hHeld hRelease))

/-- Taking and giving back the lock leaves the rest of the root. -/
theorem Pruned.unlock {ids : List PyStr} {base held root : Directory} (hFree : base.find lockName = none)
    (hSub : held.subdirectories = base.subdirectories) (hSame : ∀ name ≠ lockName, held.find name = base.find name)
    (h : Pruned ids held root) : Pruned ids base (root.put lockName none) where
  find name := by
    by_cases hName : name = lockName
    · rw [hName, Forest.find_put_self h.wellFormed, hFree, ite_self]
    · rw [Forest.find_put_of_ne _ _ hName, h.find, hSame name hName]
  subdirectories := by
    rw [Forest.subdirectories_put_none h.wellFormed, h.subdirectories, hSub, List.filter_filter]
    refine List.filter_congr fun entry hEntry => ?_
    have hNe : entry.1 ≠ lockName := by
      intro hEq
      have hMem := Forest.mem_names_of_mem_subdirectories hEntry
      rw [hEq] at hMem
      exact (Forest.find_eq_none_iff _ _).mp hFree hMem
    simp [hNe]
  wellFormed := h.wellFormed.put isFileName_lockName (by simp)

/-- The lock file is no backup, so the listing looks at the same directories. -/
theorem visitedBackups_locked {host : Host} (hFree : host.backups.find lockName = none) :
    visitedBackups python sqlite beyond (locked host).backups = visitedBackups python sqlite beyond host.backups := by
  have hSame : recognizedBackupDirectories (locked host).backups = recognizedBackupDirectories host.backups :=
    recognized_of_subdirectories_eq (Forest.subdirectories_put_leaf hFree _)
  rw [visitedBackups, hSame, visitedBackups]

/-- Every retention run without failures: what it returns and what it leaves. -/
theorem applyRetention_noFaults {host : Host} (hRoot : host.backups.WellFormed IsFileName)
    {reports : List BackupVerificationReport} (h : listBackups python sqlite beyond host.backups = .ok reports)
    (settings : Settings) (dryRun : Bool) (protectedIds : List PyStr) {acquireLock : Bool}
    (hFree : acquireLock = true → host.backups.find lockName = none) :
    let eligible := eligibleBackups settings.backupRetentionCount protectedIds reports
    let deleted := if dryRun then [] else eligible
    ∃ root, applyRetention python sqlite beyond noFaults settings dryRun protectedIds acquireLock host =
        (.ok ⟨reports.length, eligible, deleted, 0, dryRun⟩, { host with backups := root }) ∧
      Pruned deleted (listedRoot python sqlite beyond host.backups) root := by
  intro eligible deleted
  cases acquireLock with
  | false =>
      rw [applyRetention, if_neg Bool.false_ne_true]
      exact retentionPass_noFaults hRoot h settings dryRun protectedIds
  | true =>
      replace hFree := hFree rfl
      have hLock : (locked host).backups.subdirectories = host.backups.subdirectories :=
        Forest.subdirectories_put_leaf hFree _
      have hSame := recognized_of_subdirectories_eq hLock
      have hVisited := @visitedBackups_locked python sqlite beyond host hFree
      have hList : listBackups python sqlite beyond (locked host).backups = .ok reports := by
        rw [listBackups, hSame]
        exact h
      obtain ⟨root, hRun, hPruned⟩ := retentionPass_noFaults ((sameButLock_locked host).wellFormed hRoot) hList
        settings dryRun protectedIds
      refine ⟨root.put lockName none, operationLock_noFaults hFree hRun, hPruned.unlock ?_ ?_ fun name hName => ?_⟩
      · rw [find_listedRoot, hFree]
      · rw [listedRoot, listedRoot, Forest.subdirectories_mapDirectories, Forest.subdirectories_mapDirectories,
          hLock, hVisited]
      · rw [find_listedRoot, find_listedRoot, hVisited, locked, Forest.find_put_of_ne _ _ hName]

theorem validBackups_of_pruned {ids : List PyStr} {root after : Directory} (h : Pruned ids root after) :
    validBackups python sqlite beyond after =
      (validBackups python sqlite beyond root).filter fun report => report.backupId ∉ ids := by
  have hRecognized : recognizedBackupDirectories after =
      (recognizedBackupDirectories root).filter fun entry => entry.1 ∉ ids := by
    rw [recognizedBackupDirectories, h.subdirectories, recognizedBackupDirectories, List.filter_filter,
      List.filter_filter]
    exact List.filter_congr fun entry _ => Bool.and_comm _ _
  rw [validBackups, validBackups, hRecognized]
  induction recognizedBackupDirectories root with
  | nil => rfl
  | cons entry entries ih =>
      cases hEntry : verifyListed python sqlite beyond entry with
      | ok report =>
          have hId := backupId_of_verifyDirectory python sqlite hEntry
          have hSome := validReport_of_ok hEntry
          rw [List.filterMap_cons_some hSome]
          by_cases hMem : entry.1 ∈ ids
          · rw [List.filter_cons_of_neg (by simp [hMem]), List.filter_cons_of_neg (by simp [hId, hMem])]
            exact ih
          · rw [List.filter_cons_of_pos (by simp [hMem]), List.filter_cons_of_pos (by simp [hId, hMem]),
              List.filterMap_cons_some hSome, ih]
      | error e =>
          have hNone := validReport_of_error hEntry
          rw [List.filterMap_cons_none hNone]
          by_cases hMem : entry.1 ∈ ids
          · rw [List.filter_cons_of_neg (by simp [hMem])]
            exact ih
          · rw [List.filter_cons_of_pos (by simp [hMem]), List.filterMap_cons_none hNone]
            exact ih

variable (python sqlite beyond)

/-- What a destructive pass, a dry run and an immediate second pass do. What is
not deleted is as the listing leaves it, with side files at most. -/
structure KeepsNewest (settings : Settings) (protectedIds : List PyStr) (acquireLock : Bool) (host : Host) : Prop where
  deletes : ∃ report after,
    applyRetention python sqlite beyond noFaults settings false protectedIds acquireLock host = (.ok report, after) ∧
    report.errors = 0 ∧
    (∀ id, id ∈ report.deleted ↔
      Doomed python sqlite beyond host.backups settings.backupRetentionCount protectedIds id) ∧
    (∀ name, Doomed python sqlite beyond host.backups settings.backupRetentionCount protectedIds name →
      after.backups.find name = none) ∧
    (∀ name, ¬Doomed python sqlite beyond host.backups settings.backupRetentionCount protectedIds name →
      after.backups.find name = (listedRoot python sqlite beyond host.backups).find name) ∧
    (∀ report, report ∈ validBackups python sqlite beyond after.backups ↔
      report ∈ validBackups python sqlite beyond host.backups ∧
        ¬Doomed python sqlite beyond host.backups settings.backupRetentionCount protectedIds report.backupId) ∧
    min settings.backupRetentionCount (validBackups python sqlite beyond host.backups).length ≤
      (validBackups python sqlite beyond after.backups).length ∧
    ∃ again final,
      applyRetention python sqlite beyond noFaults settings false protectedIds acquireLock after = (.ok again, final) ∧
      again.deleted = [] ∧
      ∀ name, final.backups.find name = (listedRoot python sqlite beyond after.backups).find name
  dryRun : ∃ report after,
    applyRetention python sqlite beyond noFaults settings true protectedIds acquireLock host = (.ok report, after) ∧
    report.deleted = [] ∧
    (∀ id, id ∈ report.eligible ↔
      Doomed python sqlite beyond host.backups settings.backupRetentionCount protectedIds id) ∧
    ∀ name, after.backups.find name = (listedRoot python sqlite beyond host.backups).find name

variable {python sqlite beyond}

/-- After a pass no backup is doomed. -/
theorem not_doomed_of_pruned {root after : Directory} {ids : List PyStr} (h : Pruned ids root after)
    {keepCount : Nat} {protectedIds : List PyStr}
    (hIds : ∀ id, id ∈ ids ↔ Doomed python sqlite beyond root keepCount protectedIds id) (id : PyStr) :
    ¬Doomed python sqlite beyond after keepCount protectedIds id := by
  intro ⟨hProtected, report, hReport, hId, hCount⟩
  have hFilter := @validBackups_of_pruned python sqlite beyond _ _ _ h
  have hSub : (validBackups python sqlite beyond after).Sublist (validBackups python sqlite beyond root) := by
    rw [hFilter]
    exact List.filter_sublist
  rw [hFilter, List.mem_filter] at hReport
  obtain ⟨hReport, hKept⟩ := hReport
  refine absurd ((hIds report.backupId).mpr ⟨hId ▸ hProtected, report, hReport, rfl, ?_⟩) (by simpa using hKept)
  calc keepCount
      ≤ (validBackups python sqlite beyond after).countP fun other =>
          Before NewestFirst (validBackups python sqlite beyond after) other report := hCount
    _ ≤ (validBackups python sqlite beyond after).countP fun other =>
          Before NewestFirst (validBackups python sqlite beyond root) other report :=
        List.countP_mono_left fun other _ hBefore => decide_eq_true ((of_decide_eq_true hBefore).of_sublist hSub)
    _ ≤ (validBackups python sqlite beyond root).countP fun other =>
          Before NewestFirst (validBackups python sqlite beyond root) other report := hSub.countP_le

/-- The newest backups are not doomed, so as many are left. -/
theorem min_le_length_of_pruned {root after : Directory} (hRoot : root.WellFormed IsFileName) {ids : List PyStr}
    (h : Pruned ids root after) {keepCount : Nat} {protectedIds : List PyStr}
    (hIds : ∀ id, id ∈ ids ↔ Doomed python sqlite beyond root keepCount protectedIds id) :
    min keepCount (validBackups python sqlite beyond root).length ≤ (validBackups python sqlite beyond after).length := by
  have hNodup : (validBackups python sqlite beyond root).Nodup := (nodup_validBackups hRoot).of_map
  have hSorted : ((validBackups python sqlite beyond root).insertionSort NewestFirst).Nodup :=
    (List.perm_insertionSort _ _).nodup_iff.mpr hNodup
  rw [validBackups_of_pruned h]
  have hKept : ((validBackups python sqlite beyond root).insertionSort NewestFirst).take keepCount ⊆
      (validBackups python sqlite beyond root).filter fun report => report.backupId ∉ ids := by
    intro report hTake
    have hReport := (List.mem_insertionSort NewestFirst).mp (List.mem_of_mem_take hTake)
    rw [List.mem_filter, decide_eq_true_eq, hIds]
    refine ⟨hReport, fun ⟨hProtected, other, hOther, hId, hCount⟩ => ?_⟩
    obtain rfl := List.inj_on_of_nodup_map (nodup_validBackups hRoot) hOther hReport hId
    have hDrop := (mem_drop_insertionSort hNodup hOther keepCount).mpr hCount
    exact List.disjoint_take_drop hSorted (Nat.le_refl keepCount) hTake hDrop
  have hLength := (List.subperm_of_subset ((List.take_sublist _ _).nodup hSorted) hKept).length_le
  rwa [List.length_take, List.length_insertionSort] at hLength

/-- A pass without the lock that returns has listed the root. -/
theorem exists_listBackups_of_applyRetention {root : Directory} (hRoot : root.WellFormed IsFileName)
    {settings : Settings} {report : RetentionReport} {after : Host}
    (hRun : applyRetention python sqlite beyond noFaults settings false [] false
      ⟨root, none, ⟨none, none, none⟩, []⟩ = (.ok report, after)) :
    ∃ reports, listBackups python sqlite beyond root = .ok reports := by
  obtain ⟨outcome, final, hPass, -, -, hOk⟩ := @retentionPass_spec noFaults python sqlite beyond settings
    false [] ⟨root, none, ⟨none, none, none⟩, []⟩ hRoot
  rw [applyRetention, if_neg Bool.false_ne_true, hPass] at hRun
  exact (hOk.mp ⟨report, (Prod.mk.inj hRun).1⟩).2.1

/-- With a count that no inventory exceeds, a pass only looks: then the
directories keep their validity. -/
theorem keepsValidity_of_keepsNewest {root : Directory} (hRoot : root.WellFormed IsFileName)
    {reports : List BackupVerificationReport} (hReports : listBackups python sqlite beyond root = .ok reports)
    {settings : Settings} (hCount : (validBackups python sqlite beyond root).length < settings.backupRetentionCount)
    (h : KeepsNewest python sqlite beyond settings [] false ⟨root, none, ⟨none, none, none⟩, []⟩) :
    ∀ entry ∈ recognizedBackupDirectories root, KeepsValidity python sqlite beyond entry := by
  have hSpared (id : PyStr) : ¬Doomed python sqlite beyond root settings.backupRetentionCount [] id := by
    intro ⟨_, report, _, _, hNewer⟩
    exact Nat.not_lt.mpr (hNewer.trans List.countP_le_length) hCount
  obtain ⟨left, hRun, hPruned⟩ := @applyRetention_noFaults python sqlite beyond
    ⟨root, none, ⟨none, none, none⟩, []⟩ hRoot reports hReports settings false [] false (fun hLock => by cases hLock)
  have hNone : eligibleBackups settings.backupRetentionCount [] reports = [] := by
    rw [List.eq_nil_iff_forall_not_mem]
    exact fun id hMem => hSpared id ((mem_eligibleBackups hRoot hReports _ _ id).mp hMem)
  obtain ⟨report, after, hAfter, -, -, -, -, hValid, -⟩ := h.deletes
  obtain rfl := (Prod.mk.inj (hAfter.symm.trans hRun)).2
  have hLeft := @validBackups_of_pruned python sqlite beyond _ _ _ hPruned
  simp only [hNone, Bool.false_eq_true, if_false, List.not_mem_nil, not_false_eq_true, decide_true,
    List.filter_true] at hLeft
  refine keepsValidity_of_mem_iff ((exists_listBackups_iff python sqlite beyond root).mp ⟨reports, hReports⟩) hRoot
    fun found => ?_
  rw [← hLeft, hValid]
  exact and_iff_left (hSpared found.backupId)

/-- What retention promises, where the directories keep their validity. -/
theorem keepsNewest_of_keepsValidity {host : Host} (hRoot : host.backups.WellFormed IsFileName)
    {reports : List BackupVerificationReport} (hReports : listBackups python sqlite beyond host.backups = .ok reports)
    (hKeep : ∀ entry ∈ recognizedBackupDirectories host.backups, KeepsValidity python sqlite beyond entry)
    (settings : Settings) (protectedIds : List PyStr) {acquireLock : Bool}
    (hFree : acquireLock = true → host.backups.find lockName = none) :
    KeepsNewest python sqlite beyond settings protectedIds acquireLock host := by
  have hAll := (exists_listBackups_iff python sqlite beyond _).mp ⟨reports, hReports⟩
  have hSame := validBackups_listedRoot hAll hKeep
  have hListed := listedRoot_wellFormed python sqlite beyond hRoot
  have hDoomed := mem_eligibleBackups hRoot hReports settings.backupRetentionCount protectedIds
  refine ⟨?_, ?_⟩
  · obtain ⟨after, hRun, hPruned⟩ := applyRetention_noFaults hRoot hReports settings false protectedIds hFree
    -- the listing has not changed what is doomed
    have hListedDoomed (id : PyStr) : id ∈ eligibleBackups settings.backupRetentionCount protectedIds reports ↔
        Doomed python sqlite beyond (listedRoot python sqlite beyond host.backups) settings.backupRetentionCount
          protectedIds id := by
      rw [hDoomed, Doomed, Doomed, hSame]
    have hLeft := not_doomed_of_pruned hPruned hListedDoomed
    have hValid := @validBackups_of_pruned python sqlite beyond _ _ _ hPruned
    rw [hSame] at hValid
    obtain ⟨left, hList⟩ : ∃ left, listBackups python sqlite beyond after = .ok left := by
      rw [exists_listBackups_iff]
      intro entry hEntry
      refine handled_listedRoot hAll entry ?_
      rw [recognizedBackupDirectories, hPruned.subdirectories, List.filter_filter] at hEntry
      have hMem := List.mem_filter.mp hEntry
      simp only [Bool.and_eq_true] at hMem
      exact List.mem_filter.mpr ⟨hMem.1, hMem.2.1⟩
    have hUnlocked : acquireLock = true → after.find lockName = none := by
      intro hLock
      rw [hPruned.find, find_listedRoot, hFree hLock, ite_self]
    obtain ⟨final, hAgain, hFinal⟩ := @applyRetention_noFaults python sqlite beyond { host with backups := after }
      hPruned.wellFormed left hList settings false protectedIds acquireLock hUnlocked
    have hNone : eligibleBackups settings.backupRetentionCount protectedIds left = [] := by
      rw [List.eq_nil_iff_forall_not_mem]
      intro id hMem
      exact hLeft id ((mem_eligibleBackups hPruned.wellFormed hList _ _ id).mp hMem)
    have hMin := min_le_length_of_pruned hListed hPruned hListedDoomed
    rw [hSame] at hMin
    refine ⟨_, _, hRun, rfl, hDoomed, fun name hName => ?_, fun name hName => ?_, fun report => ?_, hMin, _, _, hAgain,
      hNone, fun name => ?_⟩
    · exact (hPruned.find name).trans (if_pos ((hDoomed name).mpr hName))
    · exact (hPruned.find name).trans (if_neg fun hMem => hName ((hDoomed name).mp hMem))
    · rw [hValid, List.mem_filter, decide_eq_true_eq]
      exact and_congr_right fun _ => not_congr (hDoomed report.backupId)
    · refine (hFinal.find name).trans (if_neg ?_)
      simp [hNone]
  · obtain ⟨after, hRun, hPruned⟩ := applyRetention_noFaults hRoot hReports settings true protectedIds hFree
    exact ⟨_, _, hRun, rfl, hDoomed, fun name => (hPruned.find name).trans (if_neg (by simp))⟩

/-- One sound backup beside one whose checksum file is a single byte `0xFF`. -/
def mixedRoot : Directory :=
  .dir sampleId sampleTree (.dir (py "software-hub-backup-20260101T000000000000Z-89abcdef") damagedTree .nil)

end SoftwareHub.Backup
