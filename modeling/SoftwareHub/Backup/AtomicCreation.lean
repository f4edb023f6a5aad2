import SoftwareHub.Backup.Populated
import SoftwareHub.Backup.Retention
import SoftwareHub.Semantics.Exact

/-! Creation of a backup is all-or-nothing up to the rename, and fails to be so when
a later step raises. -/
namespace SoftwareHub.Backup

open SoftwareHub.Python SoftwareHub.Tree SoftwareHub.Semantics SoftwareHub.Semantics.Program

/-- The new identifier is the name of a backup. -/
theorem Ambient.matches_backupId (ambient : Ambient) :
    fullMatch backupIdPattern ambient.backupId = true :=
  matches_newBackupId ambient.idTime ambient.token

/-- Names with a dot are no backup names. -/
theorem not_match_of_dot {name : PyStr} (h : 0x2E ∈ name) : fullMatch backupIdPattern name = false := by
  by_contra hMatch
  exact (backupId_char (by simpa using hMatch) h).2.2.2.2 rfl

/-- The temporary name is none. -/
theorem not_match_temporary (ambient : Ambient) :
    fullMatch backupIdPattern ambient.temporary = false :=
  not_match_of_dot (by simp [Ambient.temporary, temporaryName, py])

theorem not_match_lockName : fullMatch backupIdPattern lockName = false :=
  not_match_of_dot (by decide)

/-- Backups have other names than what is no backup. -/
theorem ne_of_match {name other : PyStr} (h : fullMatch backupIdPattern name = true)
    (hOther : fullMatch backupIdPattern other = false) : name ≠ other := by
  rintro rfl
  rw [h] at hOther
  cases hOther

/-- The temporary directory does not stand for the lock file. -/
theorem Ambient.temporary_ne_lockName (ambient : Ambient) : ambient.temporary ≠ lockName := by
  intro h
  have hLength := congrArg List.length h
  have hId : ambient.backupId.length = 51 := by
    have hMatch := ambient.matches_backupId
    simp only [fullMatch, Bool.and_eq_true, beq_iff_eq] at hMatch
    exact hMatch.1.symm
  have hLock : lockName.length = 25 := by decide
  have hMiddle : (py ".tmp-").length = 5 := by decide
  simp only [Ambient.temporary, temporaryName, List.length_append, hId, hLock, hMiddle] at hLength
  omega

theorem Ambient.isFileName_temporary (ambient : Ambient) : IsFileName ambient.temporary := by
  have hHex : ∀ c < 0x80, isLowerHex c = true → isScalar c = true ∧ c ≠ slash ∧ c ≠ 0 := by
    decide
  have hFixed : ∀ c ∈ py ".tmp-" ++ py ".", isScalar c = true ∧ c ≠ slash ∧ c ≠ 0 := by decide
  have hChar : ∀ c ∈ ambient.temporary, isScalar c = true ∧ c ≠ slash ∧ c ≠ 0 := by
    intro c hc
    simp only [Ambient.temporary, temporaryName, List.mem_append] at hc
    rcases hc with ((hc | hc) | hc) | hc
    · exact hFixed c (by simp [hc])
    · have hPlain := backupId_char ambient.matches_backupId hc
      exact ⟨hPlain.2.1, hPlain.2.2.1, hPlain.2.2.2.1⟩
    · exact hFixed c (by simp [hc])
    · have hLower := ambient.hex_lowerHex c hc
      have hSmall : c < 0x80 := by
        simp only [isLowerHex, isDigit, Bool.or_eq_true, Bool.and_eq_true, decide_eq_true_eq] at hLower
        omega
      exact hHex c hSmall hLower
  have hLength : 6 ≤ ambient.temporary.length := by
    have hMiddle : (py ".tmp-").length = 5 := by decide
    have hFirst : (py ".").length = 1 := by decide
    simp only [Ambient.temporary, temporaryName, List.length_append, hMiddle, hFirst]
    omega
  refine ⟨?_, fun h => (hChar _ h).2.1 rfl, fun h => (hChar _ h).2.2 rfl, ?_, ?_,
    fsname_of_scalar (List.all_eq_true.mpr fun c hc => (hChar c hc).1)⟩
  all_goals
    intro h
    rw [h] at hLength
    revert hLength
    decide

section Steps

variable (python : Interpreter) (sqlite : Sqlite) (beyond : PyStr → List PyStr → Option Bytes)
  (settings : Settings) (faults : Faults) (ambient : Ambient)

/-- The host of the start, except for the entry under the temporary name. -/
structure Staged (host : Host) (entry : Option Entry) (now : Host) : Prop where
  live : SameLive host now
  temporary : now.backups.find ambient.temporary = entry
  others : ∀ name ≠ ambient.temporary, now.backups.find name = host.backups.find name
  wellFormed : now.backups.WellFormed IsFileName

theorem Staged.refl {host : Host} (hRoot : host.backups.WellFormed IsFileName) :
    Staged ambient host (host.backups.find ambient.temporary) host :=
  ⟨SameLive.refl host, rfl, fun _ _ => rfl, hRoot⟩

/-- A step that changes the entry under the temporary name. -/
theorem Staged.put {host now : Host} {entry : Option Entry} (h : Staged ambient host entry now)
    {next : Option Entry} (hNext : ∀ node, next = some node → Forest.Node.WellFormed IsFileName node) :
    Staged ambient host next { now with backups := now.backups.put ambient.temporary next } :=
  ⟨h.live, Forest.find_put_self h.wellFormed _ _,
    fun name hName => (Forest.find_put_of_ne _ _ hName).trans (h.others name hName),
    h.wellFormed.put ambient.isFileName_temporary hNext⟩

/-- What is left by a failing step with a temporary directory. -/
def Unfinished (host : Host) (_ : PyException) (now : Host) : Prop := ∃ tree, Staged ambient host (some (.dir tree)) now

/-- The host with a new backup in place of the temporary directory. -/
structure Published (host : Host) (tree : Directory) (now : Host) : Prop where
  live : SameLive host now
  temporary : now.backups.find ambient.temporary = none
  backup : now.backups.find ambient.backupId = some (.dir tree)
  others : ∀ name ≠ ambient.temporary, name ≠ ambient.backupId →
    now.backups.find name = host.backups.find name
  wellFormed : now.backups.WellFormed IsFileName

/-- The estimate fits on the disk. -/
def FreeSpace (host : Host) : Prop :=
  ∃ required, estimateSourceBytes settings faults.listable.storage host = .ok required ∧
    required ≤ ambient.freeBytes ∧ settings.backupMinFreeBytes ≤ ambient.freeBytes - required

/-- The estimate depends on the live state only. -/
theorem estimateSourceBytes_eq (listable : List PyStr → Bool) {host now : Host} (h : SameLive host now) :
    estimateSourceBytes settings listable now = estimateSourceBytes settings listable host := by
  simp only [estimateSourceBytes, h.1, h.2.1]

variable {host : Host} {entry : Option Entry}

/-- The check for space passes exactly when the estimate fits. -/
theorem checkFreeSpace_exact : Exact (Staged ambient host entry)
    (call faults .freeSpace (checkFreeSpace settings faults ambient))
    (faults.signal .freeSpace = none ∧ FreeSpace settings faults ambient host)
    (fun _ => Staged ambient host entry) fun _ => Staged ambient host entry := by
  refine Exact.guarded ?_ fun e s _ hs => hs
  intro s hs
  simp only [checkFreeSpace, bind_def, read_apply, id, lift_apply, estimateSourceBytes_eq settings _ hs.live,
    FreeSpace]
  cases hEstimate : estimateSourceBytes settings faults.listable.storage host with
  | error e => exact Or.inr ⟨by simp, e, s, rfl, hs⟩
  | ok required =>
      simp only [require]
      split_ifs with hFits
      · exact Or.inl ⟨⟨required, rfl, hFits⟩, (), s, rfl, hs⟩
      · exact Or.inr ⟨by simpa using hFits, _, s, rfl, hs⟩

/-- The temporary directory is made exactly when its name is free. -/
theorem makeTemporary_exact : Exact (Staged ambient host entry)
    (call faults .makeTemporary (makeTemporary ambient))
    (faults.signal .makeTemporary = none ∧ entry = none)
    (fun _ => Staged ambient host (some (.dir .nil))) fun _ => Staged ambient host entry := by
  refine Exact.guarded ?_ fun e s _ hs => hs
  intro s hs
  simp only [makeTemporary, bind_def, read_apply, hs.temporary]
  split_ifs with hFree
  · exact Or.inl ⟨hFree, (), _, rfl, hs.put ambient (by simp [Forest.Node.WellFormed, Forest.WellFormed])⟩
  · exact Or.inr ⟨hFree, _, s, rfl, hs⟩

/-- A step that fills it succeeds exactly when its content can be made. -/
theorem fillTemporary_exact {α : Type} {name : BackupCall} {tree : α → Directory}
    {x : Except PyException α} (hx : ∀ a, x = .ok a → (tree a).WellFormed IsFileName) :
    Exact (Staged ambient host entry) (fillTemporary faults ambient name tree x)
      (∃ a, faults.signal name = none ∧ x = .ok a)
      (fun a s => (faults.signal name = none ∧ x = .ok a) ∧
        Staged ambient host (some (.dir (tree a))) s) (Unfinished ambient host) := by
  intro s hs
  have hPartial : Staged ambient host (some (.dir faults.partialTemporary)) _ :=
    hs.put ambient (by simpa [Forest.Node.WellFormed] using faults.partialTemporary_wellFormed)
  unfold fillTemporary
  cases hSignal : faults.signal name with
  | some e => exact Or.inr ⟨by simp, e, _, rfl, _, hPartial⟩
  | none =>
      cases hValue : x with
      | error e => exact Or.inr ⟨by simp, e, _, rfl, _, hPartial⟩
      | ok a =>
          have hTree := hx a hValue
          exact Or.inl ⟨⟨a, rfl, rfl⟩, a, _, rfl, ⟨rfl, rfl⟩,
            hs.put ambient (by simpa [Forest.Node.WellFormed] using hTree)⟩

/-- The rename replaces nothing but an empty directory. -/
def DestinationFree (host : Host) : Prop :=
  host.backups.find ambient.backupId = none ∨ host.backups.find ambient.backupId = some (.dir .nil)

/-- The directory is renamed to another name. -/
theorem Ambient.backupId_ne_temporary : ambient.backupId ≠ ambient.temporary :=
  ne_of_match ambient.matches_backupId (not_match_temporary ambient)

/-- After the rename the new backup is there, and the temporary name is free. -/
theorem Staged.publish {now : Host} (h : Staged ambient host entry now) {tree : Directory}
    (hTree : tree.WellFormed IsFileName) : Published ambient host tree
      { now with
        backups := (now.backups.put ambient.temporary none).put ambient.backupId (some (.dir tree)) } := by
  have hRemoved : (now.backups.put ambient.temporary none).WellFormed IsFileName :=
    h.wellFormed.put ambient.isFileName_temporary (by simp)
  have hNe := ambient.backupId_ne_temporary
  refine ⟨h.live, ?_, Forest.find_put_self hRemoved _ _, fun name hTemporary hId => ?_,
    hRemoved.put (isFileName_backupId ambient.matches_backupId) (by simpa [Forest.Node.WellFormed] using hTree)⟩
  · rw [Forest.find_put_of_ne _ _ hNe.symm, Forest.find_put_self h.wellFormed]
  · rw [Forest.find_put_of_ne _ _ hId, Forest.find_put_of_ne _ _ hTemporary, h.others name hTemporary]

/-- The rename succeeds exactly when the destination is free. -/
theorem publishTemporary_exact {tree : Directory} (hTree : tree.WellFormed IsFileName) :
    Exact (Staged ambient host (some (.dir tree))) (call faults .publish (publishTemporary ambient tree))
      (faults.signal .publish = none ∧ DestinationFree ambient host)
      (fun _ => Published ambient host tree) (Unfinished ambient host) := by
  refine Exact.guarded ?_ fun e s _ hs => ⟨tree, hs⟩
  intro s hs
  simp only [publishTemporary, bind_def, read_apply, DestinationFree,
    ← hs.others _ ambient.backupId_ne_temporary]
  rcases s.backups.find ambient.backupId with _ | (leaf | (_ | _ | _))
  · exact Or.inl ⟨by simp, (), _, rfl, hs.publish ambient hTree⟩
  · exact Or.inr ⟨by simp, _, s, rfl, tree, hs⟩
  · exact Or.inl ⟨by simp, (), _, rfl, hs.publish ambient hTree⟩
  · exact Or.inr ⟨by simp, _, s, rfl, tree, hs⟩
  · exact Or.inr ⟨by simp, _, s, rfl, tree, hs⟩

/-- The sealed directory made from a filled one. -/
def Sealed (copied : Directory) (entries : List BackupEntry) (tree : Directory)
    (manifest : BackupManifest) : Prop :=
  ∃ revision, sqliteSchemaRevision sqlite (databaseFiles copied) = .ok revision ∧
    manifest = newManifest ambient.backupId ambient.createdAt ambient.appVersion revision entries ∧
    writeManifest python copied manifest = .ok tree ∧
    ∃ report, verifyDirectory python sqlite allListable (beyond ambient.temporary) (some (.dir tree))
      ambient.backupId = .ok report

theorem value_unique {α : Type} {c : Prop} {x : Except PyException α} (a b : α)
    (ha : c ∧ x = .ok a) (hb : c ∧ x = .ok b) : a = b :=
  Except.ok.inj (ha.2.symm.trans hb.2)

/-- From the filled directory to the rename: the manifest, the verification and the
destination decide. -/
theorem sealBackup_exact {copied : Directory} (hCopied : copied.WellFormed IsFileName)
    (entries : List BackupEntry) :
    Exact (Staged ambient host (some (.dir copied)))
      (sealBackup python sqlite beyond faults ambient copied entries)
      ((∀ name ∈ [.schemaRevision, .writeManifest, .verify, .publish], faults.signal name = none) ∧
        (∃ tree manifest, Sealed python sqlite beyond ambient copied entries tree manifest) ∧
        DestinationFree ambient host)
      (fun manifest now => ∃ tree, Sealed python sqlite beyond ambient copied entries tree manifest ∧
        Published ambient host tree now) (Unfinished ambient host) := by
  unfold sealBackup
  refine Exact.congr (Exact.bind_value value_unique (Exact.guarded_lift fun e s hs => ⟨_, hs⟩)
    fun revision hRevision => Exact.bind_value value_unique
      (fillTemporary_exact faults ambient fun tree hWrite => writeManifest_wellFormed hCopied hWrite)
    fun tree hWrite => Exact.bind_value value_unique (Exact.guarded_lift fun e s hs => ⟨_, hs⟩)
    fun report hVerify => (publishTemporary_exact faults ambient
      (writeManifest_wellFormed hCopied hWrite.2)).bind fun _ => Exact.pure fun s hs =>
        ⟨tree, ⟨revision, hRevision.2, rfl, hWrite.2, report, hVerify.2⟩, hs⟩) ?_
  simp only [List.forall_mem_cons, Sealed]
  constructor
  · rintro ⟨revision, ⟨hFirst, hRevision⟩, tree, ⟨hSecond, hWrite⟩, report, ⟨hThird, hVerify⟩, ⟨hLast, hFree⟩, -⟩
    exact ⟨⟨hFirst, hSecond, hThird, hLast, by simp⟩,
      ⟨tree, _, revision, hRevision, rfl, hWrite, report, hVerify⟩, hFree⟩
  · rintro ⟨⟨hFirst, hSecond, hThird, hLast, -⟩,
      ⟨tree, _, revision, hRevision, rfl, hWrite, report, hVerify⟩, hFree⟩
    exact ⟨revision, ⟨hFirst, hRevision⟩, tree, ⟨hSecond, hWrite⟩, report, ⟨hThird, hVerify⟩,
      ⟨hLast, hFree⟩, trivial⟩

/-- What the temporary directory holds when it is renamed. -/
def Filled (listable : Listable) (host : Host) (tree : Directory) (manifest : BackupManifest) : Prop :=
  ∃ copied, populateBackup sqlite settings listable host.storage host.database = .ok copied ∧
    Sealed python sqlite beyond ambient copied.1 copied.2 tree manifest

/-- A filled directory has names of files. -/
theorem Filled.wellFormed {listable : Listable} {tree : Directory} {manifest : BackupManifest}
    (hStorage : ∀ root, host.storage = some (.dir root) → root.WellFormed IsFileName)
    (h : Filled python sqlite beyond settings ambient listable host tree manifest) :
    tree.WellFormed IsFileName := by
  obtain ⟨copied, hPopulate, revision, -, -, hWrite, -⟩ := h
  obtain ⟨_, _, _, hPopulated⟩ := populated_of_populateBackup hStorage hPopulate
  exact writeManifest_wellFormed hPopulated.wellFormed hWrite

/-- The published backup has a database in rollback mode, which is opened without traces. -/
theorem Filled.opened_eq {listable : Listable} {tree : Directory} {manifest : BackupManifest}
    (hStorage : ∀ root, host.storage = some (.dir root) → root.WellFormed IsFileName)
    (h : Filled python sqlite beyond settings ambient listable host tree manifest) :
    sqlite.opened (databaseFiles tree) = databaseFiles tree := by
  obtain ⟨copied, hPopulate, revision, -, -, hWrite, -⟩ := h
  obtain ⟨copy, _, _, hPopulated⟩ := populated_of_populateBackup hStorage hPopulate
  obtain ⟨payload, -, rfl⟩ := writeManifest_eq_ok hWrite
  rw [hPopulated.databaseFiles_written, sqlite.opened_backup _ _ hPopulated.copied]

/-- The calls of the preparation, in their order. -/
def callsBeforeRename : List BackupCall :=
  [.freeSpace, .makeTemporary, .populate, .schemaRevision, .writeManifest, .verify, .publish]

/-- Every step up to the rename succeeds. -/
structure Prepares (host : Host) : Prop where
  silent : ∀ name ∈ callsBeforeRename, faults.signal name = none
  freeSpace : FreeSpace settings faults ambient host
  temporaryFree : host.backups.find ambient.temporary = none
  filled : ∃ tree manifest, Filled python sqlite beyond settings ambient faults.listable host tree manifest
  destinationFree : DestinationFree ambient host

/-- The preparation gets as far as a temporary directory of its own. -/
def MakesTemporary (host : Host) : Prop :=
  (faults.signal .freeSpace = none ∧ FreeSpace settings faults ambient host) ∧
    faults.signal .makeTemporary = none ∧ host.backups.find ambient.temporary = none

/-- What a failing preparation leaves: a directory under the temporary name if
it has made one, and what was there otherwise. -/
def Abandoned (host : Host) (_ : PyException) (now : Host) : Prop :=
  (MakesTemporary settings faults ambient host ∧ ∃ tree, Staged ambient host (some (.dir tree)) now) ∨
    (¬MakesTemporary settings faults ambient host ∧ Staged ambient host (host.backups.find ambient.temporary) now)

/-- The preparation returns exactly when every step up to the rename succeeds.
It then has published a verified backup, and otherwise nothing. -/
theorem prepareBackup_exact (hRoot : host.backups.WellFormed IsFileName)
    (hStorage : ∀ root, host.storage = some (.dir root) → root.WellFormed IsFileName) :
    Exact (fun now => now = host) (prepareBackup python sqlite beyond settings faults ambient)
      (Prepares python sqlite beyond settings faults ambient host)
      (fun manifest now => ∃ tree, Filled python sqlite beyond settings ambient faults.listable host tree manifest ∧
        Published ambient host tree now) (Abandoned settings faults ambient host) := by
  have hCopied : ∀ copied, populateBackup sqlite settings faults.listable host.storage host.database = .ok copied →
      copied.1.WellFormed IsFileName := fun copied h =>
    let ⟨_, _, _, hPopulated⟩ := populated_of_populateBackup hStorage h
    hPopulated.wellFormed
  unfold prepareBackup
  refine Exact.mono (Exact.congr (Exact.bind_split
    (@checkFreeSpace_exact settings faults ambient host (host.backups.find ambient.temporary))
    fun _ => (makeTemporary_exact faults ambient).bind_split fun _ =>
      Exact.read_bind (a := (host.storage, host.database)) (fun s hs => Prod.ext hs.live.1 hs.live.2.1)
        (Exact.bind_value value_unique (fillTemporary_exact faults ambient hCopied) fun copied hValue =>
          (sealBackup_exact python sqlite beyond faults ambient (hCopied copied hValue.2) copied.2).mono
            (fun _ hs => hs)
            (fun manifest now ⟨tree, hSealed, hPublished⟩ => ⟨tree, ⟨copied, hValue.2, hSealed⟩, hPublished⟩)
            fun _ _ hs => hs)) ?_) ?_ (fun _ _ hs => hs) ?_
  · constructor
    · rintro ⟨⟨h₁, hSpace⟩, ⟨h₂, hFree⟩, copied, ⟨h₃, hPopulate⟩, hRest, ⟨tree, manifest, hSealed⟩, hDestination⟩
      refine ⟨?_, hSpace, hFree, ⟨tree, manifest, copied, hPopulate, hSealed⟩, hDestination⟩
      simp only [List.forall_mem_cons, callsBeforeRename] at hRest ⊢
      exact ⟨h₁, h₂, h₃, hRest⟩
    · rintro ⟨hSilent, hSpace, hFree, ⟨tree, manifest, copied, hPopulate, hSealed⟩, hDestination⟩
      simp only [List.forall_mem_cons, callsBeforeRename] at hSilent ⊢
      exact ⟨⟨hSilent.1, hSpace⟩, ⟨hSilent.2.1, hFree⟩, copied, ⟨hSilent.2.2.1, hPopulate⟩,
        hSilent.2.2.2, ⟨tree, manifest, hSealed⟩, hDestination⟩
  · rintro now rfl
    exact Staged.refl ambient hRoot
  · rintro e now (⟨hNot, hStaged⟩ | ⟨hSpace, ⟨hNot, hStaged⟩ | ⟨hMade, hUnfinished⟩⟩)
    · exact Or.inr ⟨fun hMakes => hNot hMakes.1, hStaged⟩
    · exact Or.inr ⟨fun hMakes => hNot hMakes.2, hStaged⟩
    · exact Or.inl ⟨⟨hSpace, hMade⟩, hUnfinished⟩

variable (retention : Bool)

/-- The final steps leave everything but other backups alone. -/
theorem finishBackup_spec {now : Host} (hRoot : now.backups.WellFormed IsFileName) {tree : Directory}
    (hBackup : now.backups.find ambient.backupId = some (.dir tree))
    (hOpened : sqlite.opened (databaseFiles tree) = databaseFiles tree) :
    ∃ outcome after,
      finishBackup python sqlite beyond settings faults ambient retention now = (outcome, after) ∧
      (∀ name, fullMatch backupIdPattern name = false ∨ name = ambient.backupId →
        after.backups.find name = now.backups.find name) ∧
      after.backups.WellFormed IsFileName ∧ ((∃ deleted, outcome = .ok deleted) ↔
        faults.signal .syncRoot = none ∧
          (retention = true → RetentionReturns faults python sqlite beyond false now.backups)) := by
  simp only [finishBackup, bind_def, call]
  cases hSync : faults.signal .syncRoot with
  | some e => exact ⟨_, _, rfl, fun _ _ => rfl, hRoot, by simp⟩
  | none =>
      cases retention with
      | false => exact ⟨_, _, rfl, fun _ _ => rfl, hRoot, by simp⟩
      | true =>
          obtain ⟨outcome, after, hRun, -, hInspected, hOk⟩ := retentionPass_spec faults python sqlite
            beyond settings false [ambient.backupId] hRoot
          have hKept (name : PyStr) (hName : fullMatch backupIdPattern name = false ∨ name = ambient.backupId) :
              after.backups.find name = now.backups.find name := by
            rcases hName with hOther | rfl
            · exact hInspected.other name hOther
            · rcases hInspected.kept ambient.backupId (List.mem_singleton.mpr rfl) with hSame | hListed
              · exact hSame
              · exact hListed.trans (find_listedRoot_of_opened_eq python sqlite beyond hBackup hOpened)
          have hFormed := hInspected.wellFormed
          simp only [guarded_none, pure_apply, if_true, applyRetention, Bool.false_eq_true, if_false,
            bind_def, hRun]
          cases outcome with
          | ok report => exact ⟨_, _, rfl, hKept, hFormed, by simpa using hOk⟩
          | error e => exact ⟨_, _, rfl, hKept, hFormed, by simpa using hOk⟩

/-- The new backup does not disturb the listing. -/
theorem exists_listBackups_published {now : Host} {tree : Directory}
    (hRoot : host.backups.WellFormed IsFileName) (hPublished : Published ambient host tree now)
    (hDestination : DestinationFree ambient host) (hVerified : ∃ report,
      verifyDirectory python sqlite allListable (beyond ambient.backupId) (some (.dir tree)) ambient.backupId = .ok report) :
    (∃ reports, listBackups python sqlite beyond now.backups = .ok reports) ↔
      ∃ reports, listBackups python sqlite beyond host.backups = .ok reports := by
  rw [exists_listBackups_iff, exists_listBackups_iff]
  simp only [Prod.forall, mem_recognizedBackupDirectories hRoot,
    mem_recognizedBackupDirectories hPublished.wellFormed]
  have hSame {name : PyStr} (hMatch : fullMatch backupIdPattern name = true) (hName : name ≠ ambient.backupId) :
      now.backups.find name = host.backups.find name :=
    hPublished.others name (ne_of_match hMatch (not_match_temporary ambient)) hName
  constructor
  · rintro h name sub ⟨hFind, hMatch⟩
    by_cases hName : name = ambient.backupId
    · subst hName
      -- only an empty directory can have been replaced, and it is invalid
      obtain rfl : sub = .nil := by
        rcases hDestination with hNone | hEmpty
        · simp [hFind] at hNone
        · simpa [hFind] using hEmpty
      intro e hError
      have hEmpty : verifyListed python sqlite beyond (ambient.backupId, .nil) =
          .error (.storageError "The backup manifest is unavailable.") := by
        simp [verifyListed, verifyDirectory, safeBackupId_of_match ambient.matches_backupId, verifyTree,
          verifyContent, verifyChecksum, regularFile?, Forest.node?_cons, Forest.find, throughLink, bind, Except.bind]
      rw [hEmpty] at hError
      cases hError
      rfl
    · exact h name sub ⟨(hSame hMatch hName).trans hFind, hMatch⟩
  · rintro h name sub ⟨hFind, hMatch⟩
    by_cases hName : name = ambient.backupId
    · subst hName
      rw [hPublished.backup, Option.some.injEq, Node.dir.injEq] at hFind
      subst hFind
      obtain ⟨report, hReport⟩ := hVerified
      intro e hError
      simp [verifyListed, hReport] at hError
    · exact h name sub ⟨(hSame hMatch hName).symm.trans hFind, hMatch⟩

/-- The initialisation adds directories with names of files. -/
theorem initializedStorage_wellFormed {storage : Option Entry} {root : Directory}
    (hStorage : ∀ root, storage = some (.dir root) → root.WellFormed IsFileName)
    (h : initializedStorage settings storage = .ok root) : root.WellFormed IsFileName := by
  have hMake (paths : List (List PyStr)) (hPaths : ∀ path ∈ paths, ∀ name ∈ path, IsFileName name)
      {start root : Directory} (hStart : start.WellFormed IsFileName)
      (h : paths.foldlM (fun root path => root.mkdirs path) start = some root) :
      root.WellFormed IsFileName := by
    induction paths generalizing start with
    | nil =>
        cases h
        exact hStart
    | cons path paths ih =>
        rw [List.foldlM_cons, Option.bind_eq_bind, Option.bind_eq_some_iff] at h
        obtain ⟨next, hNext, h⟩ := h
        exact ih (fun other hm => hPaths other (by simp [hm]))
          (hStart.mkdirs (hPaths path (by simp)) hNext) h
  have hDirectories {start : Directory} (hStart : start.WellFormed IsFileName)
      (h : initializedStorage.makeDirectories settings start = .ok root) : root.WellFormed IsFileName := by
    unfold initializedStorage.makeDirectories at h
    split at h
    · cases h
    · rename_i made hMade
      cases h
      exact hMake _ settings.requiredDirectories_fileNames hStart hMade
  unfold initializedStorage at h
  split at h
  · have hNil : (Forest.nil : Directory).WellFormed IsFileName := trivial
    exact hDirectories hNil h
  · exact hDirectories (hStorage _ rfl) h
  · cases h

/-- The lock file is in nobody's way. -/
theorem prepares_locked : Prepares python sqlite beyond settings faults ambient (locked host) ↔
    Prepares python sqlite beyond settings faults ambient host := by
  have hTemporary : (locked host).backups.find ambient.temporary = host.backups.find ambient.temporary :=
    Forest.find_put_of_ne _ _ ambient.temporary_ne_lockName
  have hId : (locked host).backups.find ambient.backupId = host.backups.find ambient.backupId :=
    Forest.find_put_of_ne _ _ (ne_of_match ambient.matches_backupId not_match_lockName)
  constructor
  · rintro ⟨hSilent, hSpace, hFree, hFilled, hDestination⟩
    exact ⟨hSilent, hSpace, hTemporary ▸ hFree, hFilled, by simpa [DestinationFree, hId] using hDestination⟩
  · rintro ⟨hSilent, hSpace, hFree, hFilled, hDestination⟩
    exact ⟨hSilent, hSpace, hTemporary ▸ hFree, hFilled, by simpa [DestinationFree, hId] using hDestination⟩

theorem exists_listBackups_locked (hRoot : host.backups.WellFormed IsFileName) :
    (∃ reports, listBackups python sqlite beyond (locked host).backups = .ok reports) ↔
      ∃ reports, listBackups python sqlite beyond host.backups = .ok reports := by
  rw [exists_listBackups_iff, exists_listBackups_iff]
  exact forall_congr' fun entry => imp_congr_left (recognized_locked hRoot entry)

/-- The filled directory passes verification under its final name. -/
theorem Filled.verified {listable : Listable} {tree : Directory} {manifest : BackupManifest}
    (hStorage : ∀ root, host.storage = some (.dir root) → root.WellFormed IsFileName)
    (h : Filled python sqlite beyond settings ambient listable host tree manifest) : tree ≠ .nil ∧ ∃ report,
      verifyDirectory python sqlite allListable (beyond ambient.backupId) (some (.dir tree)) ambient.backupId = .ok report := by
  have hTree := h.wellFormed python sqlite beyond settings ambient hStorage
  obtain ⟨copied, -, revision, -, -, -, report, hReport⟩ := h
  obtain ⟨payload, parsed, hAccepted, -⟩ := accepted_of_verifyDirectory hTree hReport
  refine ⟨?_, report, (verifyDirectory_beyond hAccepted.allRegular _).trans hReport⟩
  rintro rfl
  simpa [Forest.file?_cons, Forest.find] using hAccepted.manifestFile

/-- The steps from the rename on all succeed. -/
def Finishes (host : Host) : Prop :=
  faults.signal .syncRoot = none ∧
    (retention = true → RetentionReturns faults python sqlite beyond false host.backups) ∧
    faults.signal .lockClose = none ∧ faults.signal .lockUnlink = none

/-- A root that holds the new backup, verified and complete. -/
structure HoldsBackup (root : Directory) : Prop where
  verified : ∃ tree report, root.find ambient.backupId = some (.dir tree) ∧ tree ≠ .nil ∧
    verifyDirectory python sqlite allListable (beyond ambient.backupId) (some (.dir tree)) ambient.backupId = .ok report
  temporary : root.find ambient.temporary = none
  wellFormed : root.WellFormed IsFileName

/-- The preparation gets as far with the lock file in the root. -/
theorem makesTemporary_locked : MakesTemporary settings faults ambient (locked host) ↔
    MakesTemporary settings faults ambient host := by
  have hTemporary : (locked host).backups.find ambient.temporary = host.backups.find ambient.temporary :=
    Forest.find_put_of_ne _ _ ambient.temporary_ne_lockName
  unfold MakesTemporary
  rw [hTemporary]
  rfl

/-- A creation under the lock makes a temporary directory. -/
def MakesUnderLock (host : Host) : Prop := Lockable faults host ∧ MakesTemporary settings faults ambient host

/-- What a creation under the lock leaves that fails before the rename: every
backup, and its temporary directory if it has made one. -/
structure Failed (host after : Host) : Prop where
  wellFormed : after.backups.WellFormed IsFileName
  recognized : ∀ name, fullMatch backupIdPattern name = true → after.backups.find name = host.backups.find name
  made : MakesUnderLock settings faults ambient host → ∃ tree, after.backups.find ambient.temporary = some (.dir tree)
  unmade : ¬MakesUnderLock settings faults ambient host →
    after.backups.find ambient.temporary = host.backups.find ambient.temporary

/-- The locked part either publishes the backup, and returns exactly when the
steps from the rename on succeed, or raises with all backups as they were. -/
theorem createLocked_spec (hRoot : host.backups.WellFormed IsFileName)
    (hStorage : ∀ root, host.storage = some (.dir root) → root.WellFormed IsFileName) :
    ∃ outcome after,
      createLocked python sqlite beyond settings faults ambient retention host = (outcome, after) ∧
      ((Lockable faults host ∧ Prepares python sqlite beyond settings faults ambient host ∧
          HoldsBackup python sqlite beyond ambient after.backups ∧
          ((∃ result, outcome = .ok result) ↔ Finishes python sqlite beyond faults retention host)) ∨
        (¬(Lockable faults host ∧ Prepares python sqlite beyond settings faults ambient host) ∧
          (∃ e, outcome = .error e) ∧ Failed settings faults ambient host after)) := by
  have hLockedRoot := (sameButLock_locked host).wellFormed hRoot
  have hLocked {name : PyStr} (hMatch : fullMatch backupIdPattern name = true) :
      (locked host).backups.find name = host.backups.find name :=
    (sameButLock_locked host).others name (ne_of_match hMatch not_match_lockName)
  obtain ⟨outcome, after, hRun, ⟨hLockable, result, mid, hBody, hSame, hOk⟩ | ⟨hNot, hSame, hError⟩⟩ :=
    operationLock_spec faults (do
      let manifest ← prepareBackup python sqlite beyond settings faults ambient
      let deleted ← finishBackup python sqlite beyond settings faults ambient retention
      return (manifest, deleted)) host
  · refine ⟨outcome, after, hRun, ?_⟩
    rcases prepareBackup_exact python sqlite beyond settings faults ambient hLockedRoot hStorage
      (locked host) rfl with ⟨hPrepares, manifest, ready, hPrepare, tree, hFilled, hPublished⟩ |
        ⟨hPrepares, e, left, hPrepare, hAbandoned⟩
    · obtain ⟨ending, last, hFinish, hKept, hFormed, hReturns⟩ := finishBackup_spec python sqlite beyond
        settings faults ambient retention hPublished.wellFormed hPublished.backup
          (hFilled.opened_eq python sqlite beyond settings ambient hStorage)
      obtain ⟨hNonempty, report, hReport⟩ := hFilled.verified python sqlite beyond settings ambient hStorage
      have hList : (∃ reports, listBackups python sqlite beyond ready.backups = .ok reports) ↔
          ∃ reports, listBackups python sqlite beyond host.backups = .ok reports :=
        (exists_listBackups_published python sqlite beyond ambient hLockedRoot hPublished
          hPrepares.destinationFree ⟨report, hReport⟩).trans
            (exists_listBackups_locked python sqlite beyond hRoot)
      have hMid : mid = last ∧ ((∃ a, result = .ok a) ↔ ∃ deleted, ending = .ok deleted) := by
        rw [bind_ok hPrepare, bind_def, hFinish] at hBody
        cases ending with
        | ok deleted =>
            obtain ⟨rfl, rfl⟩ := Prod.mk.inj hBody
            exact ⟨rfl, by simp⟩
        | error e =>
            obtain ⟨rfl, rfl⟩ := Prod.mk.inj hBody
            exact ⟨rfl, by simp⟩
      obtain ⟨rfl, hResult⟩ := hMid
      have hHolds : HoldsBackup python sqlite beyond ambient after.backups := by
        refine ⟨⟨tree, report, ?_, hNonempty, hReport⟩, ?_, hSame.wellFormed hFormed⟩
        · rw [hSame.others _ (ne_of_match ambient.matches_backupId not_match_lockName),
            hKept _ (Or.inr rfl), hPublished.backup]
        · rw [hSame.others _ ambient.temporary_ne_lockName, hKept _ (Or.inl (not_match_temporary ambient)),
            hPublished.temporary]
      refine Or.inl ⟨hLockable, (prepares_locked python sqlite beyond settings faults ambient).mp hPrepares,
        hHolds, ?_⟩
      have hOutcome : (∃ a, outcome = .ok a) ↔
          (∃ a, result = .ok a) ∧ faults.signal .lockClose = none ∧ faults.signal .lockUnlink = none := by
        simp only [hOk, exists_and_right]
      rw [hOutcome, hResult, hReturns, Finishes, RetentionReturns, RetentionReturns, hList, and_assoc]
    · rw [bind_error hPrepare, Prod.mk.injEq] at hBody
      obtain ⟨rfl, rfl⟩ := hBody
      have hTemporary : (locked host).backups.find ambient.temporary = host.backups.find ambient.temporary :=
        (sameButLock_locked host).others _ ambient.temporary_ne_lockName
      have hLeft : Failed settings faults ambient host after := by
        have hAfter := hSame.others _ ambient.temporary_ne_lockName
        have hBackups {entry : Option Entry} (hStaged : Staged ambient (locked host) entry left) (name : PyStr)
            (hMatch : fullMatch backupIdPattern name = true) : after.backups.find name = host.backups.find name := by
          rw [hSame.others name (ne_of_match hMatch not_match_lockName),
            hStaged.others name (ne_of_match hMatch (not_match_temporary ambient)), hLocked hMatch]
        rcases hAbandoned with ⟨hMakes, tree, hStaged⟩ | ⟨hMakes, hStaged⟩
        · refine ⟨hSame.wellFormed hStaged.wellFormed, hBackups hStaged, fun _ => ⟨tree, ?_⟩, fun hNot => ?_⟩
          · rw [hAfter, hStaged.temporary]
          · exact (hNot ⟨hLockable, (makesTemporary_locked settings faults ambient).mp hMakes⟩).elim
        · refine ⟨hSame.wellFormed hStaged.wellFormed, hBackups hStaged, fun hMade => ?_, fun _ => ?_⟩
          · exact (hMakes ((makesTemporary_locked settings faults ambient).mpr hMade.2)).elim
          · rw [hAfter, hStaged.temporary, hTemporary]
      refine Or.inr ⟨fun h => hPrepares ((prepares_locked python sqlite beyond settings faults ambient).mpr h.2),
        ?_, hLeft⟩
      cases outcome with
      | error e => exact ⟨e, rfl⟩
      | ok a => exact absurd ((hOk a).mp rfl).1 (by simp)
  · have hFailed : Failed settings faults ambient host after :=
      ⟨hSame.wellFormed hRoot, fun name hMatch => hSame.others name (ne_of_match hMatch not_match_lockName),
        fun hMade => (hNot hMade.1).elim, fun _ => hSame.others _ ambient.temporary_ne_lockName⟩
    exact ⟨outcome, after, hRun, Or.inr ⟨fun h => hNot h.1, hError, hFailed⟩⟩

/-- The creation gets as far as the rename. -/
def Publishes (host : Host) : Prop :=
  faults.signal .ensureRoot = none ∧ faults.signal .initializeStorage = none ∧ Lockable faults host ∧
    ∃ root, initializedStorage settings host.storage = .ok root ∧
      Prepares python sqlite beyond settings faults ambient { host with storage := some (.dir root) }

/-- The handler of a creation that fails before the rename finds a directory
under the temporary name: its own, or one that was there. -/
def FindsTemporary (host : Host) : Prop :=
  faults.signal .ensureRoot = none ∧ faults.signal .initializeStorage = none ∧
    ∃ root, initializedStorage settings host.storage = .ok root ∧
      (MakesUnderLock settings faults ambient { host with storage := some (.dir root) } ∨
        ∃ tree, host.backups.find ambient.temporary = some (.dir tree))

/-- The handler removes the temporary directory, or leaves what was there before the call. -/
def RemovesTemporary (host : Host) : Prop :=
  ∀ left, faults.temporaryRemains = some left → host.backups.find ambient.temporary = some (.dir left)

/-- A creation that raises leaves the recognised backups as they were and no
temporary directory of its own; one that returns reports a backup that is
there and verifies. -/
structure AllOrNothing (host : Host) (run : Except PyException BackupCreationReport × Host) : Prop where
  raised : ∀ e, run.1 = .error e →
    (∀ entry, entry ∈ recognizedBackupDirectories run.2.backups ↔
      entry ∈ recognizedBackupDirectories host.backups) ∧
    (run.2.backups.find ambient.temporary = none ∨
      run.2.backups.find ambient.temporary = host.backups.find ambient.temporary)
  returned : ∀ report, run.1 = .ok report →
    ∃ verified, verifyBackup python sqlite beyond run.2.backups report.backupId = .ok verified

/-- The root after the handler has done what it can. -/
def cleanedRoot (root : Directory) : Directory :=
  match root.find ambient.temporary with
  | some (.dir _) => root.put ambient.temporary (faults.temporaryRemains.map .dir)
  | _ => root

theorem removeTemporary_apply (left : Host) : removeTemporary faults ambient left =
    (.ok (), { left with backups := cleanedRoot faults ambient left.backups }) := by
  rw [removeTemporary, bind_def, read_apply, cleanedRoot]
  rcases left.backups.find ambient.temporary with _ | leaf | tree <;> rfl

/-- The handler does what it can and raises. -/
theorem abandonBackup_apply (audit : Bool) (e : PyException) (left : Host) : ∃ after,
    (abandonBackup faults ambient audit e : Program Host PyException BackupCreationReport) left =
      (.error e, after) ∧ after.backups = cleanedRoot faults ambient left.backups := by
  cases audit <;> cases hAudit : faults.signal .audit <;>
    simp [abandonBackup, bind_def, removeTemporary_apply, auditEvent, hAudit]

/-- A directory under the temporary name is removed, or some of it remains. -/
theorem cleanedRoot_of_dir {root tree : Directory} (h : root.find ambient.temporary = some (.dir tree)) :
    cleanedRoot faults ambient root = root.put ambient.temporary (faults.temporaryRemains.map .dir) := by
  rw [cleanedRoot, h]

theorem cleanedRoot_of_not_dir {root : Directory} (h : ¬∃ tree, root.find ambient.temporary = some (.dir tree)) :
    cleanedRoot faults ambient root = root := by
  rw [cleanedRoot]
  split
  · rename_i tree hFind
    exact (h ⟨tree, hFind⟩).elim
  · rfl

theorem cleanedRoot_wellFormed {root : Directory} (hRoot : root.WellFormed IsFileName) :
    (cleanedRoot faults ambient root).WellFormed IsFileName := by
  rw [cleanedRoot]
  split
  · refine hRoot.put ambient.isFileName_temporary fun node hNode => ?_
    obtain ⟨left, hLeft, rfl⟩ := Option.map_eq_some_iff.mp hNode
    exact faults.temporaryRemains_wellFormed left hLeft
  · exact hRoot

theorem find_cleanedRoot_of_match (root : Directory) {name : PyStr} (hMatch : fullMatch backupIdPattern name = true) :
    (cleanedRoot faults ambient root).find name = root.find name := by
  rw [cleanedRoot]
  split
  · exact Forest.find_put_of_ne _ _ (ne_of_match hMatch (not_match_temporary ambient))
  · rfl

/-- Backups and temporary names in a root that differs at the temporary name only. -/
theorem recognized_congr {root root' : Directory} (hRoot : root.WellFormed IsFileName)
    (hRoot' : root'.WellFormed IsFileName)
    (h : ∀ name, fullMatch backupIdPattern name = true → root'.find name = root.find name)
    (entry : PyStr × Directory) :
    entry ∈ recognizedBackupDirectories root' ↔ entry ∈ recognizedBackupDirectories root := by
  rw [mem_recognizedBackupDirectories hRoot', mem_recognizedBackupDirectories hRoot]
  exact and_congr_left fun hMatch => by rw [h _ hMatch]

/-- What a creation that raises before the rename leaves in the end. -/
structure Cleaned (host final : Host) : Prop where
  wellFormed : final.backups.WellFormed IsFileName
  recognized : ∀ name, fullMatch backupIdPattern name = true → final.backups.find name = host.backups.find name
  found : FindsTemporary settings faults ambient host →
    final.backups.find ambient.temporary = faults.temporaryRemains.map .dir
  notFound : ¬FindsTemporary settings faults ambient host →
    final.backups.find ambient.temporary = host.backups.find ambient.temporary

/-- A creation that gets to the rename leaves the new backup, and returns it
exactly when the later steps succeed; any other creation raises and changes no
backup. -/
theorem createBackup_spec (hRoot : host.backups.WellFormed IsFileName)
    (hStorage : ∀ root, host.storage = some (.dir root) → root.WellFormed IsFileName) (audit : Bool) :
    ∃ outcome final,
      createBackup python sqlite beyond settings faults ambient retention audit host = (outcome, final) ∧
      ((Publishes python sqlite beyond settings faults ambient host ∧
          HoldsBackup python sqlite beyond ambient final.backups ∧
          (∀ report, outcome = .ok report → report.backupId = ambient.backupId) ∧
          ((∃ report, outcome = .ok report) ↔ Finishes python sqlite beyond faults retention host)) ∨
        (¬Publishes python sqlite beyond settings faults ambient host ∧ (∃ e, outcome = .error e) ∧
          Cleaned settings faults ambient host final)) := by
  have hUntouched (hNot : ¬FindsTemporary settings faults ambient host) : Cleaned settings faults ambient host host :=
    ⟨hRoot, fun _ _ => rfl, fun h => (hNot h).elim, fun _ => rfl⟩
  simp only [createBackup, bind_def, call]
  cases hEnsure : faults.signal .ensureRoot with
  | some e =>
      exact ⟨_, _, rfl, Or.inr ⟨by simp [Publishes, hEnsure], ⟨e, rfl⟩, hUntouched (by simp [FindsTemporary, hEnsure])⟩⟩
  | none =>
  cases hSignal : faults.signal .initializeStorage with
  | some e =>
      exact ⟨_, _, rfl, Or.inr ⟨by simp [Publishes, hSignal], ⟨e, rfl⟩, hUntouched (by simp [FindsTemporary, hSignal])⟩⟩
  | none =>
  simp only [guarded_none, pure_apply, initializeStorage, bind_def, read_apply, lift_apply]
  cases hInitialized : initializedStorage settings host.storage with
  | error e =>
      exact ⟨_, _, rfl, Or.inr ⟨by simp [Publishes, hInitialized], ⟨e, rfl⟩,
        hUntouched (by simp [FindsTemporary, hInitialized])⟩⟩
  | ok root =>
  simp only [write_apply]
  have hPublishes : Publishes python sqlite beyond settings faults ambient host ↔
      Lockable faults { host with storage := some (.dir root) } ∧
        Prepares python sqlite beyond settings faults ambient { host with storage := some (.dir root) } := by
    simp only [Publishes, hEnsure, hSignal, hInitialized, Except.ok.injEq, exists_eq_left', true_and]
    rfl
  have hFinds : FindsTemporary settings faults ambient host ↔
      MakesUnderLock settings faults ambient { host with storage := some (.dir root) } ∨
        ∃ tree, host.backups.find ambient.temporary = some (.dir tree) := by
    simp only [FindsTemporary, hEnsure, hSignal, hInitialized, Except.ok.injEq, exists_eq_left', true_and]
  have hRootFormed := initializedStorage_wellFormed settings hStorage hInitialized
  obtain ⟨outcome, after, hRun, hCases⟩ := @createLocked_spec python sqlite beyond settings faults ambient
    { host with storage := some (.dir root) } retention hRoot (by simpa using hRootFormed)
  cases outcome with
  | error e =>
      obtain ⟨final, hFinal, hBackups⟩ := abandonBackup_apply faults ambient audit e after
      refine ⟨_, final, by rw [tryExcept_error (bind_error hRun _), hFinal], ?_⟩
      rcases hCases with ⟨hLockable, hPrepares, hHolds, hReturns⟩ | ⟨hNot, -, hFailed⟩
      · rw [cleanedRoot_of_not_dir faults ambient (by simp [hHolds.temporary])] at hBackups
        exact Or.inl ⟨hPublishes.mpr ⟨hLockable, hPrepares⟩, hBackups ▸ hHolds, by simp,
          iff_of_false (by simp) fun h => by simpa using hReturns.mpr h⟩
      · refine Or.inr ⟨fun h => hNot (hPublishes.mp h), ⟨e, rfl⟩, ?_⟩
        have hThere : (∃ tree, after.backups.find ambient.temporary = some (.dir tree)) ↔
            FindsTemporary settings faults ambient host := by
          by_cases hMakes : MakesUnderLock settings faults ambient { host with storage := some (.dir root) }
          · exact iff_of_true (hFailed.made hMakes) (hFinds.mpr (Or.inl hMakes))
          · rw [hFailed.unmade hMakes, hFinds]
            exact (or_iff_right hMakes).symm
        refine ⟨hBackups ▸ cleanedRoot_wellFormed faults ambient hFailed.wellFormed, fun name hMatch => ?_,
          fun hFound => ?_, fun hAbsent => ?_⟩
        · rw [hBackups, find_cleanedRoot_of_match faults ambient _ hMatch, hFailed.recognized name hMatch]
        · obtain ⟨tree, hTree⟩ := hThere.mpr hFound
          rw [hBackups, cleanedRoot_of_dir faults ambient hTree, Forest.find_put_self hFailed.wellFormed]
        · rw [hBackups, cleanedRoot_of_not_dir faults ambient fun h => hAbsent (hThere.mp h)]
          exact hFailed.unmade fun hMakes => hAbsent (hFinds.mpr (Or.inl hMakes))
  | ok result =>
      rcases hCases with ⟨hLockable, hPrepares, hHolds, hReturns⟩ | ⟨-, ⟨e, hError⟩, -⟩
      · have hRecord (report : BackupCreationReport) : ∃ final, final.backups = after.backups ∧
            (if audit then auditEvent faults ambient .backupCreated .success >>= fun _ => pure report
              else pure report) after = (.ok report, final) := by
          cases audit with
          | false => exact ⟨after, rfl, rfl⟩
          | true => cases hAudit : faults.signal .audit <;> simp [auditEvent, hAudit, bind_def]
        obtain ⟨final, hBackups, hReport⟩ := hRecord
          ⟨ambient.backupId, result.1.entries.length, result.1.totalBytes, result.2⟩
        refine ⟨.ok ⟨ambient.backupId, result.1.entries.length, result.1.totalBytes, result.2⟩, final,
          tryExcept_ok ((bind_ok hRun _).trans hReport), Or.inl ⟨hPublishes.mpr ⟨hLockable, hPrepares⟩,
            hBackups ▸ hHolds, fun _ h => Except.ok.inj h ▸ rfl, ?_⟩⟩
        exact iff_of_true ⟨_, rfl⟩ (hReturns.mp ⟨result, rfl⟩)
      · cases hError

end Steps

/-- The fragment of a random UUID. -/
def sampleToken : Token where
  text := py "0123abcd"
  length_text := by decide
  lowerHex := by decide

/-- A clock, two names, and enough space. -/
def sampleAmbient : Ambient where
  idTime := sampleManifest.createdAt
  createdAt := sampleManifest.createdAt
  createdAt_utc := rfl
  token := sampleToken
  hex := py "00"
  hex_lowerHex := by decide
  appVersion := py "1.0.0"
  appVersion_scalar := by decide
  freeBytes := 1000000

/-- An empty root, no storage yet, and a database. -/
def sampleHost : Host := ⟨.nil, none, .ofMain sampleDatabase, []⟩

/-- An empty root has no names at all. -/
theorem sampleHost_wellFormed : sampleHost.backups.WellFormed IsFileName := trivial

/-- Only the sync of the backup root fails. -/
def unsyncedRoot : Faults :=
  { noFaults with signal := fun name => if name = .syncRoot then some (.os .other) else none }

end SoftwareHub.Backup
