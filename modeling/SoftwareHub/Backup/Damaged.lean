import SoftwareHub.Backup.Accepted
import SoftwareHub.Backup.Identifiers
import SoftwareHub.Backup.Inventory
import SoftwareHub.Python.JsonRoundTrip

/-! Damaged backups: which contents of a backup directory make the verifier raise
something other than the two errors that `list_backups` catches. -/
namespace SoftwareHub.Backup

open SoftwareHub.Python SoftwareHub.Tree SoftwareHub.Semantics SoftwareHub.Semantics.Program

/-- The computation returns, or raises an error that `list_backups` ignores. -/
def Handled {α : Type} (x : Except PyException α) : Prop :=
  ∀ e, x = .error e → e.isInvalidEntry = true

section Handled

variable {α γ : Type}

/-- A value is handled. -/
@[simp] theorem handled_ok (a : α) : Handled (.ok a : Except PyException α) := by simp [Handled]

@[simp] theorem handled_pure (a : α) : Handled (pure a : Except PyException α) := handled_ok a

/-- An error is handled if it is one of the two. -/
@[simp] theorem handled_error (e : PyException) :
    Handled (.error e : Except PyException α) ↔ e.isInvalidEntry = true := by simp [Handled]

@[simp] theorem handled_throw (e : PyException) :
    Handled (throw e : Except PyException α) ↔ e.isInvalidEntry = true := handled_error e

theorem handled_bind (x : Except PyException α) (f : α → Except PyException γ) :
    Handled (x >>= f) ↔ Handled x ∧ ∀ a, x = .ok a → Handled (f a) := by
  cases x with
  | error e => exact ⟨fun h => ⟨fun e' h' => h e' (by cases h'; rfl), by simp⟩,
      fun h e' h' => h.1 e' (by cases h'; rfl)⟩
  | ok a => exact ⟨fun h => ⟨handled_ok a, fun a' h' => by cases h'; exact h⟩, fun h => h.2 a rfl⟩

/-- A check that raises a caught error only guards what follows. -/
@[simp] theorem handled_require {c : Prop} [Decidable c] {e : PyException} :
    Handled (require c e) ↔ c ∨ e.isInvalidEntry = true := by
  by_cases h : c <;> simp [require, h]

end Handled

variable (python : Interpreter)

/-- `str` of the value does not exceed the recursion limit. -/
def Printable : Json → Prop
  | .array items => (python.containerRepr (.array items)).isSome
  | .object members => (python.containerRepr (.object members)).isSome
  | _ => True

/-- An infinite float, which `int` refuses with an `OverflowError`. -/
def IsInfinite : Json → Prop
  | .float (.infinite _) => True
  | _ => False

/-- `str` fails in its recursion only. -/
theorem handled_pyStr (value : Json) : Handled (pyStr python value) ↔ Printable python value := by
  cases value with
  | null | int | float | str => simp [pyStr, Printable]
  | bool value => cases value <;> simp [pyStr, Printable]
  | array items =>
      cases h : python.containerRepr (.array items) <;>
        simp [pyStr, Printable, h, PyException.isInvalidEntry]
  | object members =>
      cases h : python.containerRepr (.object members) <;>
        simp [pyStr, Printable, h, PyException.isInvalidEntry]

/-- A path is refused by a caught error. -/
theorem handled_safeRelativePath (value : PyStr) : Handled (safeRelativePath value) := by
  unfold safeRelativePath
  split_ifs <;> simp [PyException.isInvalidEntry]

theorem handled_safeBackupId (value : PyStr) : Handled (safeBackupId value) := by
  unfold safeBackupId
  split_ifs <;> simp [PyException.isInvalidEntry]

/-- `int` of the value does not overflow. -/
theorem pyInt_eq_overflowError_iff (value : Json) :
    pyInt value = .error .overflowError ↔ IsInfinite value := by
  cases value with
  | null | int | array | object => simp [pyInt, IsInfinite]
  | bool value => cases value <;> simp [pyInt, IsInfinite]
  | str value => cases h : parseInt value <;> simp [pyInt, IsInfinite, h]
  | float value => cases value <;> simp [pyInt, IsInfinite]

/-- The fields of one manifest entry convert, as far as the parser looks at them. -/
def EntryConverts (seen : List PyStr) (item : List (PyStr × Json)) : Prop :=
  Printable python ((Json.get? item (py "relative_path")).getD (.str [])) ∧
    ∀ relative, entryPath python seen item = .ok relative →
      (∀ value, Json.get? item (py "size_bytes") = some value → ¬IsInfinite value) ∧
        ∀ size, entrySize item = .ok size →
          ∀ value, Json.get? item (py "sha256") = some value → Printable python value

/-- Every entry converts up to the first one that is refused. -/
def EntriesConvert : List PyStr → List Json → Prop
  | _, [] => True
  | seen, .object item :: items => EntryConverts python seen item ∧
      ∀ entry, parseEntry python seen (.object item) = .ok entry →
        EntriesConvert (entry.relativePath :: seen) items
  | _, _ :: _ => True

/-- The manifest fields convert, as far as the parser looks at them: the text
nests no deeper than the interpreter allows and has no integer of more than
4300 digits, no text is taken of a container that nests too deeply, no size is
infinite, and the timestamp has a UTC form. -/
def ManifestConverts (payload : Bytes) : Prop :=
  Json.loads python.maxDepth payload ≠ .error (.json .digits) ∧
  Json.loads python.maxDepth payload ≠ .error (.json .recursion) ∧
  ∀ raw, manifestFields python payload = .ok raw →
    Printable python ((Json.get? raw (py "backup_id")).getD (.str [])) ∧
    ∀ id, parseBackupId python raw = .ok id →
      (∀ value, Json.get? raw (py "created_at") = some value → Printable python value) ∧
      ∀ createdAt, parseCreatedAt python raw = .ok createdAt →
        Printable python ((Json.get? raw (py "database_revision")).getD (.str [])) ∧
        ∀ revision, parseRevision python raw = .ok revision →
          (∀ items, Json.get? raw (py "entries") = some (.array items) → EntriesConvert python [] items) ∧
          ∀ entries, manifestEntries python raw = .ok entries →
            createdAt.astimezoneUtc ≠ none ∧
              Printable python ((Json.get? raw (py "app_version")).getD (.str (py "unknown")))

/-- Every declared path can be encoded for the file system, up to the first
entry that is refused. -/
def PathsEncode (beyond : List PyStr → Option Bytes) (tree : Directory) : List BackupEntry → Prop
  | [] => True
  | entry :: entries =>
      (∀ parts, safeRelativePath entry.relativePath = .ok parts → (parts.mapM fsname).isSome) ∧
        ∀ text, verifyEntry beyond tree entry = .ok text → PathsEncode beyond tree entries

/-- The content of a backup directory raises nothing but caught errors. -/
def DecodesCleanly (beyond : List PyStr → Option Bytes) (tree : Directory) (id : PyStr) : Prop :=
  ∀ payload, regularFile? beyond tree [manifestName] = some payload →
    payload.length ≤ maxManifestBytes →
    ∀ checksum, regularFile? beyond tree [manifestChecksumName] = some checksum →
      (∀ b ∈ checksum, b.toNat < 0x80) ∧
      (parseChecksum checksum = .ok (Sha256.hexdigest payload) →
        ManifestConverts python payload ∧
        ∀ manifest, parseManifest python payload = .ok manifest → manifest.backupId = id →
          PathsEncode beyond tree manifest.entries)

/-- The path of an entry is converted to a text. -/
theorem handled_entryPath (seen : List PyStr) (item : List (PyStr × Json)) :
    Handled (entryPath python seen item) ↔
      Printable python ((Json.get? item (py "relative_path")).getD (.str [])) := by
  simp only [entryPath, handled_bind, handled_pyStr]
  refine and_iff_left fun text _ => ⟨handled_safeRelativePath text, fun parts _ => ?_⟩
  split_ifs <;> simp [PyException.isInvalidEntry]

theorem handled_entrySize (item : List (PyStr × Json)) : Handled (entrySize item) ↔
    ∀ value, Json.get? item (py "size_bytes") = some value → ¬IsInfinite value := by
  unfold entrySize
  cases hSize : Json.get? item (py "size_bytes") with
  | none => simp [PyException.isInvalidEntry]
  | some value =>
      have hOverflow := pyInt_eq_overflowError_iff value
      simp only [Option.some.injEq, forall_eq', ← hOverflow]
      cases hInt : pyInt value with
      | ok size => simp
      | error e => cases e <;> simp [PyException.isInvalidEntry]

theorem handled_entryDigest (item : List (PyStr × Json)) : Handled (entryDigest python item) ↔
    ∀ value, Json.get? item (py "sha256") = some value → Printable python value := by
  unfold entryDigest
  cases hDigest : Json.get? item (py "sha256") with
  | none => simp [PyException.isInvalidEntry]
  | some value => simp [handled_pyStr]

theorem handled_parseEntry (seen : List PyStr) (item : List (PyStr × Json)) :
    Handled (parseEntry python seen (.object item)) ↔ EntryConverts python seen item := by
  simp only [parseEntry, handled_bind, handled_entryPath, handled_entrySize, handled_entryDigest,
    EntryConverts]
  refine and_congr_right fun _ => forall₂_congr fun relative _ => and_congr_right fun _ =>
    forall₂_congr fun size _ => and_iff_left fun digest _ => ?_
  split_ifs <;> simp [PyException.isInvalidEntry]

theorem handled_parseEntries (seen : List PyStr) (items : List Json) :
    Handled (parseEntries python seen items) ↔ EntriesConvert python seen items := by
  induction items generalizing seen with
  | nil => simp [parseEntries, EntriesConvert]
  | cons item items ih =>
      rw [parseEntries, handled_bind]
      cases item with
      | object item =>
          rw [handled_parseEntry, EntriesConvert]
          refine and_congr_right fun _ => forall₂_congr fun entry _ => ?_
          rw [handled_bind, ih]
          simp
      | null | bool | int | float | str | array =>
          simp [parseEntry, EntriesConvert, PyException.isInvalidEntry, throw, throwThe,
            MonadExceptOf.throw]

/-- The text of the manifest is decoded and parsed. -/
theorem handled_loadManifest (payload : Bytes) : Handled (loadManifest python payload) ↔
    Json.loads python.maxDepth payload ≠ .error (.json .digits) ∧
      Json.loads python.maxDepth payload ≠ .error (.json .recursion) := by
  have hFuel := Json.loads_ne_fuel python.maxDepth payload
  unfold loadManifest
  cases hLoads : Json.loads python.maxDepth payload with
  | ok raw => simp
  | error e =>
      cases e with
      | unicodeDecode => simp [PyException.isInvalidEntry]
      | json e => cases e <;> simp_all [PyException.isInvalidEntry]

/-- The version of the manifest adds no error of another kind. -/
theorem handled_manifestFields (payload : Bytes) : Handled (manifestFields python payload) ↔
    Json.loads python.maxDepth payload ≠ .error (.json .digits) ∧
      Json.loads python.maxDepth payload ≠ .error (.json .recursion) := by
  rw [manifestFields, handled_bind, handled_loadManifest]
  refine and_iff_left fun raw _ => ?_
  split
  · split_ifs <;> simp [PyException.isInvalidEntry]
  · simp [PyException.isInvalidEntry]

theorem handled_parseBackupId (raw : List (PyStr × Json)) : Handled (parseBackupId python raw) ↔
    Printable python ((Json.get? raw (py "backup_id")).getD (.str [])) := by
  rw [parseBackupId, handled_bind, handled_pyStr]
  exact and_iff_left fun text _ => handled_safeBackupId text

/-- The time of the backup is read from a text. -/
theorem handled_parseCreatedAt (raw : List (PyStr × Json)) : Handled (parseCreatedAt python raw) ↔
    ∀ value, Json.get? raw (py "created_at") = some value → Printable python value := by
  unfold parseCreatedAt
  cases hValue : Json.get? raw (py "created_at") with
  | none => simp [PyException.isInvalidEntry]
  | some value =>
      simp only [Option.some.injEq, forall_eq', handled_bind, handled_pyStr]
      refine and_iff_left fun text _ => ?_
      split
      · simp [PyException.isInvalidEntry]
      · split_ifs <;> simp [PyException.isInvalidEntry]

theorem handled_parseRevision (raw : List (PyStr × Json)) : Handled (parseRevision python raw) ↔
    Printable python ((Json.get? raw (py "database_revision")).getD (.str [])) := by
  rw [parseRevision, handled_bind, handled_pyStr]
  refine and_iff_left fun text _ => ?_
  split_ifs <;> simp [PyException.isInvalidEntry]

theorem handled_manifestEntries (raw : List (PyStr × Json)) : Handled (manifestEntries python raw) ↔
    ∀ items, Json.get? raw (py "entries") = some (.array items) → EntriesConvert python [] items := by
  unfold manifestEntries
  split
  · rename_i items hItems
    rw [handled_bind, handled_parseEntries]
    simp only [hItems, Option.some.injEq, Json.array.injEq, forall_eq']
    refine and_iff_left fun entries _ => ?_
    split_ifs <;> simp [PyException.isInvalidEntry]
  · rename_i hOther
    simp only [handled_error, PyException.isInvalidEntry, true_iff]
    exact fun items hItems => (hOther items hItems).elim

/-- The conversion to UTC can leave the calendar. -/
theorem handled_toUtc (createdAt : DateTime) :
    Handled (toUtc createdAt) ↔ createdAt.astimezoneUtc ≠ none := by
  unfold toUtc
  cases createdAt.astimezoneUtc <;> simp [PyException.isInvalidEntry]

theorem handled_parseManifest (payload : Bytes) :
    Handled (parseManifest python payload) ↔ ManifestConverts python payload := by
  simp only [parseManifest, handled_bind, handled_manifestFields, handled_parseBackupId,
    handled_parseCreatedAt, handled_parseRevision, handled_manifestEntries, handled_toUtc,
    handled_pyStr, ManifestConverts, and_assoc]
  refine and_congr_right fun _ => and_congr_right fun _ => forall₂_congr fun raw _ =>
    and_congr_right fun _ => forall₂_congr fun id _ => and_congr_right fun _ =>
    forall₂_congr fun createdAt _ => and_congr_right fun _ => forall₂_congr fun revision _ =>
    and_congr_right fun _ => forall₂_congr fun entries _ => ?_
  cases hUtc : createdAt.astimezoneUtc with
  | none => simp
  | some utc => simp [toUtc, hUtc]

/-- The checksum file is decoded as ASCII. -/
theorem handled_parseChecksum (content : Bytes) :
    Handled (parseChecksum content) ↔ ∀ b ∈ content, b.toNat < 0x80 := by
  unfold parseChecksum decodeAscii
  by_cases hAscii : content.all fun b => b.toNat < 0x80
  · have hAll : ∀ b ∈ content, b.toNat < 0x80 := by simpa using hAscii
    simp only [hAscii, if_true, iff_true_right hAll]
    split
    · split_ifs <;> simp [PyException.isInvalidEntry]
    · simp [PyException.isInvalidEntry]
  · have hSome : ¬∀ b ∈ content, b.toNat < 0x80 := by simpa using hAscii
    simp [hAscii, iff_false_right hSome, PyException.isInvalidEntry]

variable (sqlite : Sqlite)

/-- What SQLite refuses is a caught error. -/
theorem handled_sqliteIntegrityCheck (files : DatabaseFiles) :
    Handled (sqliteIntegrityCheck sqlite files) := by
  unfold sqliteIntegrityCheck
  split
  · split
    · simp [PyException.isInvalidEntry]
    · split_ifs <;> simp [PyException.isInvalidEntry]
  · simp [PyException.isInvalidEntry]

theorem handled_sqliteSchemaRevision (files : DatabaseFiles) :
    Handled (sqliteSchemaRevision sqlite files) := by
  unfold sqliteSchemaRevision
  split
  · split
    · simp [PyException.isInvalidEntry]
    · simp [PyException.isInvalidEntry]
    · split_ifs <;> simp [PyException.isInvalidEntry]
  · simp [PyException.isInvalidEntry]

section Directory

variable (listable : List PyStr → Bool) (beyond : List PyStr → Option Bytes) (tree : Directory)

/-- A declared file: its path must be one of the file system. -/
theorem handled_verifyEntry (entry : BackupEntry) : Handled (verifyEntry beyond tree entry) ↔
    ∀ parts, safeRelativePath entry.relativePath = .ok parts → (parts.mapM fsname).isSome := by
  rw [verifyEntry, handled_bind, and_iff_right (handled_safeRelativePath _)]
  refine forall₂_congr fun parts _ => ?_
  cases parts.mapM fsname with
  | none => simp [PyException.isInvalidEntry]
  | some path =>
      cases hFile : regularFile? beyond tree path with
      | none => simp [hFile, PyException.isInvalidEntry]
      | some content =>
          simp only [hFile, Option.isSome_some, iff_true, handled_bind, handled_require, handled_pure]
          simp [PyException.isInvalidEntry]

theorem handled_verifyEntries (entries : List BackupEntry) :
    Handled (verifyEntries beyond tree entries) ↔ PathsEncode beyond tree entries := by
  induction entries with
  | nil => simp [verifyEntries, PathsEncode]
  | cons entry entries ih =>
      rw [verifyEntries, handled_bind, handled_verifyEntry, PathsEncode]
      refine and_congr_right fun _ => forall₂_congr fun text _ => ?_
      rw [handled_bind, ih]
      simp

theorem handled_actualFiles : Handled (actualFiles tree listable) := by
  simp only [actualFiles]
  split_ifs <;> simp [PyException.isInvalidEntry]

/-- The checksum step lets only the decoding of `manifest.sha256` fail otherwise. -/
theorem handled_verifyChecksum : Handled (verifyChecksum beyond tree) ↔
    ∀ payload, regularFile? beyond tree [manifestName] = some payload →
      payload.length ≤ maxManifestBytes →
      ∀ checksum, regularFile? beyond tree [manifestChecksumName] = some checksum →
        ∀ b ∈ checksum, b.toNat < 0x80 := by
  unfold verifyChecksum
  cases hManifest : regularFile? beyond tree [manifestName] with
  | none => simp [PyException.isInvalidEntry]
  | some payload =>
      simp only [Option.some.injEq, forall_eq']
      by_cases hSize : maxManifestBytes < payload.length
      · simp [hSize, PyException.isInvalidEntry]
      · rw [if_neg hSize]
        simp only [not_lt.mp hSize, forall_const]
        cases hChecksum : regularFile? beyond tree [manifestChecksumName] with
        | none => simp [PyException.isInvalidEntry]
        | some checksum =>
            simp only [Option.some.injEq, forall_eq', handled_bind, handled_parseChecksum]
            exact and_iff_left fun digest _ => by simp [PyException.isInvalidEntry]

/-- The checksum step returns the manifest that agrees with its checksum. -/
theorem verifyChecksum_eq_ok_iff (payload : Bytes) : verifyChecksum beyond tree = .ok payload ↔
    regularFile? beyond tree [manifestName] = some payload ∧ payload.length ≤ maxManifestBytes ∧
      ∃ checksum, regularFile? beyond tree [manifestChecksumName] = some checksum ∧
        parseChecksum checksum = .ok (Sha256.hexdigest payload) := by
  refine ⟨verifyChecksum_eq_ok, fun ⟨hManifest, hSize, checksum, hChecksum, hDigest⟩ => ?_⟩
  have hRequire : require (Sha256.hexdigest payload = Sha256.hexdigest payload)
      (.validationError "The backup manifest checksum is invalid.") = .ok () := if_pos rfl
  simp only [verifyChecksum, hManifest, hChecksum, hDigest, if_neg (Nat.not_lt.mpr hSize)]
  exact congrArg (fun x => x >>= fun _ => pure payload) hRequire

/-- All checks before the database, one after the other. -/
theorem handled_verifyContent (id : PyStr) : Handled (verifyContent python listable beyond tree id) ↔
    DecodesCleanly python beyond tree id := by
  have hRest (manifest : BackupManifest) : Handled (do
      let declared ← verifyEntries beyond tree manifest.entries
      let actual ← actualFiles tree listable
      require (sameElements actual (manifestName :: manifestChecksumName :: declared))
        (.validationError "The backup contains files not declared by its manifest.")
      return manifest) ↔ PathsEncode beyond tree manifest.entries := by
    simp only [handled_bind, handled_verifyEntries, handled_actualFiles, handled_require, handled_pure]
    simp [PyException.isInvalidEntry]
  rw [verifyContent, handled_bind, handled_verifyChecksum, DecodesCleanly]
  simp only [verifyChecksum_eq_ok_iff, handled_bind (parseManifest python _), handled_parseManifest,
    handled_bind (require _ _), handled_require, require_eq_ok_iff, hRest]
  constructor
  · rintro ⟨hAscii, hAccepted⟩ payload hPayload hSize checksum hChecksum
    refine ⟨hAscii payload hPayload hSize checksum hChecksum, fun hDigest => ?_⟩
    obtain ⟨hConverts, hPaths⟩ := hAccepted payload ⟨hPayload, hSize, checksum, hChecksum, hDigest⟩
    exact ⟨hConverts, fun manifest hParsed hId => (hPaths manifest hParsed).2 () hId⟩
  · intro h
    refine ⟨fun payload hPayload hSize checksum hChecksum => (h payload hPayload hSize checksum hChecksum).1, ?_⟩
    rintro payload ⟨hPayload, hSize, checksum, hChecksum, hDigest⟩
    obtain ⟨hConverts, hPaths⟩ := (h payload hPayload hSize checksum hChecksum).2 hDigest
    exact ⟨hConverts, fun manifest hParsed => ⟨by simp [PyException.isInvalidEntry],
      fun _ hId => hPaths manifest hParsed hId⟩⟩

/-- The checks of the database raise only what the inventory catches. -/
theorem handled_verifyTree (id : PyStr) : Handled (verifyTree python sqlite listable beyond tree id) ↔
    DecodesCleanly python beyond tree id := by
  rw [← handled_verifyContent python listable, verifyTree, handled_bind]
  refine and_iff_left_of_imp fun _ manifest _ => ?_
  simp only [handled_bind, handled_sqliteIntegrityCheck, handled_sqliteSchemaRevision, handled_require, handled_pure]
  simp [PyException.isInvalidEntry]

/-- The verification of a name of the root. -/
theorem handled_verifyDirectory (directory : Option Entry) (id : PyStr) :
    Handled (verifyDirectory python sqlite listable beyond directory id) ↔
      (fullMatch backupIdPattern (strip id) = true → ∀ tree, directory = some (.dir tree) →
        DecodesCleanly python beyond tree id) := by
  unfold verifyDirectory
  rw [handled_bind, and_iff_right (handled_safeBackupId id)]
  unfold safeBackupId
  by_cases hId : fullMatch backupIdPattern (strip id) = true
  · simp only [hId, if_true, Except.ok.injEq, forall_eq', forall_const]
    split
    · rename_i tree
      simp [handled_verifyTree]
    · rename_i hOther
      simp only [handled_throw, PyException.isInvalidEntry, true_iff]
      exact fun tree hTree => (hOther tree hTree).elim
  · simp [hId]

end Directory

/-- The verified manifest names the directory. -/
theorem backupId_of_verifyContent {listable : List PyStr → Bool} {beyond : List PyStr → Option Bytes} {tree : Directory}
    {id : PyStr} {manifest : BackupManifest} (h : verifyContent python listable beyond tree id = .ok manifest) :
    manifest.backupId = id := by
  obtain ⟨_, -, h⟩ := except_bind_eq_ok h
  obtain ⟨_, -, h⟩ := except_bind_eq_ok h
  obtain ⟨_, hId, h⟩ := except_bind_eq_ok h
  obtain ⟨_, -, h⟩ := except_bind_eq_ok h
  obtain ⟨_, -, h⟩ := except_bind_eq_ok h
  obtain ⟨_, -, h⟩ := except_bind_eq_ok h
  cases h
  exact require_eq_ok_iff.mp hId

theorem backupId_of_verifyDirectory {listable : List PyStr → Bool} {beyond : List PyStr → Option Bytes}
    {directory : Option Entry} {id : PyStr} {report : BackupVerificationReport}
    (h : verifyDirectory python sqlite listable beyond directory id = .ok report) : report.backupId = id := by
  obtain ⟨_, -, h⟩ := except_bind_eq_ok h
  split at h
  · obtain ⟨manifest, hContent, h⟩ := except_bind_eq_ok h
    obtain ⟨_, -, h⟩ := except_bind_eq_ok h
    obtain ⟨_, -, h⟩ := except_bind_eq_ok h
    obtain ⟨_, -, h⟩ := except_bind_eq_ok h
    cases h
    exact backupId_of_verifyContent python hContent
  · cases h

variable (beyond : PyStr → List PyStr → Option Bytes)

/-- The verification `list_backups` runs for one directory. -/
abbrev verifyListed (entry : PyStr × Directory) : Except PyException BackupVerificationReport :=
  verifyDirectory python sqlite allListable (beyond entry.1) (some (.dir entry.2)) entry.1

/-- The inventory returns if and only if every entry is handled. -/
theorem exists_verifiedReports_iff (entries : List (PyStr × Directory)) :
    (∃ reports, verifiedReports python sqlite beyond entries = .ok reports) ↔
      ∀ entry ∈ entries, Handled (verifyListed python sqlite beyond entry) := by
  induction entries with
  | nil => simp [verifiedReports]
  | cons entry entries ih =>
      obtain ⟨name, tree⟩ := entry
      rw [List.forall_mem_cons, ← ih, verifiedReports]
      cases hEntry : verifyDirectory python sqlite allListable (beyond name) (some (.dir tree)) name with
      | ok report =>
          simp only [verifyListed, hEntry, handled_ok, true_and]
          cases verifiedReports python sqlite beyond entries <;> simp [Except.map]
      | error e => by_cases he : e.isInvalidEntry <;> simp [verifyListed, hEntry, he]

/-- The reports are those of the directories that are accepted. -/
theorem verifiedReports_spec {entries : List (PyStr × Directory)}
    {reports : List BackupVerificationReport}
    (h : verifiedReports python sqlite beyond entries = .ok reports) :
    (∀ report, report ∈ reports ↔ ∃ entry ∈ entries, verifyListed python sqlite beyond entry = .ok report) ∧
      (reports.map (·.backupId)).Sublist (entries.map (·.1)) := by
  induction entries generalizing reports with
  | nil =>
      cases h
      simp
  | cons entry entries ih =>
      obtain ⟨name, tree⟩ := entry
      rw [verifiedReports] at h
      cases hEntry : verifyDirectory python sqlite allListable (beyond name) (some (.dir tree)) name with
      | ok found =>
          cases hRest : verifiedReports python sqlite beyond entries with
          | error e => simp [hEntry, hRest, Except.map] at h
          | ok others =>
              simp only [hEntry, hRest, Except.map, Except.ok.injEq] at h
              subst h
              obtain ⟨hMem, hNames⟩ := ih hRest
              have hId := backupId_of_verifyDirectory python sqlite hEntry
              refine ⟨fun report => ?_, ?_⟩
              · simp [hMem, verifyListed, hEntry, eq_comm]
              · simpa [hId] using hNames
      | error e =>
          by_cases he : e.isInvalidEntry
          · obtain ⟨hMem, hNames⟩ := ih (by simpa [hEntry, he] using h)
            refine ⟨fun report => ?_, by simpa using hNames.trans (List.sublist_cons_self _ _)⟩
            simp [hMem, verifyListed, hEntry]
          · simp [hEntry, he] at h

/-- A listing that returns has sorted these reports. -/
theorem listBackups_eq_ok {root : Directory} {reports : List BackupVerificationReport}
    (h : listBackups python sqlite beyond root = .ok reports) :
    ∃ found, verifiedReports python sqlite beyond (recognizedBackupDirectories root) = .ok found ∧
      reports.Perm found := by
  unfold listBackups at h
  cases hFound : verifiedReports python sqlite beyond (recognizedBackupDirectories root) with
  | error e => simp [hFound, Except.map] at h
  | ok found =>
      simp only [hFound, Except.map, Except.ok.injEq] at h
      exact ⟨found, rfl, h ▸ List.perm_insertionSort _ _⟩

/-- The recognised directories are those with the name of a backup. -/
theorem mem_recognizedBackupDirectories {root : Directory} (hRoot : root.WellFormed IsFileName)
    (name : PyStr) (tree : Directory) : (name, tree) ∈ recognizedBackupDirectories root ↔
      root.find name = some (.dir tree) ∧ fullMatch backupIdPattern name = true := by
  rw [recognizedBackupDirectories, List.mem_filter, Forest.mem_subdirectories_iff hRoot]

theorem nodup_recognizedBackupDirectories {root : Directory} (hRoot : root.WellFormed IsFileName) :
    ((recognizedBackupDirectories root).map (·.1)).Nodup := by
  refine List.Nodup.sublist (List.filter_sublist.map _) ?_
  exact Forest.nodup_subdirectories hRoot

/-- What an inventory contains: the reports of the accepted directories, each once. -/
theorem listBackups_spec {root : Directory} (hRoot : root.WellFormed IsFileName)
    {reports : List BackupVerificationReport}
    (h : listBackups python sqlite beyond root = .ok reports) :
    (∀ report, report ∈ reports ↔ ∃ entry ∈ recognizedBackupDirectories root,
      verifyListed python sqlite beyond entry = .ok report) ∧ (reports.map (·.backupId)).Nodup := by
  obtain ⟨found, hFound, hPerm⟩ := listBackups_eq_ok python sqlite beyond h
  obtain ⟨hMem, hNames⟩ := verifiedReports_spec python sqlite beyond hFound
  refine ⟨fun report => hPerm.mem_iff.trans (hMem report), ?_⟩
  exact (hPerm.map _).nodup_iff.mpr (hNames.nodup (nodup_recognizedBackupDirectories hRoot))

/-- A listing returns exactly when every recognised directory is handled. -/
theorem exists_listBackups_iff (root : Directory) :
    (∃ reports, listBackups python sqlite beyond root = .ok reports) ↔
      ∀ entry ∈ recognizedBackupDirectories root, Handled (verifyListed python sqlite beyond entry) := by
  rw [← exists_verifiedReports_iff, listBackups]
  cases verifiedReports python sqlite beyond (recognizedBackupDirectories root) <;> simp [Except.map]

end SoftwareHub.Backup
