import SoftwareHub.Backup.Identifiers
import SoftwareHub.Python.JsonDocument
import SoftwareHub.Python.Sha256

/-! The manifest writer and the manifest parser agree: what was written is read
back, with the application version cut to its first 64 characters. -/
namespace SoftwareHub.Backup

open SoftwareHub.Python

/-- The manifests a backup writes. -/
structure BackupManifest.WellFormed (manifest : BackupManifest) : Prop where
  backupId : fullMatch backupIdPattern manifest.backupId = true
  createdAt : manifest.createdAt.utcoffset = some 0
  appVersion : ∀ c ∈ manifest.appVersion, isScalar c = true
  databaseRevision : matchesRevision manifest.databaseRevision = true
  paths : ∀ entry ∈ manifest.entries, ∃ path, path ≠ [] ∧ (∀ name ∈ path, PlainName name) ∧
    entry.relativePath = joinSlash path
  digests : ∀ entry ∈ manifest.entries, isValidDigest entry.sha256 = true
  distinct : (manifest.entries.map BackupEntry.relativePath).Nodup
  database : joinSlash databaseEntryPath ∈ manifest.entries.map BackupEntry.relativePath

section Path

variable {path : List PyStr} (hNil : path ≠ []) (hPath : ∀ name ∈ path, PlainName name)

include hPath

/-- A path of storable names is storable. -/
theorem isScalar_joinSlash : ∀ c ∈ joinSlash path, isScalar c = true := by
  intro c hc
  rcases mem_joinSlash hc with rfl | ⟨name, hName, hMem⟩
  · decide
  · exact (hPath name hName).2.1 c hMem

include hNil

/-- A joined path of plain names is safe and has the names as its parts. -/
theorem safeRelativePath_joinSlash : safeRelativePath (joinSlash path) = .ok path := by
  have hNames : ∀ name ∈ path, IsFileName name := fun name hm => (hPath name hm).1
  have hParts := pathParts_joinSlash hNil hNames
  have hEmpty : joinSlash path ≠ [] := by
    intro hJoin
    rw [hJoin] at hParts
    exact hNil (by simpa [pathParts] using hParts.symm)
  have hAbsent (c : Nat) (hSlash : c ≠ slash) (hName : ∀ name ∈ path, c ∉ name) : c ∉ joinSlash path := by
    intro hc
    rcases mem_joinSlash hc with h | ⟨name, hm, hMem⟩
    · exact hSlash h
    · exact hName name hm hMem
  have hZero := hAbsent 0 (by decide) fun name hm => (hNames name hm).2.2.1
  have hBackslash := hAbsent 0x5C (by decide) fun name hm => (hPath name hm).2.2
  have hSafe : ∀ part ∈ path, part ≠ [] ∧ part ≠ py "." ∧ part ≠ py ".." := by
    intro part hm
    obtain ⟨hPart, -, -, hDot, hUp, -⟩ := hNames part hm
    exact ⟨hPart, hDot, hUp⟩
  simp [safeRelativePath, hEmpty, hZero, hBackslash, isAbsolute_joinSlash hNames, hParts]
  exact hSafe

end Path

variable (python : Interpreter) {manifest : BackupManifest}

/-- A time in UTC stays as it is. -/
theorem astimezoneUtc_of_utc {d : DateTime} (h : d.utcoffset = some 0) : d.astimezoneUtc = some d := by
  simp [DateTime.astimezoneUtc, h]

/-- The members of the written object, before their keys are sorted. -/
def BackupManifest.members (manifest : BackupManifest) : List (PyStr × Json) :=
  [(py "manifest_version", .int manifestVersion), (py "backup_id", .str manifest.backupId),
    (py "created_at", .str manifest.createdAt.isoformat), (py "app_version", .str manifest.appVersion),
    (py "database_revision", .str manifest.databaseRevision),
    (py "total_bytes", .int manifest.totalBytes), (py "file_count", .int manifest.entries.length),
    (py "entries", .array (manifest.entries.map BackupEntry.toDict))]

theorem toDict_eq (h : manifest.createdAt.utcoffset = some 0) :
    manifest.toDict = some (.object manifest.members) := by
  simp [BackupManifest.toDict, astimezoneUtc_of_utc h, BackupManifest.members]

/-- With printable numbers it can be printed, since it nests three levels deep. -/
theorem plain_members (h : manifest.Printable) : (Json.object manifest.members).Plain python.maxDepth := by
  have hDepth := python.three_le_maxDepth
  have hNumber : ∀ n ∈ manifest.numbers, (Json.int n).Plain python.maxDepth := h
  have hEntries : Json.Plain.plainItems (python.maxDepth - 1 - 1) (manifest.entries.map BackupEntry.toDict) := by
    rw [Json.plainItems_iff]
    rintro item hItem
    obtain ⟨entry, hEntry, rfl⟩ := List.mem_map.mp hItem
    have hSize : entry.sizeBytes ∈ manifest.numbers := by
      simp only [BackupManifest.numbers, List.mem_cons, List.mem_map]
      exact Or.inr (Or.inr (Or.inr ⟨entry, hEntry, rfl⟩))
    exact ⟨by omega, trivial, h _ hSize, trivial, trivial⟩
  exact ⟨by omega, h _ (by simp [BackupManifest.numbers]), trivial, trivial, trivial, trivial,
    h _ (by simp [BackupManifest.numbers]), h _ (by simp [BackupManifest.numbers]),
    ⟨by omega, hEntries⟩, trivial⟩

/-- A written time consists of ASCII characters. -/
theorem isScalar_isoformat {d : DateTime} (h : d.utcoffset = some 0) :
    ∀ c ∈ d.isoformat, isScalar c = true := by
  have hPadded (width n : Nat) : ∀ c ∈ padded width n, isScalar c = true := by
    intro c hc
    have hDigit := DateTime.isDigit_of_mem_padded hc
    simp only [isDigit, Bool.and_eq_true, decide_eq_true_eq] at hDigit
    exact isScalar_of_lt (by omega)
  have hMark : ∀ c ∈ [0x2D, 0x54, 0x3A, 0x2E], isScalar c = true := by decide
  have hZone : ∀ c ∈ DateTime.formatOffset 0, isScalar c = true := by decide
  have hFraction : ∀ c ∈ (if d.microsecond = 0 then [] else 0x2E :: padded 6 d.microsecond),
      isScalar c = true := by
    split_ifs
    · simp
    · exact List.forall_mem_cons.mpr ⟨hMark _ (by simp), hPadded 6 _⟩
  simp only [DateTime.isoformat, DateTime.formatDate, DateTime.formatClock, h, Option.map_some,
    Option.getD_some, List.forall_mem_append, List.forall_mem_cons]
  exact ⟨⟨⟨hPadded 4 _, hMark _ (by simp), hPadded 2 _⟩, hMark _ (by simp), hPadded 2 _⟩,
    hMark _ (by simp), ⟨⟨⟨hPadded 2 _, hMark _ (by simp), hPadded 2 _⟩, hMark _ (by simp), hPadded 2 _⟩,
      hFraction⟩, hZone⟩

theorem encodable_members (h : manifest.WellFormed) : (Json.object manifest.members).Encodable := by
  have hKeys : ∀ key ∈ [py "manifest_version", py "backup_id", py "created_at", py "app_version",
      py "database_revision", py "total_bytes", py "file_count", py "entries", py "relative_path",
      py "size_bytes", py "sha256"], ∀ c ∈ key, isScalar c = true := by decide
  have hRevision : ∀ c ∈ manifest.databaseRevision, isScalar c = true := by
    intro c hc
    have hAll := h.databaseRevision
    simp only [matchesRevision, Bool.and_eq_true, List.all_eq_true] at hAll
    have hChar := hAll.2 c hc
    simp only [isRevisionChar, isDigit, Bool.or_eq_true, Bool.and_eq_true, decide_eq_true_eq,
      beq_iff_eq] at hChar
    exact isScalar_of_lt (by omega)
  have hEntries : Json.Encodable.encodableItems (manifest.entries.map BackupEntry.toDict) := by
    rw [Json.encodableItems_iff]
    rintro item hItem
    obtain ⟨entry, hEntry, rfl⟩ := List.mem_map.mp hItem
    obtain ⟨path, -, hPath, hRelative⟩ := h.paths entry hEntry
    have hDigest : ∀ c ∈ entry.sha256, isScalar c = true := by
      intro c hc
      have hAll := h.digests entry hEntry
      simp only [isValidDigest, Bool.and_eq_true, List.all_eq_true] at hAll
      have hChar := hAll.2 c hc
      simp only [isLowerHex, isDigit, Bool.or_eq_true, Bool.and_eq_true, decide_eq_true_eq] at hChar
      exact isScalar_of_lt (by omega)
    exact ⟨⟨hKeys _ (by simp), hRelative ▸ isScalar_joinSlash hPath⟩, ⟨hKeys _ (by simp), trivial⟩,
      ⟨hKeys _ (by simp), hDigest⟩, trivial⟩
  exact ⟨⟨hKeys _ (by simp), trivial⟩,
    ⟨hKeys _ (by simp), fun c hc => (backupId_char h.backupId hc).2.1⟩,
    ⟨hKeys _ (by simp), isScalar_isoformat h.createdAt⟩, ⟨hKeys _ (by simp), h.appVersion⟩,
    ⟨hKeys _ (by simp), hRevision⟩, ⟨hKeys _ (by simp), trivial⟩, ⟨hKeys _ (by simp), trivial⟩,
    ⟨hKeys _ (by simp), hEntries⟩, trivial⟩

/-- Writing fails for numbers of too many digits only. -/
theorem exists_manifestPayload_iff (h : manifest.WellFormed) :
    (∃ payload, manifestPayload python manifest = .ok payload) ↔ manifest.Printable := by
  simp only [manifestPayload, toDict_eq h.createdAt]
  by_cases hPrintable : manifest.Printable
  · obtain ⟨data, hData⟩ := Json.exists_encodeUtf8_dumps python.floatRepr
      (plain_members python hPrintable).sorted (encodable_members h).sorted
    simp [hPrintable, hData]
  · simp [hPrintable]

/-- The written bytes, and what `json.loads` makes of them. -/
theorem manifestPayload_eq_ok (h : manifest.WellFormed) {payload : Bytes}
    (hPayload : manifestPayload python manifest = .ok payload) :
    (∃ data, encodeUtf8 (Json.dumpsAt python.floatRepr 0 (Json.object manifest.members).sorted) = some data ∧
      payload = data ++ [0x0A]) ∧
    Json.loads python.maxDepth payload = .ok (Json.object manifest.members).sorted := by
  have hPrintable := (exists_manifestPayload_iff python h).mp ⟨payload, hPayload⟩
  have hPlain := (plain_members python hPrintable).sorted
  simp only [manifestPayload, toDict_eq h.createdAt, hPrintable, not_true_eq_false, if_false] at hPayload
  split at hPayload
  · cases hPayload
  · rename_i data hData
    cases hPayload
    refine ⟨⟨data, hData, rfl⟩, ?_⟩
    have hNil : Json.sortKeys (Json.sorted.sortedMembers manifest.members) ≠ [] := by
      intro hNil
      have hLength := (Json.sortKeys_perm (Json.sorted.sortedMembers manifest.members)).length_eq
      rw [hNil, Json.sortedMembers_eq_map] at hLength
      simp [BackupManifest.members] at hLength
    exact Json.loads_dumps python.floatRepr hNil hPlain hData

/-- The members of a written entry, before their keys are sorted. -/
def BackupEntry.members (entry : BackupEntry) : List (PyStr × Json) :=
  [(py "relative_path", .str entry.relativePath), (py "size_bytes", .int entry.sizeBytes),
    (py "sha256", .str entry.sha256)]

theorem parseEntry_toDict {entry : BackupEntry} {seen : List PyStr}
    (hPath : ∃ path, path ≠ [] ∧ (∀ name ∈ path, PlainName name) ∧ entry.relativePath = joinSlash path)
    (hDigest : isValidDigest entry.sha256 = true) (hSeen : entry.relativePath ∉ seen) :
    parseEntry python seen entry.toDict.sorted = .ok entry := by
  obtain ⟨path, hNil, hNames, hRelative⟩ := hPath
  let item := Json.sortKeys (Json.sorted.sortedMembers entry.members)
  have hKeys : (entry.members.map Prod.fst).Nodup := by
    have hDistinct : [py "relative_path", py "size_bytes", py "sha256"].Nodup := by decide
    exact hDistinct
  have hGet {key : PyStr} (value : Json) (hMem : (key, value) ∈ entry.members) :
      Json.get? item key = some value.sorted := Json.get?_sorted hKeys hMem
  have hPathGet : Json.get? item (py "relative_path") = some (.str entry.relativePath) :=
    hGet (.str entry.relativePath) (by simp [BackupEntry.members])
  have hSizeGet : Json.get? item (py "size_bytes") = some (.int entry.sizeBytes) :=
    hGet (.int entry.sizeBytes) (by simp [BackupEntry.members])
  have hDigestGet : Json.get? item (py "sha256") = some (.str entry.sha256) :=
    hGet (.str entry.sha256) (by simp [BackupEntry.members])
  have hEntryPath : entryPath python seen item = .ok entry.relativePath := by
    rw [hRelative] at hSeen
    simp [entryPath, hPathGet, pyStr, hRelative, safeRelativePath_joinSlash hNil hNames,
      asPosix_eq_joinSlash hNil, hSeen, bind, Except.bind, pure, Except.pure]
  have hEntrySize : entrySize item = .ok entry.sizeBytes := by
    simp [entrySize, hSizeGet, pyInt]
  have hEntryDigest : entryDigest python item = .ok entry.sha256 := by
    simp [entryDigest, hDigestGet, pyStr]
  have hItem : entry.toDict.sorted = .object item := rfl
  simp [hItem, parseEntry, hEntryPath, hEntrySize, hEntryDigest, hDigest, bind, Except.bind, pure,
    Except.pure]

/-- The written entries are read back in their order. -/
theorem parseEntries_toDict {entries : List BackupEntry}
    (hPaths : ∀ entry ∈ entries, ∃ path, path ≠ [] ∧ (∀ name ∈ path, PlainName name) ∧
      entry.relativePath = joinSlash path)
    (hDigests : ∀ entry ∈ entries, isValidDigest entry.sha256 = true)
    (hDistinct : (entries.map BackupEntry.relativePath).Nodup) {seen : List PyStr}
    (hSeen : ∀ entry ∈ entries, entry.relativePath ∉ seen) :
    parseEntries python seen (entries.map fun entry => entry.toDict.sorted) = .ok entries := by
  induction entries generalizing seen with
  | nil => rfl
  | cons entry entries ih =>
      obtain ⟨hFresh, hDistinct⟩ := List.nodup_cons.mp hDistinct
      have hEntry := parseEntry_toDict python (hPaths entry (by simp)) (hDigests entry (by simp))
        (hSeen entry (by simp))
      have hNext : ∀ other ∈ entries, other.relativePath ∉ entry.relativePath :: seen := by
        intro other hOther
        rw [List.mem_cons, not_or]
        exact ⟨fun h => hFresh (List.mem_map.mpr ⟨other, hOther, h⟩), hSeen other (by simp [hOther])⟩
      have hRest := ih (fun other hm => hPaths other (by simp [hm])) (fun other hm => hDigests other (by simp [hm]))
        hDistinct hNext
      simp [parseEntries, hEntry, hRest, bind, Except.bind, pure, Except.pure]

/-- The parser accepts what the writer wrote and returns the same data, with
the application version cut to its first 64 characters. -/
theorem parseManifest_manifestPayload (h : manifest.WellFormed) {payload : Bytes}
    (hPayload : manifestPayload python manifest = .ok payload) : parseManifest python payload =
      .ok { manifest with appVersion := manifest.appVersion.take 64 } := by
  obtain ⟨-, hLoads⟩ := manifestPayload_eq_ok python h hPayload
  let raw := Json.sortKeys (Json.sorted.sortedMembers manifest.members)
  have hKeys : (manifest.members.map Prod.fst).Nodup := by
    have hDistinct : [py "manifest_version", py "backup_id", py "created_at", py "app_version",
      py "database_revision", py "total_bytes", py "file_count", py "entries"].Nodup := by decide
    exact hDistinct
  have hGet {key : PyStr} (value : Json) (hMem : (key, value) ∈ manifest.members) :
      Json.get? raw key = some value.sorted := Json.get?_sorted hKeys hMem
  have hRaw : Json.loads python.maxDepth payload = .ok (.object raw) := hLoads
  have hVersion : Json.get? raw (py "manifest_version") = some (.int manifestVersion) :=
    hGet (.int manifestVersion) (by simp [BackupManifest.members])
  have hId : Json.get? raw (py "backup_id") = some (.str manifest.backupId) :=
    hGet (.str manifest.backupId) (by simp [BackupManifest.members])
  have hCreated : Json.get? raw (py "created_at") = some (.str manifest.createdAt.isoformat) :=
    hGet (.str manifest.createdAt.isoformat) (by simp [BackupManifest.members])
  have hApp : Json.get? raw (py "app_version") = some (.str manifest.appVersion) :=
    hGet (.str manifest.appVersion) (by simp [BackupManifest.members])
  have hRevision : Json.get? raw (py "database_revision") = some (.str manifest.databaseRevision) :=
    hGet (.str manifest.databaseRevision) (by simp [BackupManifest.members])
  have hItems : Json.get? raw (py "entries") =
      some (.array (manifest.entries.map fun entry => entry.toDict.sorted)) := by
    have hArray : Json.get? raw (py "entries") =
        some (Json.array (manifest.entries.map BackupEntry.toDict)).sorted :=
      hGet _ (by simp [BackupManifest.members])
    rw [hArray, Json.sorted, Json.sortedItems_eq_map, List.map_map]
    rfl
  have hFields : manifestFields python payload = .ok raw := by
    simp [manifestFields, loadManifest, hRaw, hVersion, equalsInt, bind, Except.bind, pure, Except.pure]
  have hBackupId : parseBackupId python raw = .ok manifest.backupId := by
    simp [parseBackupId, hId, pyStr, safeBackupId_of_match h.backupId, bind, Except.bind]
  have hCreatedAt : parseCreatedAt python raw = .ok manifest.createdAt := by
    simp [parseCreatedAt, hCreated, pyStr, DateTime.fromisoformat_isoformat h.createdAt, h.createdAt,
      bind, Except.bind, pure, Except.pure]
  have hDatabaseRevision : parseRevision python raw = .ok manifest.databaseRevision := by
    simp [parseRevision, hRevision, pyStr, h.databaseRevision, bind, Except.bind, pure, Except.pure]
  have hEntries : manifestEntries python raw = .ok manifest.entries := by
    have hParsed := @parseEntries_toDict python _ h.paths h.digests h.distinct [] (by simp)
    have hDatabase := h.database
    simp only [manifestEntries, hItems, hParsed, bind, Except.bind, pure, Except.pure]
    rw [if_pos hDatabase]
  simp [parseManifest, hFields, hBackupId, hCreatedAt, hDatabaseRevision, hEntries, toUtc,
    astimezoneUtc_of_utc h.createdAt, hApp, pyStr, bind, Except.bind, pure, Except.pure]

end SoftwareHub.Backup
