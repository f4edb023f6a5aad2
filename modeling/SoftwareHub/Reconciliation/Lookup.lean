import SoftwareHub.Reconciliation.Service

/-! What a row finds in the two storage roots, and what the report says about it. -/
namespace SoftwareHub.Reconciliation

open SoftwareHub.Python SoftwareHub.Tree SoftwareHub.Semantics SoftwareHub.Catalog SoftwareHub.Lifecycle
open SoftwareHub.Backup (Directory Leaf isDir isSymlink pathExists)
open SoftwareHub.Lifecycle.FileService (sha256File)
open SoftwareHub.Storage (Links StorageArea isScalar_posixText posixText rejectUnsafeRelativePath resolveBelow resolveRoot_of_dir
  safeResolve)

/-- Both storage roots are directories of the tree. -/
structure Roots (paths : StoragePaths) (tree : Directory) (contents : StorageArea → Directory) : Prop where
  wellFormed : tree.WellFormed IsFileName
  root : ∀ area, tree.node? (paths.root area) = some (.dir (contents area))

/-- What an area holds at a path. -/
inductive Found
  | refused
  | absent
  | regular (data : Bytes)

/-- A link on the way, and whatever is no regular file, is refused. -/
def lookUp (content : Directory) (names : List PyStr) : Found :=
  if ∃ above ∈ names.inits, above ≠ [] ∧ isSymlink (content.node? above) = true then .refused
  else match content.node? names with
    | none => .absent
    | some (.leaf (.file data)) => .regular data
    | some _ => .refused

/-- What a row finds. -/
inductive RowState
  | refused
  | missing
  | duplicated
  | single (area : StorageArea) (names : List PyStr) (data : Bytes)

/-- Both areas are looked at, after the relative path itself. -/
def rowState (contents : StorageArea → Directory) (path : PyStr) : RowState :=
  match rejectUnsafeRelativePath (posixText path) with
  | .error _ => .refused
  | .ok names => match lookUp (contents .quarantine) names, lookUp (contents .software) names with
    | .absent, .absent => .missing
    | .regular data, .absent => .single .quarantine names data
    | .absent, .regular data => .single .software names data
    | .regular _, .regular _ => .duplicated
    | _, _ => .refused

/-- Storable text can be a name of the file system. -/
theorem mapM_fsname_of_scalar {parts : List PyStr} (h : ∀ part ∈ parts, ∀ c ∈ part, isScalar c = true) :
    parts.mapM fsname = some parts := by
  induction parts with
  | nil => rfl
  | cons part parts ih =>
      have hPart : fsname part = some part := fsname_of_scalar (List.all_eq_true.mpr (h part List.mem_cons_self))
      have hRest := ih fun other hOther => h other (List.mem_cons_of_mem _ hOther)
      simp [List.mapM_cons, hPart, hRest]

/-- A storable text is refused with a storage error, or its components are its parts. -/
theorem rejectUnsafeRelativePath_cases {path : PyStr} (h : ∀ c ∈ path, isScalar c = true) :
    (∃ message, rejectUnsafeRelativePath path = .error (.storageError message)) ∨
      rejectUnsafeRelativePath path = .ok (path.splitOn slash) ∧ 0x5C ∉ path := by
  unfold rejectUnsafeRelativePath
  by_cases hInvalid : path = [] ∨ 0 ∈ path ∨ 0x5C ∈ path
  · exact Or.inl ⟨_, if_pos hInvalid⟩
  · rw [if_neg hInvalid]
    by_cases hPart : ∃ part ∈ path.splitOn slash, part = [] ∨ part = py "." ∨ part = py ".."
    · exact Or.inl ⟨_, if_pos hPart⟩
    · rw [if_neg hPart, mapM_fsname_of_scalar fun part hPart c hc => h c (mem_of_mem_splitOn hPart hc)]
      exact Or.inr ⟨rfl, fun hBackslash => hInvalid (Or.inr (Or.inr hBackslash))⟩

section Inspection

variable {links : Links} {paths : StoragePaths} {tree : Directory} {contents : StorageArea → Directory}

/-- Paths below the root of an area are paths of its content. -/
theorem Roots.node? (h : Roots paths tree contents) (area : StorageArea) (names : List PyStr) :
    tree.node? (paths.root area ++ names) = (contents area).node? names :=
  Forest.node?_append (h.root area) names

theorem Roots.file? (h : Roots paths tree contents) (area : StorageArea) (names : List PyStr) :
    tree.file? (paths.root area ++ names) = (contents area).file? names :=
  Forest.file?_append (h.root area) names

/-- The content of an area has names of files. -/
theorem Roots.content (h : Roots paths tree contents) (area : StorageArea) : (contents area).WellFormed IsFileName :=
  (h.wellFormed.node? (h.root area)).2

theorem Roots.resolveBelow (h : Roots paths tree contents) (area : StorageArea) {names : List PyStr}
    (hNames : names ≠ []) (requireExists : Bool) :
    resolveBelow links none (paths.root area) names requireExists true tree =
      if ∃ above ∈ names.inits, above ≠ [] ∧ isSymlink ((contents area).node? above) = true then
        .error (.storageError "Symbolic links are not allowed in this storage path.")
      else if requireExists = true ∧ (contents area).node? names = none then
        .error (.storageError "The storage path is unavailable.")
      else .ok (paths.root area ++ names) := by
  rw [Storage.resolveBelow_of_ne_nil hNames]
  simp only [h.node?]

/-- What the inspection of one area answers. -/
def AreaAnswer (paths : StoragePaths) (area : StorageArea) (relative : PyStr) (names : List PyStr) :
    Found → Except PyException (Option StoredFile) → Prop
  | .refused, answer => ∃ message, answer = .error (.storageError message)
  | .absent, answer => answer = .ok none
  | .regular data, answer => answer = .ok (some ⟨area, relative, paths.root area ++ names, data.length⟩)

/-- The inspection of an area answers what is there. -/
theorem inspectArea_answer (h : Roots paths tree contents) {relative : PyStr} {names : List PyStr}
    (hNames : rejectUnsafeRelativePath relative = .ok names) (area : StorageArea) :
    AreaAnswer paths area relative names (lookUp (contents area) names)
      (inspectArea links paths .never relative area tree) := by
  have hNil : names ≠ [] := Storage.names_ne_nil hNames
  have hResolved : safeResolve links none none (paths.root area) relative false true tree =
      if ∃ above ∈ names.inits, above ≠ [] ∧ isSymlink ((contents area).node? above) = true then
        .error (.storageError "Symbolic links are not allowed in this storage path.")
      else .ok (paths.root area ++ names) := by
    unfold safeResolve
    rw [except_bind_ok (resolveRoot_of_dir (h.root area)), except_bind_ok hNames, h.resolveBelow area hNil]
    simp
  unfold inspectArea lookUp
  by_cases hLinks : ∃ above ∈ names.inits, above ≠ [] ∧ isSymlink ((contents area).node? above) = true
  · rw [if_pos hLinks] at hResolved ⊢
    refine ⟨"Symbolic links are not allowed in this storage path.", ?_⟩
    change (safeResolve links none none (paths.root area) relative false true tree >>= _) = _
    rw [hResolved]
    rfl
  · rw [if_neg hLinks] at hResolved ⊢
    have hSelf : isSymlink ((contents area).node? names) = false := by
      by_contra hLink
      exact hLinks ⟨names, (List.mem_inits _ _).mpr (List.prefix_refl _), hNil, Bool.not_eq_false _ ▸ hLink⟩
    change AreaAnswer paths area relative names _ (safeResolve links none none (paths.root area) relative false true tree
      >>= _)
    rw [except_bind_ok hResolved, h.node?]
    cases hNode : (contents area).node? names with
    | none => rfl
    | some entry =>
        cases entry with
        | dir sub => exact ⟨"Stored release content must be a regular file.", rfl⟩
        | leaf value =>
            cases value with
            | file data => rfl
            | special => exact ⟨"Stored release content must be a regular file.", rfl⟩
            | symlink target =>
                rw [hNode] at hSelf
                cases hSelf

/-- What the inspection of both areas answers. -/
def RowAnswer (paths : StoragePaths) (path : PyStr) : RowState → Except PyException (List StoredFile) → Prop
  | .refused, answer => ∃ message, answer = .error (.storageError message)
  | .missing, answer => answer = .ok []
  | .duplicated, answer => ∃ first second, answer = .ok [first, second]
  | .single area names data, answer => answer = .ok [⟨area, posixText path, paths.root area ++ names, data.length⟩]

theorem inspectStoredFiles_answer (h : Roots paths tree contents) {path : PyStr} (hText : ∀ c ∈ path, isScalar c = true) :
    RowAnswer paths path (rowState contents path) (inspectStoredFiles links paths .never path tree) := by
  unfold rowState inspectStoredFiles
  rcases rejectUnsafeRelativePath_cases (isScalar_posixText hText) with ⟨message, hRefused⟩ | ⟨hNames, -⟩
  · rw [hRefused]
    refine ⟨message, ?_⟩
    change (safeResolve links none none (paths.root .quarantine) (posixText path) false true tree >>= _) >>= _ = _
    unfold safeResolve
    rw [except_bind_ok (resolveRoot_of_dir (h.root .quarantine)), hRefused]
    rfl
  · rw [hNames]
    have hQuarantine := @inspectArea_answer links paths tree contents h _ _ hNames .quarantine
    have hSoftware := @inspectArea_answer links paths tree contents h _ _ hNames .software
    dsimp only
    cases hFirst : lookUp (contents .quarantine) ((posixText path).splitOn slash) with
    | refused =>
        rw [hFirst] at hQuarantine
        obtain ⟨message, hQuarantine⟩ := hQuarantine
        rw [hQuarantine]
        exact ⟨message, rfl⟩
    | absent =>
        rw [hFirst] at hQuarantine
        rw [except_bind_ok hQuarantine]
        cases hSecond : lookUp (contents .software) ((posixText path).splitOn slash) with
        | refused =>
            rw [hSecond] at hSoftware
            obtain ⟨message, hSoftware⟩ := hSoftware
            rw [hSoftware]
            exact ⟨message, rfl⟩
        | absent =>
            rw [hSecond] at hSoftware
            rw [except_bind_ok hSoftware]
            rfl
        | regular data =>
            rw [hSecond] at hSoftware
            rw [except_bind_ok hSoftware]
            rfl
    | regular data =>
        rw [hFirst] at hQuarantine
        rw [except_bind_ok hQuarantine]
        cases hSecond : lookUp (contents .software) ((posixText path).splitOn slash) with
        | refused =>
            rw [hSecond] at hSoftware
            obtain ⟨message, hSoftware⟩ := hSoftware
            rw [hSoftware]
            exact ⟨message, rfl⟩
        | absent =>
            rw [hSecond] at hSoftware
            rw [except_bind_ok hSoftware]
            rfl
        | regular other =>
            rw [hSecond] at hSoftware
            rw [except_bind_ok hSoftware]
            exact ⟨_, _, rfl⟩

/-- A regular file that was found is there. -/
theorem lookUp_eq_regular {content : Directory} {names : List PyStr} {data : Bytes}
    (h : lookUp content names = .regular data) : content.file? names = some (.file data) := by
  unfold lookUp at h
  split_ifs at h
  split at h
  · cases h
  · rename_i hNode
    cases h
    exact (Forest.file?_eq_some_iff _ _ _).mpr hNode
  · cases h

theorem lookUp_of_file {content : Directory} {names : List PyStr} {data : Bytes}
    (h : content.file? names = some (.file data)) : lookUp content names = .regular data := by
  have hNode := (Forest.file?_eq_some_iff _ _ _).mp h
  unfold lookUp
  rw [if_neg, hNode]
  rintro ⟨above, hAbove, -, hLink⟩
  obtain ⟨tail, rfl⟩ := (List.mem_inits _ _).mp hAbove
  cases hEntry : content.node? above with
  | none =>
      rw [hEntry] at hLink
      cases hLink
  | some entry =>
      cases entry with
      | dir sub =>
          rw [hEntry] at hLink
          cases hLink
      | leaf value =>
          by_cases hTail : tail = []
          · rw [hTail, List.append_nil] at hNode
            rw [hNode] at hEntry
            cases hEntry
            rw [hNode] at hLink
            cases hLink
          · rw [Forest.node?_below_leaf hEntry hTail] at hNode
            cases hNode

/-- The single file of a row is where the row says, and nothing is there in the
other area. -/
theorem rowState_eq_single_iff {path : PyStr} {area : StorageArea} {names : List PyStr} {data : Bytes} :
    rowState contents path = .single area names data ↔
      rejectUnsafeRelativePath (posixText path) = .ok names ∧ (contents area).file? names = some (.file data) ∧
        ∀ other, other ≠ area → lookUp (contents other) names = .absent := by
  unfold rowState
  constructor
  · intro h
    split at h
    · cases h
    · rename_i found hNames
      split at h
      · cases h
      · rename_i hFound hOther
        cases h
        refine ⟨hNames, lookUp_eq_regular hFound, ?_⟩
        intro other hArea
        cases other with
        | quarantine => exact (hArea rfl).elim
        | software => exact hOther
      · rename_i hOther hFound
        cases h
        refine ⟨hNames, lookUp_eq_regular hFound, ?_⟩
        intro other hArea
        cases other with
        | quarantine => exact hOther
        | software => exact (hArea rfl).elim
      · cases h
      · cases h
  · rintro ⟨hNames, hFile, hOther⟩
    rw [hNames]
    have hFound := lookUp_of_file hFile
    cases area with
    | quarantine =>
        dsimp only
        rw [hFound, hOther .software (by decide)]
    | software =>
        dsimp only
        rw [hFound, hOther .quarantine (by decide)]

end Inspection

/-- The size and the digest of a row are those of a file. -/
def Measures (item : FileMetadata) (data : Bytes) : Prop :=
  data.length = item.sizeBytes ∧ Sha256.hexdigest data = item.sha256

instance (item : FileMetadata) (data : Bytes) : Decidable (Measures item data) := inferInstanceAs (Decidable (_ ∧ _))

/-- A row agrees with what it finds. -/
def Agrees (item : FileMetadata) : RowState → Prop
  | .single area _ data => areaAllowed item.status area = true ∧ Measures item data
  | _ => False

/-- The contribution of a row that finds exactly one file. -/
def singleReport (item : FileMetadata) (area : StorageArea) (data : Bytes) : RowReport where
  issues :=
    (if areaAllowed item.status area = true then []
      else [rowIssue item .unexpectedStorageArea (some area) (some (.text (expectedAreaLabel item.status)))
        (some (.text (areaValue area)))]) ++
    (if data.length = item.sizeBytes then []
      else [rowIssue item .sizeMismatch (some area) (some (.number item.sizeBytes)) (some (.number data.length))]) ++
    (if Measures item data then []
      else [rowIssue item .checksumMismatch (some area) (some (.text item.sha256))
        (some (.text (Sha256.hexdigest data)))])
  physicalCount := 1
  verified := Measures item data

def reportOf (item : FileMetadata) : RowState → RowReport
  | .refused => ⟨[rowIssue item .unsafeStorageEntry none none none], 0, false⟩
  | .missing => ⟨[rowIssue item .metadataWithoutFile none none none], 0, false⟩
  | .duplicated =>
      ⟨[rowIssue item .duplicateStorageLocation none (some (.number 1)) (some (.number 2))], 2, false⟩
  | .single area _ data => singleReport item area data

/-- No call of the scan fails. -/
structure Quiet (env : ScanEnvironment) : Prop where
  inspect : ∀ fileId, env.inspect fileId = .never
  hash : ∀ fileId, env.hash fileId = none
  lstat : ∀ area path, env.lstat area path = none

/-- The measured digest is that of the bytes. -/
theorem sha256File_eq {paths : StoragePaths} {tree : Directory} {contents : StorageArea → Directory}
    (h : Roots paths tree contents) {area : StorageArea} {names : List PyStr} {data : Bytes}
    (hFile : (contents area).file? names = some (.file data)) :
    sha256File none (paths.root area ++ names) tree = .ok (Sha256.hexdigest data, data.length) := by
  unfold sha256File
  rw [h.file?, hFile]

/-- A row with one file is measured against that file. -/
theorem verifyStored_eq {env : ScanEnvironment} {tree : Directory} {item : FileMetadata} {stored : StoredFile}
    {data : Bytes} (hSize : stored.sizeBytes = data.length)
    (hHash : sha256File (env.hash item.fileId) stored.path tree = .ok (Sha256.hexdigest data, data.length)) :
    verifyStored env true item stored tree = .ok (singleReport item stored.area data) := by
  unfold verifyStored singleReport
  simp only [if_true, hSize]
  rw [except_bind_ok hHash]
  by_cases hMeasures : Measures item data
  · have hNot : ¬(data.length ≠ item.sizeBytes ∨ Sha256.hexdigest data ≠ item.sha256) := by
      rintro (hLength | hDigest)
      · exact hLength hMeasures.1
      · exact hDigest hMeasures.2
    simp only [if_neg hNot, if_pos hMeasures, if_pos hMeasures.1, List.append_nil]
    simp [pure, Except.pure, hMeasures.1, hMeasures]
  · have hDiffers : data.length ≠ item.sizeBytes ∨ Sha256.hexdigest data ≠ item.sha256 := by
      by_contra hSame
      exact hMeasures ⟨not_not.mp fun h => hSame (Or.inl h), not_not.mp fun h => hSame (Or.inr h)⟩
    simp only [if_pos hDiffers, if_neg hMeasures]
    simp [pure, Except.pure, hMeasures]

/-- The contribution of a row is determined by what it finds. -/
theorem verifyItem_eq {env : ScanEnvironment} (hEnv : Quiet env) {tree : Directory}
    {contents : StorageArea → Directory} (h : Roots env.paths tree contents) {item : FileMetadata}
    (hText : ∀ c ∈ item.relativePath, isScalar c = true) :
    verifyItem env true tree item = .ok (reportOf item (rowState contents item.relativePath)) := by
  have hAnswer := @inspectStoredFiles_answer env.links env.paths tree contents h _ hText
  unfold verifyItem
  rw [hEnv.inspect]
  cases hState : rowState contents item.relativePath with
  | refused =>
      rw [hState] at hAnswer
      obtain ⟨message, hAnswer⟩ := hAnswer
      rw [hAnswer]
      rfl
  | missing =>
      rw [hState] at hAnswer
      change inspectStoredFiles _ _ _ _ _ = _ at hAnswer
      rw [hAnswer]
      rfl
  | duplicated =>
      rw [hState] at hAnswer
      obtain ⟨first, second, hAnswer⟩ := hAnswer
      rw [hAnswer]
      rfl
  | single area names data =>
      rw [hState] at hAnswer
      change inspectStoredFiles _ _ _ _ _ = _ at hAnswer
      rw [hAnswer]
      have hFile := (rowState_eq_single_iff.mp hState).2.1
      have hHash : sha256File (env.hash item.fileId) (env.paths.root area ++ names) tree =
          .ok (Sha256.hexdigest data, data.length) := by
        rw [hEnv.hash]
        exact sha256File_eq h hFile
      exact verifyStored_eq rfl hHash

/-- A row has no issue exactly if it agrees with what it finds. -/
theorem issues_reportOf (item : FileMetadata) (state : RowState) : (reportOf item state).issues = [] ↔ Agrees item state := by
  cases state with
  | refused => simp [reportOf, Agrees]
  | missing => simp [reportOf, Agrees]
  | duplicated => simp [reportOf, Agrees]
  | single area names data =>
      by_cases hMeasures : Measures item data
      · by_cases hArea : areaAllowed item.status area = true
        · simp [reportOf, singleReport, Agrees, hMeasures, hArea, hMeasures.1]
        · simp [reportOf, singleReport, Agrees, hArea]
      · simp [reportOf, singleReport, Agrees, hMeasures]

end SoftwareHub.Reconciliation
