import SoftwareHub.Storage.TemporaryCleanup

/-! What a cleanup of temporary uploads removes and what it reports. The invariant
`Sound` carries the counters through every call, and the depth of the tree is enough
for the walk. -/
namespace SoftwareHub.Storage

open SoftwareHub.Python SoftwareHub.Tree SoftwareHub.Semantics Program

/-- A stale temporary upload: 32 hexadecimal digits and `.upload`, not modified after the cutoff. -/
def IsStale {τ : Type} [LinearOrder τ] (cutoff : τ) (forest : Forest PyStr (TemporaryEntry τ)) (path : List PyStr)
    (size : Nat) : Prop :=
  ∃ directory identifier mtime, path = directory ++ [identifier ++ py ".upload"] ∧ identifier.length = 32 ∧
    (∀ c ∈ identifier, isLowerHex c = true) ∧ forest.file? path = some (.file size mtime) ∧ mtime ≤ cutoff

/-- Another process has removed the entry, or a directory above it. -/
def Vanished (env : Surroundings) (calls : Nat) (path : List PyStr) : Prop :=
  ∃ number < calls, ∃ gone ∈ env.vanished number, gone ≠ [] ∧ gone <+: path

def CleanupReport.accounted (report : CleanupReport) (dryRun : Bool) : Nat :=
  if dryRun then report.eligible + report.skipped + report.errors else report.deleted + report.skipped + report.errors

section Removal

variable {τ : Type}

theorem vanish_spec {forest : Forest PyStr (TemporaryEntry τ)} (hForest : forest.WellFormed fun _ => True)
    (paths : List (List PyStr)) : (paths.foldl Forest.erase forest).WellFormed (fun _ => True) ∧
      ∀ path, (paths.foldl Forest.erase forest).kind? path = forest.kind? path ∨
        (paths.foldl Forest.erase forest).kind? path = none ∧ ∃ gone ∈ paths, gone ≠ [] ∧ gone <+: path := by
  induction paths generalizing forest with
  | nil => exact ⟨hForest, fun path => Or.inl rfl⟩
  | cons first paths ih =>
      obtain ⟨hAfter, hKind⟩ := ih (hForest.erase first)
      refine ⟨hAfter, fun path => ?_⟩
      rw [List.foldl_cons]
      rcases hKind path with hSame | ⟨hNone, gone, hGone, hPrefix⟩
      · by_cases hFirst : first = []
        · subst hFirst
          exact Or.inl hSame
        · rw [Forest.kind?_erase_below hForest hFirst] at hSame
          by_cases hPrefix : first <+: path
          · rw [if_pos hPrefix] at hSame
            exact Or.inr ⟨hSame, first, List.mem_cons_self, hFirst, hPrefix⟩
          · rw [if_neg hPrefix] at hSame
            exact Or.inl hSame
      · exact Or.inr ⟨hNone, gone, List.mem_cons_of_mem _ hGone, hPrefix⟩

end Removal

/-- The pass under way, with `pending` files not accounted for yet: the tree has
only lost entries, the removed files are stale ones, and the counters add up. -/
structure Sound {τ : Type} [LinearOrder τ] (env : Surroundings) (cutoff : τ) (dryRun : Bool)
    (start : Forest PyStr (TemporaryEntry τ)) (pending : Nat) (pass : Pass τ) : Prop where
  wellFormed : pass.forest.WellFormed fun _ => True
  kept : ∀ path, pass.forest.kind? path = start.kind? path ∨
    pass.forest.kind? path = none ∧ (path ∈ pass.unlinked.map (·.1) ∨ Vanished env pass.calls path)
  unlinked : ∀ entry ∈ pass.unlinked, IsStale cutoff start entry.1 entry.2 ∧ pass.forest.kind? entry.1 = none
  distinct : (pass.unlinked.map (·.1)).Nodup
  examined : pass.report.examined = pass.report.accounted dryRun + pending
  deleted : pass.report.deleted = pass.unlinked.length
  reclaimed : pass.report.reclaimedBytes = (pass.unlinked.map (·.2)).sum
  dry : dryRun = true → pass.unlinked = []

section Safety

variable {τ : Type} [LinearOrder τ] {env : Surroundings} {cutoff : τ} {dryRun : Bool}
  {start : Forest PyStr (TemporaryEntry τ)} {pending : Nat} {pass : Pass τ}

theorem Sound.vanish (h : Sound env cutoff dryRun start pending pass) :
    Sound env cutoff dryRun start pending (pass.vanish (env.vanished pass.calls)) := by
  obtain ⟨hWell, hKind⟩ := vanish_spec h.wellFormed (env.vanished pass.calls)
  refine { h with
    wellFormed := hWell
    kept := fun path => ?_
    unlinked := fun entry hEntry => ⟨(h.unlinked entry hEntry).1, ?_⟩ }
  · have hLater : Vanished env pass.calls path → Vanished env (pass.calls + 1) path := by
      rintro ⟨number, hNumber, hGone⟩
      exact ⟨number, by omega, hGone⟩
    rcases hKind path with hSame | ⟨hNone, hGone⟩
    · rcases h.kept path with hKept | ⟨hNone, hMissing⟩
      · exact Or.inl (hSame.trans hKept)
      · exact Or.inr ⟨hSame.trans hNone, hMissing.imp_right hLater⟩
    · exact Or.inr ⟨hNone, Or.inr ⟨pass.calls, Nat.lt_succ_self _, hGone⟩⟩
  · rcases hKind entry.1 with hSame | ⟨hNone, -⟩
    · exact hSame.trans (h.unlinked entry hEntry).2
    · exact hNone

/-- A stale file is unlinked and counted, with its size. -/
theorem Sound.delete (h : Sound env cutoff false start 1 pass) {path : List PyStr} {size : Nat}
    (hStale : IsStale cutoff start path size) {value : TemporaryEntry τ} (hNode : pass.forest.node? path = some (.leaf value)) :
    Sound env cutoff false start 0 ((pass.unlink path value.size).count (.delete size)) := by
  have hLeaf : pass.forest.kind? path = some (some value) := by
    rw [Forest.kind?, hNode]
    rfl
  have hSize : value.size = size := by
    obtain ⟨_, _, mtime, -, -, -, hFile, -⟩ := hStale
    rcases h.kept path with hKept | ⟨hNone, -⟩
    · rw [hLeaf, Forest.kind?_eq_leaf_iff.mpr hFile] at hKept
      cases hKept
      rfl
    · rw [hLeaf] at hNone
      cases hNone
  have hErase (other : List PyStr) := Forest.kind?_erase h.wellFormed hLeaf other
  subst hSize
  constructor
  · exact h.wellFormed.erase path
  · intro other
    simp only [Pass.count, Pass.unlink, hErase, List.map_append, List.mem_append]
    by_cases hOther : other = path
    · exact Or.inr ⟨if_pos hOther, Or.inl (Or.inr (by simp [hOther]))⟩
    · rw [if_neg hOther]
      exact (h.kept other).imp_right fun hGone => ⟨hGone.1, hGone.2.imp_left Or.inl⟩
  · intro entry hEntry
    simp only [Pass.count, Pass.unlink, hErase]
    rcases List.mem_append.mp hEntry with hOld | hNew
    · obtain ⟨hOldStale, hGone⟩ := h.unlinked entry hOld
      refine ⟨hOldStale, ?_⟩
      rw [hGone, ite_self]
    · rw [List.mem_singleton.mp hNew]
      exact ⟨hStale, if_pos rfl⟩
  · simp only [Pass.count, Pass.unlink, List.map_append, List.map_cons, List.map_nil, List.nodup_append]
    refine ⟨h.distinct, by simp, fun other hOther found hFound hEq => ?_⟩
    obtain ⟨entry, hEntry, rfl⟩ := List.mem_map.mp hOther
    have hGone := (h.unlinked entry hEntry).2
    rw [hEq, List.mem_singleton.mp hFound, hLeaf] at hGone
    cases hGone
  · have hExamined := h.examined
    simp only [Pass.count, Pass.unlink, CleanupReport.accounted, CleanupReport.delete, Bool.false_eq_true, if_false]
      at hExamined ⊢
    omega
  · simp [Pass.count, Pass.unlink, CleanupReport.delete, h.deleted]
  · simp [Pass.count, Pass.unlink, CleanupReport.delete, h.reclaimed]
  · intro hDry
    cases hDry

/-- Counting a file that stays where it is changes no entry. -/
theorem Sound.count {f : CleanupReport → CleanupReport} {before after : Nat} (h : Sound env cutoff dryRun start before pass)
    (hDeleted : (f pass.report).deleted = pass.report.deleted)
    (hReclaimed : (f pass.report).reclaimedBytes = pass.report.reclaimedBytes)
    (hExamined : (f pass.report).examined = (f pass.report).accounted dryRun + after) :
    Sound env cutoff dryRun start after (pass.count f) :=
  { h with
    examined := hExamined
    deleted := hDeleted.trans h.deleted
    reclaimed := hReclaimed.trans h.reclaimed }

end Safety

/-- No call fails by itself. Entries may still vanish. -/
def NeverFails (env : Surroundings) : Prop := ∀ number, env.fails number = none

/-- Entries go, none come and none change: what the other processes and the cleanup
itself do to the tree. -/
def Shrinks {τ : Type} (before after : Pass τ) : Prop :=
  ∀ path, after.forest.kind? path = before.forest.kind? path ∨ after.forest.kind? path = none

section Steps

variable {τ : Type} {s t u : Pass τ}

theorem Shrinks.refl (s : Pass τ) : Shrinks s s := fun _ => Or.inl rfl

theorem Shrinks.trans (h : Shrinks s t) (hNext : Shrinks t u) : Shrinks s u := by
  intro path
  rcases hNext path with hSame | hNone
  · rw [hSame]
    exact h path
  · exact Or.inr hNone

theorem Shrinks.gone (h : Shrinks s t) {path : List PyStr} (hGone : s.forest.kind? path = none) :
    t.forest.kind? path = none := by
  rcases h path with hSame | hNone
  · exact hSame.trans hGone
  · exact hNone

theorem Shrinks.kept (h : Shrinks s t) {path : List PyStr} {payload : Option (TemporaryEntry τ)}
    (hKept : t.forest.kind? path = some payload) : s.forest.kind? path = some payload := by
  rcases h path with hSame | hNone
  · exact hSame.symm.trans hKept
  · rw [hNone] at hKept
    cases hKept

variable [LinearOrder τ] {env : Surroundings} {cutoff : τ} {dryRun : Bool} {start : Forest PyStr (TemporaryEntry τ)}
  {pending : Nat}

theorem Sound.of_kind? (h : Sound env cutoff dryRun start pending s) {path : List PyStr}
    {payload : Option (TemporaryEntry τ)} (hKind : s.forest.kind? path = some payload) :
    start.kind? path = some payload := by
  rcases h.kept path with hSame | ⟨hNone, -⟩
  · exact hSame.symm.trans hKind
  · rw [hNone] at hKind
    cases hKind

/-- After the others have gone first, a call fails or is carried out. -/
theorem call_cases {α : Type} (h : Sound env cutoff dryRun start pending s) (operation : PassProgram τ α) :
    ∃ t, Sound env cutoff dryRun start pending t ∧ Shrinks s t ∧
      (call env operation s = operation t ∨ ¬NeverFails env ∧ ∃ e, call env operation s = (.error e, t)) := by
  refine ⟨s.vanish (env.vanished s.calls), h.vanish, fun path => ?_, ?_⟩
  · exact ((vanish_spec h.wellFormed (env.vanished s.calls)).2 path).imp_right fun hGone => hGone.1
  · cases hFails : env.fails s.calls with
    | none => exact Or.inl (by rw [call, hFails, guarded_none])
    | some e =>
        refine Or.inr ⟨fun hNever => ?_, e, by rw [call, hFails, guarded_some, raise_apply]⟩
        rw [hNever] at hFails
        cases hFails

theorem lstat_spec (h : Sound env cutoff dryRun start pending s) (path : List PyStr) :
    ∃ t, Sound env cutoff dryRun start pending t ∧ Shrinks s t ∧
      ((∃ entry, lstat env path s = (.ok entry, t) ∧ start.kind? path = some entry.payload?) ∨
        ∃ e, lstat env path s = (.error e, t) ∧ (NeverFails env → t.forest.kind? path = none)) := by
  obtain ⟨t, hSound, hShrinks, hRun | ⟨hFails, e, hRun⟩⟩ := call_cases h fun pass : Pass τ =>
    (lstatAnswer (pass.forest.node? path), pass)
  · refine ⟨t, hSound, hShrinks, ?_⟩
    cases hNode : t.forest.node? path with
    | none =>
        rw [hNode] at hRun
        exact Or.inr ⟨_, hRun, fun _ => Forest.kind?_eq_none_iff.mpr hNode⟩
    | some entry =>
        rw [hNode] at hRun
        refine Or.inl ⟨entry, hRun, hSound.of_kind? ?_⟩
        rw [Forest.kind?, hNode]
        rfl
  · exact ⟨t, hSound, hShrinks, Or.inr ⟨e, hRun, fun hNever => (hFails hNever).elim⟩⟩

/-- Only a link is taken for one. -/
theorem isSymlink_spec (h : Sound env cutoff dryRun start pending s) (path : List PyStr) :
    ∃ link t, isSymlink env path s = (.ok link, t) ∧ Sound env cutoff dryRun start pending t ∧ Shrinks s t ∧
      (link = true → start.kind? path = some (some .symlink)) := by
  obtain ⟨t, hSound, hShrinks, ⟨entry, hRun, hKind⟩ | ⟨e, hRun, -⟩⟩ := lstat_spec h path
  · refine ⟨isLink entry, t, tryExcept_ok (bind_ok hRun _), hSound, hShrinks, fun hLink => ?_⟩
    unfold isLink at hLink
    split at hLink
    · exact hKind
    · cases hLink
  · exact ⟨false, t, tryExcept_error (bind_error hRun _), hSound, hShrinks, fun hLink => by cases hLink⟩

/-- The directories are found among the entries, and all of them if no call fails. -/
structure Classified (env : Surroundings) (entries : List (PyStr × TemporaryNode τ)) (listing : List PyStr × List PyStr) :
    Prop where
  directories : ∀ name ∈ listing.1, ∃ sub, (name, .dir sub) ∈ entries
  files : ∀ name value, (name, .leaf value) ∈ entries → name ∈ listing.2
  complete : NeverFails env → ∀ name sub, (name, .dir sub) ∈ entries → name ∈ listing.1

theorem classify_spec (h : Sound env cutoff dryRun start pending s) (entries : List (PyStr × TemporaryNode τ)) :
    ∃ listing t, classify env entries s = (.ok listing, t) ∧ Sound env cutoff dryRun start pending t ∧ Shrinks s t ∧
      Classified env entries listing := by
  induction entries generalizing s with
  | nil => exact ⟨([], []), s, rfl, h, .refl s, ⟨by simp, by simp, by simp⟩⟩
  | cons first entries ih =>
      obtain ⟨name, entry⟩ := first
      -- a directory whose status cannot be read counts as a file
      obtain ⟨directory, mid, hRun, hMid, hFirst, hDirectory, hNever⟩ : ∃ directory mid,
          tryExcept (call env (pure (isDirectory entry))) (fun _ => pure false) s = (.ok directory, mid) ∧
            Sound env cutoff dryRun start pending mid ∧ Shrinks s mid ∧
            (directory = true → isDirectory entry = true) ∧ (NeverFails env → directory = isDirectory entry) := by
        obtain ⟨mid, hMid, hFirst, hRun | ⟨hFails, e, hRun⟩⟩ := call_cases h (pure (isDirectory entry))
        · exact ⟨isDirectory entry, mid, tryExcept_ok hRun, hMid, hFirst, id, fun _ => rfl⟩
        · exact ⟨false, mid, tryExcept_error hRun, hMid, hFirst, (fun hFalse => by cases hFalse),
            fun hNever => (hFails hNever).elim⟩
      obtain ⟨rest, t, hRest, hSound, hShrinks, hClassified⟩ := ih hMid
      refine ⟨if directory then (name :: rest.1, rest.2) else (rest.1, name :: rest.2), t, ?_, hSound,
        hFirst.trans hShrinks, ?_⟩
      · rw [classify, bind_ok hRun, bind_ok hRest]
        rfl
      · cases directory with
        | true =>
            refine ⟨fun other hOther => ?_, fun other value hOther => ?_, fun hAll other sub hOther => ?_⟩
            · rcases List.mem_cons.mp hOther with rfl | hOther
              · cases entry with
                | leaf value => cases hDirectory rfl
                | dir sub => exact ⟨sub, List.mem_cons_self⟩
              · obtain ⟨sub, hSub⟩ := hClassified.directories other hOther
                exact ⟨sub, List.mem_cons_of_mem _ hSub⟩
            · rcases List.mem_cons.mp hOther with hSame | hOther
              · cases hSame
                cases hDirectory rfl
              · exact hClassified.files other value hOther
            · rcases List.mem_cons.mp hOther with hSame | hOther
              · cases hSame
                exact List.mem_cons_self
              · exact List.mem_cons_of_mem _ (hClassified.complete hAll other sub hOther)
        | false =>
            refine ⟨fun other hOther => ?_, fun other value hOther => ?_, fun hAll other sub hOther => ?_⟩
            · obtain ⟨sub, hSub⟩ := hClassified.directories other hOther
              exact ⟨sub, List.mem_cons_of_mem _ hSub⟩
            · rcases List.mem_cons.mp hOther with hSame | hOther
              · cases hSame
                exact List.mem_cons_self
              · exact List.mem_cons_of_mem _ (hClassified.files other value hOther)
            · rcases List.mem_cons.mp hOther with hSame | hOther
              · cases hSame
                cases hNever hAll
              · exact hClassified.complete hAll other sub hOther

/-- What a directory lists of the entries that are still there. -/
structure Listed (env : Surroundings) (start : Forest PyStr (TemporaryEntry τ)) (current : List PyStr)
    (listing : List PyStr × List PyStr) (pass : Pass τ) : Prop where
  directories : ∀ name ∈ listing.1, start.kind? (current ++ [name]) = some none
  files : ∀ name value, pass.forest.kind? (current ++ [name]) = some (some value) → name ∈ listing.2
  complete : NeverFails env → ∀ name, pass.forest.kind? (current ++ [name]) = some none → name ∈ listing.1

theorem listDirectory_spec (h : Sound env cutoff dryRun start pending s) (current : List PyStr) :
    ∃ listing t, listDirectory env current s = (.ok listing, t) ∧ Sound env cutoff dryRun start pending t ∧
      Shrinks s t ∧ (listing = none → NeverFails env → t.forest.kind? current ≠ some none) ∧
      ∀ names, listing = some names → Listed env start current names t := by
  obtain ⟨mid, hMid, hFirst, hRun | ⟨hFails, e, hRun⟩⟩ := call_cases h fun pass : Pass τ =>
    (scandirAnswer (pass.forest.node? current), pass)
  · by_cases hDir : ∃ sub, mid.forest.node? current = some (.dir sub)
    · obtain ⟨sub, hSub⟩ := hDir
      rw [hSub] at hRun
      obtain ⟨listing, t, hListing, hSound, hShrinks, hClassified⟩ := classify_spec hMid sub.entries
      have hWell : sub.WellFormed fun _ => True := (hMid.wellFormed.node? hSub).2
      have hKind (name : PyStr) : mid.forest.kind? (current ++ [name]) = (sub.find name).map Node.payload? := by
        rw [Forest.kind?_append hSub, Forest.kind?_cons]
        cases sub.find name with
        | none => rfl
        | some entry => cases entry with
          | leaf value => rfl
          | dir below => exact Forest.kind?_nil below
      refine ⟨some listing, t, tryExcept_ok ?_, hSound, hFirst.trans hShrinks, (fun hNone => by cases hNone),
        fun names hNames => ?_⟩
      · rw [scandir, observe, bind_ok hRun, bind_ok hListing]
        rfl
      · cases hNames
        constructor
        · intro name hName
          obtain ⟨below, hBelow⟩ := hClassified.directories name hName
          refine hMid.of_kind? ?_
          rw [hKind, (Forest.mem_entries_iff hWell name _).mp hBelow]
          rfl
        · intro name value hValue
          have hBefore := hShrinks.kept hValue
          rw [hKind, Option.map_eq_some_iff] at hBefore
          obtain ⟨entry, hEntry, hPayload⟩ := hBefore
          cases entry with
          | dir below => cases hPayload
          | leaf other => exact hClassified.files name other ((Forest.mem_entries_iff hWell name _).mpr hEntry)
        · intro hNever name hName
          have hBefore := hShrinks.kept hName
          rw [hKind, Option.map_eq_some_iff] at hBefore
          obtain ⟨entry, hEntry, hPayload⟩ := hBefore
          cases entry with
          | leaf other => cases hPayload
          | dir below => exact hClassified.complete hNever name below ((Forest.mem_entries_iff hWell name _).mpr hEntry)
    · have hError : ∃ e, scandirAnswer (mid.forest.node? current) = .error e := by
        cases hNode : mid.forest.node? current with
        | none => exact ⟨_, rfl⟩
        | some entry => cases entry with
          | leaf value => exact ⟨_, rfl⟩
          | dir sub => exact (hDir ⟨sub, hNode⟩).elim
      obtain ⟨e, hError⟩ := hError
      rw [hError] at hRun
      exact ⟨none, mid, tryExcept_error (bind_error hRun _), hMid, hFirst,
        fun _ _ hKind => hDir (Forest.kind?_eq_dir_iff.mp hKind), fun names hNames => by cases hNames⟩
  · exact ⟨none, mid, tryExcept_error (bind_error hRun _), hMid, hFirst, fun _ hNever => (hFails hNever).elim,
      fun names hNames => by cases hNames⟩

/-- Directories are no links, so all of them are entered if no call fails. -/
theorem keepDirectories_spec (h : Sound env cutoff dryRun start pending s) (current : List PyStr) {names : List PyStr}
    (hNames : ∀ name ∈ names, start.kind? (current ++ [name]) = some none) :
    ∃ t, keepDirectories env current names s = (.ok names, t) ∧ Sound env cutoff dryRun start pending t ∧
      Shrinks s t := by
  induction names generalizing s with
  | nil => exact ⟨s, rfl, h, .refl s⟩
  | cons name names ih =>
      obtain ⟨link, mid, hRun, hMid, hFirst, hLink⟩ := isSymlink_spec h (current ++ [name])
      obtain ⟨t, hRest, hSound, hShrinks⟩ := ih hMid fun other hOther => hNames other (List.mem_cons_of_mem _ hOther)
      cases link with
      | true =>
          have hKind := hLink rfl
          rw [hNames name List.mem_cons_self] at hKind
          cases hKind
      | false =>
          refine ⟨t, ?_, hSound, hFirst.trans hShrinks⟩
          rw [keepDirectories, bind_ok hRun, bind_ok hRest]
          rfl

/-- A stale file is no longer at its path. -/
def Cleared (cutoff : τ) (start : Forest PyStr (TemporaryEntry τ)) (path : List PyStr) (pass : Pass τ) : Prop :=
  ∀ size, IsStale cutoff start path size → pass.forest.kind? path = none

omit [LinearOrder τ] in
theorem count_run (f : CleanupReport → CleanupReport) (pass : Pass τ) :
    (count f : PassProgram τ Unit) pass = (.ok (), pass.count f) := rfl

theorem Sound.skip (h : Sound env cutoff dryRun start (pending + 1) s) :
    Sound env cutoff dryRun start pending (s.count .skip) := by
  refine h.count rfl rfl ?_
  have hExamined := h.examined
  cases dryRun
  all_goals
    simp only [CleanupReport.accounted, CleanupReport.skip, if_true, if_false, Bool.false_eq_true] at hExamined ⊢
    omega

theorem Sound.fail (h : Sound env cutoff dryRun start (pending + 1) s) :
    Sound env cutoff dryRun start pending (s.count .fail) := by
  refine h.count rfl rfl ?_
  have hExamined := h.examined
  cases dryRun
  all_goals
    simp only [CleanupReport.accounted, CleanupReport.fail, if_true, if_false, Bool.false_eq_true] at hExamined ⊢
    omega

theorem Sound.examine (h : Sound env cutoff dryRun start pending s) :
    Sound env cutoff dryRun start (pending + 1) (s.count .examine) := by
  refine h.count rfl rfl ?_
  have hExamined := h.examined
  simp only [CleanupReport.accounted, CleanupReport.examine] at hExamined ⊢
  omega

/-- In a dry run an eligible file is accounted for, in a real one it is still to be unlinked. -/
theorem Sound.select (h : Sound env cutoff dryRun start 1 s) :
    Sound env cutoff dryRun start (if dryRun then 0 else 1) (s.count .select) := by
  refine h.count rfl rfl ?_
  have hExamined := h.examined
  cases dryRun
  all_goals
    simp only [CleanupReport.accounted, CleanupReport.select, if_true, if_false, Bool.false_eq_true] at hExamined ⊢
    omega

/-- The file is unlinked and counted, or counted as skipped or as an error; in each
case nothing is pending afterwards. -/
theorem removeCandidate_spec (h : Sound env cutoff dryRun start 1 s) {current : List PyStr} {name : PyStr}
    {metadata : TemporaryNode τ} (hKind : start.kind? (current ++ [name]) = some metadata.payload?) :
    ∃ outcome t, removeCandidate env cutoff dryRun (current ++ [name]) name metadata s = (outcome, t) ∧ Shrinks s t ∧
      (outcome = .ok () → Sound env cutoff dryRun start 0 t) ∧
      ((∃ e, outcome = .error e) → Sound env cutoff dryRun start 1 t) ∧
      (NeverFails env → dryRun = false → Cleared cutoff start (current ++ [name]) t) := by
  have hSkipped (hNot : ∀ size, ¬IsStale cutoff start (current ++ [name]) size) :
      ∃ outcome t, (count .skip : PassProgram τ Unit) s = (outcome, t) ∧ Shrinks s t ∧
        (outcome = .ok () → Sound env cutoff dryRun start 0 t) ∧
        ((∃ e, outcome = .error e) → Sound env cutoff dryRun start 1 t) ∧
        (NeverFails env → dryRun = false → Cleared cutoff start (current ++ [name]) t) := by
    refine ⟨.ok (), s.count .skip, rfl, .refl s, fun _ => h.skip, ?_, fun _ _ size hStale => (hNot size hStale).elim⟩
    rintro ⟨e, hError⟩
    cases hError
  have hFile {size : Nat} (hStale : IsStale cutoff start (current ++ [name]) size) :
      ∃ mtime, metadata = .leaf (.file size mtime) ∧ isTemporaryFilename name = true ∧ mtime ≤ cutoff := by
    obtain ⟨directory, identifier, mtime, hPath, hLength, hHex, hFound, hOld⟩ := hStale
    rw [Forest.kind?_eq_leaf_iff.mpr hFound] at hKind
    obtain ⟨-, hName⟩ := List.append_inj' hPath rfl
    refine ⟨mtime, ?_, (isTemporaryFilename_iff name).mpr ⟨identifier, (List.cons.inj hName).1, hLength, hHex⟩, hOld⟩
    cases metadata with
    | dir sub => cases hKind
    | leaf value =>
        cases hKind
        rfl
  cases metadata with
  | dir sub =>
      refine hSkipped fun size hStale => ?_
      obtain ⟨mtime, hEq, -⟩ := hFile hStale
      cases hEq
  | leaf value =>
      cases value with
      | symlink =>
          refine hSkipped fun size hStale => ?_
          obtain ⟨mtime, hEq, -⟩ := hFile hStale
          cases hEq
      | special =>
          refine hSkipped fun size hStale => ?_
          obtain ⟨mtime, hEq, -⟩ := hFile hStale
          cases hEq
      | file size mtime =>
          rw [removeCandidate]
          by_cases hOther : isTemporaryFilename name = false ∨ cutoff < mtime
          · rw [if_pos hOther]
            refine hSkipped fun other hStale => ?_
            obtain ⟨found, hEq, hName, hOld⟩ := hFile hStale
            cases hEq
            rcases hOther with hWrong | hFresh
            · rw [hName] at hWrong
              cases hWrong
            · exact absurd hOld (not_le_of_gt hFresh)
          · rw [if_neg hOther, bind_ok (count_run _ s)]
            obtain ⟨hName, hOld⟩ := not_or.mp hOther
            have hSelected := h.select
            cases dryRun with
            | true =>
                refine ⟨.ok (), s.count .select, rfl, .refl s, fun _ => hSelected, ?_, fun _ hDry => by cases hDry⟩
                rintro ⟨e, hError⟩
                cases hError
            | false =>
                obtain ⟨identifier, hText, hLength, hHex⟩ := (isTemporaryFilename_iff name).mp ((Bool.not_eq_false _).mp hName)
                have hStale : IsStale cutoff start (current ++ [name]) size :=
                  ⟨current, identifier, mtime, by rw [hText], hLength, hHex, Forest.kind?_eq_leaf_iff.mp hKind, not_lt.mp hOld⟩
                obtain ⟨mid, hMid, hFirst, hRun | ⟨hFails, e, hRun⟩⟩ := call_cases hSelected (unlinkAt (current ++ [name]))
                · cases hNode : mid.forest.node? (current ++ [name]) with
                  | none =>
                      have hError : unlinkAt (current ++ [name]) mid = (.error .fileNotFoundError, mid) := by
                        rw [unlinkAt, hNode]
                      refine ⟨.error .fileNotFoundError, mid, bind_error (hRun.trans hError) _, hFirst, (fun hOk => by cases hOk),
                        fun _ => hMid, fun _ _ _ _ => Forest.kind?_eq_none_iff.mpr hNode⟩
                  | some entry =>
                      have hBefore : mid.forest.kind? (current ++ [name]) = some entry.payload? := by
                        rw [Forest.kind?, hNode]
                        rfl
                      have hSame := (hMid.of_kind? hBefore).symm.trans hKind
                      cases entry with
                      | dir sub => cases hSame
                      | leaf value =>
                          have hOk : unlinkAt (current ++ [name]) mid = (.ok (), mid.unlink (current ++ [name]) value.size) := by
                            rw [unlinkAt, hNode]
                          obtain rfl : value = .file size mtime := Option.some.inj (Option.some.inj hSame)
                          have hErase (other : List PyStr) := Forest.kind?_erase hMid.wellFormed hBefore other
                          refine ⟨.ok (), (mid.unlink (current ++ [name]) size).count (.delete size),
                            (bind_ok (hRun.trans hOk) _).trans rfl, hFirst.trans fun other => ?_, fun _ => hMid.delete hStale hNode,
                            ?_, fun _ _ _ _ => (hErase _).trans (if_pos rfl)⟩
                          · by_cases hOther : other = current ++ [name]
                            · exact Or.inr ((hErase other).trans (if_pos hOther))
                            · exact Or.inl ((hErase other).trans (if_neg hOther))
                          · rintro ⟨e, hError⟩
                            cases hError
                · exact ⟨.error e, mid, bind_error hRun _, hFirst, (fun hOk => by cases hOk), fun _ => hMid,
                    fun hNever => (hFails hNever).elim⟩

/-- One file is accounted for by exactly one counter, whatever the calls do. -/
theorem examineFile_spec (h : Sound env cutoff dryRun start 0 s) (current : List PyStr) (name : PyStr) :
    ∃ t, examineFile env cutoff dryRun current name s = (.ok (), t) ∧ Sound env cutoff dryRun start 0 t ∧ Shrinks s t ∧
      (NeverFails env → dryRun = false → Cleared cutoff start (current ++ [name]) t) := by
  have hCaught {body : PassProgram τ Unit} {mid : Pass τ} {e : OSError} (hBody : body (s.count .examine) = (.error e, mid))
      (hMid : Sound env cutoff dryRun start 1 mid) (hFirst : Shrinks s mid)
      (hCleared : NeverFails env → dryRun = false → Cleared cutoff start (current ++ [name]) mid) :
      ∃ t, tryExcept body (fun e => count (if e = .fileNotFoundError then .skip else .fail)) (s.count .examine) = (.ok (), t) ∧
        Sound env cutoff dryRun start 0 t ∧ Shrinks s t ∧
        (NeverFails env → dryRun = false → Cleared cutoff start (current ++ [name]) t) := by
    refine ⟨_, tryExcept_error hBody, ?_, hFirst, hCleared⟩
    by_cases hMissing : e = .fileNotFoundError
    · rw [if_pos hMissing]
      exact hMid.skip
    · rw [if_neg hMissing]
      exact hMid.fail
  rw [examineFile, bind_ok (count_run _ s)]
  obtain ⟨mid, hMid, hFirst, ⟨metadata, hRun, hKind⟩ | ⟨e, hRun, hGone⟩⟩ := lstat_spec h.examine (current ++ [name])
  · obtain ⟨outcome, t, hRest, hShrinks, hOk, hError, hCleared⟩ := removeCandidate_spec hMid hKind
    cases outcome with
    | ok u => exact ⟨t, tryExcept_ok ((bind_ok hRun _).trans hRest), hOk rfl, hFirst.trans hShrinks, hCleared⟩
    | error e => exact hCaught ((bind_ok hRun _).trans hRest) (hError ⟨e, rfl⟩) (hFirst.trans hShrinks) hCleared
  · exact hCaught (bind_error hRun _) hMid hFirst fun hNever _ _ _ => hGone hNever

end Steps

section Walk

variable {τ : Type} [LinearOrder τ] {env : Surroundings} {cutoff : τ} {dryRun : Bool}
  {start : Forest PyStr (TemporaryEntry τ)} {s : Pass τ}

omit [LinearOrder τ] in
theorem Cleared.later [LinearOrder τ] {t : Pass τ} {path : List PyStr} (h : Cleared cutoff start path s) (hShrinks : Shrinks s t) :
    Cleared cutoff start path t := fun size hStale => hShrinks.gone (h size hStale)

/-- What each turn of a loop clears stays cleared in the turns after it. -/
theorem forEach_spec {ι : Type} {items : List ι} {body : ι → PassProgram τ Unit} {paths : ι → List PyStr → Prop}
    (hBody : ∀ item ∈ items, ∀ s, Sound env cutoff dryRun start 0 s → ∃ t, body item s = (.ok (), t) ∧
      Sound env cutoff dryRun start 0 t ∧ Shrinks s t ∧
      (NeverFails env → dryRun = false → ∀ path, paths item path → Cleared cutoff start path t))
    (h : Sound env cutoff dryRun start 0 s) :
    ∃ t, forEach items body s = (.ok (), t) ∧ Sound env cutoff dryRun start 0 t ∧ Shrinks s t ∧
      (NeverFails env → dryRun = false → ∀ item ∈ items, ∀ path, paths item path → Cleared cutoff start path t) := by
  induction items generalizing s with
  | nil => exact ⟨s, rfl, h, .refl s, fun _ _ item hItem => by cases hItem⟩
  | cons first items ih =>
      obtain ⟨mid, hRun, hMid, hFirst, hCleared⟩ := hBody first List.mem_cons_self s h
      obtain ⟨t, hRest, hSound, hShrinks, hLater⟩ := ih (fun item hItem => hBody item (List.mem_cons_of_mem _ hItem)) hMid
      refine ⟨t, (bind_ok hRun _).trans hRest, hSound, hFirst.trans hShrinks, fun hNever hReal item hItem path hPath => ?_⟩
      rcases List.mem_cons.mp hItem with rfl | hItem
      · exact (hCleared hNever hReal path hPath).later hShrinks
      · exact hLater hNever hReal item hItem path hPath

/-- The walk comes to its end, and it clears what is at most `fuel` levels deep. The
induction is on the fuel. -/
theorem cleanBelow_spec (fuel : Nat) (current : List PyStr) (h : Sound env cutoff dryRun start 0 s) :
    ∃ t, cleanBelow env cutoff dryRun fuel current s = (.ok (), t) ∧ Sound env cutoff dryRun start 0 t ∧ Shrinks s t ∧
      (NeverFails env → dryRun = false → ∀ tail, tail ≠ [] → tail.length ≤ fuel →
        Cleared cutoff start (current ++ tail) t) := by
  induction fuel generalizing s current with
  | zero =>
      refine ⟨s, rfl, h, .refl s, fun _ _ tail hTail hLength => ?_⟩
      exact (hTail (List.length_eq_zero_iff.mp (Nat.le_zero.mp hLength))).elim
  | succ fuel ih =>
      obtain ⟨listing, listed, hRun, hListed, hFirst, hNone, hSome⟩ := listDirectory_spec h current
      rw [cleanBelow, bind_ok hRun]
      cases listing with
      | none =>
          refine ⟨listed, rfl, hListed, hFirst, fun hNever _ tail hTail _ size hStale => ?_⟩
          -- what cannot be listed is no directory any more
          cases hKind : listed.forest.kind? (current ++ tail) with
          | none => rfl
          | some payload => exact (hNone rfl hNever (Forest.kind?_above hKind hTail)).elim
      | some names =>
          obtain ⟨directoryNames, fileNames⟩ := names
          have hNames := hSome _ rfl
          obtain ⟨kept, hKeepRun, hKept, hSecond⟩ := keepDirectories_spec hListed current hNames.directories
          have hFile (name : PyStr) (_ : name ∈ fileNames) (s : Pass τ) (hs : Sound env cutoff dryRun start 0 s) :
              ∃ t, examineFile env cutoff dryRun current name s = (.ok (), t) ∧ Sound env cutoff dryRun start 0 t ∧
                Shrinks s t ∧ (NeverFails env → dryRun = false → ∀ path, path = current ++ [name] →
                  Cleared cutoff start path t) := by
            obtain ⟨t, hOne, hSound, hShrinks, hCleared⟩ := examineFile_spec hs current name
            refine ⟨t, hOne, hSound, hShrinks, fun hNever hReal path hPath => ?_⟩
            rw [hPath]
            exact hCleared hNever hReal
          have hDirectory (name : PyStr) (_ : name ∈ directoryNames) (s : Pass τ) (hs : Sound env cutoff dryRun start 0 s) :
              ∃ t, cleanBelow env cutoff dryRun fuel (current ++ [name]) s = (.ok (), t) ∧
                Sound env cutoff dryRun start 0 t ∧ Shrinks s t ∧ (NeverFails env → dryRun = false →
                  ∀ path, (∃ tail, tail ≠ [] ∧ tail.length ≤ fuel ∧ path = current ++ [name] ++ tail) →
                    Cleared cutoff start path t) := by
            obtain ⟨t, hOne, hSound, hShrinks, hCleared⟩ := ih (current ++ [name]) hs
            refine ⟨t, hOne, hSound, hShrinks, fun hNever hReal path hPath => ?_⟩
            obtain ⟨tail, hTail, hLength, rfl⟩ := hPath
            exact hCleared hNever hReal tail hTail hLength
          obtain ⟨mid, hFilesRun, hMid, hThird, hFiles⟩ := forEach_spec hFile hKept
          obtain ⟨t, hBelowRun, hSound, hFourth, hBelow⟩ := forEach_spec hDirectory hMid
          refine ⟨t, ?_, hSound, ((hFirst.trans hSecond).trans hThird).trans hFourth,
            fun hNever hReal tail hTail hLength size hStale => ?_⟩
          · dsimp only
            rw [bind_ok hKeepRun, bind_ok hFilesRun]
            exact hBelowRun
          · cases hKind : listed.forest.kind? (current ++ tail) with
            | none => exact ((hSecond.trans hThird).trans hFourth).gone hKind
            | some payload =>
                cases tail with
                | nil => exact (hTail rfl).elim
                | cons name tail =>
                    by_cases hDeeper : tail = []
                    · subst hDeeper
                      have hStart := hListed.of_kind? hKind
                      obtain ⟨_, _, mtime, -, -, -, hFound, -⟩ := id hStale
                      rw [Forest.kind?_eq_leaf_iff.mpr hFound] at hStart
                      obtain rfl : some (.file size mtime) = payload := Option.some.inj hStart
                      exact hFourth.gone (hFiles hNever hReal name (hNames.files name _ hKind) _ rfl size hStale)
                    · have hSplit : current ++ name :: tail = current ++ [name] ++ tail := by simp
                      rw [hSplit] at hKind hStale ⊢
                      have hEntered := hNames.complete hNever name (Forest.kind?_above hKind hDeeper)
                      exact hBelow hNever hReal name hEntered _
                        ⟨tail, hDeeper, Nat.le_of_succ_le_succ hLength, rfl⟩ size hStale

end Walk

theorem depth_of_find {τ : Type} {forest sub : Forest PyStr (TemporaryEntry τ)} {name : PyStr}
    (h : forest.find name = some (.dir sub)) : depth sub + 1 ≤ depth forest := by
  induction forest with
  | nil => cases h
  | leaf head value rest ih =>
      rw [Forest.find] at h
      split_ifs at h with hHead
      · cases h
      · exact ih h
  | dir head child rest _ ih =>
      rw [Forest.find] at h
      rw [depth]
      split_ifs at h with hHead
      · cases h
        exact le_max_left _ _
      · exact (ih h).trans (le_max_right _ _)

theorem length_lt_depth {τ : Type} {forest : Forest PyStr (TemporaryEntry τ)} {path : List PyStr}
    (h : forest.kind? path = some none) : path.length < depth forest := by
  induction path generalizing forest with
  | nil =>
      clear h
      induction forest with
      | nil => exact Nat.zero_lt_one
      | leaf head value rest ih => exact ih
      | dir head child rest _ ih => exact lt_max_of_lt_right ih
  | cons name path ih =>
      rw [Forest.kind?_cons] at h
      split at h
      · cases h
      · split_ifs at h
        cases h
      · rename_i sub hFind
        have hBelow := ih h
        have hDepth := depth_of_find hFind
        rw [List.length_cons]
        omega

section Report

variable {τ : Type} [LinearOrder τ] {env : Surroundings} {cutoff : τ} {dryRun : Bool}

theorem forEach_congr {ι : Type} {start : Forest PyStr (TemporaryEntry τ)} {s : Pass τ} {items : List ι}
    {x y : ι → PassProgram τ Unit} (hBody : ∀ item ∈ items, ∀ s, Sound env cutoff dryRun start 0 s →
      x item s = y item s ∧ ∃ t, x item s = (.ok (), t) ∧ Sound env cutoff dryRun start 0 t)
    (h : Sound env cutoff dryRun start 0 s) : forEach items x s = forEach items y s := by
  induction items generalizing s with
  | nil => rfl
  | cons first items ih =>
      obtain ⟨hSame, t, hRun, hSound⟩ := hBody first List.mem_cons_self s h
      rw [forEach, forEach, bind_ok hRun, bind_ok (hSame.symm.trans hRun)]
      exact ih (fun item hItem => hBody item (List.mem_cons_of_mem _ hItem)) hSound

/-- A walk that may go deeper than the tree does nothing more. -/
theorem cleanBelow_fuel {start : Forest PyStr (TemporaryEntry τ)} {s : Pass τ} {fuel : Nat} {current : List PyStr}
    (hCurrent : start.kind? current = some none)
    (hFuel : ∀ path, start.kind? (current ++ path) = some none → path.length < fuel)
    (h : Sound env cutoff dryRun start 0 s) :
    cleanBelow env cutoff dryRun fuel current s = cleanBelow env cutoff dryRun (fuel + 1) current s := by
  induction fuel generalizing s current with
  | zero => exact absurd (hFuel [] (by rwa [List.append_nil])) (Nat.not_lt_zero _)
  | succ fuel ih =>
      obtain ⟨listing, listed, hRun, hListed, -, -, hSome⟩ := listDirectory_spec h current
      rw [cleanBelow, cleanBelow, bind_ok hRun, bind_ok hRun]
      cases listing with
      | none => rfl
      | some names =>
          have hNames := hSome _ rfl
          obtain ⟨kept, hKeepRun, hKept, -⟩ := keepDirectories_spec hListed current hNames.directories
          obtain ⟨mid, hFilesRun, hMid, -⟩ := @forEach_spec _ _ env cutoff dryRun start kept _ names.2
            (examineFile env cutoff dryRun current) (fun _ _ => False) (fun name _ s hs => by
              obtain ⟨t, hOne, hSound, hShrinks, -⟩ := examineFile_spec hs current name
              exact ⟨t, hOne, hSound, hShrinks, fun _ _ _ hPath => hPath.elim⟩) hKept
          dsimp only
          rw [bind_ok hKeepRun, bind_ok hKeepRun, bind_ok hFilesRun, bind_ok hFilesRun]
          refine forEach_congr (fun name hName s hs => ⟨?_, ?_⟩) hMid
          · refine ih (hNames.directories name hName) (fun path hPath => ?_) hs
            rw [List.append_assoc] at hPath
            exact Nat.lt_of_succ_lt_succ (hFuel (name :: path) hPath)
          · obtain ⟨t, hOne, hSound, -⟩ := cleanBelow_spec fuel (current ++ [name]) hs
            exact ⟨t, hOne, hSound⟩

/-- The depth of the tree lets the walk reach everything. -/
theorem cleanBelow_depth (tree : TemporaryTree τ) (h : Sound env cutoff dryRun tree.forest 0 (.start tree)) (more : Nat) :
    cleanBelow env cutoff dryRun (depth tree.forest + more) [] (.start tree) =
      cleanBelow env cutoff dryRun (depth tree.forest) [] (.start tree) := by
  induction more with
  | zero => rfl
  | succ more ih =>
      rw [← ih]
      refine (cleanBelow_fuel (Forest.kind?_nil _) (fun path hPath => ?_) h).symm
      exact Nat.lt_add_right more (length_lt_depth hPath)

/-- The cleanup removed stale uploads and nothing else, all of them if it could, and
counted right. -/
structure ExactCleanup (env : Surroundings) (cutoff : τ) (dryRun : Bool) (tree : TemporaryTree τ)
    (report : CleanupReport) (after : Pass τ) : Prop where
  removed : ∀ entry ∈ after.unlinked, IsStale cutoff tree.forest entry.1 entry.2 ∧ after.forest.kind? entry.1 = none
  distinct : (after.unlinked.map (·.1)).Nodup
  complete : NeverFails env → dryRun = false → ∀ path size, IsStale cutoff tree.forest path size →
    after.forest.kind? path = none
  untouched : ∀ path, path ∉ after.unlinked.map (·.1) → ¬Vanished env after.calls path →
    after.forest.kind? path = tree.forest.kind? path
  dry : dryRun = true → after.unlinked = []
  examined : report.examined = report.accounted dryRun
  deleted : report.deleted = after.unlinked.length
  reclaimed : report.reclaimedBytes = (after.unlinked.map (·.2)).sum

theorem sound_start (tree : TemporaryTree τ) : Sound env cutoff dryRun tree.forest 0 (.start tree) where
  wellFormed := tree.wellFormed
  kept path := Or.inl rfl
  unlinked entry hEntry := by cases hEntry
  distinct := List.nodup_nil
  examined := by cases dryRun <;> rfl
  deleted := rfl
  reclaimed := rfl
  dry _ := rfl

theorem Sound.exact {tree : TemporaryTree τ} {after : Pass τ} (h : Sound env cutoff dryRun tree.forest 0 after)
    (hCleared : NeverFails env → dryRun = false → ∀ tail, tail ≠ [] → tail.length ≤ depth tree.forest →
      Cleared cutoff tree.forest tail after) : ExactCleanup env cutoff dryRun tree after.report after where
  removed := h.unlinked
  distinct := h.distinct
  complete hNever hReal path size hStale := by
    obtain ⟨directory, _, mtime, hPath, -, -, hFile, -⟩ := id hStale
    have hLength : path.length ≤ depth tree.forest := by
      rw [hPath] at hFile ⊢
      have hAbove := length_lt_depth (Forest.kind?_above (Forest.kind?_eq_leaf_iff.mpr hFile) (List.cons_ne_nil _ _))
      rw [List.length_append, List.length_singleton]
      omega
    have hNil : path ≠ [] := by simp [hPath]
    exact hCleared hNever hReal path hNil hLength size hStale
  untouched path hKept hHere := by
    rcases h.kept path with hSame | ⟨-, hUnlinked | hVanished⟩
    · exact hSame
    · exact (hKept hUnlinked).elim
    · exact (hHere hVanished).elim
  dry := h.dry
  examined := h.examined
  deleted := h.deleted
  reclaimed := h.reclaimed

/-- The arguments that a cleanup accepts. -/
def Accepts (root : RootCalls) (maxAgeSeconds : Int) : Prop :=
  0 < maxAgeSeconds ∧ root.isSymlink = false ∧ root.resolved = true ∧ root.isDir = true

/-- For any surroundings, a cleanup of accepted arguments is exact, and one of other
arguments raises before it touches anything. -/
theorem cleanupTemporaryFiles_exact [Sub τ] [IntCast τ] (env : Surroundings) (root : RootCalls) (tree : TemporaryTree τ)
    (maxAgeSeconds : Int) (dryRun : Bool) (nowTimestamp : Option τ) (time : τ) :
    (Accepts root maxAgeSeconds ∧ ∃ report after,
      cleanupTemporaryFiles env root tree maxAgeSeconds dryRun nowTimestamp time = (.ok report, after) ∧
        ExactCleanup env (nowTimestamp.getD time - (maxAgeSeconds : τ)) dryRun tree report after) ∨
    (¬Accepts root maxAgeSeconds ∧ ∃ e,
      cleanupTemporaryFiles env root tree maxAgeSeconds dryRun nowTimestamp time = (.error e, .start tree)) := by
  obtain ⟨isSymlink, resolved, isDir⟩ := root
  unfold cleanupTemporaryFiles Accepts
  dsimp only
  by_cases hAge : maxAgeSeconds ≤ 0
  · exact Or.inr ⟨fun hAccepts => absurd hAccepts.1 (not_lt.mpr hAge), _, if_pos hAge⟩
  · rw [if_neg hAge]
    cases isSymlink with
    | true => exact Or.inr ⟨(fun hAccepts => by cases hAccepts.2.1), _, rfl⟩
    | false =>
        cases resolved with
        | false => exact Or.inr ⟨(fun hAccepts => by cases hAccepts.2.2.1), _, rfl⟩
        | true =>
            cases isDir with
            | false => exact Or.inr ⟨(fun hAccepts => by cases hAccepts.2.2.2), _, rfl⟩
            | true =>
                obtain ⟨after, hRun, hSound, -, hCleared⟩ := @cleanBelow_spec _ _ env
                  (nowTimestamp.getD time - (maxAgeSeconds : τ)) dryRun tree.forest _ (depth tree.forest) []
                  (sound_start tree)
                refine Or.inl ⟨⟨not_le.mp hAge, rfl, rfl, rfl⟩, after.report, after, ?_, hSound.exact hCleared⟩
                simp only [Bool.false_eq_true, Bool.not_true, if_false, hRun]

end Report

/-- A stale upload, a link, a file of an operator, a staged deletion and, further down, a fresh upload. -/
def sampleTemporaryTree : TemporaryTree Int where
  forest :=
    .leaf (py "0123456789abcdef0123456789abcdef.upload") (.file 3 90000)
      (.leaf (py "ffffffffffffffffffffffffffffffff.upload") .symlink
        (.leaf (py "manual.upload") (.file 8 90000)
          (.dir (py "deletions") (.leaf (py "0123456789abcdef0123456789abcdef.delete") (.file 5 90000) .nil)
            (.dir (py "nested") (.leaf (py "00000000000000000000000000000000.upload") (.file 5 99990) .nil) .nil))))
  wellFormed := by decide +kernel

/-- The operator's file vanishes while the cleanup is under way. -/
def sampleSurroundings : Surroundings where
  vanished number := if number = 10 then [[py "manual.upload"]] else []
  fails _ := none

example : (cleanupTemporaryFiles sampleSurroundings ⟨false, true, true⟩ sampleTemporaryTree 3600 false (some 100000)
    0).2.report = ⟨5, 1, 1, 3, 4, 0⟩ := by decide +kernel

end SoftwareHub.Storage
