import SoftwareHub.Python.Value
import SoftwareHub.Python.Unicode

/-! Redaction of structured log fields: what a sensitive key hides, and what is kept
of everything else. -/
namespace SoftwareHub.Core

open SoftwareHub.Python PyValue

def redactedValue : PyStr := py "[REDACTED]"

def sensitiveKeyFragments : List PyStr :=
  [py "authorization", py "cookie", py "csrf", py "password", py "secret", py "session", py "token"]

section Redaction

-- `str.lower`, and `repr` of a value
variable (lower : PyStr → PyStr) (repr : PyValue → PyStr)

/-- A key is sensitive when its folded text contains one of the fragments. -/
def isSensitiveKey (key : PyStr) : Bool :=
  let normalized := (lower key).map fun c => if c = 0x2D then 0x5F else c
  sensitiveKeyFragments.any fun fragment => fragment <:+: normalized

mutual

/-- `redact_sensitive_data` of a value whose own key is not sensitive. -/
def redactValue : PyValue → PyValue
  | .mapping entries => .mapping (dictOf (redactEntries entries))
  | .list items => .list (redactItems items)
  | .tuple items => .list (redactItems items)
  | .set items => .list ((redactItems items).insertionSort fun first second => strLe (repr first) (repr second))
  | .scalar value => .scalar value
  | .bytes data => .scalar (.str (repr (.bytes data)))
  | .object number => .scalar (.str (repr (.object number)))

def redactItems : List PyValue → List PyValue
  | [] => []
  | item :: items => redactValue item :: redactItems items

def redactEntries : List (Key × PyValue) → List (Key × PyValue)
  | [] => []
  | (key, value) :: entries =>
      (.str key.text, if isSensitiveKey lower key.text then .scalar (.str redactedValue) else redactValue value) ::
        redactEntries entries

end

/-- `redact_sensitive_data` of a field, by its key. -/
def redactSensitiveData (key : Option PyStr) (value : PyValue) : PyValue :=
  if key.any (isSensitiveKey lower) then .scalar (.str redactedValue) else redactValue lower repr value

/-- An entry of a redacted mapping: a sensitive key hides its value. -/
def redactEntry (entry : Key × PyValue) : Key × PyValue :=
  (.str entry.1.text,
    if isSensitiveKey lower entry.1.text then .scalar (.str redactedValue) else redactValue lower repr entry.2)

variable {lower repr}

theorem redactItems_eq (items : List PyValue) : redactItems lower repr items = items.map (redactValue lower repr) := by
  induction items with
  | nil => rw [redactItems, List.map_nil]
  | cons item items ih => rw [redactItems, ih, List.map_cons]

theorem redactEntries_eq (entries : List (Key × PyValue)) :
    redactEntries lower repr entries = entries.map (redactEntry lower repr) := by
  induction entries with
  | nil => rw [redactEntries, List.map_nil]
  | cons entry entries ih =>
      rw [redactEntries, ih, List.map_cons]
      rfl

/-- String keys are kept as they are. -/
theorem keys_redactEntry {entries : List (Key × PyValue)} (hKeys : ∀ entry ∈ entries, entry.1 = .str entry.1.text) :
    (entries.map (redactEntry lower repr)).map Prod.fst = entries.map Prod.fst := by
  rw [List.map_map]
  exact List.map_congr_left fun entry hMem => (hKeys entry hMem).symm

theorem redactValue_mapping {entries : List (Key × PyValue)} (hNodup : (entries.map Prod.fst).Nodup)
    (hKeys : ∀ entry ∈ entries, entry.1 = .str entry.1.text) :
    redactValue lower repr (.mapping entries) = .mapping (entries.map (redactEntry lower repr)) := by
  rw [redactValue, redactEntries_eq, dictOf_of_nodup (by rwa [keys_redactEntry hKeys])]

/-- What a sensitive key hides does not show in the redacted value. The induction is
on the agreement. -/
theorem agree_redactValue {order : List (Key × PyValue) → List (Key × PyValue) → Prop}
    (hMap : ∀ xs zs, order xs zs →
      xs.Perm zs ∧ order (xs.map (redactEntry lower repr)) (zs.map (redactEntry lower repr)))
    {v w : PyValue} (h : Agree (fun key => isSensitiveKey lower key = true) order v w) :
    Agree (fun _ => False) order (redactValue lower repr v) (redactValue lower repr w) := by
  induction h with
  | scalar value =>
      rw [redactValue]
      exact .scalar value
  | @list xs ys hLength _ ih =>
      rw [redactValue, redactValue, redactItems_eq, redactItems_eq]
      refine .list (by simpa using hLength) fun i x y hx hy => ?_
      rw [List.getElem?_map, Option.map_eq_some_iff] at hx hy
      obtain ⟨first, hFirst, rfl⟩ := hx
      obtain ⟨second, hSecond, rfl⟩ := hy
      exact ih i first second hFirst hSecond
  | @tuple xs ys hLength _ ih =>
      rw [redactValue, redactValue, redactItems_eq, redactItems_eq]
      refine .list (by simpa using hLength) fun i x y hx hy => ?_
      rw [List.getElem?_map, Option.map_eq_some_iff] at hx hy
      obtain ⟨first, hFirst, rfl⟩ := hx
      obtain ⟨second, hSecond, rfl⟩ := hy
      exact ih i first second hFirst hSecond
  | @mapping xs zs ys hNodup hStrings hOrder hKeys _ ih =>
      obtain ⟨hPerm, hMapped⟩ := hMap xs zs hOrder
      have hNodupRight : (ys.map Prod.fst).Nodup := by
        rw [← hKeys]
        exact (hPerm.map Prod.fst).nodup_iff.mp hNodup
      have hStringsRight : ∀ entry ∈ ys, entry.1 = .str entry.1.text := by
        intro entry hMem
        have hKey : entry.1 ∈ zs.map Prod.fst := hKeys ▸ List.mem_map_of_mem hMem
        obtain ⟨other, hOther, hSame⟩ := List.mem_map.mp hKey
        rw [← hSame]
        exact hStrings other (hPerm.mem_iff.mpr hOther)
      have hStringsMiddle : ∀ entry ∈ zs, entry.1 = .str entry.1.text :=
        fun entry hMem => hStrings entry (hPerm.mem_iff.mpr hMem)
      rw [redactValue_mapping hNodup hStrings, redactValue_mapping hNodupRight hStringsRight]
      refine .mapping (by rwa [keys_redactEntry hStrings]) (fun entry hMem => ?_) hMapped ?_ fun i x y hx hy _ => ?_
      · obtain ⟨source, -, rfl⟩ := List.mem_map.mp hMem
        rfl
      · rw [keys_redactEntry hStringsMiddle, keys_redactEntry hStringsRight, hKeys]
      · rw [List.getElem?_map, Option.map_eq_some_iff] at hx hy
        obtain ⟨first, hFirst, rfl⟩ := hx
        obtain ⟨second, hSecond, rfl⟩ := hy
        have hSame : first.1 = second.1 := by
          have hKey := congrArg (fun keys : List Key => keys[i]?) hKeys
          simpa [List.getElem?_map, hFirst, hSecond] using hKey
        rw [redactEntry, redactEntry, ← hSame]
        by_cases hSensitive : isSensitiveKey lower first.1.text = true
        · simp only [hSensitive, if_true]
          exact .scalar _
        · simp only [hSensitive, if_false, Bool.false_eq_true]
          exact ih i first second hFirst hSecond hSensitive

/-- A place to which no sensitive key leads. -/
def Shown (lower : PyStr → PyStr) (path : List Step) : Prop :=
  ∀ text, .key text ∈ path → isSensitiveKey lower text = false

theorem child?_map_redactEntry {entries : List (Key × PyValue)} (hKeys : ∀ entry ∈ entries, entry.1 = .str entry.1.text)
    {text : PyStr} (hText : isSensitiveKey lower text = false) :
    child? text (entries.map (redactEntry lower repr)) = (child? text entries).map (redactValue lower repr) := by
  induction entries with
  | nil => rfl
  | cons entry entries ih =>
      have hRest := ih fun other hMem => hKeys other (List.mem_cons_of_mem entry hMem)
      have hKey := hKeys entry List.mem_cons_self
      unfold child? at hRest ⊢
      by_cases hFound : entry.1 = .str text
      · have hSame : entry.1.text = text := by rw [hFound, Key.text]
        rw [List.map_cons, List.find?_cons_of_pos (by simp [redactEntry, hSame]),
          List.find?_cons_of_pos (by simpa using hFound)]
        simp [redactEntry, hSame, hText]
      · have hOther : (redactEntry lower repr entry).1 ≠ .str text := by
          rw [redactEntry, ← hKey]
          exact hFound
        rw [List.map_cons, List.find?_cons_of_neg (by simpa using hOther), List.find?_cons_of_neg (by simpa using hFound)]
        exact hRest

/-- At such a place stands the redaction of what stood there before. -/
theorem at?_redactValue {v : PyValue} (h : Plain v) {path : List Step} (hPath : Shown lower path) {found : PyValue}
    (hFound : at? path v = some found) : at? path (redactValue lower repr v) = some (redactValue lower repr found) := by
  induction path generalizing v with
  | nil =>
      cases hFound
      rfl
  | cons step path ih =>
      have hRest : Shown lower path := fun text hMem => hPath text (List.mem_cons_of_mem step hMem)
      have hItem {items : List PyValue} (hItems : ∀ item ∈ items, Plain item) {i : Nat}
          (hAt : items[i]?.bind (at? path) = some found) :
          (redactItems lower repr items)[i]?.bind (at? path) = some (redactValue lower repr found) := by
        obtain ⟨item, hItem, hInside⟩ := Option.bind_eq_some_iff.mp hAt
        rw [redactItems_eq, List.getElem?_map, hItem]
        exact ih (hItems item (List.mem_of_getElem? hItem)) hRest hInside
      cases h with
      | scalar value => cases step <;> cases hFound
      | list hItems =>
          cases step with
          | key text => cases hFound
          | index i =>
              rw [redactValue]
              exact hItem hItems hFound
      | tuple hItems =>
          cases step with
          | key text => cases hFound
          | index i =>
              rw [redactValue]
              exact hItem hItems hFound
      | @mapping entries hNodup hKeys hValues =>
          cases step with
          | index i => cases hFound
          | key text =>
              obtain ⟨value, hChild, hInside⟩ := Option.bind_eq_some_iff.mp hFound
              have hPlain : Plain value := by
                obtain ⟨entry, hEntry, rfl⟩ := Option.map_eq_some_iff.mp hChild
                exact hValues entry (List.mem_of_find?_eq_some hEntry)
              rw [redactValue_mapping hNodup hKeys, at?, child?_map_redactEntry hKeys (hPath text List.mem_cons_self),
                hChild]
              exact ih hPlain hRest hInside

/-- Redaction tells nothing of what stands under sensitive keys, whatever the
order of the entries of a mapping, and keeps every other scalar in its place. -/
theorem redaction_hides_and_keeps (lower : PyStr → PyStr) (repr : PyValue → PyStr) (key : Option PyStr) :
    (∀ v w, Agree (fun text => isSensitiveKey lower text = true) Eq v w →
      redactSensitiveData lower repr key v = redactSensitiveData lower repr key w) ∧
    (∀ v w, Agree (fun text => isSensitiveKey lower text = true) List.Perm v w →
      Agree (fun _ => False) List.Perm (redactSensitiveData lower repr key v) (redactSensitiveData lower repr key w)) ∧
    (key.any (isSensitiveKey lower) = true →
      ∀ v w, redactSensitiveData lower repr key v = redactSensitiveData lower repr key w) ∧
    (key.any (isSensitiveKey lower) = false → ∀ v, Plain v → ∀ path scalar, Shown lower path →
      at? path v = some (.scalar scalar) → at? path (redactSensitiveData lower repr key v) = some (.scalar scalar)) := by
  unfold redactSensitiveData
  cases hKey : key.any (isSensitiveKey lower) with
  | true =>
      refine ⟨fun _ _ _ => rfl, fun _ _ _ => .scalar _, fun _ _ _ => rfl, nofun⟩
  | false =>
      refine ⟨fun v w h => ?_, fun v w h => ?_, nofun, fun _ v hPlain path scalar hPath hFound => ?_⟩
      · refine eq_of_agree (agree_redactValue (fun xs zs hSame => ?_) h)
        subst hSame
        exact ⟨List.Perm.refl xs, rfl⟩
      · exact agree_redactValue (fun xs zs hPerm => ⟨hPerm, hPerm.map _⟩) h
      · have hKept := @at?_redactValue lower repr v hPlain path hPath (.scalar scalar) hFound
        rwa [redactValue] at hKept

end Redaction

/-- A login event with its session token. -/
def loginEvent (token : PyStr) : PyValue :=
  .mapping [(.str (py "user"), .scalar (.str (py "admin"))), (.str (py "Session-Token"), .list [.scalar (.str token)])]

theorem redaction_sample :
    redactSensitiveData (List.map asciiLower) (fun _ => []) none (loginEvent (py "first")) =
      redactSensitiveData (List.map asciiLower) (fun _ => []) none (loginEvent (py "second")) := by
  refine (redaction_hides_and_keeps (List.map asciiLower) (fun _ => []) none).1 _ _ ?_
  refine .mapping (by decide) (by simp [Key.text]) rfl rfl fun i x y hx hy hShown => ?_
  match i with
  | 0 =>
      cases hx
      cases hy
      exact .scalar _
  | 1 =>
      cases hx
      exact (hShown (by decide)).elim
  | i + 2 => cases hx

end SoftwareHub.Core
