import Mathlib.Data.List.Nodup

/-! Dictionaries as their items in insertion order: assignment, and building one
from a display, where a later item replaces the value of an earlier one but not its
place. -/
namespace SoftwareHub.Python

section Dict

variable {κ α : Type} [DecidableEq κ]

/-- `d[key] = value`: a key that is there keeps its place. -/
def dictSet (d : List (κ × α)) (key : κ) (value : α) : List (κ × α) :=
  if key ∈ d.map Prod.fst then d.map fun item => if item.1 = key then (key, value) else item
  else d ++ [(key, value)]

/-- A dictionary display: later items replace the values of earlier ones. -/
def dictOf (items : List (κ × α)) : List (κ × α) := items.foldl (fun d item => dictSet d item.1 item.2) []

/-- An assignment adds the key at the end, unless the dictionary has it. -/
theorem keys_dictSet (d : List (κ × α)) (key : κ) (value : α) :
    (dictSet d key value).map Prod.fst = if key ∈ d.map Prod.fst then d.map Prod.fst else d.map Prod.fst ++ [key] := by
  rw [dictSet]
  split_ifs with h
  · rw [List.map_map]
    refine List.map_congr_left fun item _ => ?_
    by_cases hKey : item.1 = key
    · simp [hKey]
    · simp [hKey]
  · simp

theorem nodup_dictSet {d : List (κ × α)} (h : (d.map Prod.fst).Nodup) (key : κ) (value : α) :
    ((dictSet d key value).map Prod.fst).Nodup := by
  rw [keys_dictSet]
  split_ifs with hKey
  · exact h
  · exact List.nodup_append.mpr ⟨h, List.nodup_singleton key, fun first hFirst second hSecond hEq =>
      hKey (List.mem_singleton.mp hSecond ▸ hEq ▸ hFirst)⟩

theorem length_dictSet_le (d : List (κ × α)) (key : κ) (value : α) : (dictSet d key value).length ≤ d.length + 1 := by
  rw [dictSet]
  split_ifs <;> simp

/-- The items after an assignment are old ones and the new one. -/
theorem mem_dictSet {d : List (κ × α)} {key : κ} {value : α} {item : κ × α} (h : item ∈ dictSet d key value) :
    item ∈ d ∨ item = (key, value) := by
  rw [dictSet] at h
  split_ifs at h with hKey
  · obtain ⟨old, hOld, rfl⟩ := List.mem_map.mp h
    split_ifs
    · exact Or.inr rfl
    · exact Or.inl hOld
  · rcases List.mem_append.mp h with h | h
    · exact Or.inl h
    · exact Or.inr (List.mem_singleton.mp h)

theorem dictSet_of_not_mem {d : List (κ × α)} {key : κ} (h : key ∉ d.map Prod.fst) (value : α) :
    dictSet d key value = d ++ [(key, value)] := if_neg h

/-- Items with different keys are a dictionary as they stand, in their order. -/
theorem dictOf_of_nodup {items : List (κ × α)} (h : (items.map Prod.fst).Nodup) : dictOf items = items := by
  have hFold (d : List (κ × α)) (hAll : ((d ++ items).map Prod.fst).Nodup) :
      items.foldl (fun d item => dictSet d item.1 item.2) d = d ++ items := by
    clear h
    induction items generalizing d with
    | nil => simp
    | cons item items ih =>
        have hNew : item.1 ∉ d.map Prod.fst := by
          rw [List.map_append, List.nodup_append] at hAll
          exact fun hMem => hAll.2.2 _ hMem item.1 (by simp) rfl
        rw [List.foldl_cons, dictSet_of_not_mem hNew, ih _ (by simpa using hAll)]
        simp
  exact hFold [] (by simpa using h)

end Dict
end SoftwareHub.Python
