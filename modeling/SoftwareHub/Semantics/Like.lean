import Mathlib.Data.List.Infix

/-! The `LIKE` of SQL with an `ESCAPE` character. Letters are compared after a
folding, as for a comparison that ignores case. -/
namespace SoftwareHub.Semantics

variable {α : Type} [DecidableEq α]

/-- The special characters of a pattern: one for any text, one for any character,
and the one that takes their meaning away. -/
structure Wildcards (α : Type) where
  any : α
  one : α
  escape : α

variable (w : Wildcards α) (fold : α → α)

/-- `text LIKE pattern ESCAPE escape`, by recursion over the pattern. -/
def like : List α → List α → Bool
  | [], text => text.isEmpty
  | p :: ps, text =>
      if p = w.any then text.tails.any (like ps)
      else if p = w.escape then
        match ps, text with
        | q :: ps, t :: text => fold q = fold t && like ps text
        | _, _ => false
      else
        match text with
        | t :: text => (p = w.one || fold p = fold t) && like ps text
        | [] => false

/-- A character as the pattern that only it matches, up to its case. -/
def escapeChar (c : α) : List α :=
  if c = w.any ∨ c = w.one ∨ c = w.escape then [w.escape, c] else [c]

variable {w fold}

theorem like_ordinary_nil {p : α} (ps : List α) (hAny : p ≠ w.any) (hEscape : p ≠ w.escape) :
    like w fold (p :: ps) [] = false := by
  cases ps <;> simp [like, hAny, hEscape]

theorem like_ordinary_cons {p : α} (ps : List α) (t : α) (text : List α) (hAny : p ≠ w.any) (hEscape : p ≠ w.escape) :
    like w fold (p :: ps) (t :: text) = ((p = w.one || fold p = fold t) && like w fold ps text) := by
  cases ps <;> simp [like, hAny, hEscape]

/-- A wildcard for any text tries every end of the text. -/
theorem like_any_cons (ps text : List α) :
    like w fold (w.any :: ps) text = text.tails.any (like w fold ps) := by
  cases ps <;> cases text <;> simp [like]

/-- An escaped character consumes one character that folds to the same, and nothing
else. -/
theorem like_escapeChar_append (hEscape : w.escape ≠ w.any) (c : α) (ps : List α) (text : List α) :
    like w fold (escapeChar w c ++ ps) text = true ↔
      ∃ t rest, text = t :: rest ∧ fold c = fold t ∧ like w fold ps rest = true := by
  by_cases hSpecial : c = w.any ∨ c = w.one ∨ c = w.escape
  · rw [escapeChar, if_pos hSpecial]
    cases text with
    | nil => simp [like, hEscape]
    | cons t text => simp [like, hEscape]
  · rw [escapeChar, if_neg hSpecial, List.singleton_append]
    simp only [not_or] at hSpecial
    obtain ⟨hAny, hOne, hNotEscape⟩ := hSpecial
    cases text with
    | nil => simp [like_ordinary_nil, hAny, hNotEscape]
    | cons t text => simp [like_ordinary_cons, hAny, hOne, hNotEscape]

/-- An escaped text consumes a text of its own length that folds to the same. The
induction is on the text. -/
theorem like_escape_append (hEscape : w.escape ≠ w.any) (literal ps text : List α) :
    like w fold (literal.flatMap (escapeChar w) ++ ps) text = true ↔
      ∃ front rest, text = front ++ rest ∧ front.map fold = literal.map fold ∧ like w fold ps rest = true := by
  induction literal generalizing text with
  | nil => simp
  | cons c literal ih =>
      rw [List.flatMap_cons, List.append_assoc, like_escapeChar_append hEscape]
      constructor
      · rintro ⟨t, rest, rfl, hFold, hRest⟩
        obtain ⟨front, rest, rfl, hFront, hRest⟩ := (ih rest).mp hRest
        exact ⟨t :: front, rest, rfl, by rw [List.map_cons, List.map_cons, hFront, hFold], hRest⟩
      · rintro ⟨front, rest, rfl, hFront, hRest⟩
        cases front with
        | nil => cases hFront
        | cons t front =>
            rw [List.map_cons, List.map_cons, List.cons.injEq] at hFront
            exact ⟨t, front ++ rest, rfl, hFront.1.symm, (ih _).mpr ⟨front, rest, rfl, hFront.2, hRest⟩⟩

theorem like_any (ps text : List α) :
    like w fold (w.any :: ps) text = true ↔ ∃ front rest, text = front ++ rest ∧ like w fold ps rest = true := by
  rw [like_any_cons, List.any_eq_true]
  constructor
  · rintro ⟨rest, hRest, hLike⟩
    obtain ⟨front, rfl⟩ := (List.mem_tails _ _).mp hRest
    exact ⟨front, rest, rfl, hLike⟩
  · rintro ⟨front, rest, rfl, hLike⟩
    exact ⟨rest, (List.mem_tails _ _).mpr ⟨front, rfl⟩, hLike⟩

/-- Between two `%` an escaped text matches exactly where it occurs. -/
theorem like_contains (hEscape : w.escape ≠ w.any) (literal text : List α) :
    like w fold (w.any :: (literal.flatMap (escapeChar w) ++ [w.any])) text = true ↔
      literal.map fold <:+: text.map fold := by
  rw [like_any]
  constructor
  · rintro ⟨front, rest, rfl, hLike⟩
    obtain ⟨found, rest, rfl, hFound, -⟩ := (like_escape_append hEscape _ _ _).mp hLike
    rw [← hFound]
    exact ⟨front.map fold, rest.map fold, by simp⟩
  · rintro ⟨front, rest, hText⟩
    rw [List.append_assoc, eq_comm, List.map_eq_append_iff] at hText
    obtain ⟨front, tail, rfl, -, hTail⟩ := hText
    obtain ⟨found, rest, rfl, hFound, -⟩ := List.map_eq_append_iff.mp hTail
    refine ⟨front, found ++ rest, rfl, (like_escape_append hEscape _ _ _).mpr ⟨found, rest, rfl, hFound, ?_⟩⟩
    exact (like_any _ _).mpr ⟨rest, [], by simp, rfl⟩

/-- Alone an escaped text matches exactly the texts that fold to the same. -/
theorem like_escape (hEscape : w.escape ≠ w.any) (literal text : List α) :
    like w fold (literal.flatMap (escapeChar w)) text = true ↔ literal.map fold = text.map fold := by
  have hAlone := @like_escape_append α _ w fold hEscape literal [] text
  rw [List.append_nil] at hAlone
  rw [hAlone]
  constructor
  · rintro ⟨front, rest, hText, hFront, hRest⟩
    have hNil : rest = [] := List.isEmpty_iff.mp hRest
    rw [hText, hNil, List.append_nil]
    exact hFront.symm
  · intro h
    exact ⟨text, [], (List.append_nil text).symm, h.symm, rfl⟩

/-- Behind a `%` an escaped text matches exactly where it ends. -/
theorem like_ends (hEscape : w.escape ≠ w.any) (literal text : List α) :
    like w fold (w.any :: literal.flatMap (escapeChar w)) text = true ↔ literal.map fold <:+ text.map fold := by
  rw [like_any]
  constructor
  · rintro ⟨front, rest, rfl, hLike⟩
    rw [(like_escape hEscape literal rest).mp hLike]
    exact ⟨front.map fold, (List.map_append).symm⟩
  · rintro ⟨front, hText⟩
    obtain ⟨front, rest, rfl, -, hRest⟩ := List.map_eq_append_iff.mp hText.symm
    exact ⟨front, rest, rfl, (like_escape hEscape literal rest).mpr hRest.symm⟩

end SoftwareHub.Semantics
