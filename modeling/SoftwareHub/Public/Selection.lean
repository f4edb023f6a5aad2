import Mathlib.Data.Set.Card
import SoftwareHub.Public.Search

/-! Which software `list_page` selects. The text of a query and the tag slugs are
looked for in one row of the join, that is, in one and the same tag. -/
namespace SoftwareHub.Public

open SoftwareHub.Python SoftwareHub.Catalog SoftwareHub.Semantics

/-- The text occurs, ASCII letters in either case. -/
def Occurs (query text : PyStr) : Prop := sqlLower query <:+: sqlLower text

instance (query text : PyStr) : Decidable (Occurs query text) := inferInstanceAs (Decidable (_ <:+: _))

/-- What `LIKE` finds. It reads a text up to its first NUL. A query with a NUL
is read up to it, too, so that the closing `%` is lost and it is only found at
the end of what is read of a text. -/
def Found (query text : PyStr) : Prop :=
  if 0 ∈ query then sqlLower (cString query) <:+ sqlLower (cString text)
  else sqlLower query <:+: sqlLower (cString text)

instance (query text : PyStr) : Decidable (Found query text) := inferInstanceAs (Decidable (ite _ _ _))

/-- One of the texts searched, other than the names of the tags: a field of the
software or the name of its category. -/
def OwnText (P : PyStr → Prop) (database : Database) (filters : SoftwareFilters) (software : Software) : Prop :=
  P software.name ∨ P software.shortDescription ∨ (∃ name ∈ software.developerName, P name) ∨
    ∃ category ∈ database.category software,
      (filters.publicFacetsOnly = true → category.isVisible = true) ∧ P category.name

variable (unicode : Unicode)

/-- The tag is one of those that the filters name. -/
def HasTagSlug (filters : SoftwareFilters) (tag : Tag) : Prop := tag.slug ∈ filters.tagSlugs.map (normalizeSlug unicode)

/-- The filters that read no tag. -/
structure MatchesColumns (database : Database) (filters : SoftwareFilters) (software : Software) : Prop where
  category : ∀ slug ∈ filters.categorySlug, ∃ category ∈ database.category software,
    category.slug = normalizeSlug unicode slug ∧ (filters.publicFacetsOnly = true → category.isVisible = true)
  status : filters.statuses ≠ [] → software.status ∈ filters.statuses
  visibility : filters.visibilities ≠ [] → software.visibility ∈ filters.visibilities
  featured : ∀ isFeatured ∈ filters.isFeatured, software.isFeatured = isFeatured

/-- All given conditions, independently of each other, as the filters are meant. -/
structure Matches (database : Database) (filters : SoftwareFilters) (normalizedQuery : Option PyStr)
    (software : Software) : Prop extends MatchesColumns unicode database filters software where
  text : ∀ query ∈ normalizedQuery, OwnText (Occurs query) database filters software ∨
    ∃ tag ∈ database.tagsOf software, Occurs query tag.name
  tags : filters.tagSlugs ≠ [] → ∃ tag ∈ database.tagsOf software, HasTagSlug unicode filters tag

theorem replaceChar_cons (c d : Nat) (replacement value : PyStr) :
    replaceChar c replacement (d :: value) = (if d = c then replacement else [d]) ++ replaceChar c replacement value := rfl

theorem replaceChar_append (c : Nat) (replacement first second : PyStr) :
    replaceChar c replacement (first ++ second) = replaceChar c replacement first ++ replaceChar c replacement second :=
  List.flatMap_append

/-- The three replacements escape each special character once: the backslash goes
first. -/
theorem escapeLike_eq (value : PyStr) : escapeLike value = value.flatMap (escapeChar sqlWildcards) := by
  induction value with
  | nil => rfl
  | cons c value ih =>
      have hChar : replaceChar 0x5F (py "\\_") (replaceChar 0x25 (py "\\%") (if c = 0x5C then py "\\\\" else [c])) =
          escapeChar sqlWildcards c := by
        by_cases hBackslash : c = 0x5C
        · subst hBackslash
          decide
        · by_cases hPercent : c = 0x25
          · subst hPercent
            decide
          · by_cases hUnderscore : c = 0x5F
            · subst hUnderscore
              decide
            · simp [replaceChar, escapeChar, sqlWildcards, hBackslash, hPercent, hUnderscore]
      rw [List.flatMap_cons, ← ih, ← hChar]
      simp only [escapeLike, replaceChar_cons, replaceChar_append]

/-- `lower` leaves the special characters alone. -/
theorem sqlLower_escape (value : PyStr) :
    sqlLower (value.flatMap (escapeChar sqlWildcards)) = (sqlLower value).flatMap (escapeChar sqlWildcards) := by
  induction value with
  | nil => rfl
  | cons c value ih =>
      have hChar : sqlLower (escapeChar sqlWildcards c) = escapeChar sqlWildcards (asciiLower c) := by
        by_cases hSpecial : c = sqlWildcards.any ∨ c = sqlWildcards.one ∨ c = sqlWildcards.escape
        · rcases hSpecial with rfl | rfl | rfl <;> decide
        · have hLower : ¬(asciiLower c = sqlWildcards.any ∨ asciiLower c = sqlWildcards.one ∨
              asciiLower c = sqlWildcards.escape) := by
            simp only [sqlWildcards, asciiLower] at hSpecial ⊢
            split_ifs <;> omega
          rw [escapeChar, escapeChar, if_neg hSpecial, if_neg hLower]
          rfl
      simp only [List.flatMap_cons, sqlLower, List.map_append, List.map_cons] at ih hChar ⊢
      rw [hChar, ih]

theorem asciiLower_idem (c : Nat) : asciiLower (asciiLower c) = asciiLower c := by
  simp only [asciiLower]
  split_ifs <;> omega

theorem cString_of_not_mem {text : PyStr} (h : 0 ∉ text) : cString text = text := by
  rw [cString, List.takeWhile_eq_self_iff]
  intro c hc
  exact decide_eq_true fun hZero => h (hZero ▸ hc)

theorem cString_append {front : PyStr} (h : 0 ∈ front) (rest : PyStr) : cString (front ++ rest) = cString front := by
  induction front with
  | nil => cases h
  | cons c front ih =>
      rw [List.cons_append, cString, cString, List.takeWhile_cons, List.takeWhile_cons]
      split_ifs with hChar
      · have hFront : 0 ∈ front := (List.mem_cons.mp h).resolve_left fun hZero => of_decide_eq_true hChar hZero.symm
        exact congrArg (c :: ·) (ih hFront)
      · rfl

theorem mem_cString {c : Nat} {text : PyStr} (h : c ∈ cString text) : c ≠ 0 := by
  have hKept : decide (c ≠ 0) = true := @List.mem_takeWhile_imp _ (fun c => decide (c ≠ 0)) text c h
  exact of_decide_eq_true hKept

/-- `lower` keeps the NULs where they are. -/
theorem asciiLower_eq_zero (c : Nat) : asciiLower c = 0 ↔ c = 0 := by
  unfold asciiLower
  split_ifs with hUpper
  · exact iff_of_false not_false (by omega)
  · rfl

theorem cString_sqlLower (text : PyStr) : cString (sqlLower text) = sqlLower (cString text) := by
  rw [cString, sqlLower, List.takeWhile_map, sqlLower, cString]
  congr 2
  funext c
  simp [asciiLower_eq_zero]

/-- The escaping keeps the NULs where they are, too. -/
theorem cString_escape (text : PyStr) :
    cString (text.flatMap (escapeChar sqlWildcards)) = (cString text).flatMap (escapeChar sqlWildcards) := by
  induction text with
  | nil => rfl
  | cons c text ih =>
      by_cases hZero : c = 0
      · subst hZero
        rfl
      · have hChar : ∀ other ∈ escapeChar sqlWildcards c, decide (other ≠ 0) = true := by
          unfold escapeChar
          split_ifs <;> simp [hZero, sqlWildcards]
        have hHead : cString (c :: text) = c :: cString text := List.takeWhile_cons_of_pos (decide_eq_true hZero)
        rw [List.flatMap_cons, cString, List.takeWhile_append_of_pos hChar, ← cString, ih, hHead, List.flatMap_cons]

theorem zero_mem_escape {text : PyStr} (h : 0 ∈ text) : 0 ∈ text.flatMap (escapeChar sqlWildcards) := by
  refine List.mem_flatMap.mpr ⟨0, h, ?_⟩
  decide

/-- The pattern, lowered, around an escaped text. -/
theorem sqlLower_pattern (query : PyStr) : sqlLower (py "%" ++ escapeLike query ++ py "%") =
    sqlWildcards.any :: ((sqlLower query).flatMap (escapeChar sqlWildcards) ++ [sqlWildcards.any]) := by
  have hPercent : sqlLower (py "%") = [sqlWildcards.any] := by decide
  rw [escapeLike_eq, ← sqlLower_escape, sqlLower, List.map_append, List.map_append]
  change sqlLower (py "%") ++ _ ++ sqlLower (py "%") = _
  rw [hPercent]
  rfl

theorem map_asciiLower_sqlLower (text : PyStr) : (sqlLower text).map asciiLower = sqlLower text := by
  simp [sqlLower, Function.comp_def, asciiLower_idem]

/-- An escaped text between two `%` is found where `LIKE` reads it. -/
theorem ilike_iff (column query : PyStr) :
    ilike column (py "%" ++ escapeLike query ++ py "%") = true ↔ Found query column := by
  have hEscape : sqlWildcards.escape ≠ sqlWildcards.any := by decide
  rw [ilike, sqlLower_pattern, cString_sqlLower column, Found]
  by_cases hNul : 0 ∈ query
  · have hLowered : 0 ∈ sqlLower query := List.mem_map.mpr ⟨0, hNul, rfl⟩
    have hPattern : cString (sqlWildcards.any :: ((sqlLower query).flatMap (escapeChar sqlWildcards) ++ [sqlWildcards.any])) =
        sqlWildcards.any :: (sqlLower (cString query)).flatMap (escapeChar sqlWildcards) := by
      rw [← List.cons_append, cString_append (List.mem_cons_of_mem _ (zero_mem_escape hLowered)), ← cString_sqlLower,
        ← cString_escape]
      rfl
    rw [if_pos hNul, hPattern, like_ends hEscape, map_asciiLower_sqlLower, map_asciiLower_sqlLower]
  · have hLowered : 0 ∉ sqlLower query := by
      intro hZero
      obtain ⟨c, hc, hFold⟩ := List.mem_map.mp hZero
      exact hNul ((asciiLower_eq_zero c).mp hFold ▸ hc)
    have hPattern : cString (sqlWildcards.any :: ((sqlLower query).flatMap (escapeChar sqlWildcards) ++ [sqlWildcards.any])) =
        sqlWildcards.any :: ((sqlLower query).flatMap (escapeChar sqlWildcards) ++ [sqlWildcards.any]) := by
      apply cString_of_not_mem
      intro hZero
      have hEscaped := cString_escape (sqlLower query)
      rw [cString_of_not_mem hLowered] at hEscaped
      rw [← hEscaped] at hZero
      rcases List.mem_cons.mp hZero with hAny | hZero
      · exact absurd hAny (by decide)
      · rcases List.mem_append.mp hZero with hText | hAny
        · exact mem_cString hText rfl
        · exact absurd hAny (by decide)
    rw [if_neg hNul, hPattern, like_contains hEscape, map_asciiLower_sqlLower, map_asciiLower_sqlLower]

/-- An escaped text stands for itself: between two `%` it matches where it
occurs, and alone it matches its own letters and nothing else. -/
theorem escapeLike_exact (query text : PyStr) :
    (like sqlWildcards asciiLower (py "%" ++ escapeLike query ++ py "%") text = true ↔
        query.map asciiLower <:+: text.map asciiLower) ∧
      (like sqlWildcards asciiLower (sqlLower (py "%" ++ escapeLike query ++ py "%")) (sqlLower text) = true ↔
        query.map asciiLower <:+: text.map asciiLower) ∧
      (like sqlWildcards asciiLower (escapeLike query) text = true ↔ query.map asciiLower = text.map asciiLower) := by
  have hEscape : sqlWildcards.escape ≠ sqlWildcards.any := by decide
  refine ⟨?_, ?_, ?_⟩
  · have hPattern : py "%" ++ escapeLike query ++ py "%" =
        sqlWildcards.any :: (query.flatMap (escapeChar sqlWildcards) ++ [sqlWildcards.any]) := by
      rw [escapeLike_eq]
      rfl
    rw [hPattern]
    exact like_contains hEscape query text
  · rw [sqlLower_pattern, like_contains hEscape, map_asciiLower_sqlLower, map_asciiLower_sqlLower]
    rfl
  · rw [escapeLike_eq]
    exact like_escape hEscape query text

/-- The category row beside a software entry is the one that it belongs to. -/
theorem mem_outerMatches_category (database : Database) (software : Software) (category : Option Category) :
    category ∈ outerMatches (fun category => software.categoryId = some category.id) database.categories ↔
      category = database.category software := by
  have hKey : (database.categories.map (·.id)).Nodup := database.category_keys.imp Nat.ne_of_lt
  rw [Database.category]
  cases hId : software.categoryId with
  | none =>
      cases category with
      | none => simp [mem_outerMatches_none]
      | some category => simp [mem_outerMatches_some]
  | some id =>
      rw [Option.bind_some]
      cases category with
      | none =>
          rw [mem_outerMatches_none, eq_comm, List.find?_eq_none]
          simp [eq_comm]
      | some category =>
          rw [mem_outerMatches_some, @eq_comm _ (some category), find?_eq_some_iff_of_nodup hKey]
          simp [eq_comm]

/-- The tag rows beside a software entry, or one without a tag. -/
def tagRows (database : Database) (software : Software) : List (Option Tag) :=
  (outerMatches (fun row => row.softwareId = software.id) database.softwareTags).flatMap fun softwareTag =>
    outerMatches (fun tag => softwareTag.any fun row => row.tagId = tag.id) database.tags

theorem mem_tagsOf {database : Database} {software : Software} {tag : Tag} :
    tag ∈ database.tagsOf software ↔ tag ∈ database.tags ∧
      ∃ row ∈ database.softwareTags, row.softwareId = software.id ∧ row.tagId = tag.id := by
  simp [Database.tagsOf]

theorem some_mem_tagRows {database : Database} {software : Software} {tag : Tag} :
    some tag ∈ tagRows database software ↔ tag ∈ database.tagsOf software := by
  rw [mem_tagsOf, tagRows, List.mem_flatMap]
  constructor
  · rintro ⟨softwareTag, hRow, hBeside⟩
    obtain ⟨hTag, hOn⟩ := mem_outerMatches_some.mp hBeside
    cases softwareTag with
    | none => cases hOn
    | some row =>
        obtain ⟨hPair, hSoftware⟩ := mem_outerMatches_some.mp hRow
        exact ⟨hTag, row, hPair, of_decide_eq_true hSoftware, of_decide_eq_true hOn⟩
  · rintro ⟨hTag, row, hRow, hSoftware, hId⟩
    exact ⟨some row, mem_outerMatches_some.mpr ⟨hRow, decide_eq_true hSoftware⟩,
      mem_outerMatches_some.mpr ⟨hTag, decide_eq_true hId⟩⟩

/-- What holds without a tag holds for some row; what needs a tag holds for a tag of the software. -/
theorem exists_tagRow_iff {database : Database} {software : Software} {P : Option Tag → Prop}
    (h : P none → ∀ tag, P (some tag)) :
    (∃ tag ∈ tagRows database software, P tag) ↔ P none ∨ ∃ tag ∈ database.tagsOf software, P (some tag) := by
  constructor
  · rintro ⟨tag, hTag, hP⟩
    cases tag with
    | none => exact .inl hP
    | some tag => exact .inr ⟨tag, some_mem_tagRows.mp hTag, hP⟩
  · rintro (hP | ⟨tag, hTag, hP⟩)
    · obtain ⟨softwareTag, hRow⟩ := exists_mem_outerMatches (fun row => decide (row.softwareId = software.id))
        database.softwareTags
      obtain ⟨tag, hTag⟩ := exists_mem_outerMatches (fun tag : Tag => softwareTag.any fun row => row.tagId = tag.id)
        database.tags
      refine ⟨tag, List.mem_flatMap.mpr ⟨softwareTag, hRow, hTag⟩, ?_⟩
      cases tag with
      | none => exact hP
      | some tag => exact h hP tag
    · exact ⟨some tag, some_mem_tagRows.mpr hTag, hP⟩

/-- The part of the `WHERE` clause that reads the tag row. -/
structure SelectsTag (database : Database) (filters : SoftwareFilters) (normalizedQuery : Option PyStr)
    (software : Software) (tag : Option Tag) : Prop where
  text : ∀ query ∈ normalizedQuery, OwnText (Found query) database filters software ∨ ∃ row ∈ tag, Found query row.name
  slug : filters.tagSlugs ≠ [] → ∃ row ∈ tag, HasTagSlug unicode filters row

/-- The `WHERE` clause in its two parts. -/
theorem selects_iff (database : Database) (filters : SoftwareFilters) (normalizedQuery : Option PyStr)
    (software : Software) (softwareTag : Option SoftwareTag) (tag : Option Tag) :
    selects unicode filters normalizedQuery ⟨software, database.category software, softwareTag, tag⟩ = true ↔
      MatchesColumns unicode database filters software ∧
        SelectsTag unicode database filters normalizedQuery software tag := by
  have hText (query : PyStr) : (ilike software.name (py "%" ++ escapeLike query ++ py "%") ||
      ilike software.shortDescription (py "%" ++ escapeLike query ++ py "%") ||
      software.developerName.any (ilike · (py "%" ++ escapeLike query ++ py "%")) ||
      (database.category software).any (fun category => (!filters.publicFacetsOnly || category.isVisible) &&
        ilike category.name (py "%" ++ escapeLike query ++ py "%")) ||
      tag.any (fun tag => ilike tag.name (py "%" ++ escapeLike query ++ py "%"))) = true ↔
        OwnText (Found query) database filters software ∨ ∃ row ∈ tag, Found query row.name := by
    simp only [Bool.or_eq_true, Bool.and_eq_true, Option.any_eq_true, ilike_iff, OwnText, or_assoc,
      Bool.not_eq_true', Option.mem_def, imp_iff_not_or, Bool.not_eq_true]
  have hCategory (slug : PyStr) : (database.category software).any (fun category =>
      category.slug = normalizeSlug unicode slug && (!filters.publicFacetsOnly || category.isVisible)) = true ↔
        ∃ category ∈ database.category software, category.slug = normalizeSlug unicode slug ∧
          (filters.publicFacetsOnly = true → category.isVisible = true) := by
    simp only [Option.any_eq_true, Bool.and_eq_true, Bool.or_eq_true, decide_eq_true_eq, Bool.not_eq_true',
      Option.mem_def, imp_iff_not_or, Bool.not_eq_true]
  have hTags : (filters.tagSlugs = [] || tag.any fun tag => tag.slug ∈ filters.tagSlugs.map (normalizeSlug unicode)) = true ↔
      (filters.tagSlugs ≠ [] → ∃ row ∈ tag, HasTagSlug unicode filters row) := by
    simp only [Option.any_eq_true, Bool.or_eq_true, decide_eq_true_eq, Option.mem_def, HasTagSlug, ne_eq,
      imp_iff_not_or, not_not]
  have hGiven {α : Type} [DecidableEq α] (values : List α) (value : α) :
      (values = [] || value ∈ values) = true ↔ (values ≠ [] → value ∈ values) := by
    simp only [Bool.or_eq_true, decide_eq_true_eq, ne_eq, imp_iff_not_or, not_not]
  simp only [selects, Bool.and_eq_true, Option.all_eq_true, hText, hCategory, hTags, hGiven, decide_eq_true_eq]
  constructor
  · rintro ⟨⟨⟨⟨⟨hQuery, hSlug⟩, hTag⟩, hStatus⟩, hVisibility⟩, hFeatured⟩
    exact ⟨⟨hSlug, hStatus, hVisibility, hFeatured⟩, ⟨hQuery, hTag⟩⟩
  · rintro ⟨⟨hSlug, hStatus, hVisibility, hFeatured⟩, ⟨hQuery, hTag⟩⟩
    exact ⟨⟨⟨⟨⟨hQuery, hSlug⟩, hTag⟩, hStatus⟩, hVisibility⟩, hFeatured⟩

/-- Without a tag row the text has to occur elsewhere and no slug may be asked for. -/
theorem selectsTag_none_iff {database : Database} {filters : SoftwareFilters} {normalizedQuery : Option PyStr}
    {software : Software} : SelectsTag unicode database filters normalizedQuery software none ↔
      (∀ query ∈ normalizedQuery, OwnText (Found query) database filters software) ∧ filters.tagSlugs = [] := by
  constructor
  · intro h
    constructor
    · intro query hQuery
      rcases h.text query hQuery with hOwn | ⟨row, hRow, -⟩
      · exact hOwn
      · cases hRow
    · by_contra hSlugs
      obtain ⟨row, hRow, -⟩ := h.slug hSlugs
      cases hRow
  · rintro ⟨hText, hSlugs⟩
    exact ⟨fun query hQuery => .inl (hText query hQuery), fun hNe => (hNe hSlugs).elim⟩

/-- An entry is selected when its columns match and one of its tag rows does. -/
theorem mem_selection {database : Database} {filters : SoftwareFilters} {normalizedQuery : Option PyStr}
    {software : Software} : software ∈ selection unicode database filters normalizedQuery ↔
      software ∈ database.software ∧ MatchesColumns unicode database filters software ∧
        (SelectsTag unicode database filters normalizedQuery software none ∨
          ∃ tag ∈ database.tagsOf software, SelectsTag unicode database filters normalizedQuery software (some tag)) := by
  have hCategory (softwareTag : Option SoftwareTag) (tag : Option Tag) :
      (∃ category ∈ (if filters.categorySlug.isSome || normalizedQuery.isSome then
        outerMatches (fun category => software.categoryId = some category.id) database.categories else [none]),
        selects unicode filters normalizedQuery ⟨software, category, softwareTag, tag⟩ = true) ↔
      MatchesColumns unicode database filters software ∧ SelectsTag unicode database filters normalizedQuery software tag := by
    rw [← selects_iff unicode database filters normalizedQuery software softwareTag tag]
    cases hJoined : filters.categorySlug.isSome || normalizedQuery.isSome with
    | true => simp [mem_outerMatches_category]
    | false =>
        -- the category column is not read then
        simp only [Bool.or_eq_false_iff, Option.isSome_eq_false_iff, Option.isNone_iff_eq_none] at hJoined
        simp [selects, hJoined]
  have hTags : (∃ softwareTag ∈ (if filters.tagSlugs ≠ [] || normalizedQuery.isSome then
        outerMatches (fun row => row.softwareId = software.id) database.softwareTags else [none]),
        ∃ tag ∈ (if filters.tagSlugs ≠ [] || normalizedQuery.isSome then
          outerMatches (fun tag => softwareTag.any fun row => row.tagId = tag.id) database.tags else [none]),
          SelectsTag unicode database filters normalizedQuery software tag) ↔
      SelectsTag unicode database filters normalizedQuery software none ∨
        ∃ tag ∈ database.tagsOf software, SelectsTag unicode database filters normalizedQuery software (some tag) := by
    cases hJoined : decide (filters.tagSlugs ≠ []) || normalizedQuery.isSome with
    | true =>
        rw [← exists_tagRow_iff]
        · simp only [tagRows, List.mem_flatMap, if_true]
          constructor
          · rintro ⟨softwareTag, hRow, tag, hTag, hSelects⟩
            exact ⟨tag, ⟨softwareTag, hRow, hTag⟩, hSelects⟩
          · rintro ⟨tag, ⟨softwareTag, hRow, hTag⟩, hSelects⟩
            exact ⟨softwareTag, hRow, tag, hTag, hSelects⟩
        · intro hNone tag
          obtain ⟨hText, hSlugs⟩ := (selectsTag_none_iff unicode).mp hNone
          exact ⟨fun query hQuery => .inl (hText query hQuery), fun hNe => (hNe hSlugs).elim⟩
    | false =>
        simp only [Bool.or_eq_false_iff, decide_eq_false_iff_not, not_not, Option.isSome_eq_false_iff,
          Option.isNone_iff_eq_none] at hJoined
        have hNone : SelectsTag unicode database filters normalizedQuery software none :=
          (selectsTag_none_iff unicode).mpr ⟨fun query hQuery => by simp [hJoined] at hQuery, hJoined.1⟩
        simp [hNone]
  rw [← hTags, selection, List.mem_dedup, List.mem_map]
  constructor
  · rintro ⟨row, hRow, rfl⟩
    obtain ⟨hRow, hSelects⟩ := List.mem_filter.mp hRow
    simp only [joinedRows, List.mem_flatMap, List.mem_map] at hRow
    obtain ⟨software, hSoftware, category, hBeside, softwareTag, hPair, tag, hTag, rfl⟩ := hRow
    obtain ⟨hColumns, hSelectsTag⟩ := (hCategory softwareTag tag).mp ⟨category, hBeside, hSelects⟩
    exact ⟨hSoftware, hColumns, softwareTag, hPair, tag, hTag, hSelectsTag⟩
  · rintro ⟨hSoftware, hColumns, softwareTag, hPair, tag, hTag, hSelectsTag⟩
    obtain ⟨category, hBeside, hSelects⟩ := (hCategory softwareTag tag).mpr ⟨hColumns, hSelectsTag⟩
    refine ⟨⟨software, category, softwareTag, tag⟩, List.mem_filter.mpr ⟨?_, hSelects⟩, rfl⟩
    simp only [joinedRows, List.mem_flatMap, List.mem_map]
    exact ⟨software, hSoftware, category, hBeside, softwareTag, hPair, tag, hTag, rfl⟩

/-- No entry is selected twice, however many of its tags match. -/
theorem nodup_selection (database : Database) (filters : SoftwareFilters) (normalizedQuery : Option PyStr) :
    (selection unicode database filters normalizedQuery).Nodup := List.nodup_dedup _

/-- A page of a listing whose query is accepted. -/
theorem listPage_eq_ok {database : Database} {filters : SoftwareFilters} {normalizedQuery : Option PyStr}
    (hQuery : normalizeSearchQuery filters.query = .ok normalizedQuery) (engine : Engine database filters)
    (pagination : Pagination) : listPage unicode database filters engine pagination =
      .ok (paginateScalars engine.arrange (selection unicode database filters normalizedQuery) pagination) := by
  rw [listPage, hQuery]
  rfl

/-- The rows selected, before paging, are those that satisfy every filter, each once, and they are counted. -/
structure SelectsMatching (database : Database) (filters : SoftwareFilters) (normalizedQuery : Option PyStr) : Prop where
  once : (selection unicode database filters normalizedQuery).Nodup
  matching : ∀ software, software ∈ selection unicode database filters normalizedQuery ↔
    software ∈ database.software ∧ Matches unicode database filters normalizedQuery software
  total : ∀ (engine : Engine database filters) (pagination : Pagination) (page : Page Software),
    listPage unicode database filters engine pagination = .ok page →
      page.total = {software | software ∈ database.software ∧ Matches unicode database filters normalizedQuery software}.ncard

/-- `LIKE` finds the text in one of the own texts, or in a tag, which has to be one with a slug that is asked for. -/
def TextIsFound (database : Database) (filters : SoftwareFilters) (query : PyStr) (software : Software) : Prop :=
  OwnText (Found query) database filters software ∨
    ∃ tag ∈ database.tagsOf software, Found query tag.name ∧ (filters.tagSlugs ≠ [] → HasTagSlug unicode filters tag)

/-- The filters other than the text. -/
def MatchesOthers (database : Database) (filters : SoftwareFilters) (software : Software) : Prop :=
  MatchesColumns unicode database filters software ∧
    (filters.tagSlugs ≠ [] → ∃ tag ∈ database.tagsOf software, HasTagSlug unicode filters tag)

/-- Given a query, in the software that the other filters leave `LIKE` finds the text, with a tag slug beside it
where it is found in a tag, exactly where one of the texts or any tag contains it. -/
def FoundWhereItOccurs (database : Database) (filters : SoftwareFilters) (normalizedQuery : Option PyStr) : Prop :=
  ∀ query ∈ normalizedQuery, ∀ software ∈ database.software, MatchesOthers unicode database filters software →
    (TextIsFound unicode database filters query software ↔
      OwnText (Occurs query) database filters software ∨ ∃ tag ∈ database.tagsOf software, Occurs query tag.name)

/-- What is selected: the text is found, and the other filters hold. -/
theorem mem_selection_iff {database : Database} {filters : SoftwareFilters} {normalizedQuery : Option PyStr}
    {software : Software} : software ∈ selection unicode database filters normalizedQuery ↔
      software ∈ database.software ∧ MatchesOthers unicode database filters software ∧
        ∀ query ∈ normalizedQuery, TextIsFound unicode database filters query software := by
  rw [mem_selection, MatchesOthers]
  constructor
  · rintro ⟨hSoftware, hColumns, hNone | ⟨tag, hTag, hSelects⟩⟩
    · obtain ⟨hText, hSlugs⟩ := (selectsTag_none_iff unicode).mp hNone
      exact ⟨hSoftware, ⟨hColumns, fun hNe => (hNe hSlugs).elim⟩, fun query hQuery => .inl (hText query hQuery)⟩
    · have hSlug (hNe : filters.tagSlugs ≠ []) : HasTagSlug unicode filters tag := by
        obtain ⟨row, hRow, hSlug⟩ := hSelects.slug hNe
        exact Option.some.inj hRow ▸ hSlug
      refine ⟨hSoftware, ⟨hColumns, fun hNe => ⟨tag, hTag, hSlug hNe⟩⟩, ?_⟩
      intro query hQuery
      rcases hSelects.text query hQuery with hOwn | ⟨row, hRow, hFound⟩
      · exact .inl hOwn
      · exact .inr ⟨tag, hTag, Option.some.inj hRow ▸ hFound, hSlug⟩
  · rintro ⟨hSoftware, ⟨hColumns, hTags⟩, hText⟩
    refine ⟨hSoftware, hColumns, ?_⟩
    cases normalizedQuery with
    | none =>
        by_cases hSlugs : filters.tagSlugs = []
        · exact .inl ((selectsTag_none_iff unicode).mpr ⟨nofun, hSlugs⟩)
        · obtain ⟨tag, hTag, hSlug⟩ := hTags hSlugs
          exact .inr ⟨tag, hTag, nofun, fun _ => ⟨tag, rfl, hSlug⟩⟩
    | some query =>
        rcases hText query rfl with hOwn | ⟨tag, hTag, hFound, hSlug⟩
        · by_cases hSlugs : filters.tagSlugs = []
          · exact .inl ((selectsTag_none_iff unicode).mpr ⟨fun other hOther => Option.some.inj hOther ▸ hOwn, hSlugs⟩)
          · obtain ⟨tag, hTag, hSlug⟩ := hTags hSlugs
            exact .inr ⟨tag, hTag, fun other hOther => .inl (Option.some.inj hOther ▸ hOwn), fun _ => ⟨tag, rfl, hSlug⟩⟩
        · exact .inr ⟨tag, hTag, fun other hOther => .inr ⟨tag, rfl, Option.some.inj hOther ▸ hFound⟩,
            fun hNe => ⟨tag, rfl, hSlug hNe⟩⟩

theorem matches_iff {database : Database} {filters : SoftwareFilters} {normalizedQuery : Option PyStr} {software : Software} :
    Matches unicode database filters normalizedQuery software ↔
      MatchesOthers unicode database filters software ∧ ∀ query ∈ normalizedQuery,
        OwnText (Occurs query) database filters software ∨ ∃ tag ∈ database.tagsOf software, Occurs query tag.name := by
  constructor
  · intro h
    exact ⟨⟨h.toMatchesColumns, h.tags⟩, h.text⟩
  · rintro ⟨⟨hColumns, hTags⟩, hText⟩
    exact ⟨hColumns, hText, hTags⟩

def sampleSoftware : Software where
  id := 1
  status := .published
  visibility := .isPublic
  publishedAt := none
  archivedAt := none
  name := py "Notepad"
  slug := py "notepad"
  shortDescription := py "A small editor"
  fullDescription := none
  developerName := none
  officialWebsiteUrl := none
  sourceUrl := none
  licenseName := none
  categoryId := some 1
  supportedOs := none
  systemRequirements := none
  isFeatured := false
  updatedAt := ⟨0, Instant.instantCount_pos⟩

def sampleDatabase : Database where
  software := [sampleSoftware]
  categories := [⟨1, py "Utilities", py "utilities", none, 0, true⟩]
  tags := [⟨1, py "Freeware", py "freeware"⟩, ⟨2, py "Portable", py "portable"⟩]
  softwareTags := [⟨1, 1⟩, ⟨1, 2⟩]
  releases := []
  files := []
  software_keys := by decide
  category_keys := by decide
  tag_keys := by decide
  softwareTag_keys := by decide
  release_keys := Database.empty.release_keys
  file_keys := Database.empty.file_keys
  software_slugs := by decide
  category_slugs := by decide
  tag_slugs := by decide
  file_text := Database.empty.file_text

/-- The text of one tag and the slug of the other. -/
def sampleFilters : SoftwareFilters := { query := some (py " Freeware "), tagSlugs := [py "portable"] }

end SoftwareHub.Public
