import SoftwareHub.Catalog.Slugs
import SoftwareHub.Public.Models
import SoftwareHub.Public.Pagination
import SoftwareHub.Python.Unicode
import SoftwareHub.Semantics.Like

/-! Catalog search: `SoftwareRepository.list_page` and what it builds on. SQLite's
`lower` and its `LIKE` fold ASCII letters only, and it compares text by code
points. -/
namespace SoftwareHub.Public

open SoftwareHub.Python SoftwareHub.Catalog SoftwareHub.Semantics

/-- The sort modes of a listing. -/
inductive SoftwareSort
  | name
  | updated
  | popularity
  deriving DecidableEq, Repr

/-- The filters of a listing. -/
structure SoftwareFilters where
  query : Option PyStr := none
  categorySlug : Option PyStr := none
  tagSlugs : List PyStr := []
  statuses : List SoftwareStatus := []
  visibilities : List Visibility := []
  sort : SoftwareSort := .updated
  isFeatured : Option Bool := none
  publicFacetsOnly : Bool := false
  deriving DecidableEq, Repr

/-- `" ".join(query.split())`. -/
def collapse (query : PyStr) : PyStr := List.intercalate [0x20] (words query)

/-- The query, collapsed and checked for its length. The error is the message of the
`ValueError`. -/
def normalizeSearchQuery : Option PyStr → Except String (Option PyStr)
  | none => .ok none
  | some query =>
      let normalized := collapse query
      if normalized = [] then .ok none
      else if normalized.length < 2 then .error "Search query must contain at least 2 characters."
      else if 100 < normalized.length then .error "Search query must not exceed 100 characters."
      else .ok (some normalized)

/-- `value.replace(c, replacement)` for a single character. -/
def replaceChar (c : Nat) (replacement value : PyStr) : PyStr := value.flatMap fun d => if d = c then replacement else [d]

/-- `_escape_like`: backslash, percent sign and underscore, in this order. -/
def escapeLike (value : PyStr) : PyStr :=
  replaceChar 0x5F (py "\\_") (replaceChar 0x25 (py "\\%") (replaceChar 0x5C (py "\\\\") value))

def sqlLower (text : PyStr) : PyStr := text.map asciiLower

/-- `%`, `_` and the escape character `\`. -/
def sqlWildcards : Wildcards Nat := ⟨0x25, 0x5F, 0x5C⟩

/-- The text up to its first NUL, which is all `LIKE` reads of either operand. -/
def cString (text : PyStr) : PyStr := text.takeWhile (· ≠ 0)

/-- `column.ilike(pattern, escape="\\")`, which is rendered as `lower(column) LIKE lower(pattern)`. -/
def ilike (column pattern : PyStr) : Bool :=
  like sqlWildcards asciiLower (cString (sqlLower pattern)) (cString (sqlLower column))

/-- One row of the joined tables. A table that is not joined gives no column. -/
structure JoinedRow where
  software : Software
  category : Option Category
  softwareTag : Option SoftwareTag
  tag : Option Tag

/-- The `FROM` clause: software with its category, its links to tags and its tags,
where the filters ask for them. -/
def joinedRows (database : Database) (joinsCategory joinsTags : Bool) : List JoinedRow :=
  database.software.flatMap fun software =>
    (if joinsCategory then outerMatches (fun category => software.categoryId = some category.id) database.categories
      else [none]).flatMap fun category =>
      (if joinsTags then outerMatches (fun row => row.softwareId = software.id) database.softwareTags
        else [none]).flatMap fun softwareTag =>
        (if joinsTags then outerMatches (fun tag => softwareTag.any fun row => row.tagId = tag.id) database.tags
          else [none]).map fun tag => ⟨software, category, softwareTag, tag⟩

section

variable (unicode : Unicode)

/-- `slug.strip().casefold()`, in which a slug is looked up. -/
def normalizeSlug (slug : PyStr) : PyStr := unicode.casefold (strip slug)

variable {unicode} in
/-- A stored slug is looked up as it is. -/
theorem normalizeSlug_of_isSlug (hFold : unicode.FoldsAscii) {slug : PyStr} (h : isSlug slug = true) :
    normalizeSlug unicode slug = slug := casefold_strip_of_isSlug hFold h

/-- The `WHERE` clause. A comparison with `NULL` selects nothing. -/
def selects (filters : SoftwareFilters) (normalizedQuery : Option PyStr) (row : JoinedRow) : Bool :=
  (normalizedQuery.all fun query =>
    let pattern := py "%" ++ escapeLike query ++ py "%"
    ilike row.software.name pattern ||
      ilike row.software.shortDescription pattern ||
      row.software.developerName.any (ilike · pattern) ||
      row.category.any (fun category => (!filters.publicFacetsOnly || category.isVisible) && ilike category.name pattern) ||
      row.tag.any (fun tag => ilike tag.name pattern)) &&
    (filters.categorySlug.all fun slug => row.category.any fun category =>
      category.slug = normalizeSlug unicode slug && (!filters.publicFacetsOnly || category.isVisible)) &&
    (filters.tagSlugs = [] || row.tag.any fun tag => tag.slug ∈ filters.tagSlugs.map (normalizeSlug unicode)) &&
    (filters.statuses = [] || row.software.status ∈ filters.statuses) &&
    (filters.visibilities = [] || row.software.visibility ∈ filters.visibilities) &&
    filters.isFeatured.all fun isFeatured => row.software.isFeatured = isFeatured

/-- `SELECT DISTINCT` of the software rows, in no particular order. -/
def selection (database : Database) (filters : SoftwareFilters) (normalizedQuery : Option PyStr) : List Software :=
  (((joinedRows database (filters.categorySlug.isSome || normalizedQuery.isSome)
    (filters.tagSlugs ≠ [] || normalizedQuery.isSome)).filter (selects unicode filters normalizedQuery)).map (·.software)).dedup

end

/-- The correlated sum of download counts, by which a listing may be sorted. -/
def popularity (database : Database) (publicFacetsOnly : Bool) (software : Software) : Nat :=
  ((database.files.flatMap fun file =>
    (database.releases.filter fun release => release.id = file.releaseId ∧ release.softwareId = software.id ∧
      (publicFacetsOnly → (release.status = .published ∨ release.status = .archived) ∧
        file.status = .published ∧ file.visibility = .isPublic)).map fun _ => file.downloadCount)).sum

/-- The `ORDER BY` key of the mode by name. -/
def nameKey (software : Software) : Lex (PyStr × Nat) := toLex (sqlLower software.name, software.id)

/-- That of the mode by the last update, which is read in descending order. -/
def updatedKey (software : Software) : Lex (Nat × Nat) := toLex (software.updatedAt.micros, software.id)

/-- That of the mode by popularity: the downloads, descending, and then the name
alone. -/
def popularityKey (database : Database) (publicFacetsOnly : Bool) (software : Software) : Lex (Natᵒᵈ × PyStr) :=
  toLex (OrderDual.toDual (popularity database publicFacetsOnly software), sqlLower software.name)

/-- `first` may stand before `second` by the keys of the mode. -/
def Ordered (database : Database) (filters : SoftwareFilters) (first second : Software) : Prop :=
  match filters.sort with
  | .name => nameKey first ≤ nameKey second
  | .popularity => popularityKey database filters.publicFacetsOnly first ≤ popularityKey database filters.publicFacetsOnly second
  | .updated => updatedKey second ≤ updatedKey first

/-- How the database engine orders the rows of a query. It may do as it likes with
tied rows. -/
abbrev Engine (database : Database) (filters : SoftwareFilters) := Arrangement (Ordered database filters)

/-- Counts the rows and cuts one page. -/
def paginateScalars (arrange : List Software → List Software) (rows : List Software) (pagination : Pagination) :
    Page Software where
  items := (((arrange rows).drop pagination.offset).take pagination.perPage).dedup
  total := rows.length
  page := pagination.page
  perPage := pagination.perPage

/-- `list_page`: the query is normalised, and a page of the selection returned with
its total. -/
def listPage (unicode : Unicode) (database : Database) (filters : SoftwareFilters) (engine : Engine database filters)
    (pagination : Pagination) : Except PyException (Page Software) := do
  let normalizedQuery ← (normalizeSearchQuery filters.query).mapError fun _ => PyException.valueError
  return paginateScalars engine.arrange (selection unicode database filters normalizedQuery) pagination

end SoftwareHub.Public
