import SoftwareHub.Public.Paging
import SoftwareHub.Public.Views

/-! The public pages: the facet queries of `PublicCatalogRepository`, and
`PublicCatalogService` over them. -/
namespace SoftwareHub.Public

open SoftwareHub.Python SoftwareHub.Catalog SoftwareHub.Semantics

/-- A path of the sitemap, with the time of the last change where there is one. -/
structure SitemapEntry where
  path : PyStr
  lastModified : Option Instant := none
  deriving DecidableEq

/-- What the home page shows. -/
structure PublicHomeView where
  categories : List CatalogFacet
  featured : List SoftwareCardView
  latest : List SoftwareCardView
  popular : List SoftwareCardView

/-- What a page of the catalog shows. -/
structure PublicCatalogView where
  page : Page SoftwareCardView
  categories : List CatalogFacet
  tags : List CatalogFacet
  query : PyStr
  category : Option CatalogFacet
  tag : Option CatalogFacet
  sort : PyStr

/-- The value of a sort mode, which stands in the links of the page. -/
def SoftwareSort.value : SoftwareSort → PyStr
  | name => py "name"
  | updated => py "updated"
  | popularity => py "popularity"

/-- `Software.status == PUBLISHED, Software.visibility == PUBLIC`. -/
def isListed (software : Software) : Bool := software.status = .published ∧ software.visibility = .isPublic

/-- Visible categories joined with their listed software. -/
def categoryRows (database : Database) : List (Category × Software) :=
  (database.categories.filter (·.isVisible)).flatMap fun category =>
    (database.software.filter fun software => software.categoryId = some category.id ∧ isListed software).map (category, ·)

/-- The order of the category facets. -/
def categoryKey (row : Category × Nat) : Lex (Nat × Lex (PyStr × Nat)) :=
  toLex (row.1.sortOrder, toLex (sqlLower row.1.name, row.1.id))

/-- `list_categories`: the visible categories that have listed software, in their
order, with the count of it. -/
def listCategories (database : Database) (limit : Nat) : List CatalogFacet :=
  (((countDistinct (·.1) (·.2.id) (categoryRows database)).insertionSort fun first second =>
    categoryKey first ≤ categoryKey second).take limit).map
      fun (category, count) => ⟨category.name, category.slug, category.description, count⟩

/-- Tags joined with the listed software they are attached to. -/
def listedTagRows (database : Database) : List (Tag × Software) :=
  database.tags.flatMap fun tag => (database.softwareTags.filter fun row => row.tagId = tag.id).flatMap fun row =>
    (database.software.filter fun software => software.id = row.softwareId ∧ isListed software).map (tag, ·)

/-- The order of the tag facets: the more entries, the earlier. -/
def tagKey (row : Tag × Nat) : Lex (Natᵒᵈ × Lex (PyStr × Nat)) :=
  toLex (OrderDual.toDual row.2, toLex (sqlLower row.1.name, row.1.id))

/-- The facet of a tag with its count. -/
def tagFacet (row : Tag × Nat) : CatalogFacet := ⟨row.1.name, row.1.slug, none, row.2⟩

/-- `list_tags`: the tags of listed software, with the number of listed entries of
each. -/
def listTags (database : Database) (limit : Nat) : List CatalogFacet :=
  (((countDistinct (·.1) (·.2.id) (listedTagRows database)).insertionSort fun first second =>
    tagKey first ≤ tagKey second).take limit).map tagFacet

/-- The order of the software in the sitemap. -/
def slugKey (software : Software) : Lex (PyStr × Nat) := toLex (sqlLower software.slug, software.id)

/-- `list_sitemap_entries`: the fixed pages, the visible categories, and the listed
software with its release pages. -/
def listSitemapEntries (database : Database) (limit : Nat) : List SitemapEntry :=
  [{ path := py "/" }, { path := py "/software" }] ++
    (listCategories database 1000).map (fun category => { path := py "/category/" ++ category.slug }) ++
    (((database.software.filter isListed).insertionSort fun first second => slugKey first ≤ slugKey second).take limit).flatMap
      fun software =>
        [{ path := py "/software/" ++ software.slug, lastModified := some software.updatedAt },
          { path := py "/software/" ++ software.slug ++ py "/releases", lastModified := some software.updatedAt }]

section

variable (unicode : Unicode) (upper : PyStr → PyStr)

/-- `get_category`: the facet of a visible category. -/
def getCategory (database : Database) (slug : PyStr) : Option CatalogFacet :=
  (database.categories.find? fun category => category.slug = normalizeSlug unicode slug ∧ category.isVisible).map
    fun category => ⟨category.name, category.slug, category.description,
      database.software.countP fun software => software.categoryId = some category.id ∧ isListed software⟩

/-- `one_or_none`: the slug of a tag is unique. -/
def getTag (database : Database) (slug : PyStr) : Option CatalogFacet :=
  (countDistinct (·.1) (·.2.id)
    ((listedTagRows database).filter fun row => row.1.slug = normalizeSlug unicode slug)).head?.map tagFacet

def getBySlug (database : Database) (slug : PyStr) : Option Software :=
  database.software.find? fun software => software.slug = normalizeSlug unicode slug

/-- How the database engine orders the rows of every query. -/
abbrev Engines : Type := ∀ (database : Database) (filters : SoftwareFilters), Engine database filters

/-- The filters every public listing starts from. -/
def listedFilters : SoftwareFilters where
  statuses := [.published]
  visibilities := [.isPublic]
  publicFacetsOnly := true

def featuredFilters : SoftwareFilters := { listedFilters with isFeatured := some true }

def popularFilters : SoftwareFilters := { listedFilters with sort := .popularity }

/-- `home`: the featured, the popular and the latest entries, and the category
facets. -/
def home (engines : Engines) (database : Database) : Except PyException PublicHomeView := do
  let featuredPage ← listPage unicode database featuredFilters (engines database _) (Pagination.first 6 (by decide))
  let latestPage ← listPage unicode database listedFilters (engines database _) (Pagination.first 8 (by decide))
  let popularPage ← listPage unicode database popularFilters (engines database _) (Pagination.first 8 (by decide))
  let featured ← featuredPage.items.mapM (softwareCard unicode upper database)
  let latest ← latestPage.items.mapM (softwareCard unicode upper database)
  let popular ← popularPage.items.mapM (softwareCard unicode upper database)
  return {
    categories := listCategories database 12
    featured := featured
    latest := latest
    popular := popular }

/-- `lookup(slug) if slug else None`, and the error for a slug that leads nowhere. -/
def requireFacet (lookup : PyStr → Option CatalogFacet) (message : String) :
    Option PyStr → Except PyException (Option CatalogFacet)
  | none => .ok none
  | some slug =>
      match (if slug = [] then none else lookup slug) with
      | none => .error (entityNotFound message)
      | some facet => .ok (some facet)

def catalogFilters (normalizedQuery : Option PyStr) (category tag : Option CatalogFacet) (sort : SoftwareSort) :
    SoftwareFilters :=
  { listedFilters with
    query := normalizedQuery
    categorySlug := category.map (·.slug)
    tagSlugs := (tag.map (·.slug)).toList
    sort := sort }

/-- `catalog`: both facets are looked up before the listing is read. -/
def catalog (engines : Engines) (database : Database) (pagination : Pagination) (query categorySlug tagSlug : Option PyStr)
    (sort : SoftwareSort) : Except PyException PublicCatalogView := do
  let normalizedQuery ← (normalizeSearchQuery query).mapError PyException.validationError
  let category ← requireFacet (getCategory unicode database) "Категорію не знайдено." categorySlug
  let tag ← requireFacet (getTag unicode database) "Тег не знайдено." tagSlug
  let page ← listPage unicode database (catalogFilters normalizedQuery category tag sort) (engines database _) pagination
  let items ← page.items.mapM (softwareCard unicode upper database)
  return {
    page := { items := items, total := page.total, page := page.page, perPage := page.perPage }
    categories := listCategories database 100
    tags := listTags database 100
    query := normalizedQuery.getD []
    category := category
    tag := tag
    sort := sort.value }

/-- `sitemap_entries`, with the limit that the service gives. -/
def sitemapEntries (database : Database) : List SitemapEntry := listSitemapEntries database 24000

/-- `software`: the page of an entry that its reader may see. -/
def software (database : Database) (slug : PyStr) (isAdmin : Bool) : Except PyException SoftwareDetailView :=
  match getBySlug unicode database slug with
  | none => .error (entityNotFound "Програму не знайдено.")
  | some software =>
      if canViewSoftware software.toSoftware isAdmin then softwareDetail unicode upper database isAdmin software
      else .error (entityNotFound "Програму не знайдено.")

end

end SoftwareHub.Public
