import SoftwareHub.Catalog.Policies
import Mathlib.Data.Prod.Lex
import SoftwareHub.Python.Codec

/-! The catalog as the public pages read it: software with its display columns,
categories, tags, releases and files. -/
namespace SoftwareHub.Public

open SoftwareHub.Python SoftwareHub.Catalog

/-- A row of `software`: the columns of the lifecycle, and those that are
displayed. -/
structure Software extends Catalog.Software where
  name : PyStr
  slug : PyStr
  shortDescription : PyStr
  fullDescription : Option PyStr
  developerName : Option PyStr
  officialWebsiteUrl : Option PyStr
  sourceUrl : Option PyStr
  licenseName : Option PyStr
  categoryId : Option Nat
  supportedOs : Option PyStr
  systemRequirements : Option PyStr
  isFeatured : Bool
  updatedAt : Instant
  deriving DecidableEq, Repr

/-- A row of `categories`. -/
structure Category where
  id : Nat
  name : PyStr
  slug : PyStr
  description : Option PyStr
  sortOrder : Nat
  isVisible : Bool
  deriving DecidableEq, Repr

/-- A row of `tags`. -/
structure Tag where
  id : Nat
  name : PyStr
  slug : PyStr
  deriving DecidableEq, Repr

/-- A row of `software_tags`. -/
structure SoftwareTag where
  softwareId : Nat
  tagId : Nat
  deriving DecidableEq, Repr

/-- The tables, each in the order of its primary key, with the unique columns
the schema declares. SQLite text is UTF-8 and holds no surrogate. -/
structure Database where
  software : List Software
  categories : List Category
  tags : List Tag
  softwareTags : List SoftwareTag
  releases : List Release
  files : List ReleaseFile
  software_keys : (software.map (·.id)).Pairwise (· < ·)
  category_keys : (categories.map (·.id)).Pairwise (· < ·)
  tag_keys : (tags.map (·.id)).Pairwise (· < ·)
  softwareTag_keys : (softwareTags.map fun row => (toLex (row.softwareId, row.tagId) : Lex (Nat × Nat))).Pairwise (· < ·)
  release_keys : (releases.map (·.id)).Pairwise (· < ·)
  file_keys : (files.map (·.id)).Pairwise (· < ·)
  software_slugs : (software.map (·.slug)).Nodup
  category_slugs : (categories.map (·.slug)).Nodup
  tag_slugs : (tags.map (·.slug)).Nodup
  file_text : ∀ file ∈ files, ∀ c ∈ file.displayFilename, isScalar c = true

namespace Database

/-- The loaded graph of a software entry: its category, if it has one. The readers
of the graph sort each collection by a key that ends in the id. -/
def category (database : Database) (software : Software) : Option Category :=
  software.categoryId.bind fun id => database.categories.find? fun category => category.id = id

/-- The tags of a software entry. -/
def tagsOf (database : Database) (software : Software) : List Tag :=
  database.tags.filter fun tag => database.softwareTags.any fun row => row.softwareId = software.id ∧ row.tagId = tag.id

/-- The releases of a software entry. -/
def releasesOf (database : Database) (software : Software) : List Release :=
  database.releases.filter fun release => release.softwareId = software.id

def filesOf (database : Database) (release : Release) : List ReleaseFile :=
  database.files.filter fun file => file.releaseId = release.id

theorem nodup_software (database : Database) : database.software.Nodup :=
  List.Nodup.of_map _ (database.software_keys.imp Nat.ne_of_lt)

/-- The primary key of the software table. -/
theorem software_eq_of_id (database : Database) {software other : Software} (h : software ∈ database.software)
    (hOther : other ∈ database.software) (hId : software.id = other.id) : software = other :=
  List.inj_on_of_nodup_map (database.software_keys.imp Nat.ne_of_lt) h hOther hId

/-- The tables before the first entry. -/
def empty : Database where
  software := []
  categories := []
  tags := []
  softwareTags := []
  releases := []
  files := []
  software_keys := by decide
  category_keys := by decide
  tag_keys := by decide
  softwareTag_keys := by decide
  release_keys := by decide
  file_keys := by decide
  software_slugs := by decide
  category_slugs := by decide
  tag_slugs := by decide
  file_text := by simp

end Database
end SoftwareHub.Public
