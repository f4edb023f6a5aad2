import SoftwareHub.Editing.Services

/-! What every change keeps: the constraints of the schema, and rows in normal
form. -/
namespace SoftwareHub.Editing

open SoftwareHub.Python SoftwareHub.Semantics SoftwareHub.Semantics.Program
open SoftwareHub.Catalog (Slug)
open SoftwareHub.Public (Category Software SoftwareTag Tag)

/-- A category whose texts are in normal form. -/
structure NormalCategory (env : EditEnvironment) (category : Category) : Prop where
  name : NormalName 120 category.name
  slug : Slug env.unicode 140 category.slug
  description : NormalText 2000 category.description

/-- A tag whose texts are in normal form. -/
structure NormalTag (env : EditEnvironment) (tag : Tag) : Prop where
  name : NormalName 120 tag.name
  slug : Slug env.unicode 140 tag.slug

def textsOf (software : Software) : SoftwareTexts where
  name := software.name
  slug := software.slug
  shortDescription := software.shortDescription
  fullDescription := software.fullDescription
  developerName := software.developerName
  officialWebsiteUrl := software.officialWebsiteUrl
  sourceUrl := software.sourceUrl
  licenseName := software.licenseName
  supportedOs := software.supportedOs
  systemRequirements := software.systemRequirements

/-- The database accepts the tables, and every text in them is in normal form. -/
structure Sound (env : EditEnvironment) (tables : Tables) : Prop where
  constraints : Constraints tables
  categories : ∀ category ∈ tables.categories, NormalCategory env category
  tags : ∀ tag ∈ tables.tags, NormalTag env tag
  software : ∀ software ∈ tables.software, NormalTexts env (textsOf software)

variable {env : EditEnvironment} {tables : Tables}

namespace Sound

/-- A category under a new key, with a free slug. -/
theorem addCategory (h : Sound env tables) {category : Category} (hId : category.id = nextId Category.id tables.categories)
    (hFree : ∀ other ∈ tables.categories, other.slug ≠ category.slug) (hNormal : NormalCategory env category) :
    Sound env (tables.addCategory category) where
  constraints := { h.constraints with
    categoryKeys := pairwise_append_nextId h.constraints.categoryKeys hId
    categorySlugs := by
      rw [Tables.addCategory, List.map_append, List.map_singleton, List.nodup_append]
      refine ⟨h.constraints.categorySlugs, List.nodup_singleton _, ?_⟩
      rintro slug hSlug other hOther rfl
      obtain ⟨row, hRow, hSame⟩ := List.mem_map.mp hSlug
      exact hFree row hRow (hSame.trans (List.mem_singleton.mp hOther))
    softwareCategory := by
      intro software hMem id hId
      rw [Tables.addCategory, List.map_append, List.mem_append]
      exact Or.inl (h.constraints.softwareCategory software hMem id hId) }
  categories := by
    intro row hRow
    rcases List.mem_append.mp hRow with hOld | hNew
    · exact h.categories row hOld
    · rwa [List.mem_singleton.mp hNew]
  tags := h.tags
  software := h.software

/-- A column that the saved row shares stays what it is. -/
theorem map_saved {ρ κ : Type} {key : ρ → Nat} {column : ρ → κ} {rows : List ρ} {saved : ρ}
    (h : ∀ row ∈ rows, key row = key saved → column saved = column row) :
    (updateRows (fun row => key row = key saved) (fun _ => saved) rows).map column = rows.map column := map_updateRows h

/-- The rows after one has been saved. -/
theorem mem_saved {ρ : Type} {key : ρ → Nat} {rows : List ρ} {saved row : ρ}
    (h : row ∈ updateRows (fun row => key row = key saved) (fun _ => saved) rows) : row ∈ rows ∨ row = saved := by
  obtain ⟨old, hOld, rfl⟩ := mem_updateRows.mp h
  split
  · exact Or.inr rfl
  · exact Or.inl hOld

/-- A category with a slug of no other. -/
theorem saveCategory (h : Sound env tables) {category : Category}
    (hFree : ∀ other ∈ tables.categories, other.slug = category.slug → other.id = category.id)
    (hNormal : NormalCategory env category) : Sound env (tables.saveCategory category) := by
  have hKeys : (tables.saveCategory category).categories.map (·.id) = tables.categories.map (·.id) :=
    map_saved fun row _ hKey => hKey.symm
  exact {
    constraints := { h.constraints with
      categoryKeys := by
        rw [hKeys]
        exact h.constraints.categoryKeys
      categorySlugs := nodup_saved (h.constraints.categoryKeys.imp Nat.ne_of_lt) h.constraints.categorySlugs hFree
      softwareCategory := by
        rw [hKeys]
        exact h.constraints.softwareCategory }
    categories := by
      intro row hRow
      rcases mem_saved hRow with hOld | rfl
      · exact h.categories row hOld
      · exact hNormal
    tags := h.tags
    software := h.software }

/-- Entries of the deleted category lose it; all others keep theirs. -/
theorem deleteCategory (h : Sound env tables) (id : Nat) : Sound env (tables.deleteCategory id) := by
  have hSublist := deleteRows_sublist (fun row : Category => row.id = id) tables.categories
  have hKeys : (tables.deleteCategory id).software.map (·.id) = tables.software.map (·.id) :=
    map_updateRows fun _ _ _ => rfl
  have hSlugs : (tables.deleteCategory id).software.map (·.slug) = tables.software.map (·.slug) :=
    map_updateRows fun _ _ _ => rfl
  exact {
    constraints := { h.constraints with
      categoryKeys := h.constraints.categoryKeys.sublist (hSublist.map _)
      categorySlugs := h.constraints.categorySlugs.sublist (hSublist.map _)
      softwareKeys := by
        rw [hKeys]
        exact h.constraints.softwareKeys
      softwareSlugs := by
        rw [hSlugs]
        exact h.constraints.softwareSlugs
      softwareCategory := by
        intro software hMem other hOther
        obtain ⟨old, hOld, rfl⟩ := mem_updateRows.mp hMem
        split at hOther
        · cases hOther
        · rename_i hKept
          obtain ⟨category, hCategory, rfl⟩ := List.mem_map.mp (h.constraints.softwareCategory old hOld other hOther)
          apply List.mem_map_of_mem
          refine mem_deleteRows.mpr ⟨hCategory, ?_⟩
          rintro rfl
          exact hKept hOther
      linkSoftware := by
        rw [hKeys]
        exact h.constraints.linkSoftware }
    categories := fun row hRow => h.categories row (hSublist.subset hRow)
    tags := h.tags
    software := by
      intro software hMem
      obtain ⟨old, hOld, rfl⟩ := mem_updateRows.mp hMem
      split
      · exact h.software old hOld
      · exact h.software old hOld }

/-- A tag under a new key, with a free slug. -/
theorem addTag (h : Sound env tables) {tag : Tag} (hId : tag.id = nextId Tag.id tables.tags)
    (hFree : ∀ other ∈ tables.tags, other.slug ≠ tag.slug) (hNormal : NormalTag env tag) :
    Sound env (tables.addTag tag) where
  constraints := { h.constraints with
    tagKeys := pairwise_append_nextId h.constraints.tagKeys hId
    tagSlugs := by
      rw [Tables.addTag, List.map_append, List.map_singleton, List.nodup_append]
      refine ⟨h.constraints.tagSlugs, List.nodup_singleton _, ?_⟩
      rintro slug hSlug other hOther rfl
      obtain ⟨row, hRow, hSame⟩ := List.mem_map.mp hSlug
      exact hFree row hRow (hSame.trans (List.mem_singleton.mp hOther))
    linkTag := by
      intro row hRow
      rw [Tables.addTag, List.map_append, List.mem_append]
      exact Or.inl (h.constraints.linkTag row hRow) }
  categories := h.categories
  tags := by
    intro row hRow
    rcases List.mem_append.mp hRow with hOld | hNew
    · exact h.tags row hOld
    · rwa [List.mem_singleton.mp hNew]
  software := h.software

/-- A tag with a slug of no other. -/
theorem saveTag (h : Sound env tables) {tag : Tag}
    (hFree : ∀ other ∈ tables.tags, other.slug = tag.slug → other.id = tag.id)
    (hNormal : NormalTag env tag) : Sound env (tables.saveTag tag) := by
  have hKeys : (tables.saveTag tag).tags.map (·.id) = tables.tags.map (·.id) := map_saved fun row _ hKey => hKey.symm
  exact {
    constraints := { h.constraints with
      tagKeys := by
        rw [hKeys]
        exact h.constraints.tagKeys
      tagSlugs := nodup_saved (h.constraints.tagKeys.imp Nat.ne_of_lt) h.constraints.tagSlugs hFree
      linkTag := by
        rw [hKeys]
        exact h.constraints.linkTag }
    categories := h.categories
    tags := by
      intro row hRow
      rcases mem_saved hRow with hOld | rfl
      · exact h.tags row hOld
      · exact hNormal
    software := h.software }

/-- The links of the deleted tag go with it. -/
theorem deleteTag (h : Sound env tables) (id : Nat) : Sound env (tables.deleteTag id) := by
  have hSublist := deleteRows_sublist (fun row : Tag => row.id = id) tables.tags
  have hLinks := deleteRows_sublist (fun row : SoftwareTag => row.tagId = id) tables.softwareTags
  exact {
    constraints := { h.constraints with
      tagKeys := h.constraints.tagKeys.sublist (hSublist.map _)
      tagSlugs := h.constraints.tagSlugs.sublist (hSublist.map _)
      softwareTagKeys := h.constraints.softwareTagKeys.sublist (hLinks.map _)
      linkSoftware := fun row hRow => h.constraints.linkSoftware row (hLinks.subset hRow)
      linkTag := by
        intro row hRow
        obtain ⟨hOld, hKept⟩ := mem_deleteRows.mp hRow
        obtain ⟨tag, hTag, hSame⟩ := List.mem_map.mp (h.constraints.linkTag row hOld)
        rw [← hSame]
        apply List.mem_map_of_mem
        refine mem_deleteRows.mpr ⟨hTag, ?_⟩
        rwa [hSame] }
    categories := h.categories
    tags := fun row hRow => h.tags row (hSublist.subset hRow)
    software := h.software }

/-- An entry under a new key, with a free slug and a category that exists. -/
theorem addSoftware (h : Sound env tables) {software : Software}
    (hId : software.id = nextId (fun row : Software => row.id) tables.software)
    (hFree : ∀ other ∈ tables.software, other.slug ≠ software.slug)
    (hCategory : ∀ id ∈ software.categoryId, id ∈ tables.categories.map (·.id))
    (hNormal : NormalTexts env (textsOf software)) : Sound env (tables.addSoftware software) where
  constraints := { h.constraints with
    softwareKeys := pairwise_append_nextId h.constraints.softwareKeys hId
    softwareSlugs := by
      rw [Tables.addSoftware, List.map_append, List.map_singleton, List.nodup_append]
      refine ⟨h.constraints.softwareSlugs, List.nodup_singleton _, ?_⟩
      rintro slug hSlug other hOther rfl
      obtain ⟨row, hRow, hSame⟩ := List.mem_map.mp hSlug
      exact hFree row hRow (hSame.trans (List.mem_singleton.mp hOther))
    softwareCategory := by
      intro row hRow
      rcases List.mem_append.mp hRow with hOld | hNew
      · exact h.constraints.softwareCategory row hOld
      · rwa [List.mem_singleton.mp hNew]
    linkSoftware := by
      intro row hRow
      rw [Tables.addSoftware, List.map_append, List.mem_append]
      exact Or.inl (h.constraints.linkSoftware row hRow) }
  categories := h.categories
  tags := h.tags
  software := by
    intro row hRow
    rcases List.mem_append.mp hRow with hOld | hNew
    · exact h.software row hOld
    · rwa [List.mem_singleton.mp hNew]

/-- An entry with a slug of no other and a category that exists. -/
theorem saveSoftware (h : Sound env tables) {software : Software}
    (hFree : ∀ other ∈ tables.software, other.slug = software.slug → other.id = software.id)
    (hCategory : ∀ id ∈ software.categoryId, id ∈ tables.categories.map (·.id))
    (hNormal : NormalTexts env (textsOf software)) : Sound env (tables.saveSoftware software) := by
  have hKeys : (tables.saveSoftware software).software.map (·.id) = tables.software.map (·.id) :=
    map_updateRows fun row _ hKey => hKey.symm
  have hRows : ∀ row ∈ (tables.saveSoftware software).software, row ∈ tables.software ∨ row = software :=
    fun row hRow => @mem_saved _ (fun row : Software => row.id) _ _ _ hRow
  exact {
    constraints := { h.constraints with
      softwareKeys := by
        rw [hKeys]
        exact h.constraints.softwareKeys
      softwareSlugs :=
        @nodup_saved _ _ _ _ (fun row : Software => row.id) (fun row : Software => row.slug) _ _
          (h.constraints.softwareKeys.imp Nat.ne_of_lt) h.constraints.softwareSlugs hFree
      softwareCategory := by
        intro row hRow
        rcases hRows row hRow with hOld | rfl
        · exact h.constraints.softwareCategory row hOld
        · exact hCategory
      linkSoftware := by
        rw [hKeys]
        exact h.constraints.linkSoftware }
    categories := h.categories
    tags := h.tags
    software := by
      intro row hRow
      rcases hRows row hRow with hOld | rfl
      · exact h.software row hOld
      · exact hNormal }

/-- The links after those of one entry have been replaced. -/
theorem mem_setTags {softwareId : Nat} {tagIds : List Nat} {row : SoftwareTag} :
    row ∈ (tables.setTags softwareId tagIds).softwareTags ↔
      (row ∈ tables.softwareTags ∧ row.softwareId ≠ softwareId) ∨ row.softwareId = softwareId ∧ row.tagId ∈ tagIds := by
  rw [Tables.setTags, List.mem_insertionSort, Tables.linksWith, List.mem_append, mem_deleteRows, List.mem_map]
  apply or_congr_right
  constructor
  · rintro ⟨tagId, hTag, rfl⟩
    exact ⟨rfl, hTag⟩
  · rintro ⟨rfl, hTag⟩
    exact ⟨row.tagId, hTag, rfl⟩

/-- The links of one entry are replaced. -/
theorem setTags (h : Sound env tables) {softwareId : Nat} {tagIds : List Nat} (hNodup : tagIds.Nodup)
    (hSoftware : softwareId ∈ tables.software.map (·.id)) (hTags : ∀ id ∈ tagIds, id ∈ tables.tags.map (·.id)) :
    Sound env (tables.setTags softwareId tagIds) where
  constraints := { h.constraints with
    softwareTagKeys := by
      apply pairwise_sorted_lt
      rw [Tables.linksWith, List.map_append, List.nodup_append, List.map_map]
      have hOld := h.constraints.softwareTagKeys.imp ne_of_lt
      refine ⟨hOld.sublist ((deleteRows_sublist _ _).map _), hNodup.map fun first second hSame => ?_, ?_⟩
      · exact congrArg (fun key => (ofLex key).2) hSame
      · rintro key hKey other hOther rfl
        obtain ⟨row, hRow, hSame⟩ := List.mem_map.mp hKey
        obtain ⟨tagId, -, hLink⟩ := List.mem_map.mp hOther
        exact (mem_deleteRows.mp hRow).2 (congrArg (fun key => (ofLex key).1) (hSame.trans hLink.symm))
    linkSoftware := by
      intro row hRow
      rcases mem_setTags.mp hRow with ⟨hOld, -⟩ | ⟨hId, -⟩
      · exact h.constraints.linkSoftware row hOld
      · rwa [hId]
    linkTag := by
      intro row hRow
      rcases mem_setTags.mp hRow with ⟨hOld, -⟩ | ⟨-, hTag⟩
      · exact h.constraints.linkTag row hOld
      · exact hTags _ hTag }
  categories := h.categories
  tags := h.tags
  software := h.software

/-- An audit row of someone who exists, or of no one. -/
theorem addLog (h : Sound env tables) {event : AuditEvent} (hUser : ∀ id ∈ event.userId, id ∈ tables.users) :
    Sound env (tables.addLog event) where
  constraints := { h.constraints with
    auditKeys := pairwise_append_nextId h.constraints.auditKeys rfl
    auditUser := by
      intro log hLog
      rcases List.mem_append.mp hLog with hOld | hNew
      · exact h.constraints.auditUser log hOld
      · rw [List.mem_singleton.mp hNew]
        exact hUser }
  categories := h.categories
  tags := h.tags
  software := h.software

end Sound
end SoftwareHub.Editing
