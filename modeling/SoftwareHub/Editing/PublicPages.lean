import SoftwareHub.Editing.Runs
import SoftwareHub.Public.Sitemap

/-! The public pages after any run of edits. -/
namespace SoftwareHub.Editing

open SoftwareHub.Python SoftwareHub.Semantics
open SoftwareHub.Public (SoundSitemap)

/-- What the public pages read: these tables, with the releases and the files of other services. -/
def Tables.toPublic (tables : Tables) (h : Constraints tables) (others : Public.Database) : Public.Database :=
  { others with
    software := tables.software
    categories := tables.categories
    tags := tables.tags
    softwareTags := tables.softwareTags
    software_keys := h.softwareKeys
    category_keys := h.categoryKeys
    tag_keys := h.tagKeys
    softwareTag_keys := h.softwareTagKeys
    software_slugs := h.softwareSlugs
    category_slugs := h.categorySlugs
    tag_slugs := h.tagSlugs }

variable {env : EditEnvironment} {tables : Tables}

theorem Sound.soundSitemap (hLaws : env.Lawful) (h : Sound env tables) (others : Public.Database) (limit : Nat) :
    SoundSitemap env.unicode (tables.toPublic h.constraints others) limit := by
  apply Public.soundSitemap hLaws.foldsAscii
  · intro category hCategory
    exact (h.categories category hCategory).slug.isSlug
  · intro software hSoftware
    exact (h.software software hSoftware).slug.isSlug

/-- After every run of edits, over any releases and files, the sitemap has no
path twice, each of its paths leads a visitor to a page, and each listed entry
has a path when the limit allows. -/
theorem edits_keep_sitemap (hLaws : env.Lawful) (h : Sound env tables) {calls : List EditCall}
    (hUsers : ∀ call ∈ calls, AuditorExists call.audit tables) (others : Public.Database) (limit : Nat) :
    ∃ hConstraints : Constraints (final (EditCall.perform env) tables calls),
      SoundSitemap env.unicode ((final (EditCall.perform env) tables calls).toPublic hConstraints others) limit := by
  have hFinal := run_sound hLaws h hUsers
  exact ⟨hFinal.constraints, hFinal.soundSitemap hLaws others limit⟩

/-- An entry is created in a category, and published. -/
def publishingCalls : List EditCall :=
  [⟨.createCategory (py "System") (py "system") none 0 true, some sampleAudit⟩,
    ⟨.createSoftware sampleTexts (some 1) [] .isPublic false ⟨51, by decide⟩, some sampleAudit⟩,
    ⟨.transitionStatus 1 .published ⟨52, by decide⟩, some sampleAudit⟩]

theorem edits_keep_sitemap_sample :
    ∃ hConstraints : Constraints (final (EditCall.perform sampleEnvironment) (newTables [1]) publishingCalls),
      SoundSitemap Unicode.ascii
          ((final (EditCall.perform sampleEnvironment) (newTables [1]) publishingCalls).toPublic hConstraints Public.Database.empty) 10 ∧
        (Public.listSitemapEntries
            ((final (EditCall.perform sampleEnvironment) (newTables [1]) publishingCalls).toPublic hConstraints
              Public.Database.empty) 10).map (·.path) =
          [py "/", py "/software", py "/category/system", py "/software/disk-tool", py "/software/disk-tool/releases"] := by
  have hUsers : ∀ call ∈ publishingCalls, AuditorExists call.audit (newTables [1]) := by
    have hAll : ∀ call ∈ publishingCalls, ∀ context ∈ call.audit, context.userId ∈ [1] := by decide
    exact hAll
  have hPaths : ∀ hConstraints : Constraints (final (EditCall.perform sampleEnvironment) (newTables [1]) publishingCalls),
      (Public.listSitemapEntries ((final (EditCall.perform sampleEnvironment) (newTables [1]) publishingCalls).toPublic
        hConstraints Public.Database.empty) 10).map (·.path) =
          [py "/", py "/software", py "/category/system", py "/software/disk-tool", py "/software/disk-tool/releases"] := by
    decide +kernel
  obtain ⟨hConstraints, hSitemap⟩ := edits_keep_sitemap sampleEnvironment_lawful (newTables_sound sampleEnvironment [1])
    hUsers Public.Database.empty 10
  exact ⟨hConstraints, hSitemap, hPaths hConstraints⟩

end SoftwareHub.Editing
