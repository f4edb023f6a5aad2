import SoftwareHub.Public.Search
import SoftwareHub.Python.DateTime
import SoftwareHub.Python.Sha256

/-! The projection of catalog rows to the immutable views of the public pages:
labels, files, releases and software. -/
namespace SoftwareHub.Public

open SoftwareHub.Python SoftwareHub.Catalog

/-- A category or a tag as a page shows it, with its count. -/
structure CatalogFacet where
  name : PyStr
  slug : PyStr
  description : Option PyStr
  softwareCount : Nat
  deriving DecidableEq

/-- What a page shows of a file. -/
structure PublicFileView where
  publicUuid : Nat
  displayFilename : PyStr
  downloadPath : PyStr
  architecture : Architecture
  architectureLabel : PyStr
  packageType : PackageType
  packageTypeLabel : PyStr
  platform : PyStr
  edition : Option PyStr
  fileSizeBytes : Nat
  fileSizeLabel : PyStr
  sha256 : PyStr
  downloadCount : Nat
  publishedAt : Option Instant
  publishedAtLabel : Option PyStr
  signatureLabel : PyStr
  deriving DecidableEq

/-- What a page shows of a release. -/
structure PublicReleaseView where
  version : PyStr
  channel : ReleaseChannel
  channelLabel : PyStr
  releaseDate : Option Date
  releaseDateLabel : Option PyStr
  changelog : Option PyStr
  isCurrent : Bool
  isArchived : Bool
  files : List PublicFileView
  deriving DecidableEq

/-- What a listing shows of a software entry. -/
structure SoftwareCardView where
  name : PyStr
  slug : PyStr
  initials : PyStr
  shortDescription : PyStr
  category : Option CatalogFacet
  tags : List CatalogFacet
  currentVersion : Option PyStr
  updatedAt : Instant
  updatedAtLabel : PyStr
  totalDownloads : Nat
  recommendedFile : Option PublicFileView
  isFeatured : Bool
  deriving DecidableEq

/-- What the page of a software entry shows. -/
structure SoftwareDetailView where
  name : PyStr
  slug : PyStr
  initials : PyStr
  shortDescription : PyStr
  fullDescription : Option PyStr
  developerName : Option PyStr
  officialWebsiteUrl : Option PyStr
  sourceUrl : Option PyStr
  licenseName : Option PyStr
  supportedOs : Option PyStr
  systemRequirements : Option PyStr
  category : Option CatalogFacet
  tags : List CatalogFacet
  status : SoftwareStatus
  visibility : Visibility
  isFeatured : Bool
  isArchived : Bool
  isUnlisted : Bool
  isPrivate : Bool
  publishedAt : Option Instant
  publishedAtLabel : Option PyStr
  updatedAt : Instant
  updatedAtLabel : PyStr
  currentRelease : Option PublicReleaseView
  releases : List PublicReleaseView
  recommendedFile : Option PublicFileView
  totalDownloads : Nat
  deriving DecidableEq

def architectureLabel : Architecture → PyStr
  | .x64 => py "x64"
  | .x86 => py "x86"
  | .arm64 => py "ARM64"
  | .universal => py "Універсальна"
  | .other => py "Інша"

def packageLabel : PackageType → PyStr
  | .installer => py "Інсталятор"
  | .portable => py "Portable"
  | .archive => py "Архів"
  | .msi => py "MSI"
  | .other => py "Інший пакет"

def channelLabel : ReleaseChannel → PyStr
  | .stable => py "Stable"
  | .beta => py "Beta"
  | .alpha => py "Alpha"
  | .nightly => py "Nightly"
  | .legacy => py "Legacy"

def signatureLabel : SignatureStatus → PyStr
  | .valid => py "Підпис перевірено"
  | .invalid => py "Підпис недійсний"
  | .unsigned => py "Без цифрового підпису"
  | .notChecked => py "Підпис не перевірявся"
  | .unknown => py "Статус підпису невідомий"

/-- `value.strftime("%d.%m.%Y")` of a date. -/
def dateLabel (date : Date) : PyStr :=
  let (year, month, day) := DateTime.ofOrdinal (date + 1)
  padded 2 day ++ py "." ++ padded 2 month ++ py "." ++ padded 4 year

/-- The same of a `datetime`, of which the day is shown. -/
def instantLabel (value : Instant) : PyStr := dateLabel (value.micros / 86400000000)

/-- `float(n)`, with 53 significant bits. -/
def toFloat (n : Nat) : Nat :=
  if n < 2 ^ 53 then n
  else Instant.roundHalfEven n (2 ^ (Nat.log2 n - 52)) * 2 ^ (Nat.log2 n - 52)

/-- The loop over the units; dividing by 1024 only moves the exponent of the double. -/
def formatScaled (value scale : Nat) : List PyStr → PyStr
  | [] => decimal value ++ py " Б"
  | unit :: units =>
      if value < 1024 * scale ∨ units = [] then
        if unit = py "Б" then decimal value ++ py " " ++ unit
        else
          let tenths := Instant.roundHalfEven (value * 10) scale
          decimal (tenths / 10) ++ py "." ++ decimal (tenths % 10) ++ py " " ++ unit
      else formatScaled value (1024 * scale) units

/-- `format_bytes`, a size with its unit. -/
def formatBytes (size : Nat) : PyStr :=
  formatScaled (toFloat size) 1 [py "Б", py "КіБ", py "МіБ", py "ГіБ", py "ТіБ"]

/-- `str` of a `UUID`, in five hyphenated groups. -/
def uuidText (uuid : Nat) : PyStr :=
  let hex := Sha256.hexDigits 32 uuid
  hex.take 8 ++ py "-" ++ (hex.drop 8).take 4 ++ py "-" ++ (hex.drop 12).take 4 ++ py "-" ++ (hex.drop 16).take 4 ++
    py "-" ++ hex.drop 20

section

variable (unicode : Unicode) (upper : PyStr → PyStr)

def initials (name : PyStr) : PyStr :=
  match words (replaceChar 0x2D [0x20] name) with
  | [] => py "SH"
  | [word] => upper (word.take 2)
  | first :: second :: _ => upper (first.take 1 ++ second.take 1)

def architectureOrder : Architecture → Nat
  | .x64 => 0
  | .arm64 => 1
  | .x86 => 2
  | .universal => 3
  | .other => 4

def packageOrder : PackageType → Nat
  | .installer => 0
  | .msi => 1
  | .portable => 2
  | .archive => 3
  | .other => 4

/-- Whether a file is shown: published, and public unless an administrator asks. -/
def isListableFile (isAdmin : Bool) (file : ReleaseFile) : Bool :=
  if file.status ≠ .published then false
  else if isAdmin then true
  else file.visibility = .isPublic

/-- The order of the files: architecture, package type, name and id. -/
def fileSortKey (file : ReleaseFile) : Lex (Nat × Lex (Nat × Lex (PyStr × Nat))) :=
  toLex (architectureOrder file.architecture,
    toLex (packageOrder file.packageType, toLex (unicode.casefold file.displayFilename, file.id)))

/-- The view of a file, with its link. -/
def fileView (file : ReleaseFile) : Except PyException PublicFileView := do
  let encodedName ← quote [] file.displayFilename
  return {
    publicUuid := file.publicUuid
    displayFilename := file.displayFilename
    downloadPath := py "/download/" ++ uuidText file.publicUuid ++ py "/" ++ encodedName
    architecture := file.architecture
    architectureLabel := architectureLabel file.architecture
    packageType := file.packageType
    packageTypeLabel := packageLabel file.packageType
    platform := file.platform
    edition := file.edition
    fileSizeBytes := file.fileSizeBytes
    fileSizeLabel := formatBytes file.fileSizeBytes
    sha256 := file.sha256
    downloadCount := file.downloadCount
    publishedAt := file.publishedAt
    publishedAtLabel := file.publishedAt.map instantLabel
    signatureLabel := signatureLabel file.signatureStatus }

/-- The key of the releases, of which the greatest comes first. `date.min` stands
for a missing date. -/
def releaseSortKey (release : Release) : Lex (Bool × Lex (Date × Nat)) :=
  toLex (release.isCurrent, toLex (release.releaseDate.getD 0, release.id))

/-- The view of a release, with its listable files in order. -/
def releaseView (database : Database) (isAdmin : Bool) (release : Release) : Except PyException PublicReleaseView := do
  let files ← (((database.filesOf release).insertionSort fun first second =>
    fileSortKey unicode first ≤ fileSortKey unicode second).filter (isListableFile isAdmin)).mapM fileView
  return {
    version := release.version
    channel := release.releaseChannel
    channelLabel := channelLabel release.releaseChannel
    releaseDate := release.releaseDate
    releaseDateLabel := release.releaseDate.map dateLabel
    changelog := release.changelog
    isCurrent := release.isCurrent ∧ release.status = .published
    isArchived := release.status = .archived
    files := files }

/-- Whether a release is shown at all. -/
def isEligibleRelease (release : Release) : Bool := release.status = .published ∨ release.status = .archived

/-- The views of the releases of a software entry, sorted by descending key. -/
def releaseViews (database : Database) (isAdmin : Bool) (software : Software) : Except PyException (List PublicReleaseView) :=
  (((database.releasesOf software).filter isEligibleRelease).insertionSort fun first second =>
    releaseSortKey second ≤ releaseSortKey first).mapM (releaseView unicode database isAdmin)

/-- The release that the page puts first: the marked one, else the first published
stable one. -/
def currentRelease (releases : List PublicReleaseView) : Option PublicReleaseView :=
  match releases.find? (·.isCurrent) with
  | some current => some current
  | none => releases.find? fun release => release.channel = .stable ∧ release.isArchived = false

/-- The first file of that release. -/
def recommendedFile (release : Option PublicReleaseView) : Option PublicFileView := release.bind (·.files.head?)

def totalDownloads (releases : List PublicReleaseView) : Nat :=
  (releases.flatMap fun release => release.files.map (·.downloadCount)).sum

def categoryFacet (database : Database) (isAdmin : Bool) (software : Software) : Option CatalogFacet :=
  match database.category software with
  | none => none
  | some category =>
      if category.isVisible = false ∧ isAdmin = false then none
      else some ⟨category.name, category.slug, category.description, 0⟩

def tagSortKey (tag : Tag) : Lex (PyStr × Nat) := toLex (unicode.casefold tag.name, tag.id)

def tagFacets (database : Database) (software : Software) : List CatalogFacet :=
  ((database.tagsOf software).insertionSort fun first second => tagSortKey unicode first ≤ tagSortKey unicode second).map
    fun tag => ⟨tag.name, tag.slug, none, 0⟩

/-- The card of a software entry. -/
def softwareCard (database : Database) (software : Software) : Except PyException SoftwareCardView := do
  let releases ← releaseViews unicode database false software
  let current := currentRelease releases
  return {
    name := software.name
    slug := software.slug
    initials := initials upper software.name
    shortDescription := software.shortDescription
    category := categoryFacet database false software
    tags := tagFacets unicode database software
    currentVersion := current.map (·.version)
    updatedAt := software.updatedAt
    updatedAtLabel := instantLabel software.updatedAt
    totalDownloads := totalDownloads releases
    recommendedFile := recommendedFile current
    isFeatured := software.isFeatured }

/-- The page of a software entry. -/
def softwareDetail (database : Database) (isAdmin : Bool) (software : Software) : Except PyException SoftwareDetailView := do
  let releases ← releaseViews unicode database isAdmin software
  let current := currentRelease releases
  return {
    name := software.name
    slug := software.slug
    initials := initials upper software.name
    shortDescription := software.shortDescription
    fullDescription := software.fullDescription
    developerName := software.developerName
    officialWebsiteUrl := software.officialWebsiteUrl
    sourceUrl := software.sourceUrl
    licenseName := software.licenseName
    supportedOs := software.supportedOs
    systemRequirements := software.systemRequirements
    category := categoryFacet database isAdmin software
    tags := tagFacets unicode database software
    status := software.status
    visibility := software.visibility
    isFeatured := software.isFeatured
    isArchived := software.status = .archived
    isUnlisted := software.visibility = .unlisted
    isPrivate := software.visibility = .isPrivate
    publishedAt := software.publishedAt
    publishedAtLabel := software.publishedAt.map instantLabel
    updatedAt := software.updatedAt
    updatedAtLabel := instantLabel software.updatedAt
    currentRelease := current
    releases := releases
    recommendedFile := recommendedFile current
    totalDownloads := totalDownloads releases }

end

end SoftwareHub.Public
