import SoftwareHub.Tree.Forest
import SoftwareHub.Tree.Path
import SoftwareHub.Tree.Walk
import SoftwareHub.Semantics.Program
import SoftwareHub.Python.Text
import SoftwareHub.Python.Codec
import SoftwareHub.Python.Json
import SoftwareHub.Python.JsonRoundTrip
import SoftwareHub.Python.DateTime
import SoftwareHub.Python.Sha256
import SoftwareHub.Backup.Manifest
import SoftwareHub.Backup.Files
import SoftwareHub.Backup.Verification
import SoftwareHub.Backup.Accepted
import SoftwareHub.Backup.Inventory
import SoftwareHub.Backup.Damaged
import SoftwareHub.Backup.Retention
import SoftwareHub.Backup.Creation
import SoftwareHub.Backup.Populated
import SoftwareHub.Semantics.Exact
import SoftwareHub.Backup.AtomicCreation
import SoftwareHub.Backup.ManifestRoundTrip
import SoftwareHub.Storage.Filename
import SoftwareHub.Backup.SelfVerification
import SoftwareHub.Auth.Accounts
import SoftwareHub.Semantics.Trace
import SoftwareHub.Auth.Sessions
import SoftwareHub.Auth.Login
import SoftwareHub.Auth.Lockout
import SoftwareHub.Core.Csrf
import SoftwareHub.Core.CsrfTokens
import SoftwareHub.Auth.SessionRequests
import SoftwareHub.Auth.SessionSoundness
import SoftwareHub.Catalog.Models
import SoftwareHub.Catalog.Policies
import SoftwareHub.Catalog.Releases
import SoftwareHub.Catalog.CurrentStable
import SoftwareHub.Python.Unicode
import SoftwareHub.Storage.Areas
import SoftwareHub.Storage.OriginalFilename
import SoftwareHub.Downloads.Grant
import SoftwareHub.Semantics.Interleaving
import SoftwareHub.Downloads.Authorize
import SoftwareHub.Downloads.Accounting
import SoftwareHub.Backup.NewestKept
import SoftwareHub.Storage.Move
import SoftwareHub.Storage.AllOrNothing
import SoftwareHub.Lifecycle.FileService
import SoftwareHub.Lifecycle.Compensation
import SoftwareHub.Lifecycle.UploadService
import SoftwareHub.Lifecycle.UploadCompensation
import SoftwareHub.Reconciliation.Service
import SoftwareHub.Reconciliation.Lookup
import SoftwareHub.Reconciliation.Healthy
import SoftwareHub.Reconciliation.Recalculation
import SoftwareHub.Tree.Kind
import SoftwareHub.Lifecycle.Staging
import SoftwareHub.Storage.Unfailing
import SoftwareHub.Reconciliation.Cleanup
import SoftwareHub.Reconciliation.CleanupRun
import SoftwareHub.Reconciliation.Swept
import SoftwareHub.Semantics.Like
import SoftwareHub.Semantics.Paging
import SoftwareHub.Public.Models
import SoftwareHub.Public.Pagination
import SoftwareHub.Public.Search
import SoftwareHub.Public.Paging
import SoftwareHub.Public.Service
import SoftwareHub.Public.Popularity
import SoftwareHub.Public.Projection
import SoftwareHub.Public.Noninterference
import SoftwareHub.Lifecycle.SignatureGate
import SoftwareHub.Storage.Detection
import SoftwareHub.Lifecycle.Streaming
import SoftwareHub.Core.FailClosed
import SoftwareHub.Auth.LoginOutcome
import SoftwareHub.Auth.SessionLiveness
import SoftwareHub.Public.Facets
import SoftwareHub.Public.CurrentRelease
import SoftwareHub.Python.Unquote
import SoftwareHub.Public.Links
import SoftwareHub.Lifecycle.RowEffects
import SoftwareHub.Catalog.SoftwareMetadata
import SoftwareHub.Lifecycle.UploadRow
import SoftwareHub.Reconciliation.Runs
import SoftwareHub.Reconciliation.PublicationGate
import SoftwareHub.Lifecycle.TreeEffects
import SoftwareHub.Reconciliation.InspectedBytes
import SoftwareHub.Lifecycle.Outcomes
import SoftwareHub.Backup.Installed
import SoftwareHub.Backup.Restorable
import SoftwareHub.Backup.Compensated
import SoftwareHub.Storage.AllowedExtensions
import SoftwareHub.Storage.CanonicalFilename
import SoftwareHub.Storage.DeceptiveFilename
import SoftwareHub.Downloads.Disposition
import SoftwareHub.Catalog.Slugs
import SoftwareHub.Catalog.Timestamps
import SoftwareHub.Python.Dict
import SoftwareHub.Python.Value
import SoftwareHub.Core.Logging
import SoftwareHub.Core.AuditMetadata
import SoftwareHub.Core.AuditFilters
import SoftwareHub.Storage.TemporaryCleanup
import SoftwareHub.Storage.TemporaryRemoval
import SoftwareHub.Backup.OperationLock
import SoftwareHub.Backup.LockRefinement
import SoftwareHub.Auth.Usernames
import SoftwareHub.Backup.RoundTrip
import SoftwareHub.Lifecycle.Overlapping
import SoftwareHub.Lifecycle.FileChanges
import SoftwareHub.Lifecycle.UploadProcess
import SoftwareHub.Reconciliation.CleanupProcess
import SoftwareHub.Reconciliation.ConcurrentUploads
import SoftwareHub.Core.Config
import SoftwareHub.Backup.ManagedAreas
import SoftwareHub.Storage.Roots
import SoftwareHub.Reconciliation.CallsAlone
import SoftwareHub.Lifecycle.StorageTree
import SoftwareHub.Lifecycle.UploadGrowth
import SoftwareHub.Reconciliation.Placement
import SoftwareHub.Reconciliation.PlacementKept
import SoftwareHub.Reconciliation.PlacementRuns
import SoftwareHub.Backup.NoLoss
import SoftwareHub.Backup.LossConditions
import SoftwareHub.Editing.Normalization
import SoftwareHub.Editing.Tables
import SoftwareHub.Editing.Services
import SoftwareHub.Editing.Soundness
import SoftwareHub.Editing.Effects
import SoftwareHub.Editing.Runs
import SoftwareHub.Editing.Acceptance
import SoftwareHub.Editing.Repetition
import SoftwareHub.Editing.Refinement
import SoftwareHub.Editing.PublicPages
