import Aequora.Admission.Accounting
import Aequora.Authority.ClientTrust
import Aequora.Authority.ForkQuarantine
import Aequora.Client.Batcher
import Aequora.Client.BootstrapTrust
import Aequora.Client.PagedInstall
import Aequora.Client.ServerAnswers
import Aequora.Compat.Transcript
import Aequora.Crypto.Registry
import Aequora.Feed.Archive
import Aequora.Governance.Tombstones
import Aequora.Integrity.Repair
import Aequora.Integrity.Transport
import Aequora.Journal.Compaction
import Aequora.Legacy.OperationId
import Aequora.Live.Wake
import Aequora.Migration.Export
import Aequora.Queue.Protection
import Aequora.Region.AuthorityReads
import Aequora.Region.Authorization
import Aequora.Region.Directory
import Aequora.Scope.Binding
import Aequora.Scope.Hierarchy
import Aequora.Scope.Revocation
import Aequora.Security.ReplayGuard
import Aequora.Server.BatchDependencies
import Aequora.Server.DependencyLevels
import Aequora.Server.TenantIsolation
import Aequora.Store.LocalMutation
import Aequora.Store.OutboxLifecycle
import Aequora.Store.StoolapProjection
import Aequora.SyncModel.Contiguity
import Aequora.SyncModel.Delivery
import Aequora.SyncModel.EpochReplay
import Aequora.SyncModel.Explore
import Aequora.SyncModel.Failover
import Aequora.SyncModel.LocalIntent
