import Picloud.Events.TornAppend
import Picloud.Events.DiskAgreement
import Picloud.Events.KeyRace
import Picloud.Raft.PurgeCrash
import Picloud.Raft.SnapshotCatchUp
import Picloud.Raft.ApplyCrash
import Picloud.Server.WriteThrough
import Picloud.Server.CatchUp
import Picloud.Rdf.Reprojection
import Picloud.Rdf.ShadowReplay
import Picloud.Rdf.Closure
import Picloud.Rdf.OneStatus
import Picloud.Server.Membership
import Picloud.Iam.OneShot
import Picloud.Iam.Transparency
import Picloud.Storage.Capacity
import Picloud.Storage.OffsiteRestore
import Picloud.Workload.Conservation
import Picloud.Workload.DrainRaces
import Picloud.Alerts.ActiveAlerts
import Picloud.Inference.GroupMembership
import Picloud.Ingress.RouteMap
import Picloud.Apply.OneVersion
import Picloud.Provision.Reschedule
import Picloud.Storage.FileSyncRuns
import Picloud.Events.AggregateStreams
import Picloud.Iam.Takeover
import Picloud.Iam.Recovery
import Picloud.Iam.Demotion
import Picloud.Iam.RoleResolution
import Picloud.Registry.ContentAddressed
import Picloud.Events.ProductStores
import Picloud.Events.RouterRuns
import Picloud.Rdf.DataProducts
import Picloud.Compiler.Literals
import Picloud.Compiler.Validator
import Picloud.Compiler.NestedIris
import Picloud.Compiler.BuilderParses
import Picloud.Rdf.Materialisation
import Picloud.Rdf.OntologyOrder
import Picloud.Rdf.GcRuns
import Picloud.Rdf.TagRuns
import Picloud.Rdf.ImageRuns
import Picloud.Rdf.VolumeRuns
import Picloud.Rdf.DeployRuns
import Picloud.Rdf.ProjectionRunner
import Picloud.Compiler.NothingDropped
import Picloud.Compiler.TrueLines
import Picloud.Bicep.Integers
import Picloud.Iam.DeviceFlow
import Picloud.Iam.Secrets
import Picloud.Workload.HealthCheck
import Picloud.Workload.Respawn
import Picloud.Storage.Restores
import Picloud.Storage.SnapshotScheduler
import Picloud.Storage.BackupListing
import Picloud.Capability.Resolution
import Picloud.Inference.ConstructRules
import Picloud.Network.DnsAnswers
import Picloud.Registry.OciPaths
import Picloud.Storage.VolumeRequests
import Picloud.Server.ClusterGraph
import Picloud.Rdf.NodeRuns
import Picloud.Telemetry.Retention
import Picloud.Alerts.FreshnessMonitor
import Picloud.Telemetry.Ingest
import Picloud.Rdf.ProductDeletion
import Picloud.Server.GroupEndpoints
