import NetHound.Audit.AwsError
import NetHound.Audit.Config
import NetHound.Audit.Preflight
import NetHound.Audit.Run
import NetHound.Audit.Session
import NetHound.Audit.Stages
import NetHound.Cypher.Frame
import NetHound.Cypher.PropertyGraph
import NetHound.Cypher.Replay
import NetHound.Domain.Decode
import NetHound.Domain.Encode
import NetHound.Domain.Rule
import NetHound.Evaluate.Assembly
import NetHound.Evaluate.Basic
import NetHound.Evaluate.Candidates
import NetHound.Evaluate.Decode
import NetHound.Evaluate.Encode
import NetHound.Evaluate.Engine
import NetHound.Evaluate.Evidence
import NetHound.Evaluate.Footprint
import NetHound.Evaluate.Frame
import NetHound.Evaluate.Nacl
import NetHound.Evaluate.OrderFree
import NetHound.Evaluate.Path
import NetHound.Evaluate.ReadBack
import NetHound.Evaluate.Session
import NetHound.Evaluate.Sg
import NetHound.Graph.Model
import NetHound.Graph.Neo4j
import NetHound.Graph.Replay
import NetHound.Graph.Session
import NetHound.Graph.Statements
import NetHound.Graph.Upserts
import NetHound.Ingest.AwsClient
import NetHound.Ingest.Batch
import NetHound.Ingest.Closure
import NetHound.Ingest.Collect
import NetHound.Ingest.Map
import NetHound.Ingest.Nacl
import NetHound.Ingest.Origin
import NetHound.Ingest.Pipeline
import NetHound.Ingest.Port
import NetHound.Ingest.Runs
import NetHound.Ingest.Sdk
import NetHound.Ingest.Sentinel
import NetHound.Ingest.Session
import NetHound.Ingest.Sg
import NetHound.Ingest.Topology
import NetHound.Ingest.Writing
import NetHound.Migrations.Calls
import NetHound.Migrations.Lines
import NetHound.Migrations.Progress
import NetHound.Migrations.Runner
import NetHound.Migrations.Script
import NetHound.Net.Display
import NetHound.Net.IpAddr
import NetHound.Report.Json
import NetHound.Report.Model
import NetHound.Report.Reading
import NetHound.Report.Wire
import NetHound.Serde.Encode
import NetHound.Serde.Value
import NetHound.Serde.Within
import NetHound.Soundness.Addresses
import NetHound.Soundness.AuditRecovery
import NetHound.Soundness.AuditRuns
import NetHound.Soundness.AuditStores
import NetHound.Soundness.BatchClosure
import NetHound.Soundness.BatchReplay
import NetHound.Soundness.BoundaryCoverage
import NetHound.Soundness.CandidatePairs
import NetHound.Soundness.Certificate
import NetHound.Soundness.CidrBlocks
import NetHound.Soundness.CleanAudits
import NetHound.Soundness.Collection
import NetHound.Soundness.DecodedRules
import NetHound.Soundness.Determinism
import NetHound.Soundness.EdgeUpserts
import NetHound.Soundness.Exclusion
import NetHound.Soundness.FourLayers
import NetHound.Soundness.Governing
import NetHound.Soundness.Handover
import NetHound.Soundness.IcmpRules
import NetHound.Soundness.IndeterminateCauses
import NetHound.Soundness.IngestionRecovery
import NetHound.Soundness.MalformedPermissions
import NetHound.Soundness.MigrationHistory
import NetHound.Soundness.NaclFirstMatch
import NetHound.Soundness.NaclIngestion
import NetHound.Soundness.NaclPersistence
import NetHound.Soundness.NodeMapping
import NetHound.Soundness.OtherAccounts
import NetHound.Soundness.PermissionTargets
import NetHound.Soundness.RefusedWrites
import NetHound.Soundness.Reingestion
import NetHound.Soundness.ReportExtension
import NetHound.Soundness.ReportRoundTrip
import NetHound.Soundness.RouteKeys
import NetHound.Soundness.RouteStubs
import NetHound.Soundness.RuleEdges
import NetHound.Soundness.RuleEncoding
import NetHound.Soundness.ServiceHealth
import NetHound.Soundness.Settlement
import NetHound.Soundness.SgIngestion
import NetHound.Soundness.SgUnion
import NetHound.Soundness.StatementSplitting
import NetHound.Soundness.TransitiveRoutes
import NetHound.Soundness.UnresolvedRoutes
import NetHound.Soundness.WorstCase
import NetHound.Soundness.WritableRules
import NetHound.ToMathlib.AlignedBlock
import NetHound.ToMathlib.ExceptRun
import NetHound.ToMathlib.FirstMatch
import NetHound.ToMathlib.InterruptedRuns
import NetHound.ToMathlib.Interruptible
import NetHound.ToMathlib.KeyOrder
import NetHound.ToMathlib.KeyedTable
import NetHound.ToMathlib.Kleene
import NetHound.ToMathlib.ListPieces
import NetHound.ToMathlib.MergeReplay
import NetHound.ToMathlib.OrderFree
import NetHound.ToMathlib.OrderedMap
import NetHound.ToMathlib.TryJoin
