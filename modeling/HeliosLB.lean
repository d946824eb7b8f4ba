import HeliosLB.Admission.Accepted
import HeliosLB.Admission.Mapped
import HeliosLB.Admission.Overlap
import HeliosLB.Admission.Schema
import HeliosLB.Admission.Webhook
import HeliosLB.Balancer.Algorithms
import HeliosLB.Balancer.Fairness
import HeliosLB.Balancer.Flags
import HeliosLB.Balancer.HealthCheck
import HeliosLB.Balancer.Isolation
import HeliosLB.Balancer.Lifecycle
import HeliosLB.Balancer.LoadBalancer
import HeliosLB.Balancer.Metrics
import HeliosLB.Balancer.Proportion
import HeliosLB.Balancer.Selection
import HeliosLB.Balancer.Stop
import HeliosLB.Cluster.Api
import HeliosLB.Cluster.Objects
import HeliosLB.Controller.Coexistence
import HeliosLB.Controller.Commute
import HeliosLB.Controller.Conflicts
import HeliosLB.Controller.Filling
import HeliosLB.Controller.Health
import HeliosLB.Controller.IPManager
import HeliosLB.Controller.IPManagerSpec
import HeliosLB.Controller.Idempotent
import HeliosLB.Controller.Plan
import HeliosLB.Controller.Reconcile
import HeliosLB.Controller.ReconcileSpec
import HeliosLB.Controller.Report
import HeliosLB.Controller.Requests
import HeliosLB.Controller.Restart
import HeliosLB.Controller.Rewrites
import HeliosLB.Controller.Rollback
import HeliosLB.Controller.ServiceFilter
import HeliosLB.Controller.Telemetry
import HeliosLB.Controller.Watch
import HeliosLB.Go.NetIP
import HeliosLB.Go.RoundTrip
import HeliosLB.Lib.BigEndian
import HeliosLB.Lib.Holdings
import HeliosLB.Lib.Ledger
import HeliosLB.Lib.Runs
import HeliosLB.Lib.Shares
import HeliosLB.Lib.Store
import HeliosLB.Lib.StoreRel
import HeliosLB.Lib.Versioned
import HeliosLB.Network.Allocator
import HeliosLB.Network.Arithmetic
import HeliosLB.Network.Blocks
import HeliosLB.Network.Families
import HeliosLB.Network.FirstFit
import HeliosLB.Network.Lease
import HeliosLB.Network.Parse
import HeliosLB.Network.RangeText
import HeliosLB.Network.Ranges
import HeliosLB.Network.Window
import HeliosLB.System.Admission
import HeliosLB.System.Cleanup
import HeliosLB.System.Coherence
import HeliosLB.System.Finalizer
import HeliosLB.System.Leaks
import HeliosLB.System.MapOrder
import HeliosLB.System.Operation
import HeliosLB.System.Quota
import HeliosLB.System.Recorded
import HeliosLB.System.Records
import HeliosLB.System.Restarts
import HeliosLB.System.Stability
import HeliosLB.System.StaleReads
import HeliosLB.System.Starvation
import HeliosLB.System.Steps
import HeliosLB.System.Telemetry
import HeliosLB.System.Unique
import HeliosLB.System.Work
