import EchoMetrics.Endpoint
import EchoMetrics.Exposition.Reader
import EchoMetrics.Line.Grammar
import EchoMetrics.Main
import EchoMetrics.Registry.Access
import EchoMetrics.Registry.History
import EchoMetrics.Service
import EchoMetrics.Supervision.Pipeline
import EchoMetrics.Supervision.Schedule
import EchoMetrics.Supervision.Threads
import EchoMetrics.Proofs.Registry.Replay
import EchoMetrics.Proofs.Binary.Arithmetic
import EchoMetrics.Proofs.Decimal.Numeral
import EchoMetrics.Proofs.Line.Measurement
import EchoMetrics.Proofs.Line.Prefix
import EchoMetrics.Proofs.Line.Probe
import EchoMetrics.Proofs.Line.Source
import EchoMetrics.Proofs.Line.Summary
import EchoMetrics.Proofs.Supervision.Course
import EchoMetrics.Proofs.Supervision.Delivery
import EchoMetrics.Proofs.Supervision.Lifecycle
import EchoMetrics.Proofs.Supervision.Probers
import EchoMetrics.Proofs.Supervision.Shutdown
import EchoMetrics.Proofs.Supervision.Script
import EchoMetrics.Proofs.Supervision.Conduct
import EchoMetrics.Proofs.Line.Moment
import EchoMetrics.Proofs.Registry.Independence
import EchoMetrics.Proofs.Registry.Keyed
import EchoMetrics.Proofs.Exposition.Visible
import EchoMetrics.Proofs.Registry.Merge
import EchoMetrics.Proofs.Binary.Overflow
import EchoMetrics.Proofs.Exposition.Encoding
import EchoMetrics.Proofs.Exposition.Limit
import EchoMetrics.Proofs.Supervision.Budget
import EchoMetrics.Proofs.Exposition.Reading
import EchoMetrics.Exposition.Catalogue
import EchoMetrics.Proofs.Exposition.Series
import EchoMetrics.Proofs.Exposition.Catalogue
import EchoMetrics.Proofs.Exposition.Gauges
import EchoMetrics.Proofs.Binary.Nearest
import EchoMetrics.Proofs.Binary.Order
import EchoMetrics.Proofs.Registry.Growth
import EchoMetrics.Proofs.Exposition.Counters
import EchoMetrics.Proofs.Service.Serving
import EchoMetrics.Proofs.Binary.Product
import EchoMetrics.Proofs.Supervision.Failure
import EchoMetrics.Proofs.Settings.Fields
import EchoMetrics.Proofs.Service.Foreseen
import EchoMetrics.Proofs.Service.ExitCode
import EchoMetrics.Proofs.Registry.Accounting
import EchoMetrics.Proofs.Binary.Difference
import EchoMetrics.Proofs.Registry.Looks
import EchoMetrics.Proofs.Binary.Doubling
import EchoMetrics.Proofs.Supervision.Delays
import EchoMetrics.Proofs.Line.Report
import EchoMetrics.Proofs.Line.Stamp
import EchoMetrics.Proofs.Line.Invariants
import EchoMetrics.Proofs.Field.Faults
import EchoMetrics.Proofs.Settings.Precedence
import EchoMetrics.Proofs.Decimal.Canonical
import EchoMetrics.Proofs.Settings.Command
import EchoMetrics.Proofs.Prober.Announcement
import EchoMetrics.Proofs.Prober.Version
import EchoMetrics.Proofs.Prober.Call
import EchoMetrics.Proofs.Service.Startup
import EchoMetrics.Proofs.Endpoint.Routing
import EchoMetrics.Proofs.Endpoint.Health
import EchoMetrics.Proofs.Field.Declaration
import EchoMetrics.Proofs.Sample.Validation
import EchoMetrics.Proofs.Settings.TargetList
