import Metering.Clock
import Metering.Collector.Service
import Metering.Collector.Thread
import Metering.Proofs.Collector.Observations
import Metering.Proofs.Collector.Thread
import Metering.Proofs.Decimal.Digits
import Metering.Proofs.Decimal.Numeral
import Metering.Proofs.Double.Nearest
import Metering.Proofs.Double.Notation
import Metering.Proofs.Double.Numeral
import Metering.Proofs.Double.Shortest
import Metering.Proofs.Json.Basic
import Metering.Proofs.Json.Members
import Metering.Proofs.Json.Piece
import Metering.Proofs.Json.Token
import Metering.Proofs.Metric
import Metering.Proofs.Metric.Holding
import Metering.Proofs.Registry.Merge
import Metering.Proofs.Registry.Past
import Metering.Proofs.Registry.Sound
import Metering.Proofs.Registry.Update
import Metering.Proofs.Registry.Window
import Metering.Proofs.Registry.World
import Metering.Proofs.Snapshot.RoundTrip
import Metering.Proofs.Snapshot.Validation
import Metering.Proofs.Snapshot.Wire
import Metering.Proofs.Tracked.Observed
import Metering.Proofs.Tracked.Sound
import Metering.Proofs.Registry.Monoid
import Metering.Proofs.Registry.Total
import Metering.Proofs.Registry.Transfer
import Metering.Proofs.Registry.Count
import Metering.Proofs.Collector.Delivery
import Metering.Proofs.Collector.Threshold
import Metering.Proofs.Registry.Complete
import Metering.Proofs.Outbox.Journal
import Metering.Proofs.Collector.Stopped
import Metering.Proofs.Collector.Invisible
import Metering.Proofs.Collector.Received
import Metering.Proofs.Collector.Shutdown
import Metering.Proofs.Registry.Arrival
import Metering.Proofs.Double.Integer
import Metering.Proofs.Metric.Whole
import Metering.Proofs.Json.Around
import Metering.Proofs.Snapshot.Slot
import Metering.Proofs.Snapshot.Whole
import Metering.Proofs.Outbox.Jobs
import Metering.Proofs.Metric.Routes
import Metering.Proofs.Registry.Counter
import Metering.Proofs.Config
import Metering.Proofs.Snapshot.Spelling
