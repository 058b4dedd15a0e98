import SecureTelemetryGateway.Containers.Linearizable
import SecureTelemetryGateway.Security.Failures
import SecureTelemetryGateway.Utils.Wakeups
import SecureTelemetryGateway.Utils.Shutdown
import SecureTelemetryGateway.Utils.Progress
import SecureTelemetryGateway.Storage.StatementSafety
import SecureTelemetryGateway.Storage.BatchAtomicity
import SecureTelemetryGateway.Storage.Recovery
import SecureTelemetryGateway.Storage.Handles
import SecureTelemetryGateway.Storage.Serialization
import SecureTelemetryGateway.Storage.Query
import SecureTelemetryGateway.Storage.Resolution
import SecureTelemetryGateway.Storage.TextColumns
import SecureTelemetryGateway.Ros.Escapes
import SecureTelemetryGateway.Ros.Coverage
import SecureTelemetryGateway.Ros.RateLimit
import SecureTelemetryGateway.Ros.Delivery
import SecureTelemetryGateway.Ros.Envelope
import SecureTelemetryGateway.Ros.TopLevel
import SecureTelemetryGateway.Publisher.MockTelemetryPublisher
import SecureTelemetryGateway.Utils.Lookup
import SecureTelemetryGateway.Ros.Integrity
import SecureTelemetryGateway.Ros.Progress
import SecureTelemetryGateway.Ros.Rejection
import SecureTelemetryGateway.Ros.EndToEnd
import SecureTelemetryGateway.Main
import SecureTelemetryGateway.Storage.AppendOnly
import SecureTelemetryGateway.Publisher.NonceReuse
import SecureTelemetryGateway.Utils.ConfigThreads
import SecureTelemetryGateway.Security.Soundness
import SecureTelemetryGateway.Scripts.MockTelemetryClient
import SecureTelemetryGateway.Storage.Accuracy
import SecureTelemetryGateway.Ingestion.Pipeline
import SecureTelemetryGateway.Utils.FirstLine
