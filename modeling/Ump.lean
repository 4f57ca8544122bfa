import Ump.Foundation.Interleaving
import Ump.Foundation.Table
import Ump.Foundation.Transaction
import Ump.Foundation.ByteStream
import Ump.Foundation.Dependency
import Ump.Foundation.EdgeTrigger
import Ump.Foundation.FileTree
import Ump.Foundation.Lockstep
import Ump.Foundation.Selection
import Ump.Foundation.Watermark
import Ump.Foundation.Log
import Ump.Foundation.Beginnings
import Ump.Foundation.Merging
import Ump.Foundation.Thread
import Ump.Foundation.RowOrder
import Ump.Foundation.Intervention
import Ump.Foundation.Joint
import Ump.Foundation.Star
import Ump.Foundation.Ownership
import Ump.Foundation.Dictionary
import Ump.Protocol.Json
import Ump.Protocol.Quoting
import Ump.Protocol.Models
import Ump.Protocol.Envelope
import Ump.Coordinator.Store
import Ump.Coordinator.Transitions
import Ump.Coordinator.RunStatus
import Ump.Coordinator.Planning
import Ump.Coordinator.Collaboration
import Ump.Coordinator.Validity
import Ump.Coordinator.Effects
import Ump.Coordinator.Dispatch
import Ump.Coordinator.ActiveDispatch
import Ump.Coordinator.Stranding
import Ump.Coordinator.Atomicity
import Ump.Coordinator.Successors
import Ump.Coordinator.Evidence
import Ump.Coordinator.OutcomeView
import Ump.Coordinator.CancellationOrder
import Ump.Coordinator.Replanning
import Ump.Coordinator.Lineage
import Ump.Coordinator.Batches
import Ump.Coordinator.MessageSize
import Ump.Coordinator.Reports
import Ump.Coordinator.Handlers
import Ump.Delivery.Inbox
import Ump.Delivery.Handoff
import Ump.Delivery.AcknowledgedDurable
import Ump.Delivery.Lanes
import Ump.Delivery.Retry
import Ump.Delivery.Arrivals
import Ump.Delivery.Sequencing
import Ump.Delivery.Outbox
import Ump.Delivery.OutboxLanes
import Ump.Delivery.PeerBatches
import Ump.Delivery.Capacity
import Ump.Delivery.Migration
import Ump.Delivery.Heads
import Ump.Participant.Journal
import Ump.Participant.Runtime
import Ump.Participant.Effects
import Ump.Participant.Execution
import Ump.Participant.Cancellation
import Ump.Participant.Redelivery
import Ump.Participant.Statements
import Ump.Participant.Reservations
import Ump.Participant.Identity
import Ump.Participant.Histories
import Ump.Participant.Successors
import Ump.Participant.Resolution
import Ump.Participant.Agreement
import Ump.Participant.Assigned
import Ump.Participant.SoleIssuer
import Ump.Participant.MemoryJournal
import Ump.Participant.Reopening
import Ump.Participant.SafetyPublication
import Ump.Participant.Announcement
import Ump.Node.Workers
import Ump.Node.Holding
import Ump.Node.Claims
import Ump.Node.Startup
import Ump.Node.Streams
import Ump.Bus.Flush
import Ump.Bus.Fifo
import Ump.Bus.FlushCall
import Ump.Bus.EndToEnd
import Ump.Network.Disclosure
import Ump.Network.Framing
import Ump.Network.ReplayWindow
import Ump.Network.Publish
import Ump.Network.Configuration
import Ump.Network.ConfigurationSchema
import Ump.Registry.CapabilityUnits
import Ump.Registry.UnitPositions
import Ump.Registry.Robots
import Ump.Registry.Decoding
import Ump.Registry.Views
import Ump.Registry.Replay
import Ump.Registry.Convergence
import Ump.Registry.Freshness
import Ump.Registry.Atomicity
import Ump.Registry.Watchdog
import Ump.Integrations.Mapping
import Ump.Integrations.Adapters
import Ump.Integrations.Absence
import Ump.Authority.Leases
import Ump.Authority.Soundness
import Ump.Authority.Audit
import Ump.Authority.Grantors
import Ump.Authority.Listing
import Ump.Foundation.PartialIndex
import Ump.Foundation.Methods
import Ump.Credentials.Generations
import Ump.Credentials.Lifecycle
import Ump.Credentials.Soundness
import Ump.Credentials.Enrolment
import Ump.Credentials.Evaluators
import Ump.Inspector.History
import Ump.Protocol.Canonical
import Ump.Registry.Reencoding
import Ump.Protocol.RoundTrip
import Ump.Protocol.JsonSchema
import Ump.Protocol.PublishedSchema
import Ump.Protocol.Arguments
import Ump.Protocol.Conformance
import Ump.Codec.CodePoints
import Ump.Codec.Trees
import Ump.Codec.Canonical
import Ump.Codec.Reader
import Ump.Codec.Reading
import Ump.Codec.Values
import Ump.Codec.Printing
import Ump.Participant.Twins
import Ump.Participant.TwoJournals
import Ump.Protocol.WireEnvelope
import Ump.Protocol.WireEncoding
import Ump.Protocol.EnvelopeCodec
import Ump.Protocol.FreeForm
import Ump.Network.Columns
import Ump.Participant.Messages
import Ump.Delivery.Connection
import Ump.Mission.Agreement
import Ump.Mission.Dependencies
import Ump.Mission.Issuers
import Ump.Mission.Handling
import Ump.Mission.Leases
import Ump.Foundation.Callbacks
import Ump.Bus.Local
import Ump.Foundation.Directories
import Ump.Codec.Indented
import Ump.Data.Backup
import Ump.Data.Restoration
import Ump.Data.Recovery
import Ump.Delivery.Diagnostics
