import KapsuleDbusMux.Library.AssocMap
import KapsuleDbusMux.Library.Trace
import KapsuleDbusMux.Routing.RoutingTable
import KapsuleDbusMux.Message
import KapsuleDbusMux.Serial.SerialMap
import KapsuleDbusMux.Serial.Router
import KapsuleDbusMux.Serial.Correlation
import KapsuleDbusMux.Serial.Exactness
import KapsuleDbusMux.Library.Roster
import KapsuleDbusMux.Names.NameQueue
import KapsuleDbusMux.Names.QueueSpec
import KapsuleDbusMux.Names.Ownership
import KapsuleDbusMux.Matching.MatchRule
import KapsuleDbusMux.Matching.Subscriptions
import KapsuleDbusMux.Multiplexer.ClientInfo
import KapsuleDbusMux.Matching.Accounting
import KapsuleDbusMux.Multiplexer.NameTasks
import KapsuleDbusMux.Multiplexer.NameInvariant
import KapsuleDbusMux.Names.ColonNames
import KapsuleDbusMux.Names.Presence
import KapsuleDbusMux.Names.Agreement
import KapsuleDbusMux.Names.OwnedNames
import KapsuleDbusMux.Portal.PortalRequest
import KapsuleDbusMux.Multiplexer.BusMessages
import KapsuleDbusMux.Library.Framing
import KapsuleDbusMux.Client.ReadMessage
import KapsuleDbusMux.Client.InboundFraming
import KapsuleDbusMux.Library.History
import KapsuleDbusMux.Routing.NameHistory
import KapsuleDbusMux.Routing.Connections
import KapsuleDbusMux.Library.Lines
import KapsuleDbusMux.Auth.SaslAuth
import KapsuleDbusMux.Auth.Language
import KapsuleDbusMux.Auth.HandOver
import KapsuleDbusMux.Multiplexer.Driver
import KapsuleDbusMux.Auth.Credentials
import KapsuleDbusMux.Multiplexer.ClientMessages
import KapsuleDbusMux.Multiplexer.Outcome
import KapsuleDbusMux.Multiplexer.Channels
import KapsuleDbusMux.Multiplexer.Loop
import KapsuleDbusMux.Multiplexer.Addressing
import KapsuleDbusMux.Multiplexer.PortalTracking
import KapsuleDbusMux.Names.Queries
import KapsuleDbusMux.Library.Occurrence
import KapsuleDbusMux.Library.Machine
import KapsuleDbusMux.Names.Departures
import KapsuleDbusMux.Names.QueueOrder
import KapsuleDbusMux.Names.Consent
import KapsuleDbusMux.Multiplexer.BusAnswer
import KapsuleDbusMux.Client.FrameLength
import KapsuleDbusMux.Serial.WireClone
import KapsuleDbusMux.Portal.ResponsePath
import KapsuleDbusMux.Matching.RuleText
import KapsuleDbusMux.Library.Edges
import KapsuleDbusMux.Library.Offsets
import KapsuleDbusMux.Matching.References
import KapsuleDbusMux.Matching.Filters
import KapsuleDbusMux.Matching.Arguments
import KapsuleDbusMux.Matching.PathNamespace
import KapsuleDbusMux.Matching.SenderFilter
import KapsuleDbusMux.Matching.ParseOffsets
import KapsuleDbusMux.Matching.KeptFilters
import KapsuleDbusMux.Serial.Interleaving
import KapsuleDbusMux.Auth.UidCodec
import KapsuleDbusMux.Client.SendMessage
import KapsuleDbusMux.Client.OutboundFraming
import KapsuleDbusMux.Multiplexer.Transcript
import KapsuleDbusMux.Multiplexer.RoundTrip
import KapsuleDbusMux.Library.Expiring
import KapsuleDbusMux.Multiplexer.Expiry
import KapsuleDbusMux.Routing.Startup
import KapsuleDbusMux.Matching.Relay
import KapsuleDbusMux.Library.Locks
import KapsuleDbusMux.Multiplexer.Locking
import KapsuleDbusMux.Multiplexer.System
import KapsuleDbusMux.Multiplexer.NameView
import KapsuleDbusMux.Multiplexer.Refinement
import KapsuleDbusMux.Names.Settling
import KapsuleDbusMux.Library.Coupling
import KapsuleDbusMux.Auth.Segmentation
import KapsuleDbusMux.Multiplexer.WholeLoop
import KapsuleDbusMux.Multiplexer.Pipeline
