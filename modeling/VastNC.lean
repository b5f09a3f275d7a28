import VastNC.Lib.LittleEndian
import VastNC.Lib.Gf256
import VastNC.Lib.TwoSymbolCode
import VastNC.Types
import VastNC.Header
import VastNC.Message
import VastNC.Deserialize
import VastNC.WireFormat
import VastNC.ParserSafety
import VastNC.Kodo
import VastNC.Recoder
import VastNC.Lib.FallibleRun
import VastNC.Listener
import VastNC.PoolInvariant
import VastNC.Dispatch
import VastNC.Decoder
import VastNC.CodingRoundTrip
import VastNC.Consumer
import VastNC.Ordering
import VastNC.LossTolerance
import VastNC.Receiver
import VastNC.RejectedDatagram
import VastNC.ReceiverThrows
import VastNC.DecoderThreads
import VastNC.DecoderBuffers
import VastNC.AddressBook
import VastNC.Framing
import VastNC.UniqueId
import VastNC.Chunking
import VastNC.FramingRoundTrip
import VastNC.Lib.RoundRobin
import VastNC.NetEmu
import VastNC.Area
import VastNC.AreaAgreement
import VastNC.Countdowns
import VastNC.Lib.HandLock
import VastNC.Lib.PairScan
import VastNC.MessageQueue
import VastNC.NeighborNotice
import VastNC.NeighborRefresh
import VastNC.NetUdp
import VastNC.OwnershipInvariants
import VastNC.Publication
import VastNC.Lib.Handover
import VastNC.VsoHandover
import VastNC.SplitOwnership
import VastNC.Matcher
import VastNC.MatcherTables
import VastNC.NeighborTables
import VastNC.RelayRouting
import VastNC.RelayDirectory
import VastNC.RelayQueue
import VastNC.JoinAnnouncement
import VastNC.NodeLifeCycle
import VastNC.OriginReplacement
import VastNC.CandidatePromotion
import VastNC.SubscriptionTransfer
import VastNC.PositionOrder
import VastNC.DecodeScan
import VastNC.Extraction
import VastNC.MessageEquality
import VastNC.SendTargets
import VastNC.ClosestSite
import VastNC.RelayQueries
import VastNC.RelayPointers
import VastNC.RelayIndex
import VastNC.Lib.Block
import VastNC.Serializable
import VastNC.MessageBuffer
import VastNC.BufferDiscipline
import VastNC.OverlapAvoidance
import VastNC.KeepaliveFrame
import VastNC.WorldIds
import VastNC.MatcherExpiry
import VastNC.ReportedNeighbors
import VastNC.Lib.Impaired
import VastNC.Intake
import VastNC.Deferral
import VastNC.DirectedMessage
import VastNC.LoadReaction
import VastNC.Lib.Latest
import VastNC.NeighborRecords
import VastNC.Lib.EventLog
import VastNC.ReplicaRecords
import VastNC.Lib.WordMixing
import VastNC.PacketIds
import VastNC.ExpandingBuffer
import VastNC.Statistics
import VastNC.Lib.Decimal
import VastNC.AddressText
import VastNC.Lib.Draining
import VastNC.CaptureReplay
import VastNC.IdleConnections
import VastNC.Lib.Narrowing
import VastNC.ClockSync
import VastNC.GhostRemoval
import VastNC.Lib.Linked
import VastNC.Diagram
import VastNC.Sweep
import VastNC.BeachLine
import VastNC.SweepBeach
import VastNC.SweepQueue
import VastNC.SweepRep
import VastNC.SweepRun
import VastNC.DiagramShape
import VastNC.DiagramAnswers
import VastNC.SweepOrder
import VastNC.VoronoiCache
import VastNC.HostIds
import VastNC.HostIdAssignment
import VastNC.ClientLifeCycle
import VastNC.ClientRetry
import VastNC.GatewayRequests
import VastNC.RelayService
import VastNC.Lib.Regions
import VastNC.SweepMemory
