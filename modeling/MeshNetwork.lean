import MeshNetwork.Library.AsyncConvergence
import MeshNetwork.Library.AsyncDistanceVector
import MeshNetwork.Library.BigEndian
import MeshNetwork.Library.CauchySystem
import MeshNetwork.Library.DistanceVector
import MeshNetwork.Library.Elimination
import MeshNetwork.Library.EventRuns
import MeshNetwork.Library.FairProgress
import MeshNetwork.Library.Flooding
import MeshNetwork.Library.GeneratorField
import MeshNetwork.Library.KeyLocks
import MeshNetwork.Library.KeyedMachine
import MeshNetwork.Library.Lists
import MeshNetwork.Library.Numerals
import MeshNetwork.Library.OneShot
import MeshNetwork.Library.PrefixCode
import MeshNetwork.Library.ProtobufWire
import MeshNetwork.Library.Quiescence
import MeshNetwork.Library.TaskPool
import MeshNetwork.Library.TimedSet
import MeshNetwork.Library.UnorderedMap
import MeshNetwork.Model.ConnectThreads
import MeshNetwork.Model.Connection
import MeshNetwork.Model.DedupSet
import MeshNetwork.Model.EnvelopeWire
import MeshNetwork.Model.Envelopes
import MeshNetwork.Model.EventLoop
import MeshNetwork.Model.FecChecked
import MeshNetwork.Model.FecCodec
import MeshNetwork.Model.Identity
import MeshNetwork.Model.Link
import MeshNetwork.Model.Network
import MeshNetwork.Model.Node
import MeshNetwork.Model.NodeThreads
import MeshNetwork.Model.Packet
import MeshNetwork.Model.PacketWire
import MeshNetwork.Model.Router
import MeshNetwork.Model.RpcManager
import MeshNetwork.Model.Session
import MeshNetwork.Model.TrackerThreads
import MeshNetwork.Model.UdpSender
import MeshNetwork.Model.UdpTransport
import MeshNetwork.Proofs.Advertisements
import MeshNetwork.Proofs.AnswerDelivery
import MeshNetwork.Proofs.Answers
import MeshNetwork.Proofs.BroadcastCoverage
import MeshNetwork.Proofs.BroadcastOnce
import MeshNetwork.Proofs.BroadcastRequest
import MeshNetwork.Proofs.Confidentiality
import MeshNetwork.Proofs.ConnectAttempts
import MeshNetwork.Proofs.ConnectOnce
import MeshNetwork.Proofs.ConnectionIndex
import MeshNetwork.Proofs.ConnectionRequests
import MeshNetwork.Proofs.ConnectionSteps
import MeshNetwork.Proofs.Convergence
import MeshNetwork.Proofs.DedupSet
import MeshNetwork.Proofs.EnvelopeIds
import MeshNetwork.Proofs.EnvelopeWire
import MeshNetwork.Proofs.EventLoop
import MeshNetwork.Proofs.EventLoopProgress
import MeshNetwork.Proofs.EventualDelivery
import MeshNetwork.Proofs.FecAccesses
import MeshNetwork.Proofs.FecChannel
import MeshNetwork.Proofs.FecDecoder
import MeshNetwork.Proofs.FecEncoder
import MeshNetwork.Proofs.FecEviction
import MeshNetwork.Proofs.FecFrameSizes
import MeshNetwork.Proofs.FecFrames
import MeshNetwork.Proofs.FecReceive
import MeshNetwork.Proofs.FecRestart
import MeshNetwork.Proofs.FecSequencing
import MeshNetwork.Proofs.FecSlots
import MeshNetwork.Proofs.FecStream
import MeshNetwork.Proofs.Forwarding
import MeshNetwork.Proofs.GaloisField
import MeshNetwork.Proofs.GaussDecode
import MeshNetwork.Proofs.GaussSolution
import MeshNetwork.Proofs.Handshake
import MeshNetwork.Proofs.HeartbeatEviction
import MeshNetwork.Proofs.KeyExchange
import MeshNetwork.Proofs.KnownPeers
import MeshNetwork.Proofs.LinkAgreement
import MeshNetwork.Proofs.LinkProgress
import MeshNetwork.Proofs.LoopFreedom
import MeshNetwork.Proofs.ManagerSteps
import MeshNetwork.Proofs.NeighborViews
import MeshNetwork.Proofs.NetworkStep
import MeshNetwork.Proofs.NodeCalls
import MeshNetwork.Proofs.NodeSteps
import MeshNetwork.Proofs.NodeTraffic
import MeshNetwork.Proofs.PendingMessages
import MeshNetwork.Proofs.RelayedCopies
import MeshNetwork.Proofs.RelayedOnce
import MeshNetwork.Proofs.Relaying
import MeshNetwork.Proofs.RouteConvergence
import MeshNetwork.Proofs.RouteHistory
import MeshNetwork.Proofs.RouteKnowledge
import MeshNetwork.Proofs.RouterInvariant
import MeshNetwork.Proofs.RoutingTable
import MeshNetwork.Proofs.RoutingUpdate
import MeshNetwork.Proofs.SessionReader
import MeshNetwork.Proofs.SessionRoundTrip
import MeshNetwork.Proofs.SessionWrites
import MeshNetwork.Proofs.ThreadRuns
import MeshNetwork.Proofs.TrackedRequests
import MeshNetwork.Proofs.TrackerSteps
import MeshNetwork.Proofs.Traffic
import MeshNetwork.Proofs.TrustedKeys
import MeshNetwork.Proofs.UdpAttribution
import MeshNetwork.Proofs.UdpFormats
import MeshNetwork.Proofs.UdpSenders
import MeshNetwork.Proofs.UdpStream
import MeshNetwork.Proofs.UnicastDelivery
import MeshNetwork.Proofs.UnicastJourney
import MeshNetwork.Proofs.UnusableCertificates
import MeshNetwork.Proofs.VerifiedContent
import MeshNetwork.Proofs.WaitingPackets
