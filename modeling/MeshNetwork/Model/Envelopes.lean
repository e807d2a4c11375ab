import MeshNetwork.Model.Connection
import MeshNetwork.Model.PacketWire
import MeshNetwork.Model.Router

/-!
# The envelopes of a connection

The constructors of `src/mesh/proto_types/EnvelopeUtils.cpp`, the envelopes that `MeshRouter` builds
itself, and the calls by which the program uses a connection: its own thread and its session, the
heartbeats of `RpcManager` and the packets of `MeshRouter`.
-/

namespace MeshNetwork

/-- A value of `generate_uuid_bytes`. -/
structure Uuid where
  bytes : Bytes
  size : bytes.length = 16

/-- The nil id. -/
instance : Inhabited Uuid := ⟨⟨List.replicate 16 0, List.length_replicate⟩⟩

/-! ## Constructors -/

section Constructors

variable (codec : EnvelopeCodec) (msgId : Uuid) (sender recipient : WireAddress)

def makeHandshakeRequest (peerId : PeerId) : Envelope :=
  { msgId := msgId.bytes, sender, recipient, type := .handshake,
    payload := codec.serializeHandshake ⟨meshVersion, ⟨peerId, sender⟩⟩, expectResponse := true }

def makeHandshakeResponse (peerId : PeerId) : Envelope :=
  { msgId := msgId.bytes, sender, recipient, type := .handshake,
    payload := codec.serializeHandshake ⟨meshVersion, ⟨peerId, sender⟩⟩, expectResponse := false }

def makeHeartbeatRequest : Envelope :=
  { msgId := msgId.bytes, sender, recipient, type := .heartbeat, payload := []
    expectResponse := true }

def makeHeartbeatResponse : Envelope :=
  { msgId := msgId.bytes, sender, recipient, type := .heartbeat, payload := []
    expectResponse := false }

def makeGenericData (payload : Bytes) : Envelope :=
  { msgId := msgId.bytes, type := .data, payload, expectResponse := false }

end Constructors

/-- The envelope of `send_triggered_updates` and of `broadcast_full_table`: only type and payload
are set. -/
def updateEnvelope (ord : IterOrder PeerId) (pkt : RoutedPacket) : Envelope :=
  { msgId := [], type := .data, payload := serializePacket ord pkt {}, expectResponse := false }

/-! ## Calls -/

/-- The paths by which the program sends an envelope on a connection, and its other events. -/
inductive ProgramEvent where
  /-- `send_heartbeats`. -/
  | heartbeat (msgId : Uuid)
  /-- `route_data_packet`. -/
  | forwardPacket (msgId : Uuid) (ord : IterOrder PeerId) (forwardPkt : RoutedPacket)
      (unknown : UnknownFields)
  | triggeredUpdate (ord : IterOrder PeerId) (pktId : Uuid) (self neighborId : PeerId)
      (update : RouteTable)
  | fullTable (ord : IterOrder PeerId) (pktId : Uuid) (self neighborId : PeerId)
      (update : RouteTable)
  /-- `send_handshake_request`, or the wait of the acceptor. -/
  | awaitRemote (msgId : Uuid)
  /-- The handler runs for a message of the remote, and answers it. -/
  | dispatch (sinkAlive : Bool)
  | message (msgId payload : Bytes)
  | start (initiator : Bool)
  | resume
  | startTimeout (ord : IterOrder Bytes)
  | timerExpires (n : Nat)
  | timerHandler (n : Nat)
  | shutdown (ord : IterOrder Bytes)

def ProgramEvent.onConnection (s : RpcConnection.State) : ProgramEvent → ConnectionEvent
  | .heartbeat msgId => .sendMessage (makeHeartbeatRequest msgId s.getLocalPeerIp s.getRemotePeerIp)
  | .forwardPacket msgId ord forwardPkt unknown =>
    .sendMessage (makeGenericData msgId (serializePacket ord forwardPkt unknown))
  | .triggeredUpdate ord pktId self neighborId update =>
    .sendMessage (updateEnvelope ord (makeRoutingTableRoutedPacket pktId.bytes self neighborId
      defaultTtl update))
  | .fullTable ord pktId self neighborId update =>
    .sendMessage (updateEnvelope ord (makeRoutingTableRoutedPacket pktId.bytes self neighborId
      15 update))
  | .awaitRemote msgId => .awaitRemote msgId.bytes
  | .dispatch sinkAlive => .dispatch sinkAlive
  | .message msgId payload => .message msgId payload
  | .start initiator => .start initiator
  | .resume => .resume
  | .startTimeout ord => .startTimeout ord
  | .timerExpires n => .timerExpires n
  | .timerHandler n => .timerHandler n
  | .shutdown ord => .shutdown ord

def RpcConnection.State.programStep (codec : EnvelopeCodec) (s : State)
    (event : ProgramEvent) : State :=
  s.step codec (event.onConnection s)

end MeshNetwork
