import MeshNetwork.Model.Identity
import MeshNetwork.Model.Network

/-!
# The node

`AsyncRequestTracker` and `MeshNode`: the sending functions, the handling of incoming packets and
the key exchange. A call of the node runs on a `NodeCall`, which collects the packets it hands to
the router; protobuf messages are their serialized bytes, and their codecs are parameters. Timers
and logging are left out: an expired timer is an event.
-/

namespace MeshNetwork

/-- The codecs of the protobuf messages with built-in handlers. `IdentityRequest` and
`IdentityResponse` both hold one certificate. -/
structure Protobuf where
  parseIdentity : Bytes → Option Bytes
  serializeIdentity : (certificatePem : Bytes) → Bytes
  parsePing : Bytes → Option String
  serializePing : (message : String) → Bytes
  parseTopologyRequest : Bytes → Bool
  serializeTopologyResponse : (directlyConnectedPeers : List PeerId) → Bytes

structure Libraries extends OpenSsl, Protobuf

def identityRequestSubtype : String := "mesh.IdentityRequest"

def identityResponseSubtype : String := "mesh.IdentityResponse"

/-! ## Requests -/

/-- The callback of a tracked request: the one of `send_identity_request`, or one of the
application. -/
inductive RequestCallback where
  | identityResponse
  | application (tag : Nat)
  deriving DecidableEq, Repr

structure AsyncRequestTracker where
  pendingRequests : UMap String RequestCallback := ∅
  broadcasts : Finset String := ∅

namespace AsyncRequestTracker

def trackBroadcast (t : AsyncRequestTracker) (reqId : String) : AsyncRequestTracker :=
  { t with broadcasts := insert reqId t.broadcasts }

def trackRequestCallback (t : AsyncRequestTracker) (reqId : String) (callback : RequestCallback) :
    AsyncRequestTracker :=
  { t with pendingRequests := t.pendingRequests.insert reqId callback }

/-- The callback to run, if the request is still pending. -/
def completeRequest (t : AsyncRequestTracker) (reqId : String) :
    Option RequestCallback × AsyncRequestTracker :=
  match t.pendingRequests.lookup reqId with
  | none => (none, t)
  | some cb => (some cb, { t with pendingRequests := t.pendingRequests.erase reqId })

/-- What a payload for `reqId` is for. -/
inductive Fulfilled where
  | request (cb : RequestCallback)
  | broadcast
  | nothing

def fulfillRequest (t : AsyncRequestTracker) (reqId : String) : Fulfilled × AsyncRequestTracker :=
  match t.completeRequest reqId with
  | (some cb, t) => (.request cb, t)
  | (none, t) => if reqId ∈ t.broadcasts then (.broadcast, t) else (.nothing, t)

/-- The timer of a broadcast has expired. -/
def completeBroadcast (t : AsyncRequestTracker) (reqId : String) : AsyncRequestTracker :=
  { t with broadcasts := t.broadcasts.erase reqId }

end AsyncRequestTracker

/-! ## State -/

/-- Calls of application code. -/
inductive AppCall where
  | response (tag : Nat) (sender : PeerId) (rawBytes : Option Bytes)
  | encryptionError (tag : Nat) (dest : PeerId)
  | onResponse (reqId : String) (sender : PeerId) (rawBytes : Bytes)
  | onComplete (reqId : String)
  | handler (subtype : String) (sender : PeerId) (rawBytes : Bytes)
  deriving DecidableEq

/-- The handlers of `setup_builtin_handlers`, and those of the application by the replies they
send. -/
inductive Handler where
  | topologyRequest
  | pingRequest
  | identityRequest
  | heartbeat
  | application (replies : PeerId → Bytes → List Bytes)

structure HandlerInfo where
  responseSubtype : Option String
  handler : Handler

def setupBuiltinHandlers : UMap String HandlerInfo :=
  (((AList.singleton "mesh.TopologyRequest" ⟨some "mesh.TopologyResponse", .topologyRequest⟩ :
    UMap String HandlerInfo).insert "mesh.PingRequest"
      ⟨some "mesh.PingResponse", .pingRequest⟩).insert
    identityRequestSubtype ⟨some identityResponseSubtype, .identityRequest⟩).insert
    "mesh.Heartbeat" ⟨none, .heartbeat⟩

structure NodeState where
  peerId : PeerId
  encryptMessages : Bool
  ignoreAllIncomingMessages : Bool := false
  idRequestCooldowns : UMap PeerId Time := ∅
  identity : IdentityManager := {}
  requestTracker : AsyncRequestTracker := {}
  handlers : UMap String HandlerInfo := setupBuiltinHandlers
  calls : List AppCall := []

/-- A call of the node in progress: the packets it has given to the router, and how many packet ids
and random values it has drawn. -/
structure NodeCall where
  node : NodeState
  sent : List RoutedPacket := []
  uuids : Nat := 0
  draws : Nat := 0

namespace NodeCall

variable (lib : Libraries) (env : StepEnv)

def sendPacket (call : NodeCall) (pkt : RoutedPacket) : NodeCall :=
  { call with sent := call.sent ++ [pkt] }

def record (call : NodeCall) (appCall : AppCall) : NodeCall :=
  { call with node := { call.node with calls := call.node.calls ++ [appCall] } }

def setIdentity (call : NodeCall) (im : IdentityManager) : NodeCall :=
  { call with node := { call.node with identity := im } }

def setTracker (call : NodeCall) (t : AsyncRequestTracker) : NodeCall :=
  { call with node := { call.node with requestTracker := t } }

/-- `MakeBinaryRoutedPacket` with the node's own id. -/
def makePacket (call : NodeCall) (destId : PeerId) (ttl : UInt32) (subtype : String)
    (protocol : TransportProtocol) (rawData : Bytes := []) (expectResponse : Bool := false) :
    RoutedPacket × NodeCall :=
  (makeBinaryRoutedPacket (env.uuid call.uuids) call.node.peerId destId ttl subtype protocol rawData
    expectResponse, { call with uuids := call.uuids + 1 })

def nonces (call : NodeCall) : Nonces :=
  ⟨env.random call.draws, env.random (call.draws + 1), env.random (call.draws + 2)⟩

def secure (call : NodeCall) (pkt : RoutedPacket) (target : PeerId) (payload : Bytes) :
    Option RoutedPacket × NodeCall :=
  (securePacket lib.toOpenSsl call.node.identity (call.nonces env) pkt target payload,
    { call with draws := call.draws + 3 })

/-- Encrypt a packet and hand it to the router; a packet that cannot be encrypted is dropped. -/
def secureAndSend (call : NodeCall) (pkt : RoutedPacket) (target : PeerId)
    (payload : Bytes) : NodeCall :=
  let (secured, call) := call.secure lib env pkt target payload
  match secured with
  | none => call
  | some pkt => call.sendPacket pkt

/-! ## Sending -/

def shouldSendIdentityRequest (call : NodeCall) (peerId : PeerId) : Bool × NodeCall :=
  let now := env.clock 1
  let blocked := match call.node.idRequestCooldowns.lookup peerId with
    | none => false
    | some lastRequestTime => decide ((now - lastRequestTime) / seconds 1 < 5)
  if blocked then (false, call)
  else
    (true, { call with node :=
      { call.node with idRequestCooldowns := call.node.idRequestCooldowns.insert peerId now } })

/-- The part of `send_request_async` for requests that are not encrypted. -/
def sendPlainRequest (call : NodeCall) (destId : PeerId) (subtype : String) (serialized : Bytes)
    (callback : RequestCallback) (protocol : TransportProtocol) : NodeCall :=
  let (pkt, call) := call.makePacket env destId defaultTtl subtype protocol serialized true
  let call :=
    call.setTracker (call.node.requestTracker.trackRequestCallback (toHex pkt.id) callback)
  call.sendPacket pkt

/-- `send_identity_request`: an identity request is never encrypted. -/
def sendIdentityRequest (call : NodeCall) (dest : PeerId) : NodeCall :=
  call.sendPlainRequest env dest identityRequestSubtype
    (lib.serializeIdentity call.node.identity.myCert)
    .identityResponse .tcp

/-- `if (should_send_identity_request(peer_id)) send_identity_request(peer_id);` -/
def askIdentity (call : NodeCall) (peerId : PeerId) : NodeCall :=
  let (ask, call) := call.shouldSendIdentityRequest env peerId
  if ask then call.sendIdentityRequest lib env peerId else call

/-- A packet waits for the key of its destination. -/
def postpone (call : NodeCall) (destId : PeerId) (pkt : RoutedPacket) : NodeCall :=
  (call.setIdentity (call.node.identity.bufferOutgoingPacket destId pkt)).askIdentity lib env destId

def sendText (call : NodeCall) (remoteId : PeerId) (text : String) : NodeCall :=
  { call with uuids := call.uuids + 1 }.sendPacket
    (makeTextRoutedPacket (env.uuid call.uuids) call.node.peerId remoteId defaultTtl text)

def sendMessage (call : NodeCall) (destId : PeerId) (subtype : String) (serialized : Bytes)
    (protocol : TransportProtocol) : NodeCall :=
  if call.node.encryptMessages ∧ subtype ≠ identityRequestSubtype then
    let (pkt, call) := call.makePacket env destId defaultTtl subtype protocol
    if !call.node.identity.hasKey destId then call.postpone lib env destId pkt
    else call.secureAndSend lib env pkt destId serialized
  else
    let (pkt, call) := call.makePacket env destId defaultTtl subtype protocol serialized
    call.sendPacket pkt

def broadcastMessage (call : NodeCall) (subtype : String) (serialized : Bytes)
    (protocol : TransportProtocol) : NodeCall :=
  let (pkt, call) := call.makePacket env "" defaultTtl subtype protocol serialized
  call.sendPacket pkt

def sendRequestAsync (call : NodeCall) (destId : PeerId) (subtype : String) (serialized : Bytes)
    (tag : Nat) (protocol : TransportProtocol) : NodeCall :=
  if call.node.encryptMessages ∧ subtype ≠ identityRequestSubtype then
    let (pkt, call) := call.makePacket env destId defaultTtl subtype protocol [] true
    let tracker := call.node.requestTracker.trackRequestCallback (toHex pkt.id) (.application tag)
    if !call.node.identity.hasKey destId then (call.setTracker tracker).postpone lib env destId pkt
    else
      let (secured, call) := call.secure lib env pkt destId serialized
      match secured with
      | none => call.record (.encryptionError tag destId)
      | some pkt => (call.setTracker tracker).sendPacket pkt
  else call.sendPlainRequest env destId subtype serialized (.application tag) protocol

def broadcastRequest (call : NodeCall) (subtype : String) (serialized : Bytes)
    (protocol : TransportProtocol) : NodeCall :=
  let (pkt, call) := call.makePacket env "" 15 subtype protocol serialized true
  let call := call.setTracker (call.node.requestTracker.trackBroadcast (toHex pkt.id))
  call.sendPacket pkt

/-! ## Receiving -/

/-- The `reply_cb` given to the handler of `pkt`. -/
def reply (pkt : RoutedPacket) (responseSubtype : Option String) (call : NodeCall)
    (responsePayload : Bytes) : NodeCall :=
  if !pkt.expectResponse then call
  else
    let subtype := responseSubtype.getD ""
    let (resp, call) := call.makePacket env pkt.fromPeerId 15 subtype pkt.transport responsePayload
    let resp := { resp with id := pkt.id }
    if call.node.encryptMessages ∧ ¬(subtype = identityRequestSubtype ∨
      subtype = identityResponseSubtype) then
      call.secureAndSend lib env resp pkt.fromPeerId responsePayload
    else call.sendPacket { resp with payload := .binaryData responsePayload }

def handlePendingOutgoingPackets (call : NodeCall) (dest : PeerId) : NodeCall :=
  let (packets, im) := call.node.identity.popOutgoingPendingPackets dest
  packets.foldl (fun call pkt => call.secureAndSend lib env pkt pkt.toPeerId pkt.binaryData)
    (call.setIdentity im)

/-- A certificate arrived from `peer`. The packets that wait for its key are handled, the incoming
ones by `pending`. -/
def learnKey (pending : NodeCall → PeerId → NodeCall) (call : NodeCall) (peer : PeerId)
    (certificatePem : Bytes) : NodeCall :=
  let pubKey := extractPubkeyFromCert lib.toOpenSsl certificatePem
  let call := call.setIdentity (call.node.identity.addTrustedPeer peer pubKey)
  (pending call peer).handlePendingOutgoingPackets lib env peer

def runHandler (router : RouterState) (pending : NodeCall → PeerId → NodeCall) (call : NodeCall)
    (info : HandlerInfo) (pkt : RoutedPacket) : NodeCall :=
  match info.handler with
  | .topologyRequest =>
    if lib.parseTopologyRequest pkt.binaryData then
      call.reply lib env pkt info.responseSubtype
        (lib.serializeTopologyResponse (router.getDirectNeighbors call.node.peerId env.order))
    else call
  | .pingRequest =>
    match lib.parsePing pkt.binaryData with
    | none => call
    | some _ =>
      call.reply lib env pkt info.responseSubtype
        (lib.serializePing ("hello from" ++ call.node.peerId))
  | .identityRequest =>
    match lib.parseIdentity pkt.binaryData with
    | none => call
    | some certificatePem =>
      let call := call.learnKey lib env pending pkt.fromPeerId certificatePem
      call.reply lib env pkt info.responseSubtype (lib.serializeIdentity call.node.identity.myCert)
  | .heartbeat => call
  | .application replies =>
    (replies pkt.fromPeerId pkt.binaryData).foldl (NodeCall.reply lib env pkt info.responseSubtype)
      (call.record (.handler pkt.subtype pkt.fromPeerId pkt.binaryData))

/-- The callback of a tracked request, for a response of `sender`. -/
def runCallback (pending : NodeCall → PeerId → NodeCall) (call : NodeCall) (cb : RequestCallback)
    (sender : PeerId) (rawBytes : Bytes) : NodeCall :=
  match cb with
  | .application tag => call.record (.response tag sender (some rawBytes))
  | .identityResponse =>
    match lib.parseIdentity rawBytes with
    | none => call
    | some certificatePem => call.learnKey lib env pending sender certificatePem

/-- The part of `handle_incoming_packet` after the decryption. -/
def dispatch (router : RouterState) (pending : NodeCall → PeerId → NodeCall) (call : NodeCall)
    (pkt : RoutedPacket) : NodeCall :=
  match call.node.requestTracker.fulfillRequest (toHex pkt.id) with
  | (.request cb, t) =>
    (call.setTracker t).runCallback lib env pending cb pkt.fromPeerId pkt.binaryData
  | (.broadcast, t) =>
    (call.setTracker t).record (.onResponse (toHex pkt.id) pkt.fromPeerId pkt.binaryData)
  | (.nothing, _) =>
    if pkt.type = .binary then
      match call.node.handlers.lookup pkt.subtype with
      | none => call
      | some info => call.runHandler lib env router pending info pkt
    else call

/-- A packet that cannot be decrypted yet. -/
def bufferIncoming (call : NodeCall) (pkt : RoutedPacket) : NodeCall :=
  (call.setIdentity (call.node.identity.bufferIncomingPacket pkt.fromPeerId pkt)).askIdentity lib
    env
    pkt.fromPeerId

/-- The packet with its plaintext in place of the ciphertext. -/
def decrypted (pkt : RoutedPacket) (plaintext : Bytes) : RoutedPacket :=
  { pkt with payload := .binaryData plaintext, signature := [], encryptedSessionKey := [] }

/-- `handle_incoming_packet`; the packet may be changed in place. -/
def handleWith (router : RouterState) (pending : NodeCall → PeerId → NodeCall) (call : NodeCall)
    (pkt : RoutedPacket) : NodeCall × RoutedPacket :=
  if call.node.ignoreAllIncomingMessages then (call, pkt)
  else if pkt.hasEncryptedPayload then
    if !call.node.identity.hasKey pkt.fromPeerId then (call.bufferIncoming lib env pkt, pkt)
    else
      match decryptPacket lib.toOpenSsl call.node.identity pkt with
      | .error _ => (call, pkt)
      | .ok plaintext =>
        (call.dispatch lib env router pending (decrypted pkt plaintext), decrypted pkt plaintext)
  else (call.dispatch lib env router pending pkt, pkt)

/-- The number of incoming packets that wait for a key. -/
def buffered (call : NodeCall) : Nat :=
  (call.node.identity.pendingIncomingPackets.entries.map fun e => e.2.length).sum

/-- `handle_pending_incoming_packets`, nested at most `depth` times in itself. -/
def handlePendingIncomingPackets (router : RouterState) : Nat → NodeCall → PeerId → NodeCall
  | 0, call, _ => call
  | depth + 1, call, src =>
    let (packets, im) := call.node.identity.popIncomingPendingPackets src
    packets.foldl
      (fun call pkt => (call.handleWith lib env router
        (handlePendingIncomingPackets router depth) pkt).1)
      (call.setIdentity im)

/-- Every nesting takes a waiting packet, so `buffered` bounds the depth. -/
def handleIncomingPacket (router : RouterState) (call : NodeCall) (pkt : RoutedPacket) :
    NodeCall × RoutedPacket :=
  call.handleWith lib env router (handlePendingIncomingPackets lib env router (call.buffered + 1))
    pkt

end NodeCall

/-! ## The node as the owner of a router -/

/-- The callback that the constructor gives to `set_on_packet_for_me`. -/
def onPacketForMe (lib : Libraries) : OnPacketForMe NodeState := fun env node router pkt =>
  let r := NodeCall.handleIncomingPacket lib env router { node } pkt
  (r.1.node, r.2, r.1.sent)

inductive NodeEvent where
  | incoming (router : RouterState) (pkt : RoutedPacket)
  | sendText (remoteId : PeerId) (text : String)
  | sendMessage (destId : PeerId) (subtype : String) (serialized : Bytes)
      (protocol : TransportProtocol)
  | broadcastMessage (subtype : String) (serialized : Bytes) (protocol : TransportProtocol)
  | sendRequestAsync (destId : PeerId) (subtype : String) (serialized : Bytes) (tag : Nat)
      (protocol : TransportProtocol)
  | broadcastRequest (subtype : String) (serialized : Bytes) (protocol : TransportProtocol)
  | requestTimeout (reqId : String)
  | broadcastTimeout (reqId : String)
  | on (subtype : String) (responseSubtype : Option String) (replies : PeerId → Bytes → List Bytes)
  | setBlockAllMessages (block : Bool)

/-- One call of a node's functions, or an expired timer. -/
def NodeState.call (lib : Libraries) (env : StepEnv) (node : NodeState) : NodeEvent → NodeCall
  | .incoming router pkt => (NodeCall.handleIncomingPacket lib env router { node } pkt).1
  | .sendText remoteId text => NodeCall.sendText env { node } remoteId text
  | .sendMessage destId subtype serialized protocol =>
    NodeCall.sendMessage lib env { node } destId subtype serialized protocol
  | .broadcastMessage subtype serialized protocol =>
    NodeCall.broadcastMessage env { node } subtype serialized protocol
  | .sendRequestAsync destId subtype serialized tag protocol =>
    NodeCall.sendRequestAsync lib env { node } destId subtype serialized tag protocol
  | .broadcastRequest subtype serialized protocol =>
    NodeCall.broadcastRequest env { node } subtype serialized protocol
  | .requestTimeout reqId =>
    match node.requestTracker.completeRequest reqId with
    | (some (.application tag), t) =>
      { node := { node with requestTracker := t, calls := node.calls ++ [.response tag "" none] } }
    | (_, t) => { node := { node with requestTracker := t } }
  | .broadcastTimeout reqId =>
    if reqId ∈ node.requestTracker.broadcasts then
      { node := { node with
          requestTracker := node.requestTracker.completeBroadcast reqId
          calls := node.calls ++ [.onComplete reqId] } }
    else { node }
  | .on subtype responseSubtype replies =>
    { node :=
        { node with
          handlers := node.handlers.insert subtype ⟨responseSubtype, .application replies⟩ } }
  | .setBlockAllMessages block => { node := { node with ignoreAllIncomingMessages := block } }

/-- One call that `cond` admits in the state before it. -/
def NodeState.Moves (lib : Libraries) (cond : NodeState → NodeEvent → Prop)
    (node node' : NodeState) : Prop :=
  ∃ env event, cond node event ∧ node' = (node.call lib env event).node

/-- A node of a network calls one of its own functions, and the packets go to its router. -/
def Network.callNode (lib : Libraries) (env : StepEnv) (net : Network NodeState) (node : PeerId)
    (event : NodeEvent) : Network NodeState :=
  let call := (net.owners node).call lib env event
  let sent := (net.routers node).sendOwnPackets node env 2 call.sent
  net.apply node (sent.1, call.node, sent.2)

end MeshNetwork
