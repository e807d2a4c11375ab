import MeshNetwork.Library.TaskPool
import MeshNetwork.Model.Node

/-!
# The node under several threads

The functions of `MeshNode` cut into steps that call the identity manager, or
`should_send_identity_request`, at most once. A call of the node is a stack of such steps, and the
steps of different calls interleave.
-/

namespace MeshNetwork

/-- A step of a call. `arrived` is the packet that `handle_incoming_packet` was called with. -/
inductive NodeTask where
  | call (event : NodeEvent)
  | trackRequest (reqId : String) (cb : RequestCallback)
  | sendPacket (pkt : RoutedPacket)
  | bufferOutgoingPacket (destId : PeerId) (pkt : RoutedPacket)
  | shouldSendIdentityRequest (peerId : PeerId)
  | sendIdentityRequest (dest : PeerId)
  | securePacket (pkt : RoutedPacket) (target : PeerId) (payload : Bytes)
  | secureRequest (pkt : RoutedPacket) (target : PeerId) (payload : Bytes) (tag : Nat)
  | handleIncomingPacket (pkt : RoutedPacket)
  | bufferIncomingPacket (pkt : RoutedPacket)
  | decryptPacket (pkt : RoutedPacket)
  | dispatch (arrived pkt : RoutedPacket)
  | callback (arrived : RoutedPacket) (cb : RequestCallback) (sender : PeerId) (rawBytes : Bytes)
  | onResponse (arrived : RoutedPacket) (reqId : String) (sender : PeerId) (rawBytes : Bytes)
  | handler (arrived : RoutedPacket) (info : HandlerInfo) (pkt : RoutedPacket)
  | addTrustedPeer (peer : PeerId) (certificatePem : Bytes)
  | handlePendingIncomingPackets (src : PeerId)
  | handlePendingOutgoingPackets (dest : PeerId)
  | reply (pkt : RoutedPacket) (responseSubtype : Option String) (responsePayload : Bytes)
  | replyIdentity (pkt : RoutedPacket) (responseSubtype : Option String)

namespace NodeTask

variable (lib : Libraries) (env : StepEnv)

/-- `buffer_outgoing_packet`, and an identity request unless one was sent a short time ago. -/
def postpone (destId : PeerId) (pkt : RoutedPacket) : List NodeTask :=
  [.bufferOutgoingPacket destId pkt, .shouldSendIdentityRequest destId]

/-- A request is tracked before it is sent. -/
def sendRequest (pkt : RoutedPacket) (cb : RequestCallback) (reqId : String) : List NodeTask :=
  [.trackRequest reqId cb, .sendPacket pkt]

/-- The start of a call, up to its first use of the identity manager. The calls that do not use it
are one step. -/
def start (call : NodeCall) : NodeEvent → NodeCall × List NodeTask
  | .incoming _ pkt => (call, [.handleIncomingPacket pkt])
  | .sendMessage destId subtype serialized protocol =>
    if call.node.encryptMessages ∧ subtype ≠ identityRequestSubtype then
      let (pkt, call) := call.makePacket env destId defaultTtl subtype protocol
      if !call.node.identity.hasKey destId then (call, postpone destId pkt)
      else (call, [.securePacket pkt destId serialized])
    else
      let (pkt, call) := call.makePacket env destId defaultTtl subtype protocol serialized
      (call, [.sendPacket pkt])
  | .sendRequestAsync destId subtype serialized tag protocol =>
    if call.node.encryptMessages ∧ subtype ≠ identityRequestSubtype then
      let (pkt, call) := call.makePacket env destId defaultTtl subtype protocol [] true
      if !call.node.identity.hasKey destId then
        (call, .trackRequest (toHex pkt.id) (.application tag) :: postpone destId pkt)
      else (call, [.secureRequest pkt destId serialized tag])
    else
      let (pkt, call) := call.makePacket env destId defaultTtl subtype protocol serialized true
      (call, sendRequest pkt (.application tag) (toHex pkt.id))
  | event =>
    let r := call.node.call lib env event
    (⟨r.node, call.sent ++ r.sent, call.uuids + r.uuids, call.draws + r.draws⟩, [])

/-- `fulfill_request`, and the search for a handler. -/
def deliver (call : NodeCall) (arrived pkt : RoutedPacket) : NodeCall × List NodeTask :=
  match call.node.requestTracker.fulfillRequest (toHex pkt.id) with
  | (.request cb, t) => (call.setTracker t, [.callback arrived cb pkt.fromPeerId pkt.binaryData])
  | (.broadcast, t) =>
    (call.setTracker t, [.onResponse arrived (toHex pkt.id) pkt.fromPeerId pkt.binaryData])
  | (.nothing, _) =>
    if pkt.type = .binary then
      match call.node.handlers.lookup pkt.subtype with
      | none => (call, [])
      | some info => (call, [.handler arrived info pkt])
    else (call, [])

def runHandler (router : RouterState) (call : NodeCall) (info : HandlerInfo) (pkt : RoutedPacket) :
    NodeCall × List NodeTask :=
  match info.handler with
  | .topologyRequest =>
    if lib.parseTopologyRequest pkt.binaryData then
      (call, [.reply pkt info.responseSubtype
        (lib.serializeTopologyResponse (router.getDirectNeighbors call.node.peerId env.order))])
    else (call, [])
  | .pingRequest =>
    match lib.parsePing pkt.binaryData with
    | none => (call, [])
    | some _ =>
      (call, [.reply pkt info.responseSubtype
        (lib.serializePing ("hello from" ++ call.node.peerId))])
  | .identityRequest =>
    match lib.parseIdentity pkt.binaryData with
    | none => (call, [])
    | some certificatePem =>
      (call, [.addTrustedPeer pkt.fromPeerId certificatePem,
        .replyIdentity pkt info.responseSubtype])
  | .heartbeat => (call, [])
  | .application replies =>
    (call.record (.handler pkt.subtype pkt.fromPeerId pkt.binaryData),
      (replies pkt.fromPeerId pkt.binaryData).map (.reply pkt info.responseSubtype))

def runCallback (call : NodeCall) (cb : RequestCallback) (sender : PeerId) (rawBytes : Bytes) :
    NodeCall × List NodeTask :=
  match cb with
  | .application tag => (call.record (.response tag sender (some rawBytes)), [])
  | .identityResponse =>
    match lib.parseIdentity rawBytes with
    | none => (call, [])
    | some certificatePem => (call, [.addTrustedPeer sender certificatePem])

/-- The part of `handle_incoming_packet` before the decryption. -/
def receive (call : NodeCall) (pkt : RoutedPacket) : List NodeTask :=
  if call.node.ignoreAllIncomingMessages then []
  else if pkt.hasEncryptedPayload then
    if !call.node.identity.hasKey pkt.fromPeerId then
      [.bufferIncomingPacket pkt, .shouldSendIdentityRequest pkt.fromPeerId]
    else [.decryptPacket pkt]
  else [.dispatch pkt pkt]

/-- One step, and the steps that it calls. -/
def exec (router : RouterState) (call : NodeCall) : NodeTask → NodeCall × List NodeTask
  | .call event => start lib env call event
  | .trackRequest reqId cb =>
    (call.setTracker (call.node.requestTracker.trackRequestCallback reqId cb), [])
  | .sendPacket pkt => (call.sendPacket pkt, [])
  | .bufferOutgoingPacket destId pkt =>
    (call.setIdentity (call.node.identity.bufferOutgoingPacket destId pkt), [])
  | .shouldSendIdentityRequest peerId =>
    let (ask, call) := call.shouldSendIdentityRequest env peerId
    (call, if ask then [.sendIdentityRequest peerId] else [])
  | .sendIdentityRequest dest =>
    let (pkt, call) := call.makePacket env dest defaultTtl identityRequestSubtype .tcp
      (lib.serializeIdentity call.node.identity.myCert) true
    (call, sendRequest pkt .identityResponse (toHex pkt.id))
  | .securePacket pkt target payload => (call.secureAndSend lib env pkt target payload, [])
  | .secureRequest pkt target payload tag =>
    let (secured, call) := call.secure lib env pkt target payload
    match secured with
    | none => (call.record (.encryptionError tag target), [])
    | some secured => (call, sendRequest secured (.application tag) (toHex pkt.id))
  | .handleIncomingPacket pkt => (call, receive call pkt)
  | .bufferIncomingPacket pkt =>
    (call.setIdentity (call.node.identity.bufferIncomingPacket pkt.fromPeerId pkt), [])
  | .decryptPacket pkt =>
    match MeshNetwork.decryptPacket lib.toOpenSsl call.node.identity pkt with
    | .error _ => (call, [])
    | .ok plaintext => (call, [.dispatch pkt (NodeCall.decrypted pkt plaintext)])
  | .dispatch arrived pkt => deliver call arrived pkt
  | .callback _ cb sender rawBytes => runCallback lib call cb sender rawBytes
  | .onResponse _ reqId sender rawBytes => (call.record (.onResponse reqId sender rawBytes), [])
  | .handler _ info pkt => runHandler lib env router call info pkt
  | .addTrustedPeer peer certificatePem =>
    (call.setIdentity (call.node.identity.addTrustedPeer peer
      (extractPubkeyFromCert lib.toOpenSsl certificatePem)),
      [.handlePendingIncomingPackets peer, .handlePendingOutgoingPackets peer])
  | .handlePendingIncomingPackets src =>
    let (packets, im) := call.node.identity.popIncomingPendingPackets src
    (call.setIdentity im, packets.map .handleIncomingPacket)
  | .handlePendingOutgoingPackets dest =>
    let (packets, im) := call.node.identity.popOutgoingPendingPackets dest
    (call.setIdentity im, packets.map fun pkt => .securePacket pkt pkt.toPeerId pkt.binaryData)
  | .reply pkt responseSubtype payload =>
    (NodeCall.reply lib env pkt responseSubtype call payload, [])
  | .replyIdentity pkt responseSubtype =>
    (NodeCall.reply lib env pkt responseSubtype call
      (lib.serializeIdentity call.node.identity.myCert), [])

end NodeTask

/-- The calls of a node; a step sees a clock, random values and the state of the router. -/
def nodeThreads (lib : Libraries) :
    TaskPool.Program NodeCall NodeTask NodeEvent (StepEnv × RouterState) where
  entry event := [.call event]
  exec env call task := task.exec lib env.1 env.2 call

abbrev NodePool := TaskPool.Pool NodeCall NodeTask

abbrev PoolEvent := TaskPool.Event NodeEvent (StepEnv × RouterState)

def NodePool.step (lib : Libraries) : NodePool → PoolEvent → NodePool :=
  TaskPool.step (nodeThreads lib)

def NodePool.create (node : NodeState) : NodePool := { shared := { node } }

end MeshNetwork
