import MeshNetwork.Model.RpcManager

/-!
# One connection

`RpcConnection` with the handlers that `RpcManager` gives it: requests with their timers, the
handshake of the startup thread, and the dispatch of incoming envelopes. The threads share the
members of the connection; each event is what one of them does under `mu_`, or up to the next
moment at which another one can see it. It follows `src/mesh/rpc/RpcConnection.cpp`,
`src/mesh/rpc/handlers` and `RpcManager::handle_connection_startup`, `dispatch_message`.
-/

namespace MeshNetwork

/-! ## Envelopes -/

/-- `HANDSHAKE`, `HEARTBEAT` and `DATA`; the wire may carry any other number. -/
inductive EnvelopeType where
  | handshake
  | heartbeat
  | data
  | other (value : Int)
  deriving DecidableEq, Repr

/-- `mesh::PeerIP`. -/
structure WireAddress where
  ip : String := ""
  tcpPort : Int := 0
  udpPort : Int := 0
  deriving DecidableEq, Repr

structure PeerRecord where
  peerId : PeerId
  peerIp : WireAddress := {}
  deriving DecidableEq, Repr

structure Handshake where
  protoVersion : String
  peerRecord : PeerRecord
  deriving DecidableEq, Repr

structure Envelope where
  msgId : Bytes
  sender : WireAddress := {}
  recipient : WireAddress := {}
  type : EnvelopeType
  payload : Bytes
  expectResponse : Bool
  deriving DecidableEq, Repr

/-- The codecs of the messages that a connection reads and writes. -/
structure EnvelopeCodec where
  parseEnvelope : Bytes → Option Envelope
  serializeEnvelope : Envelope → Bytes
  parseHandshake : Bytes → Option Handshake
  serializeHandshake : Handshake → Bytes

def meshVersion : String := "1.0.0"

/-! ## State -/

/-- The wait on the timer of a request. -/
inductive TimerWait where
  | waiting
  /-- The timer has expired; its handler is queued. -/
  | expired
  /-- The timer was cancelled or destroyed before; its handler is queued with
  `operation_aborted`. -/
  | aborted
  | done
  deriving DecidableEq, Repr

/-- `cancel`, and the destruction of the timer. -/
def TimerWait.cancel : TimerWait → TimerWait
  | .waiting => .aborted
  | wait => wait

inductive TimerSignal where
  | expire
  | cancel
  deriving DecidableEq, Repr

def TimerWait.signal (wait : TimerWait) : TimerSignal → TimerWait
  | .expire => if wait = .waiting then .expired else wait
  | .cancel => wait.cancel

/-- A call of `send_message` that expects a response: its promise, by all that it was set to, and
its timer. -/
structure PendingRequest where
  reqId : Bytes
  promise : List (Except String Bytes) := []
  timer : TimerWait := .waiting

/-- A promise that is destroyed without a value, and the results that the code sets itself. -/
def brokenPromise : Except String Bytes := .error "Broken promise"

def requestTimeout : Except String Bytes := .error "RPC failed: timeout"

def rpcLayerDestroyed : Except String Bytes := .error "RpcLayer destroyed"

def PendingRequest.settle (result : Except String Bytes) (r : PendingRequest) : PendingRequest :=
  { r with promise := r.promise ++ [result], timer := r.timer.cancel }

structure Endpoint where
  address : String
  port : UInt16
  deriving DecidableEq, Repr

/-- What the thread of `handle_connection_startup` does next. -/
inductive StartupStage where
  | created
  /-- The session has been started. -/
  | reading (initiator : Bool)
  /-- `send_handshake_request` waits for the future of request `n`. -/
  | awaitingResponse (n : Nat)
  | awaitingHandshake
  /-- `start` has returned the record of the remote. -/
  | shaken (record : PeerRecord)
  /-- `set_remote_peer_id` has run. -/
  | identified (record : PeerRecord)
  | registered (record : PeerRecord)
  | failed (error : String)
  deriving DecidableEq, Repr

/-- What other objects see of the connection. -/
inductive ConnectionTrace where
  /-- `start` has completed the handshake. -/
  | handshakeCompleted (record : PeerRecord)
  | pushDataBytes (peerId : PeerId) (bytes : Bytes)
  | addConnection (peerId : PeerId)
  deriving DecidableEq, Repr

/-- The members of an `RpcConnection`, the thread that starts it and the envelope that its strand is
about to dispatch. -/
structure RpcConnection.State where
  peerId : PeerId
  localEndpoint : Endpoint
  remoteEndpoint : Endpoint
  myUdpPort : Int
  remoteUdpEndpoint : Endpoint := ⟨"0.0.0.0", 0⟩
  authenticatedRemoteId : PeerId := ""
  /-- Whether `handler_cb_` is set, as `RpcManager` does. -/
  hasHandler : Bool := true
  /-- The promise of `start`, and its value. -/
  handshakePromise : Option (Option PeerRecord) := none
  /-- The requests by id, as numbers of calls. -/
  pendingRequests : UMap Bytes Nat := ∅
  requests : List PendingRequest := []
  /-- The calls of `async_send_message`. -/
  sent : List (Bytes × Bytes) := []
  sessionStopped : Bool := false
  /-- The calls of `on_message`. -/
  received : List (Bytes × Bytes) := []
  dispatching : Option Envelope := none
  stage : StartupStage := .created
  trace : List ConnectionTrace := []

namespace RpcConnection.State

variable (codec : EnvelopeCodec)

/-- The constructor. -/
def create (peerId : PeerId) (localEndpoint remoteEndpoint : Endpoint) (udpPort : Int)
    (hasHandler : Bool := true) :
    State :=
  { peerId, localEndpoint, remoteEndpoint, myUdpPort := udpPort, hasHandler }

/-- Whether `session_` is set. -/
def hasSession (s : State) : Bool :=
  match s.stage with
  | .created => false
  | _ => true

def getLocalPeerIp (s : State) : WireAddress :=
  ⟨s.localEndpoint.address, s.localEndpoint.port.toNat, s.myUdpPort⟩

def getRemotePeerIp (s : State) : WireAddress :=
  ⟨s.remoteEndpoint.address, s.remoteEndpoint.port.toNat, s.remoteUdpEndpoint.port.toNat⟩

/-- The endpoint that a record announces; the port of the wire is cut to 16 bits. -/
def announcedUdpEndpoint (record : PeerRecord) (s : State) : Endpoint :=
  ⟨s.remoteEndpoint.address, UInt16.ofInt record.peerIp.udpPort⟩

/-! ## Requests -/

/-- The promise of a pending request is set, and its entry erased. -/
def settle (reqId : Bytes) (result : Except String Bytes) (s : State) : State :=
  match s.pendingRequests.lookup reqId with
  | none => s
  | some n =>
    { s with
      pendingRequests := s.pendingRequests.erase reqId
      requests := s.requests.modify n (PendingRequest.settle result) }

/-- The assignment to `pending_requests_[req_id]`; an entry that was there is destroyed. -/
def track (reqId : Bytes) (s : State) : State :=
  let s := s.settle reqId brokenPromise
  { s with
    pendingRequests := s.pendingRequests.insert reqId s.requests.length
    requests := s.requests ++ [{ reqId := reqId }] }

/-- The future is that of the last request, or ready if no response is expected. -/
def sendMessage (envelope : Envelope) (s : State) : State :=
  let envelope := { envelope with sender := s.getLocalPeerIp, recipient := s.getRemotePeerIp }
  let s := if envelope.expectResponse then s.track envelope.msgId else s
  { s with sent := s.sent ++ [(envelope.msgId, codec.serializeEnvelope envelope)] }

/-- The timer of a request expires. -/
def timerExpires (n : Nat) (s : State) : State :=
  { s with
    requests := s.requests.modify n fun r =>
      if r.timer = .waiting then { r with timer := .expired } else r }

/-- The handler of the timer of a request. -/
def timerHandler (n : Nat) (s : State) : State :=
  match s.requests[n]? with
  | none => s
  | some r =>
    let s' := { s with requests := s.requests.modify n fun r => { r with timer := .done } }
    match r.timer with
    | .expired => s'.settle r.reqId requestTimeout
    | .aborted => s'
    | _ => s

def storeResponse (msgId response : Bytes) (s : State) : State := s.settle msgId (.ok response)

/-- The loop of `shutdown`, in the order in which it visits the requests. -/
def failAll (ids : List Bytes) (s : State) : State :=
  ids.foldl (fun s reqId => s.settle reqId rpcLayerDestroyed) s

def shutdown (ord : IterOrder Bytes) (s : State) : State :=
  let s := { s with sessionStopped := s.sessionStopped || s.hasSession }
  s.failAll (ord.visit 0 s.pendingRequests.keys)

/-! ## Dispatch -/

/-- `on_message` up to the call of the handler. -/
def onMessage (msgId payload : Bytes) (s : State) : State :=
  let s := { s with received := s.received ++ [(msgId, payload)] }
  match codec.parseEnvelope payload with
  | none => s
  | some env =>
    let s := s.storeResponse msgId payload
    if s.hasHandler then { s with dispatching := some env } else s

/-- `fulfill_handshake_promise`; a second value is refused. -/
def fulfillHandshakePromise (record : PeerRecord) (s : State) : State :=
  match s.handshakePromise with
  | some none => { s with handshakePromise := some (some record) }
  | _ => s

def makeHandshake (s : State) : Handshake := ⟨meshVersion, ⟨s.peerId, s.getLocalPeerIp⟩⟩

/-- `HandshakeHandler::handle`. -/
def handleHandshake (env : Envelope) (s : State) : State :=
  if env.expectResponse then
    match codec.parseHandshake env.payload with
    | none => s
    | some req =>
      let s := { s with remoteUdpEndpoint := s.announcedUdpEndpoint req.peerRecord }
      let response : Envelope :=
        { msgId := env.msgId, sender := s.getLocalPeerIp, recipient := env.sender
          type := .handshake, payload := codec.serializeHandshake s.makeHandshake
          expectResponse := false }
      (s.sendMessage codec response).fulfillHandshakePromise req.peerRecord
  else s

/-- `HeartbeatHandler::handle`. -/
def handleHeartbeat (env : Envelope) (s : State) : State :=
  if env.expectResponse then
    s.sendMessage codec
      { msgId := env.msgId, sender := s.getLocalPeerIp, recipient := env.sender
        type := .heartbeat, payload := [], expectResponse := false }
  else s

/-- `RpcManager::dispatch_message`. -/
def dispatchMessage (sinkAlive : Bool) (env : Envelope) (s : State) : State :=
  match env.type with
  | .handshake => s.handleHandshake codec env
  | .heartbeat => s.handleHeartbeat codec env
  | .data =>
    if sinkAlive then
      { s with trace := s.trace ++ [.pushDataBytes s.authenticatedRemoteId env.payload] } else s
  | .other _ => s

/-! ## Startup -/

/-- The answer that `send_handshake_request` has waited for. -/
def readHandshakeResponse (response : Except String Bytes) : Except String PeerRecord :=
  match response with
  | .error what => .error ("Handshake error: " ++ what)
  | .ok bytes =>
    match codec.parseEnvelope bytes with
    | none => .error "failed to parse handshake response envelope"
    | some env =>
      if env.type ≠ .handshake then .error "invalid handshake response type"
      else
        match codec.parseHandshake env.payload with
        | none => .error "failed to parse handshake payload"
        | some handshake => .ok handshake.peerRecord

/-- `start` returns the record. -/
def shake (record : PeerRecord) (s : State) : State :=
  { s with stage := .shaken record, trace := s.trace ++ [.handshakeCompleted record] }

/-- `start` up to the start of the session. -/
def start (initiator : Bool) (s : State) : State :=
  match s.stage with
  | .created => { s with handshakePromise := some none, stage := .reading initiator }
  | _ => s

/-- The first step of `send_handshake_request`, with the id of its request, or of the wait of the
acceptor. -/
def awaitRemote (msgId : Bytes) (s : State) : State :=
  match s.stage with
  | .reading true =>
    let request : Envelope :=
      { msgId := msgId, sender := s.getLocalPeerIp, recipient := s.getRemotePeerIp
        type := .handshake, payload := codec.serializeHandshake s.makeHandshake
        expectResponse := true }
    let s := s.sendMessage codec request
    { s with stage := .awaitingResponse (s.requests.length - 1) }
  | .reading false => { s with stage := .awaitingHandshake }
  | _ => s

/-- The future of the handshake request is ready. -/
def takeResponse (response : Except String Bytes) (s : State) : State :=
  match readHandshakeResponse codec response with
  | .error message => { s with stage := .failed message }
  | .ok record =>
    { s with remoteUdpEndpoint := s.announcedUdpEndpoint record }.shake record

/-- The thread goes on, if what it waits for is there. -/
def resume (s : State) : State :=
  match s.stage with
  | .awaitingResponse n =>
    match (s.requests[n]?).bind fun r => r.promise.head? with
    | none => s
    | some response => s.takeResponse codec response
  | .awaitingHandshake =>
    match s.handshakePromise with
    | some (some record) => s.shake record
    | _ => s
  | .shaken record => { s with authenticatedRemoteId := record.peerId, stage := .identified record }
  | .identified record =>
    { s with stage := .registered record, trace := s.trace ++ [.addConnection record.peerId] }
  | _ => s

/-- The acceptor has waited too long. -/
def startTimeout (ord : IterOrder Bytes) (s : State) : State :=
  match s.stage, s.handshakePromise with
  | .awaitingHandshake, some none =>
    { s.shutdown ord with stage := .failed "mesh handshake timed out" }
  | _, _ => s

end RpcConnection.State

/-! ## Events -/

inductive ConnectionEvent where
  | sendMessage (envelope : Envelope)
  | timerExpires (n : Nat)
  | timerHandler (n : Nat)
  | shutdown (ord : IterOrder Bytes)
  /-- The session calls `on_message`. -/
  | message (msgId payload : Bytes)
  /-- The handler runs for the message. -/
  | dispatch (sinkAlive : Bool)
  | start (initiator : Bool)
  | awaitRemote (msgId : Bytes)
  | resume
  | startTimeout (ord : IterOrder Bytes)

/-- The strand handles one message after the other, and only while there is a session. -/
def RpcConnection.State.step (codec : EnvelopeCodec) (s : State) : ConnectionEvent → State
  | .sendMessage envelope => s.sendMessage codec envelope
  | .timerExpires n => s.timerExpires n
  | .timerHandler n => s.timerHandler n
  | .shutdown ord => s.shutdown ord
  | .message msgId payload =>
    if s.hasSession ∧ s.dispatching = none then s.onMessage codec msgId payload else s
  | .dispatch sinkAlive =>
    match s.dispatching with
    | none => s
    | some env => { s with dispatching := none }.dispatchMessage codec sinkAlive env
  | .start initiator => s.start initiator
  | .awaitRemote msgId => s.awaitRemote codec msgId
  | .resume => s.resume codec
  | .startTimeout ord => s.startTimeout ord

end MeshNetwork
