import Mathlib.Data.Finset.Basic
import MeshNetwork.Model.Packet

/-!
# The connection manager

`RpcManager` registers the connections of a node in two maps, by peer and by address, and tells the
router which peers are connected. Connections come from `connect_async` and from the acceptor; they
go by `remove_connection`, by failed heartbeats and at shutdown. The state is what the threads
share, and each event is what one thread does under `mu_` or in one handler of the `io_context`; it
follows `src/mesh/rpc/RpcManager.cpp`. The sink is taken to be alive.
-/

namespace MeshNetwork

def maxHeartbeatFailures : Nat := 5

/-- A connection; `id` tells the connection objects apart. -/
structure RpcConnection where
  id : Nat
  remotePeerId : PeerId := ""
  remoteIp : String
  deriving DecidableEq, Repr

structure PeerIp where
  ip : String
  tcpPort : Nat
  deriving DecidableEq, Repr

/-- The calls of the sink that concern connections. -/
inductive SinkCall where
  | onPeerConnected (peerId : PeerId)
  | onPeerDisconnected (peerId : PeerId)
  deriving DecidableEq, Repr

/-- What a connect attempt waits for. -/
inductive AttemptStage where
  /-- The call was refused; there is nothing to wait for. -/
  | refused
  | resolving
  | connecting
  /-- The detached thread runs `handle_connection_startup`. -/
  | starting
  /-- The thread has posted the completion. -/
  | posted (res : Except String PeerId)
  | finished

/-- `ConnectAttemptState`, with the results that the callback was called with. -/
structure ConnectAttempt where
  key : String
  completed : Bool := false
  conn : Option RpcConnection := none
  stage : AttemptStage := .resolving
  results : List (Except String PeerId) := []

/-- The first completion calls the callback. -/
def ConnectAttempt.complete (a : ConnectAttempt) (stage : AttemptStage)
    (result : Except String PeerId) :
    ConnectAttempt :=
  if a.completed then { a with stage := stage }
  else { a with stage := stage, completed := true, results := a.results ++ [result] }

structure RpcManager where
  connectionsByPeer : UMap PeerId RpcConnection := ∅
  connectionsByIp : UMap String RpcConnection := ∅
  pendingConnections : Finset String := ∅
  autoConnections : List PeerIp := []
  shuttingDown : Bool := false
  /-- The locals of `send_heartbeats`: failures, peers still to be asked in this round, peers whose
  answers are still to be taken, and the peer whose answer is being waited for. -/
  consecutiveFailed : UMap PeerId Nat := ∅
  roundPeers : List PeerId := []
  roundFutures : List PeerId := []
  roundWaits : Option PeerId := none
  attempts : UMap Nat ConnectAttempt := ∅
  nextAttempt : Nat := 0
  nextConnection : Nat := 0
  /-- Calls of `remove_connection` that have released the lock and not yet called the sink. -/
  removing : List PeerId := []
  sinkCalls : List SinkCall := []

namespace RpcManager

/-! ## Registration -/

def addConnectionInternal (peerId : PeerId) (conn : RpcConnection) (s : RpcManager) : RpcManager :=
  { s with
    connectionsByPeer := s.connectionsByPeer.insertNew peerId conn
    connectionsByIp := s.connectionsByIp.insertNew conn.remoteIp conn
    sinkCalls := s.sinkCalls ++ [.onPeerConnected peerId] }

/-- `handle_connection_startup` once the handshake has succeeded. -/
def handleConnectionStartup (remotePeerId : PeerId) (conn : RpcConnection)
    (s : RpcManager) : RpcManager :=
  s.addConnectionInternal remotePeerId { conn with remotePeerId := remotePeerId }

/-- An accepted connection whose handshake has succeeded. -/
def handleNewConnection (remoteIp : String) (remotePeerId : PeerId) (s : RpcManager) : RpcManager :=
  { s with nextConnection := s.nextConnection + 1 }.handleConnectionStartup remotePeerId
    { id := s.nextConnection, remoteIp := remoteIp }

/-- `remove_connection` up to the call of the sink. -/
def removeConnection (peerId : PeerId) (s : RpcManager) : Bool × RpcManager :=
  match s.connectionsByPeer.lookup peerId with
  | none => (false, s)
  | some conn =>
    (true, { s with
      connectionsByIp := s.connectionsByIp.erase conn.remoteIp
      connectionsByPeer := s.connectionsByPeer.erase peerId
      removing := s.removing ++ [peerId] })

/-- The rest of `remove_connection`. -/
def notifyRemoved (peerId : PeerId) (s : RpcManager) : RpcManager :=
  if peerId ∈ s.removing then
    { s with
      removing := s.removing.erase peerId
      sinkCalls := s.sinkCalls ++ [.onPeerDisconnected peerId] }
  else s

def shutdown (s : RpcManager) : RpcManager :=
  if s.shuttingDown then s
  else
    { s with
      shuttingDown := true, connectionsByPeer := ∅, connectionsByIp := ∅, autoConnections := [] }

/-! ## Heartbeats -/

/-- A round of `send_heartbeats` takes the peers that are registered now. -/
def beginHeartbeats (s : RpcManager) : RpcManager :=
  if s.shuttingDown ∨ s.roundPeers ≠ [] ∨ s.roundFutures ≠ [] ∨ s.roundWaits ≠ none then s
  else { s with roundPeers := s.connectionsByPeer.keys }

/-- The first loop of a round, for one peer. -/
def sendHeartbeat (s : RpcManager) : RpcManager :=
  match s.roundPeers with
  | [] => s
  | peer :: peers =>
    if s.shuttingDown then s
    else if peer ∈ s.connectionsByPeer then
      { s with roundPeers := peers, roundFutures := s.roundFutures ++ [peer] }
    else { s with roundPeers := peers }

def heartbeatFailures (peer : PeerId) (s : RpcManager) : Nat :=
  (s.consecutiveFailed.lookup peer).getD 0 + 1

/-- The second loop of a round looks at `shutting_down_` and takes the answer of one peer; it may
have to wait for it. -/
def awaitHeartbeat (peer : PeerId) (s : RpcManager) : RpcManager :=
  if s.shuttingDown ∨ s.roundPeers ≠ [] ∨ s.roundWaits ≠ none ∨ peer ∉ s.roundFutures then s
  else { s with roundFutures := s.roundFutures.erase peer, roundWaits := some peer }

/-- The answer has arrived or failed. -/
def heartbeatResult (success : Bool) (s : RpcManager) : RpcManager :=
  match s.roundWaits with
  | none => s
  | some peer =>
    let s := { s with roundWaits := none }
    if success then { s with consecutiveFailed := s.consecutiveFailed.insertNew peer 0 }
    else if s.heartbeatFailures peer ≥ maxHeartbeatFailures then
      { s with
        connectionsByPeer := s.connectionsByPeer.erase peer
        consecutiveFailed := s.consecutiveFailed.erase peer }
    else { s with consecutiveFailed := s.consecutiveFailed.insert peer (s.heartbeatFailures peer) }

/-! ## Connect attempts -/

def connectKey (host : String) (port : Nat) : String := host ++ ":" ++ toString port

/-- The attempt of a call that is refused. -/
def refusedAttempt (key : String) : ConnectAttempt :=
  { key := key, completed := true, stage := .refused
    results := [.error "connection already pending or active"] }

/-- `connect_async` up to its first asynchronous call. -/
def connectAsync (host : String) (port : Nat) (s : RpcManager) : RpcManager :=
  let key := connectKey host port
  if key ∈ s.pendingConnections ∨ host ∈ s.connectionsByIp then
    { s with
      attempts := s.attempts.insert s.nextAttempt (refusedAttempt key)
      nextAttempt := s.nextAttempt + 1 }
  else
    { s with
      pendingConnections := insert key s.pendingConnections
      attempts := s.attempts.insert s.nextAttempt { key := key }
      nextAttempt := s.nextAttempt + 1 }

/-- The lambda `complete`, for an attempt that goes on to `stage`. On an error it also shuts the
connection down, which the maps do not notice. -/
def complete (i : Nat) (a : ConnectAttempt) (stage : AttemptStage) (result : Except String PeerId)
    (s : RpcManager) : RpcManager :=
  { s with
    attempts := s.attempts.insert i (a.complete stage result)
    pendingConnections :=
      if a.completed then s.pendingConnections else s.pendingConnections.erase a.key }

/-- The handler of the timer; it may still run after the attempt has completed. -/
def timerExpired (i : Nat) (s : RpcManager) : RpcManager :=
  match s.attempts.lookup i with
  | none => s
  | some a => s.complete i a a.stage (.error "connect timed out")

/-- The handler of `async_resolve`. -/
def resolved (i : Nat) (ec : Option String) (s : RpcManager) : RpcManager :=
  match s.attempts.lookup i with
  | none => s
  | some a =>
    match a.stage with
    | .resolving =>
      if a.completed then { s with attempts := s.attempts.insert i { a with stage := .finished } }
      else
        match ec with
        | some message => s.complete i a .finished (.error ("resolve failed: " ++ message))
        | none => { s with attempts := s.attempts.insert i { a with stage := .connecting } }
    | _ => s

/-- The handler of `async_connect`; on success the connection is created and its thread started. -/
def tcpConnected (i : Nat) (result : Except String String) (s : RpcManager) : RpcManager :=
  match s.attempts.lookup i with
  | none => s
  | some a =>
    match a.stage with
    | .connecting =>
      if a.completed then { s with attempts := s.attempts.insert i { a with stage := .finished } }
      else
        match result with
        | .error message => s.complete i a .finished (.error ("tcp connect failed: " ++ message))
        | .ok remoteIp =>
          { s with
            attempts := s.attempts.insert i
              { a with
                stage := .starting, conn := some { id := s.nextConnection, remoteIp := remoteIp } }
            nextConnection := s.nextConnection + 1 }
    | _ => s

/-- The thread returns from `handle_connection_startup`, which has registered the connection if the
handshake has succeeded, and posts the completion. The handshake may succeed although the timer has
expired: its answer can arrive before `shutdown`, and a `shutdown` before `start` closes nothing. -/
def startupFinished (i : Nat) (res : Except String PeerId) (s : RpcManager) : RpcManager :=
  match s.attempts.lookup i with
  | none => s
  | some a =>
    match a.stage, a.conn with
    | .starting, some conn =>
      let s := { s with attempts := s.attempts.insert i { a with stage := .posted res } }
      match res with
      | .ok remotePeerId => s.handleConnectionStartup remotePeerId conn
      | .error _ => s
    | _, _ => s

/-- The posted completion runs. -/
def completionRun (i : Nat) (s : RpcManager) : RpcManager :=
  match s.attempts.lookup i with
  | none => s
  | some a =>
    match a.stage with
    | .posted res => s.complete i a .finished res
    | _ => s

/-! ## Automatic connections -/

def addAutoConnection (record : PeerIp) (s : RpcManager) : RpcManager :=
  if record ∈ s.autoConnections then s else
    { s with autoConnections := s.autoConnections ++ [record] }

def removeAutoConnection (record : PeerIp) (s : RpcManager) : RpcManager :=
  { s with autoConnections := s.autoConnections.erase record }

/-- The targets that `check_for_auto_connections_locked` finds missing. -/
def missingTargets (s : RpcManager) : List PeerIp :=
  s.autoConnections.filter fun target =>
    ¬(target.ip ∈ s.connectionsByIp ∨ connectKey target.ip target.tcpPort ∈ s.pendingConnections)

def checkForAutoConnections (s : RpcManager) : RpcManager :=
  if s.shuttingDown then s
  else s.missingTargets.foldl (fun s target => s.connectAsync target.ip target.tcpPort) s

end RpcManager

/-! ## Events -/

inductive RpcEvent where
  | incoming (remoteIp : String) (remotePeerId : PeerId)
  | connectAsync (host : String) (port : Nat)
  | timerExpired (attempt : Nat)
  | resolved (attempt : Nat) (ec : Option String)
  | tcpConnected (attempt : Nat) (result : Except String String)
  | startupFinished (attempt : Nat) (res : Except String PeerId)
  | completionRun (attempt : Nat)
  | removeConnection (peerId : PeerId)
  | notifyRemoved (peerId : PeerId)
  | beginHeartbeats
  | sendHeartbeat
  | awaitHeartbeat (peer : PeerId)
  | heartbeatResult (success : Bool)
  | addAutoConnection (record : PeerIp)
  | removeAutoConnection (record : PeerIp)
  | maintenance
  | shutdown

def RpcManager.step (s : RpcManager) : RpcEvent → RpcManager
  | .incoming remoteIp remotePeerId => s.handleNewConnection remoteIp remotePeerId
  | .connectAsync host port => s.connectAsync host port
  | .timerExpired i => s.timerExpired i
  | .resolved i ec => s.resolved i ec
  | .tcpConnected i result => s.tcpConnected i result
  | .startupFinished i res => s.startupFinished i res
  | .completionRun i => s.completionRun i
  | .removeConnection peerId => (s.removeConnection peerId).2
  | .notifyRemoved peerId => s.notifyRemoved peerId
  | .beginHeartbeats => s.beginHeartbeats
  | .sendHeartbeat => s.sendHeartbeat
  | .awaitHeartbeat peer => s.awaitHeartbeat peer
  | .heartbeatResult success => s.heartbeatResult success
  | .addAutoConnection record => s.addAutoConnection record
  | .removeAutoConnection record => s.removeAutoConnection record
  | .maintenance => s.checkForAutoConnections
  | .shutdown => s.shutdown

end MeshNetwork
