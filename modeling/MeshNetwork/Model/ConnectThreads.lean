import MeshNetwork.Model.Connection
import MeshNetwork.Model.RpcManager

/-!
# Connect attempts and the threads that complete them

The attempts of `connect_async` with one event for each access to what their threads share: the
critical sections of `mu_`, the reads of `completed` in the handlers, and in the lambda `complete`
the exchange of `completed`, the erasure of the key and the callback. In `Model/RpcManager.lean` the
completion of an attempt is one step. The model follows `src/mesh/rpc/RpcManager.cpp`.
-/

namespace MeshNetwork

/-- Where a call of `complete` is. -/
inductive CompletePhase where
  /-- It is about to exchange `completed`. -/
  | entered
  /-- It was the first; the key is still pending. -/
  | won
  /-- The key has been erased, and the callback is next. -/
  | erased
  | returned
  /-- It has returned because it was not the first. -/
  | lost
  deriving DecidableEq, Repr

structure CompleteCall where
  result : Except String PeerId
  phase : CompletePhase := .entered

/-- A call of `connect_async` with the state that its handlers share. -/
structure ConnectCall extends ConnectAttempt where
  admitted : Bool
  /-- The callback may be empty. -/
  hasCallback : Bool
  timer : TimerWait
  completes : List CompleteCall := []

namespace ConnectCall

/-- A call that is refused runs its callback at once. -/
def refused (key : String) (hasCallback : Bool) : ConnectCall :=
  { RpcManager.refusedAttempt key with
    results := if hasCallback then [.error "connection already pending or active"] else []
    admitted := false
    hasCallback := hasCallback
    timer := .done }

def begun (key : String) (hasCallback : Bool) : ConnectCall :=
  { key := key, admitted := true, hasCallback := hasCallback, timer := .waiting }

/-- A handler calls `complete`. -/
def enterComplete (result : Except String PeerId) (a : ConnectCall) : ConnectCall :=
  { a with completes := a.completes ++ [{ result := result }] }

def setPhase (c : Nat) (k : CompleteCall) (phase : CompletePhase) (a : ConnectCall) : ConnectCall :=
  { a with completes := a.completes.set c { k with phase := phase } }

/-- The handler of the timer. -/
def timerHandler (a : ConnectCall) : ConnectCall :=
  match a.timer with
  | .expired => { a with timer := .done }.enterComplete (.error "connect timed out")
  | .aborted => { a with timer := .done }
  | _ => a

/-- The handler of `async_resolve`. -/
def resolved (ec : Option String) (a : ConnectCall) : ConnectCall :=
  match a.stage with
  | .resolving =>
    if a.completed then { a with stage := .finished }
    else
      match ec with
      | some message =>
        { a with stage := .finished }.enterComplete (.error ("resolve failed: " ++ message))
      | none => { a with stage := .connecting }
  | _ => a

/-- The handler of `async_connect`; on success the connection gets the number `id`. -/
def tcpConnected (id : Nat) (result : Except String String) (a : ConnectCall) : ConnectCall :=
  match a.stage with
  | .connecting =>
    if a.completed then { a with stage := .finished }
    else
      match result with
      | .error message =>
        { a with stage := .finished }.enterComplete (.error ("tcp connect failed: " ++ message))
      | .ok remoteIp =>
        { a with stage := .starting, conn := some { id := id, remoteIp := remoteIp } }
  | _ => a

/-- The posted completion. -/
def completionRun (a : ConnectCall) : ConnectCall :=
  match a.stage with
  | .posted res => { a with stage := .finished }.enterComplete res
  | _ => a

/-- `completed.exchange(true)`. -/
def exchange (c : Nat) (a : ConnectCall) : ConnectCall :=
  match a.completes[c]? with
  | none => a
  | some k =>
    match k.phase with
    | .entered =>
      if a.completed then a.setPhase c k .lost else { a.setPhase c k .won with completed := true }
    | _ => a

/-- The call that was the first cancels the timer and comes to its critical section. -/
def erase (c : Nat) (k : CompleteCall) (a : ConnectCall) : ConnectCall :=
  { a.setPhase c k .erased with timer := a.timer.cancel }

def runCallback (c : Nat) (a : ConnectCall) : ConnectCall :=
  match a.completes[c]? with
  | none => a
  | some k =>
    match k.phase with
    | .erased =>
      { a.setPhase c k .returned with
        results := a.results ++ if a.hasCallback then [k.result] else [] }
    | _ => a

/-- The attempt has been admitted, and no completion has had its critical section. -/
def holdsKey (a : ConnectCall) : Bool :=
  a.admitted && a.completes.all fun k => k.phase != .erased && k.phase != .returned

end ConnectCall

structure ConnectThreads where
  /-- Its own attempts are not used. -/
  manager : RpcManager := {}
  attempts : List ConnectCall := []

namespace ConnectThreads

def portKey (host : String) (port : Int) : String := host ++ ":" ++ toString port

/-- The condition under which `connect_async` refuses a call. -/
def Refuses (s : ConnectThreads) (host : String) (port : Int) : Prop :=
  portKey host port ∈ s.manager.pendingConnections ∨ host ∈ s.manager.connectionsByIp

instance (s : ConnectThreads) (host : String) (port : Int) : Decidable (s.Refuses host port) :=
  inferInstanceAs (Decidable (_ ∨ _))

def connectAsync (host : String) (port : Int) (hasCallback : Bool) (s : ConnectThreads) :
    ConnectThreads :=
  let key := portKey host port
  if s.Refuses host port then { s with attempts := s.attempts ++ [.refused key hasCallback] }
  else
    { s with
      manager := { s.manager with pendingConnections := insert key s.manager.pendingConnections }
      attempts := s.attempts ++ [.begun key hasCallback] }

/-- The callback sets the promise that the caller waits for. -/
def connect (host : String) (port : Int) (s : ConnectThreads) : ConnectThreads :=
  s.connectAsync host port true

/-- A step of one attempt alone. -/
def update (i : Nat) (f : ConnectCall → ConnectCall) (s : ConnectThreads) : ConnectThreads :=
  match s.attempts[i]? with
  | none => s
  | some a => { s with attempts := s.attempts.set i (f a) }

/-- The number of the connection is used up in any case. -/
def tcpConnected (i : Nat) (result : Except String String) (s : ConnectThreads) : ConnectThreads :=
  let id := s.manager.nextConnection
  { s.update i (ConnectCall.tcpConnected id
    result) with manager := { s.manager with nextConnection := id + 1 } }

/-- The thread returns from `handle_connection_startup` and posts the completion. -/
def startupFinished (i : Nat) (res : Except String PeerId) (s : ConnectThreads) : ConnectThreads :=
  match s.attempts[i]? with
  | none => s
  | some a =>
    match a.stage, a.conn with
    | .starting, some conn =>
      { manager :=
          match res with
          | .ok remotePeerId => s.manager.handleConnectionStartup remotePeerId conn
          | .error _ => s.manager
        attempts := s.attempts.set i { a with stage := .posted res } }
    | _, _ => s

/-- The critical section of `complete`. -/
def eraseKey (i c : Nat) (s : ConnectThreads) : ConnectThreads :=
  match s.attempts[i]? with
  | none => s
  | some a =>
    match a.completes[c]? with
    | none => s
    | some k =>
      match k.phase with
      | .won =>
        { manager :=
            { s.manager with pendingConnections := s.manager.pendingConnections.erase a.key }
          attempts := s.attempts.set i (a.erase c k) }
      | _ => s

end ConnectThreads

/-- The events of a manager that are about connect attempts; the maintenance makes calls of
`connect_async`. -/
def RpcEvent.isConnect : RpcEvent → Bool
  | .connectAsync .. => true
  | .timerExpired .. => true
  | .resolved .. => true
  | .tcpConnected .. => true
  | .startupFinished .. => true
  | .completionRun .. => true
  | .maintenance => true
  | _ => false

inductive ConnectEvent where
  | connectAsync (host : String) (port : Int) (hasCallback : Bool)
  | connect (host : String) (port : Int)
  | timer (attempt : Nat) (signal : TimerSignal)
  | timerHandler (attempt : Nat)
  | resolved (attempt : Nat) (ec : Option String)
  | tcpConnected (attempt : Nat) (result : Except String String)
  | startupFinished (attempt : Nat) (res : Except String PeerId)
  | completionRun (attempt : Nat)
  | exchange (attempt call : Nat)
  | eraseKey (attempt call : Nat)
  | runCallback (attempt call : Nat)
  /-- Whatever else the manager does. -/
  | manager (event : RpcEvent)

def ConnectThreads.step (s : ConnectThreads) : ConnectEvent → ConnectThreads
  | .connectAsync host port hasCallback => s.connectAsync host port hasCallback
  | .connect host port => s.connect host port
  | .timer i signal => s.update i fun a => { a with timer := a.timer.signal signal }
  | .timerHandler i => s.update i .timerHandler
  | .resolved i ec => s.update i (.resolved ec)
  | .tcpConnected i result => s.tcpConnected i result
  | .startupFinished i res => s.startupFinished i res
  | .completionRun i => s.update i .completionRun
  | .exchange i c => s.update i (.exchange c)
  | .eraseKey i c => s.eraseKey i c
  | .runCallback i c => s.update i (.runCallback c)
  | .manager event => if event.isConnect then s else { s with manager := s.manager.step event }

end MeshNetwork
