import MeshNetwork.Model.Connection

/-!
# A request tracker and the threads that use it

`AsyncRequestTracker` with one event for each critical section of its mutex: `fulfill_request` looks
an id up in one section and `complete_request` takes the callback in another, and the callback runs
after both. The handlers of the timers are queued when a timer expires or is cancelled, and run
later. `Model/Node.lean` has the same functions for a tracker that one thread uses. The model
follows `src/mesh/utils/AsyncRequestTracker.h`.
-/

namespace MeshNetwork

/-- A call of `track_request_callback`, its timer, and the calls that have taken its callback out of
the map. -/
structure TrackedRequest where
  reqId : String
  timer : TimerWait := .waiting
  takenBy : List Nat := []

/-- A call of `track_broadcast` and its timer. -/
structure TrackedBroadcast where
  reqId : String
  /-- `on_complete` may be empty. -/
  hasOnComplete : Bool
  timer : TimerWait := .waiting

inductive CompletionOrigin where
  | fulfillRequest
  /-- The handler of the timer of a request. -/
  | timer (request : Nat)
  deriving DecidableEq, Repr

inductive CompletionStage where
  /-- The call is about to enter `complete_request`. -/
  | entered
  /-- It holds the callback of a request. -/
  | claimed (request : Nat)
  | returned (result : Bool)
  deriving DecidableEq, Repr

/-- A call of `fulfill_request`, or of `complete_request` by a timer. -/
structure CompletionCall where
  origin : CompletionOrigin
  reqId : String
  sender : PeerId
  payload : Option Bytes
  stage : CompletionStage

/-- The invocation of a callback; those of requests and broadcasts are known by the number of the
call that tracked them. -/
inductive Invocation where
  | request (request : Nat) (sender : PeerId) (payload : Option Bytes) (call : Nat)
  | onResponse (broadcast : Nat) (sender : PeerId) (payload : Bytes) (call : Nat)
  | onComplete (broadcast : Nat)
  deriving DecidableEq

/-- The call that has invoked the callback. -/
def Invocation.call : Invocation → Option Nat
  | .request _ _ _ call => some call
  | .onResponse _ _ _ call => some call
  | .onComplete _ => none

/-- The request or the broadcast that it belongs to. -/
def Invocation.requestNumber : Invocation → Option Nat
  | .request n _ _ _ => some n
  | _ => none

def Invocation.broadcastNumber : Invocation → Option Nat
  | .request _ _ _ _ => none
  | .onResponse n _ _ _ => some n
  | .onComplete n => some n

/-- The maps hold the number of the call that has stored the entry. -/
structure SharedTracker where
  pendingRequests : UMap String Nat := ∅
  broadcasts : UMap String Nat := ∅
  requests : List TrackedRequest := []
  tracked : List TrackedBroadcast := []
  calls : List CompletionCall := []
  log : List Invocation := []

namespace SharedTracker

def signalRequest (n : Nat) (signal : TimerSignal) (s : SharedTracker) : SharedTracker :=
  { s with requests := s.requests.modify n fun r => { r with timer := r.timer.signal signal } }

def signalBroadcast (n : Nat) (signal : TimerSignal) (s : SharedTracker) : SharedTracker :=
  { s with tracked := s.tracked.modify n fun b => { b with timer := b.timer.signal signal } }

/-- The entry that the id had before is destroyed with its timer. -/
def trackRequestCallback (reqId : String) (s : SharedTracker) : SharedTracker :=
  let s := match s.pendingRequests.lookup reqId with
    | none => s
    | some n => s.signalRequest n .cancel
  { s with
    pendingRequests := s.pendingRequests.insert reqId s.requests.length
    requests := s.requests ++ [{ reqId := reqId }] }

/-- If the id has an entry, the new one is destroyed with its timer. -/
def trackBroadcast (reqId : String) (hasOnComplete : Bool) (s : SharedTracker) : SharedTracker :=
  { s with
    broadcasts := s.broadcasts.insertNew reqId s.tracked.length
    tracked := s.tracked ++ [⟨reqId, hasOnComplete, if reqId ∈ s.broadcasts then .aborted
      else .waiting⟩] }

def enterCall (call : CompletionCall) (s : SharedTracker) : SharedTracker :=
  { s with calls := s.calls ++ [call] }

def setStage (c : Nat) (stage : CompletionStage) (s : SharedTracker) : SharedTracker :=
  { s with calls := s.calls.modify c fun call => { call with stage } }

def invoke (run : Invocation) (s : SharedTracker) : SharedTracker :=
  { s with log := s.log ++ [run] }

/-- The first critical section; it runs the callback of a broadcast itself. -/
def fulfillRequest (reqId : String) (sender : PeerId) (payload : Bytes) (s : SharedTracker) :
    SharedTracker :=
  let call := CompletionCall.mk .fulfillRequest reqId sender (some payload)
  if reqId ∈ s.pendingRequests then s.enterCall (call .entered)
  else
    match s.broadcasts.lookup reqId with
    | some n =>
      (s.enterCall (call (.returned true))).invoke (.onResponse n sender payload s.calls.length)
    | none => s.enterCall (call (.returned false))

/-- The critical section of `complete_request`. -/
def completeRequest (c : Nat) (s : SharedTracker) : SharedTracker :=
  match s.calls[c]? with
  | none => s
  | some call =>
    match call.stage with
    | .entered =>
      match s.pendingRequests.lookup call.reqId with
      | none => s.setStage c (.returned false)
      | some n =>
        { s.setStage c (.claimed n) with
          pendingRequests := s.pendingRequests.erase call.reqId
          requests := s.requests.modify n fun r => { r with takenBy := r.takenBy ++ [c] } }
    | _ => s

/-- The rest of `complete_request`. -/
def runCallback (c : Nat) (s : SharedTracker) : SharedTracker :=
  match s.calls[c]? with
  | none => s
  | some call =>
    match call.stage with
    | .claimed n =>
      ((s.signalRequest n .cancel).invoke (.request n call.sender call.payload c)).setStage c
        (.returned true)
    | _ => s

/-- The handler of the timer of a request. -/
def requestHandler (n : Nat) (s : SharedTracker) : SharedTracker :=
  match s.requests[n]? with
  | none => s
  | some r =>
    let ran := { s with requests := s.requests.modify n fun r => { r with timer := .done } }
    match r.timer with
    | .expired => ran.enterCall ⟨.timer n, r.reqId, "", none, .entered⟩
    | .aborted => ran
    | _ => s

/-- The critical section in the handler of the timer of a broadcast. The entry is erased with its
timer. -/
def finishBroadcast (n : Nat) (b : TrackedBroadcast) (s : SharedTracker) : SharedTracker :=
  match s.broadcasts.lookup b.reqId with
  | none => s
  | some m =>
    let s := if b.hasOnComplete then s.invoke (.onComplete n) else s
    { s.signalBroadcast m .cancel with broadcasts := s.broadcasts.erase b.reqId }

/-- The handler of the timer of a broadcast, which also runs when the timer was cancelled. -/
def broadcastHandler (n : Nat) (s : SharedTracker) : SharedTracker :=
  match s.tracked[n]? with
  | none => s
  | some b =>
    let ran := { s with tracked := s.tracked.modify n fun b => { b with timer := .done } }
    match b.timer with
    | .expired => ran.finishBroadcast n b
    | .aborted => ran.finishBroadcast n b
    | _ => s

end SharedTracker

inductive TrackerEvent where
  | trackRequestCallback (reqId : String)
  | trackBroadcast (reqId : String) (hasOnComplete : Bool)
  | fulfillRequest (reqId : String) (sender : PeerId) (payload : Bytes)
  | completeRequest (call : Nat)
  | runCallback (call : Nat)
  | requestTimer (request : Nat) (signal : TimerSignal)
  | requestHandler (request : Nat)
  | broadcastTimer (broadcast : Nat) (signal : TimerSignal)
  | broadcastHandler (broadcast : Nat)
  deriving DecidableEq

def SharedTracker.step (s : SharedTracker) : TrackerEvent → SharedTracker
  | .trackRequestCallback reqId => s.trackRequestCallback reqId
  | .trackBroadcast reqId hasOnComplete => s.trackBroadcast reqId hasOnComplete
  | .fulfillRequest reqId sender payload => s.fulfillRequest reqId sender payload
  | .completeRequest call => s.completeRequest call
  | .runCallback call => s.runCallback call
  | .requestTimer request signal => s.signalRequest request signal
  | .requestHandler request => s.requestHandler request
  | .broadcastTimer broadcast signal => s.signalBroadcast broadcast signal
  | .broadcastHandler broadcast => s.broadcastHandler broadcast

end MeshNetwork
