import MeshNetwork.Model.Router

/-!
# The routing thread

Other threads push events into a `ThreadSafeQueue`; `processing_loop` takes one of them in each
round and runs the maintenance when it is due. A step is a critical section of the queue's mutex, a
call of `notify_one`, the end of a wait, or what the routing thread does between two of these. The
model follows `src/mesh/utils/ThreadSafeQueue.h` and `src/mesh/routing/MeshRouter.cpp`; the routing
thread handles an event in one step, as in `Model/Router.lean`. A call of `send_packet` on another
thread holds no lock from its beginning to its end: it enters the id of the packet under the mutex
of `seen_packet_ids_`, and later reads the next hops under `mu_`. Each of the two is a step.
-/

namespace MeshNetwork

/-! ## The queue -/

structure ThreadSafeQueue (α : Type) where
  queue : List α := []
  stopRequested : Bool := false

namespace ThreadSafeQueue

variable {α : Type}

/-- The critical section of `push`. -/
def push (q : ThreadSafeQueue α) (value : α) : ThreadSafeQueue α :=
  { q with queue := q.queue ++ [value] }

/-- The predicate of the wait. -/
def ready (q : ThreadSafeQueue α) : Bool := !q.queue.isEmpty || q.stopRequested

/-- What `pop_for` does after the wait, which has returned `success`. -/
def finishPop (q : ThreadSafeQueue α) (success : Bool) : Option α × ThreadSafeQueue α :=
  if q.stopRequested && q.queue.isEmpty then (none, q)
  else if !success then (none, q)
  else (q.queue.head?, { q with queue := q.queue.tail })

end ThreadSafeQueue

/-! ## The loop -/

/-- `MeshRouter::RouterEvent`, the events in the queue. -/
inductive QueuedEvent where
  | packetReceived (peerId : PeerId) (packet : RoutedPacket)
  | peerConnected (peerId : PeerId)
  | peerDisconnected (peerId : PeerId)

def QueuedEvent.routerEvent : QueuedEvent → RouterEvent
  | .packetReceived peerId packet => .packetReceived peerId packet
  | .peerConnected peerId => .peerConnected peerId
  | .peerDisconnected peerId => .peerDisconnected peerId

inductive LoopStage where
  | created
  /-- At `while (running_)`. -/
  | head
  /-- In `pop_for`, before the predicate is evaluated. -/
  | check (deadline : Time)
  | asleep (deadline : Time)
  /-- The wait has ended after its deadline. -/
  | timedOut
  /-- `pop_for` has returned. -/
  | popped (event : Option QueuedEvent)
  /-- Before `now >= next_maintenance_time`. -/
  | tail
  | ended

/-- The routing thread, the queue, and the state of the router. -/
structure LoopState (ν : Type) where
  eventQueue : ThreadSafeQueue QueuedEvent := {}
  /-- The calls of `push` that have left the mutex and not called `notify_one` yet. -/
  notifies : Nat := 0
  running : Bool := true
  stage : LoopStage := .created
  nextMaintenanceTime : Time := 0
  owner : ν
  router : RouterState
  sent : List RouterOutput := []
  /-- The packets of the calls of `send_packet` that have entered their id and not read the next
  hops yet. -/
  sending : List RoutedPacket := []
  /-- What the routing thread has handled so far. -/
  log : List (StepEnv × RouterEvent) := []

/-- After `start()`. -/
def LoopState.start {ν : Type} (self : PeerId) (owner : ν) (now : Time) : LoopState ν :=
  { owner, router := RouterState.create self now }

def maintenanceTickRate : Time := milliseconds 100

/-- The time to wait for a packet, in whole milliseconds. -/
def waitDuration (nextMaintenanceTime now : Time) : Time :=
  milliseconds ((nextMaintenanceTime - now) / milliseconds 1)

/-- The surroundings after one reading of the clock. -/
def StepEnv.later (env : StepEnv) : StepEnv where
  order := env.order
  clock i := env.clock (i + 1)
  clock_mono _ _ hij := env.clock_mono (Nat.add_le_add_right hij 1)
  uuid := env.uuid
  random := env.random

namespace LoopState

variable {ν : Type} (cb : OnPacketForMe ν) (self : PeerId) (env : StepEnv)

/-- The routing thread handles `event`. -/
def call (s : LoopState ν) (event : RouterEvent) : LoopState ν :=
  let r := s.router.step cb self env s.owner event
  { s with owner := r.2.1, router := r.2.2, sent := s.sent ++ r.1, log := s.log ++ [(env, event)] }

/-- `send_packet` on another thread up to `seen_packet_ids_.insert`. The packets that the node sends
have the router itself as their origin, so the owner is not called. -/
def enterId (s : LoopState ν) (packet : RoutedPacket) : LoopState ν :=
  if packet.toPeerId = self then s
  else
    let dedupKey := (toHex packet.id, packet.expectResponse)
    let seen := (s.router.seenPacketIds.insert dedupKey (env.clock 0)).2
    { s with router := { s.router with seenPacketIds := seen }, sending := s.sending ++ [packet] }

/-- The call of `send_packet` with number `i` among those under way goes on with
`determine_next_hop` and transmits. -/
def forwardNext (s : LoopState ν) (i : Nat) : LoopState ν :=
  match s.sending[i]? with
  | none => s
  | some packet =>
    { s with
      sending := s.sending.eraseIdx i
      sent := s.sent ++
        (s.router.determineNextHop self env.order packet.toPeerId).filterMap
          (forwardTo self self packet) }

def finishPop (s : LoopState ν) (success : Bool) : LoopState ν :=
  let r := s.eventQueue.finishPop success
  { s with eventQueue := r.2, stage := .popped r.1 }

/-- The wait of `pop_for` ends, by a notification, by its timer or spuriously. After the deadline
the predicate is evaluated a last time. -/
def wake (s : LoopState ν) : LoopState ν :=
  match s.stage with
  | .asleep deadline =>
    { s with stage := if deadline ≤ env.clock 0 then .timedOut else .check deadline }
  | _ => s

/-- The next step of `processing_loop`. -/
def advance (s : LoopState ν) : LoopState ν :=
  match s.stage with
  | .created => { s with stage := .head, nextMaintenanceTime := env.clock 0 + maintenanceTickRate }
  | .head =>
    if s.running then
      { s with stage := .check (env.clock 1 + waitDuration s.nextMaintenanceTime (env.clock 0)) }
    else { s with stage := .ended }
  | .check deadline =>
    if s.eventQueue.ready then s.finishPop true else { s with stage := .asleep deadline }
  | .asleep _ => s
  | .timedOut => s.finishPop s.eventQueue.ready
  | .popped none => { s with stage := .tail }
  | .popped (some event) => { s.call cb self env event.routerEvent with stage := .tail }
  | .tail =>
    if s.nextMaintenanceTime ≤ env.clock 0 then
      { s.call cb self env.later .maintenance with
        stage := .head
        nextMaintenanceTime := env.clock 0 + maintenanceTickRate }
    else { s with stage := .head }
  | .ended => s

end LoopState

inductive LoopEvent where
  | pushDataBytes (fromPeer : PeerId) (payloadBytes : Bytes)
  | onPeerConnected (peerId : PeerId)
  | onPeerDisconnected (peerId : PeerId)
  | notifyOne
  | wakeup
  | advance
  /-- Another thread calls `send_packet`. -/
  | sendPacket (packet : RoutedPacket)
  | forwardNext (i : Nat)
  | stop

/-- What the call pushes into the queue; bytes that are no packet are dropped. -/
def LoopEvent.queued (decode : Bytes → Option RoutedPacket) : LoopEvent → Option QueuedEvent
  | .pushDataBytes fromPeer payloadBytes => (decode payloadBytes).map (.packetReceived fromPeer)
  | .onPeerConnected peerId => some (.peerConnected peerId)
  | .onPeerDisconnected peerId => some (.peerDisconnected peerId)
  | _ => none

def LoopState.push {ν : Type} (s : LoopState ν) : Option QueuedEvent → LoopState ν
  | none => s
  | some event => { s with eventQueue := s.eventQueue.push event, notifies := s.notifies + 1 }

def LoopState.step {ν : Type} (decode : Bytes → Option RoutedPacket) (cb : OnPacketForMe ν)
    (self : PeerId) (s : LoopState ν) (ee : StepEnv × LoopEvent) : LoopState ν :=
  match ee.2 with
  | .notifyOne => if s.notifies = 0 then s else { s.wake ee.1 with notifies := s.notifies - 1 }
  | .wakeup => s.wake ee.1
  | .advance => s.advance cb self ee.1
  | .sendPacket packet => s.enterId self ee.1 packet
  | .forwardNext i => s.forwardNext self ee.1 i
  | .stop => { s with running := false }
  | event => s.push (event.queued decode)

end MeshNetwork
