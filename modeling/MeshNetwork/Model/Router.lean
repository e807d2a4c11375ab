import MeshNetwork.Model.DedupSet

/-!
# The distance-vector router

`MeshRouter` keeps a view of the routes each neighbour advertises and a forwarding table computed
from the views. The state, the events of the processing loop and the functions they call follow
`src/mesh/routing/MeshRouter.cpp`; logging is left out, and packets given to the transport are
outputs.
-/

namespace MeshNetwork

/-- Neighbours expire if they are silent for three minutes. -/
def routeTimeout : Time := seconds 180

def updateInterval : Time := seconds 10

def triggerDebounce : Time := milliseconds 100

/-- The count-to-infinity guard. -/
def infCost : UInt32 := 16

def defaultTtl : UInt32 := 10

structure RouteEntry where
  nextHop : PeerId
  cost : UInt32
  dirty : Bool
  lastUpdated : Time := 0
  deriving DecidableEq, Repr

structure NeighborView where
  advertisedRoutes : UMap PeerId UInt32 := ∅
  lastHeardFrom : Time := 0

abbrev DedupKey := String × Bool

structure RouterState where
  forwardingTable : UMap PeerId RouteEntry
  neighborViews : UMap PeerId NeighborView := ∅
  seenPacketIds : TimedDedupSet DedupKey := {}
  lastPeriodicUpdate : Time
  triggerDeadline : Time := 0
  triggerPending : Bool := false

/-- The constructor `MeshRouter(self)`. -/
def RouterState.create (self : PeerId) (now : Time) : RouterState :=
  { forwardingTable := AList.singleton self ⟨self, 0, false, 0⟩, lastPeriodicUpdate := now }

/-- What one step takes from its surroundings: the iteration orders of the maps, the successive
readings of the clock, the fresh packet ids and the random bytes. -/
structure StepEnv where
  order : IterOrder PeerId
  clock : Nat → Time
  clock_mono : Monotone clock
  uuid : Nat → Bytes
  random : Nat → Bytes

/-! ## The forwarding table -/

/-- The body of the loop over `view.advertised_routes`. -/
def offerRoute (self : PeerId) (now : Time) (neighborId : PeerId)
    (newTable : UMap PeerId RouteEntry) (route : PeerId × UInt32) : UMap PeerId RouteEntry :=
  if route.1 = self then newTable
  else
    let totalCost := route.2 + 1
    if totalCost ≥ infCost then newTable
    else
      match newTable.lookup route.1 with
      | none => newTable.insert route.1 ⟨neighborId, totalCost, true, now⟩
      | some entry =>
        if totalCost < entry.cost then newTable.insert route.1 ⟨neighborId, totalCost, true, now⟩
        else newTable

/-- The body of the loop that enters the neighbours themselves. -/
def enterNeighbor (now : Time) (newTable : UMap PeerId RouteEntry) (nv : PeerId × NeighborView) :
    UMap PeerId RouteEntry :=
  newTable.insert nv.1 ⟨nv.1, 1, true, now⟩

/-- `new_table` after the neighbours have been entered. -/
def neighborTable (self : PeerId) (ord : IterOrder PeerId) (now : Time)
    (views : UMap PeerId NeighborView) : UMap PeerId RouteEntry :=
  (views.items ord 0).foldl (enterNeighbor now) (AList.singleton self ⟨self, 0, false, now⟩)

/-- `new_table` of `recalculate_forwarding_table_locked`. -/
def computeTable (self : PeerId) (ord : IterOrder PeerId) (now : Time)
    (views : UMap PeerId NeighborView) : UMap PeerId RouteEntry :=
  (views.items ord 0).zipIdx.foldl
    (fun t nvi => (nvi.1.2.advertisedRoutes.items ord (4 + nvi.2)).foldl
      (offerRoute self now nvi.1.1) t) (neighborTable self ord now views)

/-- The body of the loop that merges `new_table` into the forwarding table. -/
def mergeRoute (now : Time) (acc : UMap PeerId RouteEntry × Bool) (de : PeerId × RouteEntry) :
    UMap PeerId RouteEntry × Bool :=
  match acc.1.lookup de.1 with
  | none => (acc.1.insert de.1 { de.2 with dirty := true, lastUpdated := now }, true)
  | some old =>
    if old.cost ≠ de.2.cost ∨ old.nextHop ≠ de.2.nextHop then
      (acc.1.insert de.1
        { old with cost := de.2.cost, nextHop := de.2.nextHop, lastUpdated := now, dirty := true },
        true)
    else acc

/-- The body of the loop that checks for lost routes. -/
def markLost (newTable : UMap PeerId RouteEntry) (now : Time) (acc : UMap PeerId RouteEntry × Bool)
    (de : PeerId × RouteEntry) : UMap PeerId RouteEntry × Bool :=
  if de.1 ∉ newTable ∧ de.2.cost < infCost then
    (acc.1.insert de.1 { de.2 with cost := infCost, dirty := true, lastUpdated := now }, true)
  else acc

def RouterState.recalculateForwardingTable (self : PeerId) (env : StepEnv) (now : Time)
    (s : RouterState) :
    RouterState :=
  let newTable := computeTable self env.order now s.neighborViews
  let merged := (newTable.items env.order 1).foldl (mergeRoute now) (s.forwardingTable, false)
  let checked := (merged.1.items env.order 2).foldl (markLost newTable now) merged
  let s := { s with forwardingTable := checked.1 }
  if checked.2 && !s.triggerPending then
    { s with triggerPending := true, triggerDeadline := now + triggerDebounce }
  else s

/-- The body of the loop over the costs of a routing update. -/
def applyCost (routes : UMap PeerId UInt32) (dc : PeerId × UInt32) : UMap PeerId UInt32 :=
  if dc.2 ≥ infCost then routes.erase dc.1 else routes.insert dc.1 dc.2

/-- The view of `neighborId` after a routing update. -/
def updatedView (env : StepEnv) (view : NeighborView) (table : RouteTable) : NeighborView :=
  { lastHeardFrom := env.clock 1
    advertisedRoutes := (table.items env.order 3).foldl applyCost view.advertisedRoutes }

def RouterState.processRoutingUpdate (self : PeerId) (env : StepEnv) (s : RouterState)
    (neighborId : PeerId) (table : RouteTable) : RouterState :=
  let view := updatedView env ((s.neighborViews.lookup neighborId).getD {}) table
  { s with neighborViews := s.neighborViews.insert neighborId view }.recalculateForwardingTable self
  env
    (env.clock 2)

/-! ## Advertisements -/

/-- The first loop of `send_triggered_updates`: the routes to send, and the table with their dirty
flags cleared. -/
def collectDirty (acc : UMap PeerId UInt32 × UMap PeerId RouteEntry) (de : PeerId × RouteEntry) :
    UMap PeerId UInt32 × UMap PeerId RouteEntry :=
  if de.2.dirty ∨ de.2.cost ≥ infCost then
    (acc.1.insert de.1 de.2.cost, acc.2.insert de.1 { de.2 with dirty := false })
  else acc

/-- The cost told to `neighborId`: routes through it are poisoned. -/
def poisonReverse (table : UMap PeerId RouteEntry) (neighborId dest : PeerId)
    (cost : UInt32) : UInt32 :=
  match table.lookup dest with
  | some entry => if entry.nextHop = neighborId then infCost else cost
  | none => cost

/-- The body of the inner loop of `send_triggered_updates`. -/
def addTriggered (table : UMap PeerId RouteEntry) (neighborId : PeerId) (update : RouteTable)
    (dc : PeerId × UInt32) : RouteTable :=
  update.insert dc.1 (poisonReverse table neighborId dc.1 dc.2)

/-- The triggered update for `neighborId` with the costs `routes`. -/
def triggeredUpdate (ord : IterOrder PeerId) (loop : Nat) (table : UMap PeerId RouteEntry)
    (routes : UMap PeerId UInt32) (neighborId : PeerId) : RouteTable :=
  (routes.items ord loop).foldl (addTriggered table neighborId) ∅

/-- The updates of `send_triggered_updates`, one for each neighbour. -/
def RouterState.sendTriggeredUpdates (ord : IterOrder PeerId) (s : RouterState) :
    List (PeerId × RouteTable) × RouterState :=
  let collected := (s.forwardingTable.items ord 2).foldl collectDirty (∅, s.forwardingTable)
  let s := { s with forwardingTable := collected.2 }
  if collected.1.keys.isEmpty then ([], s)
  else
    ((s.neighborViews.items ord 0).zipIdx.map fun nvi =>
      (nvi.1.1, triggeredUpdate ord (4 + nvi.2) s.forwardingTable collected.1 nvi.1.1), s)

/-- The body of the inner loop of `broadcast_full_table`. -/
def addFull (neighborId : PeerId) (update : RouteTable) (de : PeerId × RouteEntry) : RouteTable :=
  update.insert de.1 (if de.2.nextHop = neighborId then infCost else de.2.cost)

/-- The update of `broadcast_full_table` for one neighbour. -/
def fullUpdate (ord : IterOrder PeerId) (loop : Nat) (table : UMap PeerId RouteEntry)
    (neighborId : PeerId) :
    RouteTable :=
  (table.items ord loop).foldl (addFull neighborId) ∅

/-- The updates of `broadcast_full_table`, one for each neighbour. -/
def RouterState.broadcastFullTable (ord : IterOrder PeerId) (s : RouterState) :
    List (PeerId × RouteTable) :=
  (s.neighborViews.items ord 0).zipIdx.map fun nvi =>
    (nvi.1.1, fullUpdate ord (4 + nvi.2) s.forwardingTable nvi.1.1)

/-! ## Outputs -/

/-- What a step hands to the transport or to the owner of the router. -/
inductive RouterOutput where
  | transmit (nextPeerId : PeerId) (pkt : RoutedPacket)
  | packetForMe (pkt : RoutedPacket)

/-- The packets that carry routing updates; ids are taken from `uuid` starting at `first`. -/
def routingPackets (self : PeerId) (env : StepEnv) (first : Nat) (ttl : UInt32)
    (updates : List (PeerId × RouteTable)) : List RouterOutput :=
  updates.zipIdx.map fun u => .transmit u.1.1
    (makeRoutingTableRoutedPacket (env.uuid (first + u.2)) self u.1.1 ttl u.1.2)

/-! ## Maintenance -/

def expireNeighbor (now : Time) (acc : UMap PeerId NeighborView × Bool)
    (nv : PeerId × NeighborView) :
    UMap PeerId NeighborView × Bool :=
  if now - nv.2.lastHeardFrom > routeTimeout then (acc.1.erase nv.1, true) else acc

def collectGarbage (now : Time) (table : UMap PeerId RouteEntry) (de : PeerId × RouteEntry) :
    UMap PeerId RouteEntry :=
  if de.2.cost ≥ infCost ∧ now - de.2.lastUpdated > seconds 15 then table.erase de.1 else table

/-- The part of `run_periodic_maintenance` that removes silent neighbours. -/
def RouterState.expireNeighbors (self : PeerId) (env : StepEnv) (now : Time)
    (s : RouterState) : RouterState :=
  let expired :=
    (s.neighborViews.items env.order 0).foldl (expireNeighbor now) (s.neighborViews, false)
  let s := { s with neighborViews := expired.1 }
  if expired.2 then s.recalculateForwardingTable self env (env.clock 1) else s

/-- The debounced update for changes. -/
def RouterState.fireTrigger (self : PeerId) (env : StepEnv) (now : Time) (s : RouterState) :
    List RouterOutput × RouterState :=
  if s.triggerPending ∧ now ≥ s.triggerDeadline then
    let r := s.sendTriggeredUpdates env.order
    (routingPackets self env 0 defaultTtl r.1, { r.2 with triggerPending := false })
  else ([], s)

/-- The periodic broadcast of the full table. -/
def RouterState.firePeriodic (self : PeerId) (env : StepEnv) (now : Time) (first : Nat)
    (s : RouterState) :
    List RouterOutput × RouterState :=
  if now - s.lastPeriodicUpdate > updateInterval then
    (routingPackets self env first 15 (s.broadcastFullTable env.order),
      { s with lastPeriodicUpdate := now })
  else ([], s)

/-- Dead routes are kept for 15 s so that their cost propagates to others. -/
def RouterState.removeDeadRoutes (ord : IterOrder PeerId) (now : Time)
    (s : RouterState) : RouterState :=
  { s with
    forwardingTable :=
      (s.forwardingTable.items ord 2).foldl (collectGarbage now) s.forwardingTable }

def RouterState.runPeriodicMaintenance (self : PeerId) (env : StepEnv) (s : RouterState) :
    List RouterOutput × RouterState :=
  let now := env.clock 0
  let s := s.expireNeighbors self env now
  let triggered := s.fireTrigger self env now
  let full := triggered.2.firePeriodic self env now triggered.1.length
  let s := full.2.removeDeadRoutes env.order now
  (triggered.1 ++ full.1, { s with seenPacketIds := s.seenPacketIds.cleanup (env.clock 2) })

/-! ## Data packets -/

def RouterState.getDirectNeighbors (self : PeerId) (ord : IterOrder PeerId)
    (s : RouterState) : List PeerId :=
  (ord.visit 0 s.neighborViews.keys).filter fun id => id ≠ self

def RouterState.getPeersInNetwork (ord : IterOrder PeerId) (s : RouterState) : List PeerId :=
  ord.visit 0 s.forwardingTable.keys

def RouterState.determineNextHop (self : PeerId) (ord : IterOrder PeerId) (s : RouterState)
    (destPeer : PeerId) : List PeerId :=
  if destPeer = "" then s.getDirectNeighbors self ord
  else
    match s.forwardingTable.lookup destPeer with
    | none => []
    | some entry => if entry.cost ≥ infCost then [] else [entry.nextHop]

/-- One round of the forwarding loop of `route_data_packet`. -/
def forwardTo (self immediateSrc : PeerId) (pkt : RoutedPacket) (nextPeerId : PeerId) :
    Option RouterOutput :=
  if nextPeerId = immediateSrc then none
  else if nextPeerId = self then none
  else
    let forwardPkt := { pkt with ttl := pkt.ttl - 1 }
    if forwardPkt.ttl ≤ 0 then none
    else
      match forwardPkt.transport with
      | .tcp => some (.transmit nextPeerId forwardPkt)
      | .udp => some (.transmit nextPeerId forwardPkt)
      | .unknown _ => none

/-- The part of `route_data_packet` after the local delivery. -/
def RouterState.forwardPacket (self : PeerId) (ord : IterOrder PeerId) (now : Time)
    (s : RouterState) (immediateSrc destPeer : PeerId) (pktId : String) (pkt : RoutedPacket) :
    List RouterOutput × RouterState :=
  let dedupKey := (pktId, pkt.expectResponse)
  if immediateSrc ≠ self ∧ s.seenPacketIds.contains dedupKey then ([], s)
  else
    let s := { s with seenPacketIds := (s.seenPacketIds.insert dedupKey now).2 }
    ((s.determineNextHop self ord destPeer).filterMap (forwardTo self immediateSrc pkt), s)

/-- `send_packet` for a packet whose origin is the router itself: the owner is not called. -/
def RouterState.sendOwnPacket (self : PeerId) (ord : IterOrder PeerId) (now : Time)
    (s : RouterState) (pkt : RoutedPacket) : List RouterOutput × RouterState :=
  if pkt.toPeerId = self then ([], s)
  else s.forwardPacket self ord now self pkt.toPeerId (toHex pkt.id) pkt

/-- The packets that the owner sends during a callback, one after the other. -/
def RouterState.sendOwnPackets (self : PeerId) (env : StepEnv) :
    Nat → RouterState → List RoutedPacket → List RouterOutput × RouterState
  | _, s, [] => ([], s)
  | i, s, pkt :: pkts =>
    let first := s.sendOwnPacket self env.order (env.clock i) pkt
    let rest := first.2.sendOwnPackets self env (i + 1) pkts
    (first.1 ++ rest.1, rest.2)

/-- The owner's callback. It may change the packet, read the router and send packets of its own. -/
abbrev OnPacketForMe (ν : Type) :=
  StepEnv → ν → RouterState → RoutedPacket → ν × RoutedPacket × List RoutedPacket

/-- `route_data_packet`. -/
def RouterState.routeDataPacket {ν : Type} (cb : OnPacketForMe ν) (self : PeerId) (env : StepEnv)
    (owner : ν) (s : RouterState) (immediateSrc destPeer : PeerId) (pktId : String)
    (pkt : RoutedPacket) :
    List RouterOutput × ν × RouterState :=
  if (destPeer = "" ∨ destPeer = self) ∧ pkt.fromPeerId ≠ self then
    let r := cb env owner s pkt
    let sent := s.sendOwnPackets self env 2 r.2.2
    if destPeer = self then (.packetForMe pkt :: sent.1, r.1, sent.2)
    else
      let fwd := sent.2.forwardPacket self env.order (env.clock (2 + r.2.2.length)) immediateSrc
        destPeer pktId
        r.2.1
      (.packetForMe pkt :: sent.1 ++ fwd.1, r.1, fwd.2)
  else if destPeer = self then ([], owner, s)
  else
    let fwd := s.forwardPacket self env.order (env.clock 2) immediateSrc destPeer pktId pkt
    (fwd.1, owner, fwd.2)

/-! ## Events -/

inductive RouterEvent where
  | packetReceived (peerId : PeerId) (packet : RoutedPacket)
  | peerConnected (peerId : PeerId)
  | peerDisconnected (peerId : PeerId)
  | maintenance
  | sendPacket (packet : RoutedPacket)

/-- `if (neighbor_views_.contains(src_id)) neighbor_views_[src_id].last_heard_from = now;` -/
def RouterState.heardFrom (s : RouterState) (srcId : PeerId) (now : Time) : RouterState :=
  match s.neighborViews.lookup srcId with
  | none => s
  | some view =>
    { s with neighborViews := s.neighborViews.insert srcId { view with lastHeardFrom := now } }

def RouterState.handlePacket {ν : Type} (cb : OnPacketForMe ν) (self : PeerId) (env : StepEnv)
    (owner : ν) (s : RouterState) (srcId : PeerId) (pkt : RoutedPacket) :
    List RouterOutput × ν × RouterState :=
  if srcId = self ∨ pkt.fromPeerId = self then ([], owner, s)
  else
    let s := s.heardFrom srcId (env.clock 0)
    if pkt.type = .routingUpdate then ([], owner,
      s.processRoutingUpdate self env srcId pkt.routeTable)
    else s.routeDataPacket cb self env owner srcId pkt.toPeerId (toHex pkt.id) pkt

def RouterState.peerConnected (self : PeerId) (env : StepEnv) (s : RouterState)
    (peerId : PeerId) : RouterState :=
  let view := (s.neighborViews.lookup peerId).getD {}
  let view := { view with lastHeardFrom := env.clock 0 }
  { s with neighborViews := s.neighborViews.insert peerId view }.recalculateForwardingTable self env
    (env.clock 1)

def RouterState.peerDisconnected (self : PeerId) (env : StepEnv) (s : RouterState)
    (peerId : PeerId) :
    RouterState :=
  { s with neighborViews := s.neighborViews.erase peerId }.recalculateForwardingTable self env
    (env.clock 1)

/-- One event of the processing loop, a maintenance tick, or a call of `send_packet`. -/
def RouterState.step {ν : Type} (cb : OnPacketForMe ν) (self : PeerId) (env : StepEnv) (owner : ν)
    (s : RouterState) : RouterEvent → List RouterOutput × ν × RouterState
  | .packetReceived peerId packet => s.handlePacket cb self env owner peerId packet
  | .peerConnected peerId => ([], owner, s.peerConnected self env peerId)
  | .peerDisconnected peerId => ([], owner, s.peerDisconnected self env peerId)
  | .maintenance =>
    ((s.runPeriodicMaintenance self env).1, owner, (s.runPeriodicMaintenance self env).2)
  | .sendPacket packet =>
    s.routeDataPacket cb self env owner self packet.toPeerId (toHex packet.id) packet

/-- The states of a router and its owner along a sequence of events. -/
inductive RouterRun {ν : Type} (cb : OnPacketForMe ν) (self : PeerId) (owner₀ : ν) :
    List (StepEnv × RouterEvent) → ν → RouterState → Prop
  | create (now : Time) : RouterRun cb self owner₀ [] owner₀ (RouterState.create self now)
  | step {events : List (StepEnv × RouterEvent)} {owner : ν} {s : RouterState} (env : StepEnv)
      (event : RouterEvent) : RouterRun cb self owner₀ events owner s →
      RouterRun cb self owner₀ (events ++ [(env, event)]) (s.step cb self env owner event).2.1
        (s.step cb self env owner event).2.2

end MeshNetwork
