import MeshNetwork.Model.Router

/-!
# Networks of routers

Routers that exchange packets: synchronous rounds of `broadcast_full_table`, and runs in which
packets travel over the links one by one.
-/

namespace MeshNetwork

/-! ## Synchronous rounds -/

/-- The choices of one exchange round: the iteration orders of the senders, and for each node the
order in which it applies the updates of its neighbours. -/
structure RoundChoice where
  emit : PeerId → IterOrder PeerId
  receive : PeerId → List (PeerId × StepEnv)

/-- Node `b` applies the update that the neighbour `x.1` has sent to it. -/
def applyFullUpdate (choice : RoundChoice) (net : PeerId → RouterState) (b : PeerId)
    (s : RouterState) (x : PeerId × StepEnv) : RouterState :=
  match ((net x.1).broadcastFullTable (choice.emit x.1)).lookup b with
  | none => s
  | some table => s.processRoutingUpdate b x.2 x.1 table

/-- Every node emits its full table, then every node applies the updates of its neighbours. -/
def exchangeRound (choice : RoundChoice) (net : PeerId → RouterState) (b : PeerId) : RouterState :=
  (choice.receive b).foldl (applyFullUpdate choice net b) (net b)

/-- The network after `r` rounds. -/
def runRounds (choices : Nat → RoundChoice) (net : PeerId → RouterState) :
    Nat → PeerId → RouterState
  | 0 => net
  | r + 1 => exchangeRound (choices r) (runRounds choices net r)

/-! ## Packets in flight -/

/-- The nodes with their owners, the packets in flight (`channel n b` holds what `n` has sent to
`b`, oldest first) and the packets that each owner was called with. -/
structure Network (ν : Type) where
  routers : PeerId → RouterState
  owners : PeerId → ν
  channel : PeerId → PeerId → List RoutedPacket := fun _ _ => []
  handled : PeerId → List RoutedPacket := fun _ => []

inductive NetworkEvent where
  | router (node : PeerId) (event : RouterEvent)
  | sendTriggeredUpdates (node : PeerId)
  | broadcastFullTable (node : PeerId)
  | deliver (src dst : PeerId) (index : Nat)

namespace Network

variable {ν : Type}

/-- Routers that have just been constructed. -/
def create (now : PeerId → Time) (owners : PeerId → ν) : Network ν :=
  { routers := fun b => RouterState.create b (now b), owners }

def emit (node : PeerId) (net : Network ν) : RouterOutput → Network ν
  | .transmit nextPeerId pkt =>
    { net with channel := fun x y =>
        if x = node ∧ y = nextPeerId then net.channel x y ++ [pkt] else net.channel x y }
  | .packetForMe pkt =>
    { net with handled := fun x => if x = node then net.handled x ++ [pkt] else net.handled x }

/-- The outcome `r` of a step of the router at `node`. -/
def apply (net : Network ν) (node : PeerId) (r : List RouterOutput × ν × RouterState) : Network ν :=
  r.1.foldl (emit node)
    { net with
      routers := Function.update net.routers node r.2.2
      owners := Function.update net.owners node r.2.1 }

/-- The packet at `index` of a channel is taken out. -/
def take (net : Network ν) (src dst : PeerId) (index : Nat) : Network ν :=
  { net with channel := fun x y =>
      if x = src ∧ y = dst then (net.channel x y).eraseIdx index else net.channel x y }

def step (cb : PeerId → OnPacketForMe ν) (env : StepEnv) (net : Network ν) :
    NetworkEvent → Network ν
  | .router node event =>
    net.apply node ((net.routers node).step (cb node) node env (net.owners node) event)
  | .sendTriggeredUpdates node =>
    let r := (net.routers node).sendTriggeredUpdates env.order
    net.apply node (routingPackets node env 0 defaultTtl r.1, net.owners node, r.2)
  | .broadcastFullTable node =>
    let updates := (net.routers node).broadcastFullTable env.order
    net.apply node (routingPackets node env 0 15 updates, net.owners node, net.routers node)
  | .deliver src dst index =>
    match (net.channel src dst)[index]? with
    | none => net
    | some pkt => (net.take src dst index).apply dst
        ((net.routers dst).handlePacket (cb dst) dst env (net.owners dst) src pkt)

/-- One event that `cond` admits in the state before it. -/
def Moves (cb : PeerId → OnPacketForMe ν) (cond : Network ν → StepEnv → NetworkEvent → Prop)
    (net net' : Network ν) : Prop :=
  ∃ env event, cond net env event ∧ net' = net.step cb env event

end Network

end MeshNetwork
