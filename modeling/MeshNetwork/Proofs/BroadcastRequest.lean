import MeshNetwork.Proofs.AnswerDelivery

/-!
# Broadcast requests

All answers to a broadcast request have the id of the request, so a relay takes the answer of
another node for a duplicate once it has answered or forwarded an answer itself. The request
reaches every node in every run; the originator collects the answers of all nodes in every run in
which no relay drops one that way.
-/

namespace MeshNetwork.Proofs

open Flooding

section Runs

variable {lib : Libraries} {im : IdentityManager} {G : SimpleGraph PeerId} {q : Query}
  {net : Network NodeState}

/-- A network in which `broadcast_request` is called. -/
structure Ready (lib : Libraries) (G : SimpleGraph PeerId) (q : Query)
    (net : Network NodeState) : Prop where
  routes : RoutesTo G q.origin net.routers
  peerId : ∀ b, (net.owners b).peerId = b
  responds : ∀ b, b ≠ q.origin → G.Reachable q.origin b →
    Responds lib (net.owners q.origin).identity q (net.owners b)
  unblocked : (net.owners q.origin).ignoreAllIncomingMessages = false
  notPending : (net.owners q.origin).requestTracker.pendingRequests.lookup q.reqId = none
  unseen : ∀ b, (q.reqId, true) ∉ (net.routers b).seenPacketIds.set
  quiet : ∀ x y, net.channel x y = []

/-- The network after the originator has called `broadcast_request`. -/
def Query.issue (q : Query) (lib : Libraries) (env : StepEnv) (net : Network NodeState) :
    Network NodeState :=
  net.callNode lib env q.origin (.broadcastRequest q.subtype q.serialized q.protocol)

lemma issue_eq (env : StepEnv) (hid : q.id = env.uuid 0)
    (hpeer : (net.owners q.origin).peerId = q.origin) (hnamed : q.origin ≠ "") :
    q.issue lib env net =
      net.apply q.origin
        (((net.routers q.origin).forwardPacket q.origin env.order (env.clock 2) q.origin "" q.reqId
          (q.copy 15)).1,
          { net.owners q.origin with
            requestTracker := (net.owners q.origin).requestTracker.trackBroadcast q.reqId },
          ((net.routers q.origin).forwardPacket q.origin env.order (env.clock 2) q.origin "" q.reqId
            (q.copy 15)).2) := by
  have hcopy : makeBinaryRoutedPacket (env.uuid 0) (net.owners q.origin).peerId "" 15 q.subtype
      q.protocol q.serialized
      true = q.copy 15 := by
    rw [hpeer, ← hid]
    rfl
  have hcall : (net.owners q.origin).call lib env (.broadcastRequest q.subtype q.serialized
      q.protocol) =
      { node := { net.owners q.origin with
          requestTracker := (net.owners q.origin).requestTracker.trackBroadcast q.reqId }
        sent := [q.copy 15]
        uuids := 1 } := by
    simp only [NodeState.call, NodeCall.broadcastRequest, NodeCall.makePacket, hcopy]
    rfl
  unfold Query.issue Network.callNode
  rw [hcall]
  simp only [RouterState.sendOwnPackets, List.append_nil]
  unfold RouterState.sendOwnPacket
  rw [if_neg (show ¬(q.copy 15).toPeerId = q.origin from hnamed.symm)]
  rfl

/-- The request has been seen by the originator alone. -/
lemma issue_reached (hcarries : Carries G q) (h : Ready lib G q net) (env : StepEnv)
    (hid : q.id = env.uuid 0) :
    reached q (q.issue lib env net).routers = {q.origin} := by
  rw [issue_eq env hid (h.peerId q.origin) (hcarries.named q.origin .rfl)]
  ext x
  change x ∈ seenBy (q.reqId, true) _ ↔ _
  rw [mem_seenBy_apply]
  split_ifs with hx
  · simp only [hx, Set.mem_singleton_iff, iff_true]
    exact forwardPacket_seen_mem ..
  · simp only [hx, Set.mem_singleton_iff, iff_false]
    exact h.unseen x

/-- One copy of the request is on its way to each neighbour of the originator, and nothing else. -/
lemma mem_issue_channel (hcarries : Carries G q) (h : Ready lib G q net) (env : StepEnv)
    (hid : q.id = env.uuid 0) {x y : PeerId} {pkt : RoutedPacket} :
    pkt ∈ (q.issue lib env net).channel x y ↔ x = q.origin ∧ G.Adj x y ∧ pkt = q.copy 14 := by
  have hknown : (q.copy 15).transport = .tcp ∨ (q.copy 15).transport = .udp := hcarries.protocol
  have hpos : 0 < (q.copy 15).ttl - 1 := by
    change (0 : UInt32) < 15 - 1
    decide
  have hhop : { q.copy 15 with ttl := (q.copy 15).ttl - 1 } = q.copy 14 := by
    have httl : (15 - 1 : UInt32) = 14 := by decide
    change q.copy (15 - 1) = q.copy 14
    rw [httl]
  rw [issue_eq env hid (h.peerId q.origin) (hcarries.named q.origin .rfl), apply_eq]
  dsimp only
  rw [h.quiet, List.nil_append]
  split_ifs with hx
  · rw [mem_filterMap_packetTo, mem_forwardPacket_broadcast hknown, h.routes.neighbors, hx, hhop]
    constructor
    · rintro ⟨-, hadj, -, -, -, hpkt⟩
      exact ⟨rfl, hadj, hpkt⟩
    · rintro ⟨-, hadj, hpkt⟩
      exact ⟨fun hne => hne.1 rfl, hadj, hadj.ne', hadj.ne', hpos, hpkt⟩
  · simp [hx]

/-- The originator waits for answers, the other nodes are as they were. -/
lemma issue_serving (hcarries : Carries G q) (h : Ready lib G q net) (env : StepEnv)
    (hid : q.id = env.uuid 0) :
    Serving lib (net.owners q.origin).identity G q (q.issue lib env net).routers
      (q.issue lib env net).owners := by
  rw [issue_eq env hid (h.peerId q.origin) (hcarries.named q.origin .rfl), apply_eq]
  dsimp only
  constructor
  · exact h.routes.update (.of_frame (forwardPacket_frame ..))
  · intro b
    by_cases hb : b = q.origin
    · rw [hb, Function.update_self]
      exact h.peerId q.origin
    · rw [Function.update_of_ne hb]
      exact h.peerId b
  · intro b hb hreach
    rw [Function.update_of_ne hb]
    exact h.responds b hb hreach
  · rw [Function.update_self]
    exact ⟨h.unblocked, h.notPending, Finset.mem_insert_self .., rfl⟩

lemma issue_spreading (hcarries : Carries G q) (h : Ready lib G q net) (env : StepEnv)
    (hid : q.id = env.uuid 0) :
    Spreading lib (net.owners q.origin).identity G q (q.issue lib env net) ∧
      AllAnswered lib (net.owners q.origin).identity G q (q.issue lib env net) := by
  have hreached := issue_reached hcarries h env hid
  have hcopy : ∀ y, G.Adj q.origin y → CopyOnWay G q {q.origin} q.origin y (q.copy 14) :=
    fun y hadj => ⟨hadj, 0, 14, rfl, .nil (Set.mem_singleton q.origin), rfl⟩
  constructor
  · constructor
    · exact issue_serving hcarries h env hid
    · rw [hreached]
      exact Set.mem_singleton q.origin
    · intro x y pkt hpkt
      obtain ⟨rfl, hadj, rfl⟩ := (mem_issue_channel hcarries h env hid).mp hpkt
      rw [hreached]
      exact .inl (hcopy y hadj)
    · rw [hreached]
      intro x hx y hadj
      obtain rfl : x = q.origin := hx
      exact .inr ⟨q.copy 14, (mem_issue_channel hcarries h env hid).mpr ⟨rfl, hadj, rfl⟩,
        hcopy y hadj⟩
  · intro v hv hvo
    rw [hreached] at hv
    exact absurd hv hvo

/-- Packets travel over links only. -/
lemma Spreading.channel_eq_nil (h : Spreading lib im G q net)
    (hlinks : ∀ x y, G.Adj x y → net.channel x y = []) (x y : PeerId) : net.channel x y = [] := by
  rw [List.eq_nil_iff_forall_not_mem]
  intro pkt hpkt
  have hadj : G.Adj x y := by
    rcases h.inFlight x y pkt hpkt with hcopy | ⟨v, hway⟩
    · exact hcopy.adj
    · exact hway.adj
  rw [hlinks x y hadj] at hpkt
  exact List.not_mem_nil hpkt

/-- Packets are delivered, and no answer to the request is delivered to a relay that has already
seen the id of the request on an answer. -/
def RelaysUnseen (q : Query) (net : Network NodeState) : NetworkEvent → Prop
  | .deliver src dst index =>
    ∀ pkt, (net.channel src dst)[index]? = some pkt → pkt.toPeerId = q.origin →
      dst ≠ q.origin → (q.reqId, false) ∉ (net.routers dst).seenPacketIds.set
  | _ => False

instance (q : Query) (net : Network NodeState) :
    (event : NetworkEvent) → Decidable (RelaysUnseen q net event)
  | .deliver src dst index =>
    inferInstanceAs (Decidable (∀ pkt ∈ (net.channel src dst)[index]?, pkt.toPeerId = q.origin →
      dst ≠ q.origin → (q.reqId, false) ∉ (net.routers dst).seenPacketIds.set))
  | .router _ _ => inferInstanceAs (Decidable False)
  | .sendTriggeredUpdates _ => inferInstanceAs (Decidable False)
  | .broadcastFullTable _ => inferInstanceAs (Decidable False)

/-- Packets are delivered. -/
def Delivery : NetworkEvent → Prop
  | .deliver _ _ _ => True
  | _ => False

lemma deliveries_spreading (hcarries : Carries G q) {net' : Network NodeState}
    (hrun : Relation.ReflTransGen (Network.Moves (fun _ => onPacketForMe lib) fun _ _ event =>
      Delivery event) net net') (h : Spreading lib im G q net) : Spreading lib im G q net' := by
  induction hrun with
  | refl => exact h
  | tail _ hmove ih =>
    obtain ⟨env, event, hevent, rfl⟩ := hmove
    cases event with
    | deliver src dst index =>
      cases hpkt : (Network.channel _ src dst)[index]? with
      | none =>
        rw [step_deliver_none hpkt]
        exact ih
      | some pkt => exact (ih.deliver hcarries hpkt env).spreading
    | router | sendTriggeredUpdates | broadcastFullTable => exact hevent.elim

lemma relaysUnseen_answered (hcarries : Carries G q) {net' : Network NodeState}
    (hrun : Relation.ReflTransGen (Network.Moves (fun _ => onPacketForMe lib) fun net _ event =>
      RelaysUnseen q net event)
      net net')
    (h : Spreading lib im G q net) (hall : AllAnswered lib im G q net) :
    Spreading lib im G q net' ∧ AllAnswered lib im G q net' := by
  induction hrun with
  | refl => exact ⟨h, hall⟩
  | tail _ hmove ih =>
    obtain ⟨env, event, hevent, rfl⟩ := hmove
    cases event with
    | deliver src dst index =>
      cases hpkt : (Network.channel _ src dst)[index]? with
      | none =>
        rw [step_deliver_none hpkt]
        exact ih
      | some pkt =>
        have hdelivers := ih.1.deliver hcarries hpkt env
        exact ⟨hdelivers.spreading, hdelivers.answered (hevent pkt hpkt) ih.2⟩
    | router | sendTriggeredUpdates | broadcastFullTable => exact hevent.elim

lemma Spreading.reached_of_quiet (h : Spreading lib im G q net)
    (hterminal : ∀ x y, net.channel x y = []) {v : PeerId} (hv : G.Reachable q.origin v) :
    v ∈ reached q net.routers := by
  refine h.covers.reachable_mem ?_ h.origin hv
  rintro x y ⟨pkt, hpkt, -⟩
  rw [hterminal] at hpkt
  exact List.not_mem_nil hpkt

/-- When no packet is on its way any more, the request has reached every node. -/
theorem issue_reaches_all (hcarries : Carries G q) (h : Ready lib G q net) (env : StepEnv)
    (hid : q.id = env.uuid 0) {net' : Network NodeState}
    (hrun : Relation.ReflTransGen (Network.Moves (fun _ => onPacketForMe lib) fun _ _ event =>
      Delivery event)
      (q.issue lib env net) net')
    (hterminal : ∀ x y, net'.channel x y = []) {v : PeerId} (hv : G.Reachable q.origin v) :
    v ∈ reached q net'.routers := by
  exact (deliveries_spreading hcarries hrun (issue_spreading hcarries h env hid).1).reached_of_quiet
    hterminal hv

/-- In every run in which no answer is delivered to a relay that has already seen the id of the
request on an answer, the originator has a response of every node when no packet is on its way any
more. -/
theorem broadcastRequest_collects (lib : Libraries) (G : SimpleGraph PeerId) (q : Query)
    (hcarries : Carries G q) (net₀ : Network NodeState) (hready : Ready lib G q net₀)
    (env : StepEnv) (hid : q.id = env.uuid 0) (net : Network NodeState)
    (hrun : Relation.ReflTransGen (Network.Moves (fun _ => onPacketForMe lib) fun net _ event =>
      RelaysUnseen q net event)
      (q.issue lib env net₀) net)
    (hterminal : ∀ x y, net.channel x y = []) (v : PeerId) (hv : v ≠ q.origin)
    (hreach : G.Reachable q.origin v) :
    ∃ rawBytes, .onResponse q.reqId v rawBytes ∈ (net.owners q.origin).calls := by
  obtain ⟨hspread₀, hall₀⟩ := issue_spreading hcarries hready env hid
  obtain ⟨hspread, hall⟩ := relaysUnseen_answered hcarries hrun hspread₀ hall₀
  rcases hall v (hspread.reached_of_quiet hterminal hreach) hv with ⟨x, y, pkt, hpkt, -⟩ |
    hcollected
  · rw [hterminal] at hpkt
    exact absurd hpkt List.not_mem_nil
  · exact hcollected

end Runs

/-! ## Topology requests in small networks -/

def topologyQuery : Query := ⟨"a", [5], "mesh.TopologyRequest", [], .tcp⟩

def queryEnv : StepEnv := { plainEnv 0 with uuid := fun _ => [5] }

/-- A router with the given neighbours. -/
def joined (self : PeerId) (neighbors : List PeerId) : RouterState :=
  neighbors.foldl (fun s p => s.peerConnected self (plainEnv 0) p) (RouterState.create self 0)

/-- Nodes that do not encrypt and have only the built-in handlers. -/
def plainNodes (routers : PeerId → RouterState) : Network NodeState where
  routers
  owners peerId := { peerId, encryptMessages := false }

lemma plainNodes_routers (routers : PeerId → RouterState) :
    (plainNodes routers).routers = routers := rfl

lemma plainNodes_ready {G : SimpleGraph PeerId} {routers : PeerId → RouterState}
    (hroutes : RoutesTo G "a" routers) (hunseen : ∀ b, (routers b).seenPacketIds.set = ∅) :
    Ready openLibraries G topologyQuery (plainNodes routers) := by
  have hresponds : ∀ peerId, Responds openLibraries {} topologyQuery
      { peerId, encryptMessages := false } := by
    intro peerId
    exact {
      unblocked := rfl
      notPending := rfl
      notTracked := Finset.notMem_empty _
      answers := ⟨⟨some "mesh.TopologyResponse", .topologyRequest⟩, rfl, rfl⟩
      encrypts := fun hon => by cases hon }
  exact {
    routes := hroutes
    peerId := fun _ => rfl
    responds := fun b _ _ => hresponds b
    unblocked := rfl
    notPending := rfl
    unseen := fun b => by
      change _ ∉ (routers b).seenPacketIds.set
      rw [hunseen b]
      exact Finset.notMem_empty _
    quiet := fun _ _ => rfl }

lemma carries_of_closed {G : SimpleGraph PeerId} {T : Finset PeerId}
    (hclosed : ∀ x ∈ T, ∀ y, G.Adj x y → y ∈ T) (ho : "a" ∈ T) (hnamed : "" ∉ T)
    (hcard : T.card ≤ 15) : Carries G topologyQuery where
  named b hb := by
    have hmem : b ∈ (T : Set PeerId) := mem_of_closed (fun x hx y hadj => hclosed x hx y hadj) ho hb
    rintro rfl
    exact hnamed hmem
  paths := pathsWithin_of_closed hclosed ho hcard
  protocol := .inl rfl

section TwoLinks

variable {u v w z : PeerId}

lemma twoLinks_adj (huv : u ≠ v) (hwz : w ≠ z) {x y : PeerId} :
    (SimpleGraph.edge u v ⊔ SimpleGraph.edge w z).Adj x y ↔
      x = u ∧ y = v ∨ x = v ∧ y = u ∨ x = w ∧ y = z ∨ x = z ∧ y = w := by
  rw [SimpleGraph.sup_adj, SimpleGraph.edge_adj, SimpleGraph.edge_adj]
  constructor
  · rintro (⟨⟨rfl, rfl⟩ | ⟨rfl, rfl⟩, -⟩ | ⟨⟨rfl, rfl⟩ | ⟨rfl, rfl⟩, -⟩) <;> simp
  · rintro (⟨rfl, rfl⟩ | ⟨rfl, rfl⟩ | ⟨rfl, rfl⟩ | ⟨rfl, rfl⟩) <;> simp [huv, hwz, Ne.symm]

lemma twoLinks_closed (huv : u ≠ v) (hwz : w ≠ z) {T : Finset PeerId} (hT : {u, v, w, z} ⊆ T)
    (x : PeerId) (_ : x ∈ T) (y : PeerId)
    (hadj : (SimpleGraph.edge u v ⊔ SimpleGraph.edge w z).Adj x y) : y ∈ T := by
  apply hT
  rcases (twoLinks_adj huv hwz).mp hadj with ⟨-, rfl⟩ | ⟨-, rfl⟩ | ⟨-, rfl⟩ | ⟨-, rfl⟩ <;> simp

end TwoLinks

/-- The links of "a" with "b" and of "b" with "c". -/
def lineGraph : SimpleGraph PeerId := SimpleGraph.edge "a" "b" ⊔ SimpleGraph.edge "b" "c"

def lineRouters (x : PeerId) : RouterState :=
  if x = "a" then (joined "a" ["b"]).processRoutingUpdate "a" (plainEnv 0) "b"
    (AList.singleton "c" 1)
  else if x = "b" then joined "b" ["a", "c"]
  else if x = "c" then (joined "c" ["b"]).processRoutingUpdate "c" (plainEnv 0) "b"
    (AList.singleton "a" 1)
  else RouterState.create x 0

lemma lineGraph_adj {x y : PeerId} :
    lineGraph.Adj x y ↔ x = "a" ∧ y = "b" ∨ x = "b" ∧ y = "a" ∨ x = "b" ∧ y = "c" ∨ x = "c" ∧
      y = "b" :=
  twoLinks_adj (by decide) (by decide)

lemma lineRouters_neighbors (b p : PeerId) :
    p ∈ (lineRouters b).neighborViews ↔ lineGraph.Adj b p := by
  rw [lineGraph_adj, AList.mem_keys]
  unfold lineRouters
  split_ifs with ha hb hc
  · subst ha
    have hkeys : ((joined "a" ["b"]).processRoutingUpdate "a" (plainEnv 0) "b"
        (AList.singleton "c" 1)).neighborViews.keys = ["b"] := by decide
    simp [hkeys]
  · subst hb
    have hkeys : (joined "b" ["a", "c"]).neighborViews.keys = ["c", "a"] := by decide
    simp [hkeys, or_comm]
  · subst hc
    have hkeys : ((joined "c" ["b"]).processRoutingUpdate "c" (plainEnv 0) "b"
        (AList.singleton "a" 1)).neighborViews.keys = ["b"] := by decide
    simp [hkeys]
  · have hkeys : (RouterState.create b 0).neighborViews.keys = [] := rfl
    simp [hkeys, ha, hb, hc]

lemma lineGraph_closed : ∀ x ∈ ({"a", "b", "c"} : Finset PeerId), ∀ y, lineGraph.Adj x y →
    y ∈ ({"a", "b", "c"} : Finset PeerId) :=
  twoLinks_closed (by decide) (by decide) (by decide)

lemma lineGraph_ab : lineGraph.Adj "a" "b" := lineGraph_adj.mpr (.inl ⟨rfl, rfl⟩)

lemma lineGraph_bc : lineGraph.Adj "b" "c" := lineGraph_adj.mpr (.inr (.inr (.inl ⟨rfl, rfl⟩)))

lemma lineGraph_dist : lineGraph.dist "a" "c" = 2 := by
  have hle : lineGraph.dist "a" "c" ≤ 2 :=
    SimpleGraph.dist_le (.cons lineGraph_ab (.cons lineGraph_bc .nil))
  have hpos : 0 < lineGraph.dist "a" "c" :=
    (lineGraph_ab.reachable.trans lineGraph_bc.reachable).pos_dist_of_ne (by decide)
  have hne : lineGraph.dist "a" "c" ≠ 1 := by
    rw [Ne, SimpleGraph.dist_eq_one_iff_adj, lineGraph_adj]
    decide
  omega

lemma lineRouters_routes : RoutesTo lineGraph "a" lineRouters := by
  refine ⟨lineRouters_neighbors, fun b hb hreach => ?_⟩
  have hmem : b ∈ (({"a", "b", "c"} : Finset PeerId) : Set PeerId) :=
    mem_of_closed lineGraph_closed (by decide) hreach
  rcases (by simpa using hmem : b = "a" ∨ b = "b" ∨ b = "c") with rfl | rfl | rfl
  · exact absurd rfl hb
  · refine ⟨"a", ⟨⟨"a", 1, true, 0⟩, by decide, by decide, rfl⟩, lineGraph_ab.symm, ?_⟩
    rw [SimpleGraph.dist_self, SimpleGraph.dist_eq_one_iff_adj.mpr lineGraph_ab]
  · refine ⟨"b", ⟨⟨"b", 2, true, 0⟩, by decide, by decide, rfl⟩, lineGraph_bc.symm, ?_⟩
    rw [SimpleGraph.dist_eq_one_iff_adj.mpr lineGraph_ab, lineGraph_dist]

lemma lineRouters_unseen (b : PeerId) : (lineRouters b).seenPacketIds.set = ∅ := by
  unfold lineRouters
  split_ifs
  · decide
  · decide
  · decide
  · rfl

lemma lineRouters_ready : Ready openLibraries lineGraph topologyQuery (plainNodes lineRouters) :=
  plainNodes_ready lineRouters_routes lineRouters_unseen

/-- The request reaches "b" and "c"; "b" answers and then takes the answer of "c" for a
duplicate. -/
def lineDeliveries : List NetworkEvent :=
  [.deliver "a" "b" 0, .deliver "b" "a" 0, .deliver "b" "c" 0, .deliver "c" "b" 0]

def lineEnd : Network NodeState :=
  lineDeliveries.foldl (Network.step (fun _ => onPacketForMe openLibraries) queryEnv)
    (topologyQuery.issue openLibraries queryEnv (plainNodes lineRouters))

theorem relay_drops_answer :
    Carries lineGraph topologyQuery ∧ Ready openLibraries lineGraph topologyQuery
      (plainNodes lineRouters) ∧ topologyQuery.id = queryEnv.uuid 0 ∧ lineGraph.Reachable "a" "c" ∧
      Relation.ReflTransGen (Network.Moves (fun _ => onPacketForMe openLibraries) fun _ _ event =>
        Delivery event)
        (topologyQuery.issue openLibraries queryEnv (plainNodes lineRouters)) lineEnd ∧
      (∀ x y, lineEnd.channel x y = []) ∧
      ∀ rawBytes, .onResponse topologyQuery.reqId "c" rawBytes ∉ (lineEnd.owners "a").calls := by
  have hcarries : Carries lineGraph topologyQuery :=
    carries_of_closed lineGraph_closed (by decide) (by decide) (by decide)
  have hdeliveries : ∀ event ∈ lineDeliveries, Delivery event := by simp [lineDeliveries, Delivery]
  have hrun := moves_events (fun _ => onPacketForMe openLibraries) queryEnv hdeliveries
    (topologyQuery.issue openLibraries queryEnv (plainNodes lineRouters))
  have hspread :=
    deliveries_spreading hcarries hrun (issue_spreading hcarries lineRouters_ready queryEnv rfl).1
  refine ⟨hcarries, lineRouters_ready, rfl, lineGraph_ab.reachable.trans lineGraph_bc.reachable,
    hrun, ?_, ?_⟩
  · apply hspread.channel_eq_nil
    intro x y hadj
    rcases lineGraph_adj.mp hadj with ⟨rfl, rfl⟩ | ⟨rfl, rfl⟩ | ⟨rfl, rfl⟩ | ⟨rfl, rfl⟩ <;> decide
  · have hcalls : (lineEnd.owners "a").calls = [.onResponse topologyQuery.reqId "b" []] := by decide
    simp [hcalls]

/-- The links of a diamond: "a" and "d" have no link, but both have one to "b" and one to "c". -/
def diamondLinks : List (PeerId × PeerId) :=
  [("a", "b"), ("b", "a"), ("a", "c"), ("c", "a"), ("b", "d"), ("d", "b"), ("c", "d"), ("d", "c")]

def diamondGraph : SimpleGraph PeerId where
  Adj x y := (x, y) ∈ diamondLinks
  symm := ⟨fun x y h => (by decide : ∀ l ∈ diamondLinks, (l.2, l.1) ∈ diamondLinks) (x, y) h⟩
  loopless := ⟨fun x h => (by decide : ∀ l ∈ diamondLinks, l.1 ≠ l.2) (x, x) h rfl⟩

/-- The route of "d" to "a" goes through "c". -/
def diamondRouters (x : PeerId) : RouterState :=
  if x = "a" then joined "a" ["b", "c"]
  else if x = "b" then joined "b" ["a", "d"]
  else if x = "c" then joined "c" ["a", "d"]
  else if x = "d" then (joined "d" ["b", "c"]).processRoutingUpdate "d" (plainEnv 0) "c"
    (AList.singleton "a" 1)
  else RouterState.create x 0

lemma diamondRouters_neighbors (b p : PeerId) :
    p ∈ (diamondRouters b).neighborViews ↔ diamondGraph.Adj b p := by
  change _ ↔ (b, p) ∈ diamondLinks
  rw [AList.mem_keys]
  unfold diamondRouters
  split_ifs with ha hb hc hd
  · subst ha
    have hkeys : (joined "a" ["b", "c"]).neighborViews.keys = ["c", "b"] := by decide
    simp [hkeys, diamondLinks, or_comm]
  · subst hb
    have hkeys : (joined "b" ["a", "d"]).neighborViews.keys = ["d", "a"] := by decide
    simp [hkeys, diamondLinks, or_comm]
  · subst hc
    have hkeys : (joined "c" ["a", "d"]).neighborViews.keys = ["d", "a"] := by decide
    simp [hkeys, diamondLinks, or_comm]
  · subst hd
    have hkeys : ((joined "d" ["b", "c"]).processRoutingUpdate "d" (plainEnv 0) "c"
        (AList.singleton "a" 1)).neighborViews.keys = ["c", "b"] := by decide
    simp [hkeys, diamondLinks, or_comm]
  · have hkeys : (RouterState.create b 0).neighborViews.keys = [] := rfl
    simp [hkeys, diamondLinks, ha, hb, hc, hd]

lemma diamondGraph_closed :
    ∀ x ∈ ({"a", "b", "c", "d"} : Finset PeerId), ∀ y, diamondGraph.Adj x y →
    y ∈ ({"a", "b", "c", "d"} : Finset PeerId) :=
  fun x _ y hadj => (by decide : ∀ l ∈ diamondLinks, l.2 ∈ ({"a", "b", "c", "d"} : Finset PeerId))
    (x, y) hadj

lemma diamondGraph_adj {x y : PeerId} (h : (x, y) ∈ diamondLinks) : diamondGraph.Adj x y := h

lemma diamondGraph_dist : diamondGraph.dist "a" "d" = 2 := by
  have hac : diamondGraph.Adj "a" "c" := diamondGraph_adj (by decide)
  have hcd : diamondGraph.Adj "c" "d" := diamondGraph_adj (by decide)
  have hle : diamondGraph.dist "a" "d" ≤ 2 := SimpleGraph.dist_le (.cons hac (.cons hcd .nil))
  have hpos : 0 < diamondGraph.dist "a" "d" :=
    (hac.reachable.trans hcd.reachable).pos_dist_of_ne (by decide)
  have hne : diamondGraph.dist "a" "d" ≠ 1 := by
    rw [Ne, SimpleGraph.dist_eq_one_iff_adj]
    exact (by decide : ("a", "d") ∉ diamondLinks)
  omega

lemma diamondRouters_routes : RoutesTo diamondGraph "a" diamondRouters := by
  refine ⟨diamondRouters_neighbors, fun b hb hreach => ?_⟩
  have hmem : b ∈ (({"a", "b", "c", "d"} : Finset PeerId) : Set PeerId) :=
    mem_of_closed diamondGraph_closed (by decide) hreach
  have hnear : ∀ x, diamondGraph.Adj x "a" →
      diamondGraph.dist "a" "a" + 1 = diamondGraph.dist "a" x := fun x hx => by
    rw [SimpleGraph.dist_self, SimpleGraph.dist_eq_one_iff_adj.mpr hx.symm]
  rcases (by simpa using hmem : b = "a" ∨ b = "b" ∨ b = "c" ∨ b = "d") with rfl | rfl | rfl | rfl
  · exact absurd rfl hb
  · have hadj : diamondGraph.Adj "b" "a" := diamondGraph_adj (by decide)
    exact ⟨"a", ⟨⟨"a", 1, true, 0⟩, by decide, by decide, rfl⟩, hadj, hnear _ hadj⟩
  · have hadj : diamondGraph.Adj "c" "a" := diamondGraph_adj (by decide)
    exact ⟨"a", ⟨⟨"a", 1, true, 0⟩, by decide, by decide, rfl⟩, hadj, hnear _ hadj⟩
  · refine ⟨"c", ⟨⟨"c", 2, true, 0⟩, by decide, by decide, rfl⟩, diamondGraph_adj (by decide), ?_⟩
    rw [SimpleGraph.dist_eq_one_iff_adj.mpr (diamondGraph_adj (by decide)), diamondGraph_dist]

lemma diamondRouters_ready :
    Ready openLibraries diamondGraph topologyQuery (plainNodes diamondRouters) := by
  refine plainNodes_ready diamondRouters_routes fun b => ?_
  unfold diamondRouters
  split_ifs
  · decide
  · decide
  · decide
  · decide
  · rfl

/-- The request reaches "d" through "b", and the relay "c" passes on the answer of "d" before it has
the request. -/
def diamondDeliveries : List NetworkEvent :=
  [.deliver "a" "b" 0, .deliver "b" "d" 0, .deliver "d" "c" 0, .deliver "d" "c" 0,
    .deliver "a" "c" 0, .deliver "b" "a" 0, .deliver "c" "a" 0, .deliver "c" "a" 0,
    .deliver "c" "a" 0, .deliver "c" "a" 0]

def diamondEnd : Network NodeState :=
  EventRun.run (Network.step (fun _ => onPacketForMe openLibraries) queryEnv)
    (topologyQuery.issue openLibraries queryEnv (plainNodes diamondRouters)) diamondDeliveries

theorem broadcastRequest_collects_diamond :
    (∃ rawBytes, .onResponse topologyQuery.reqId "b" rawBytes ∈ (diamondEnd.owners "a").calls) ∧
      (∃ rawBytes, .onResponse topologyQuery.reqId "c" rawBytes ∈ (diamondEnd.owners "a").calls) ∧
        ∃ rawBytes, .onResponse topologyQuery.reqId "d" rawBytes ∈
          (diamondEnd.owners "a").calls := by
  have hcarries : Carries diamondGraph topologyQuery :=
    carries_of_closed diamondGraph_closed (by decide) (by decide) (by decide)
  have hguarded : EventRun.Guarded (Network.step (fun _ => onPacketForMe openLibraries) queryEnv)
      (RelaysUnseen topologyQuery) (topologyQuery.issue openLibraries queryEnv
        (plainNodes diamondRouters))
      diamondDeliveries := by decide +kernel
  have hrun : Relation.ReflTransGen
      (Network.Moves (fun _ => onPacketForMe openLibraries) fun net _ event => RelaysUnseen
        topologyQuery net event)
      (topologyQuery.issue openLibraries queryEnv (plainNodes diamondRouters)) diamondEnd :=
    hguarded.reflTransGen fun _ event h => ⟨queryEnv, event, h, rfl⟩
  have hstart := issue_spreading hcarries diamondRouters_ready queryEnv rfl
  have hlinks : ∀ l ∈ diamondLinks, diamondEnd.channel l.1 l.2 = [] := by decide +kernel
  have hterminal :=
    (relaysUnseen_answered hcarries hrun hstart.1 hstart.2).1.channel_eq_nil fun x y hadj =>
    hlinks (x, y) hadj
  have hab : diamondGraph.Reachable "a" "b" := (diamondGraph_adj (by decide)).reachable
  have hac : diamondGraph.Reachable "a" "c" := (diamondGraph_adj (by decide)).reachable
  have hcd : diamondGraph.Reachable "c" "d" := (diamondGraph_adj (by decide)).reachable
  have hcollects := broadcastRequest_collects openLibraries diamondGraph topologyQuery hcarries _
    diamondRouters_ready
    queryEnv rfl diamondEnd hrun hterminal
  exact ⟨hcollects "b" (by decide) hab, hcollects "c" (by decide) hac,
    hcollects "d" (by decide) (hac.trans hcd)⟩

end MeshNetwork.Proofs
