import MeshNetwork.Proofs.BroadcastRequest
import MeshNetwork.Proofs.Confidentiality
import MeshNetwork.Proofs.UnicastJourney

/-!
# Unicast delivery

A route of up to 15 links is live for the router, but the node gives the packets that it originates
a TTL of 10, and that is used up after nine links.
-/

namespace MeshNetwork.Proofs

/-! ## Packets of the node -/

/-- A call of `send_text`, `send_message` or `send_request_async` with the destination `d`. -/
inductive SendsTo (d : PeerId) : NodeEvent → Prop
  | text (text : String) : SendsTo d (.sendText d text)
  | message (subtype : String) (serialized : Bytes) (protocol : TransportProtocol) :
      SendsTo d (.sendMessage d subtype serialized protocol)
  | request (subtype : String) (serialized : Bytes) (tag : Nat) (protocol : TransportProtocol) :
      SendsTo d (.sendRequestAsync d subtype serialized tag protocol)

/-- The packets of a node that wait for the key of `d`. -/
def waitingFor (node : NodeState) (d : PeerId) : List RoutedPacket :=
  (node.identity.pendingOutgoingPackets.lookup d).getD []

/-- The node `s` gives `pkt` to its router because of such a call: at once, or after the packet has
waited for the key of `d`. -/
inductive Originates (lib : Libraries) (s d : PeerId) (pkt : RoutedPacket) : Prop
  | sent (env : StepEnv) (node : NodeState) (event : NodeEvent) (hnode : node.peerId = s)
      (hevent : SendsTo d event)
      (hsent : pkt ∈ (node.call lib env event).sent)
  | released (env : StepEnv) (node : NodeState) (event : NodeEvent) (hnode : node.peerId = s)
      (hevent : SendsTo d event) (waiting : RoutedPacket)
      (hwaiting : waiting ∈ waitingFor (node.call lib env event).node d)
      (hnew : waiting ∉ waitingFor node d)
      (im : IdentityManager) (nonces : Nonces)
      (hsecured : securePacket lib.toOpenSsl im nonces waiting waiting.toPeerId
        waiting.binaryData = some pkt)

/-- What all these packets have in common. -/
structure NodePacket (s d : PeerId) (pkt : RoutedPacket) : Prop where
  sender : pkt.fromPeerId = s
  dest : pkt.toPeerId = d
  ttl : pkt.ttl = defaultTtl
  data : pkt.type ≠ .routingUpdate

section Node

variable {lib : Libraries} {env : StepEnv} {node : NodeState} {s d : PeerId} {pkt : RoutedPacket}

lemma nodePacket_binary (id : Bytes) (s d : PeerId) (subtype : String)
    (protocol : TransportProtocol) (rawData : Bytes) (expectResponse : Bool) :
    NodePacket s d (makeBinaryRoutedPacket id s d defaultTtl subtype protocol rawData
      expectResponse) :=
  ⟨rfl, rfl, rfl, show PacketType.binary ≠ .routingUpdate by decide⟩

lemma NodePacket.of_view {view : RoutedPacket} (h : NodePacket s d view)
    (hview : relayView pkt = view) :
    NodePacket s d pkt := by
  rw [← hview] at h
  exact ⟨h.sender, h.dest, h.ttl, h.data⟩

lemma NodePacket.sealed (h : NodePacket s d pkt) : NodePacket s d (sealedView pkt) :=
  ⟨h.sender, h.dest, h.ttl, h.data⟩

lemma nodePacket_sending (h : NodePacket node.peerId d pkt) :
    NodePacket node.peerId d (sendingView lib node d pkt) := by
  unfold sendingView
  split_ifs
  · exact h.sealed
  · exact nodePacket_binary ..

lemma nodePacket_sent {event : NodeEvent} (hevent : SendsTo d event)
    (hsent : pkt ∈ (node.call lib env event).sent) :
    NodePacket node.peerId d pkt := by
  cases hevent with
  | text text =>
    obtain rfl := List.mem_singleton.mp hsent
    exact ⟨rfl, rfl, rfl, show PacketType.text ≠ .routingUpdate by decide⟩
  | message subtype serialized protocol =>
    by_cases hcond : node.encryptMessages = true ∧ subtype ≠ identityRequestSubtype
    · exact (nodePacket_sending (nodePacket_binary ..)).of_view
        (sendMessage_view hcond.1 d hcond.2 serialized protocol pkt hsent)
    · change pkt ∈ (NodeCall.sendMessage lib env { node } d subtype serialized
        protocol).sent at hsent
      simp only [NodeCall.sendMessage, if_neg hcond, NodeCall.makePacket, NodeCall.sendPacket,
        List.nil_append, List.mem_singleton] at hsent
      rw [hsent]
      exact nodePacket_binary ..
  | request subtype serialized tag protocol =>
    by_cases hcond : node.encryptMessages = true ∧ subtype ≠ identityRequestSubtype
    · exact (nodePacket_sending (nodePacket_binary ..)).of_view
        (sendRequestAsync_view hcond.1 d hcond.2 serialized tag protocol pkt hsent)
    · change pkt ∈ (NodeCall.sendRequestAsync lib env { node } d subtype serialized tag
        protocol).sent at hsent
      simp only [NodeCall.sendRequestAsync, if_neg hcond, NodeCall.sendPlainRequest,
        NodeCall.makePacket, NodeCall.sendPacket, NodeCall.setTracker, List.nil_append,
        List.mem_singleton] at hsent
      rw [hsent]
      exact nodePacket_binary ..

/-- What the calls leave waiting. -/
lemma nodePacket_waiting {event : NodeEvent} (hevent : SendsTo d event)
    (hwaiting : pkt ∈ waitingFor (node.call lib env event).node d) :
    pkt ∈ waitingFor node d ∨ NodePacket node.peerId d pkt := by
  have hbuffered : ∀ p, (node.call lib env event).node.identity =
      node.identity.bufferOutgoingPacket d p → pkt ∈ waitingFor node d ∨ pkt = p := by
    intro p hidentity
    unfold waitingFor at hwaiting ⊢
    rw [hidentity] at hwaiting
    unfold IdentityManager.bufferOutgoingPacket at hwaiting
    simpa [AList.lookup_insert] using hwaiting
  have hkept : (node.call lib env event).node.identity = node.identity →
      pkt ∈ waitingFor node d := by
    intro hidentity
    unfold waitingFor at hwaiting ⊢
    rw [hidentity] at hwaiting
    exact hwaiting
  cases hevent with
  | text text => exact .inl (hkept rfl)
  | message subtype serialized protocol =>
    by_cases hcond : node.encryptMessages = true ∧ subtype ≠ identityRequestSubtype
    · cases hkey : node.identity.hasKey d with
      | false =>
        refine (hbuffered _ (run_postpones lib env hcond.1 hkey hcond.2 serialized protocol
          .message)).imp_right ?_
        rintro rfl
        exact nodePacket_binary ..
      | true =>
        refine .inl (hkept ?_)
        change (NodeCall.sendMessage lib env { node } d subtype serialized protocol).node.identity =
          _
        simp only [NodeCall.sendMessage, if_pos hcond, NodeCall.makePacket, hkey, Bool.not_true,
          Bool.false_eq_true, if_false, (secureAndSend_node lib env ..).1]
    · refine .inl (hkept ?_)
      change (NodeCall.sendMessage lib env { node } d subtype serialized protocol).node.identity = _
      simp only [NodeCall.sendMessage, if_neg hcond, NodeCall.makePacket, NodeCall.sendPacket]
  | request subtype serialized tag protocol =>
    by_cases hcond : node.encryptMessages = true ∧ subtype ≠ identityRequestSubtype
    · cases hkey : node.identity.hasKey d with
      | false =>
        refine (hbuffered _ (run_postpones lib env hcond.1 hkey hcond.2 serialized protocol
          (.request tag))).imp_right ?_
        rintro rfl
        exact nodePacket_binary ..
      | true =>
        refine .inl (hkept ?_)
        change (NodeCall.sendRequestAsync lib env { node } d subtype serialized tag
          protocol).node.identity = _
        simp only [NodeCall.sendRequestAsync, if_pos hcond, NodeCall.makePacket, hkey,
          Bool.not_true, Bool.false_eq_true, if_false, NodeCall.secure]
        generalize securePacket _ _ _ _ _ _ = secured
        cases secured with
        | none => rfl
        | some p => rfl
    · refine .inl (hkept ?_)
      change (NodeCall.sendRequestAsync lib env { node } d subtype serialized tag
        protocol).node.identity = _
      simp only [NodeCall.sendRequestAsync, if_neg hcond, NodeCall.sendPlainRequest,
        NodeCall.makePacket, NodeCall.sendPacket, NodeCall.setTracker]

lemma Originates.nodePacket (h : Originates lib s d pkt) : NodePacket s d pkt := by
  cases h with
  | sent env node event hnode hevent hsent =>
    rw [← hnode]
    exact nodePacket_sent hevent hsent
  | released env node event hnode hevent waiting hwaiting hnew im nonces hsecured =>
    rw [← hnode]
    have hpacket := (nodePacket_waiting hevent hwaiting).resolve_left hnew
    exact hpacket.sealed.of_view (relayView_secured hsecured)

/-- A call that gives one packet to the router is a call of `send_packet`, by a node that it has
changed. -/
lemma callNode_eq_sendPacket {net : Network NodeState} {event : NodeEvent}
    (hsent : ((net.owners s).call lib env event).sent = [pkt]) (hfrom : pkt.fromPeerId = s) :
    net.callNode lib env s event =
      { net with
        owners := Function.update net.owners s ((net.owners s).call lib env event).node }.step
        (fun _ => onPacketForMe lib) env (.router s (.sendPacket pkt)) := by
  have hown : ¬((pkt.toPeerId = "" ∨ pkt.toPeerId = s) ∧ pkt.fromPeerId ≠ s) := fun h => h.2 hfrom
  unfold Network.callNode
  dsimp only [Network.step, RouterState.step]
  rw [hsent, apply_eq, apply_eq]
  unfold RouterState.sendOwnPackets RouterState.sendOwnPackets RouterState.sendOwnPacket
    RouterState.routeDataPacket
  rw [if_neg hown]
  split_ifs <;> simp

end Node

/-- A packet that a node originates over a live route arrives exactly if the route has at least one
and at most nine links and the protocol is known. -/
theorem unicast_arrives_iff (lib : Libraries) (G : SimpleGraph PeerId) (net₀ : Network NodeState)
    (hexact : ExactTables G net₀.routers) (s d : PeerId) (hd : d ≠ "") (e : RouteEntry)
    (he : (net₀.routers s).forwardingTable.lookup d = some e) (hlive : e.cost < infCost)
    (pkt : RoutedPacket) (hpkt : Originates lib s d pkt) (hfresh : FreshId (dedupKeyOf pkt) net₀)
    (hunhandled : ∀ p ∈ net₀.handled d, ¬IsCopy pkt p) (env : StepEnv) :
    (∀ net, Relation.ReflTransGen (Network.Moves (fun _ => onPacketForMe lib)
        (StaticDelivery G (dedupKeyOf pkt) fun _ => onPacketForMe lib))
        (net₀.step (fun _ => onPacketForMe lib) env (.router s (.sendPacket pkt))) net →
      (∀ x y, ∀ p ∈ net.channel x y, ¬IsCopy pkt p) → ∃ p ∈ net.handled d, IsCopy pkt p) ↔
    0 < e.cost ∧ e.cost < defaultTtl ∧ (pkt.transport = .tcp ∨ pkt.transport = .udp) := by
  obtain ⟨rfl, rfl, httl, hdata⟩ := hpkt.nodePacket
  have hroutable : Routable G pkt net₀ e := by
    refine ⟨hexact, hd, hdata, he, hlive, ?_, hfresh, hunhandled⟩
    rw [httl]
    decide
  have hreach : InReach pkt e ↔
      0 < e.cost ∧ e.cost < defaultTtl ∧ (pkt.transport = .tcp ∨ pkt.transport = .udp) := by
    rw [← httl]
    rfl
  rw [← hreach]
  constructor
  · intro harrives
    by_contra hfar
    obtain ⟨net, hrun, hquiet, hlost⟩ := hroutable.lost hfar (fun _ => onPacketForMe lib) env
    obtain ⟨p, hp, hcopy⟩ := harrives net hrun hquiet
    exact hlost p hp hcopy
  · intro hnear net hrun hquiet
    exact hroutable.arrives hnear (fun _ => onPacketForMe_keepsHeader lib) env hrun hquiet

/-! ## A line of nodes -/

/-- The nodes of a line; the names tell their places. -/
def stop (i : Nat) : PeerId := String.ofList (List.replicate (i + 1) 'n')

/-- The links between the first `n` nodes. -/
def chain (n : Nat) : SimpleGraph PeerId where
  Adj x y := ∃ i, i + 1 < n ∧ (x = stop i ∧ y = stop (i + 1) ∨ x = stop (i + 1) ∧ y = stop i)
  symm := by
    refine ⟨fun x y h => ?_⟩
    obtain ⟨i, hi, h⟩ := h
    exact ⟨i, hi, h.symm.imp And.symm And.symm⟩
  loopless := by
    refine ⟨fun x h => ?_⟩
    obtain ⟨i, -, ⟨hx, hy⟩ | ⟨hx, hy⟩⟩ := h
    all_goals
      have hlength := congrArg String.length (hx.symm.trans hy)
      simp [stop] at hlength

/-- The entry of the node at place `i` for the one at place `j`. -/
def chainEntry (i j : Nat) : RouteEntry where
  nextHop := stop (if i < j then i + 1 else i - 1)
  cost := UInt32.ofNat (i - j + (j - i))
  dirty := false

def chainTable (i n : Nat) : UMap PeerId RouteEntry :=
  (List.range n).foldl (fun table j => table.insert (stop j) (chainEntry i j)) ∅

/-- The routers of a line, with the tables they end up with. -/
def chainRouter (n : Nat) (b : PeerId) : RouterState :=
  if b = stop (b.length - 1) ∧ b.length ≤ n then
    { RouterState.create b 0 with forwardingTable := chainTable (b.length - 1) n }
  else RouterState.create b 0

section Chain

variable {n : Nat}

@[simp] lemma length_stop (i : Nat) : (stop i).length = i + 1 := by simp [stop]

lemma stop_inj {i j : Nat} : stop i = stop j ↔ i = j := by
  refine ⟨fun h => ?_, fun h => by rw [h]⟩
  have hlength := congrArg String.length h
  simpa using hlength

lemma lookup_chainTable {i : Nat} {x : PeerId} {e : RouteEntry} :
    (chainTable i n).lookup x = some e ↔ ∃ j < n, x = stop j ∧ e = chainEntry i j := by
  unfold chainTable
  induction n with
  | zero => simp
  | succ n ih =>
    rw [List.range_succ, List.foldl_append, List.foldl_cons, List.foldl_nil, UMap.lookup_insert_eq]
    by_cases hx : x = stop n
    · rw [if_pos hx, Option.some.injEq, hx]
      constructor
      · rintro rfl
        exact ⟨n, n.lt_succ_self, rfl, rfl⟩
      · rintro ⟨j, -, hj, rfl⟩
        rw [stop_inj.mp hj]
    · rw [if_neg hx, ih]
      constructor
      · rintro ⟨j, hj, hxj, he⟩
        exact ⟨j, hj.trans n.lt_succ_self, hxj, he⟩
      · rintro ⟨j, hj, rfl, he⟩
        have hjn : j ≠ n := fun h => hx (by rw [h])
        exact ⟨j, by omega, rfl, he⟩

lemma chain_adj {i : Nat} (hi : i + 1 < n) : (chain n).Adj (stop i) (stop (i + 1)) :=
  ⟨i, hi, .inl ⟨rfl, rfl⟩⟩

/-- The nodes of the line. -/
def onChain (n : Nat) : Set PeerId := {x | ∃ i < n, x = stop i}

lemma onChain_of_adj {x y : PeerId} (h : (chain n).Adj x y) : x ∈ onChain n ∧ y ∈ onChain n := by
  obtain ⟨i, hi, ⟨rfl, rfl⟩ | ⟨rfl, rfl⟩⟩ := h
  · exact ⟨⟨i, by omega, rfl⟩, ⟨i + 1, hi, rfl⟩⟩
  · exact ⟨⟨i + 1, hi, rfl⟩, ⟨i, by omega, rfl⟩⟩

lemma length_le_of_adj {x y : PeerId} (h : (chain n).Adj x y) : x.length ≤ y.length + 1 := by
  obtain ⟨i, -, ⟨rfl, rfl⟩ | ⟨rfl, rfl⟩⟩ := h <;> simp only [length_stop] <;> omega

/-- Each link leads one place further at most. -/
lemma length_le_of_walk {x y : PeerId} (p : (chain n).Walk x y) :
    x.length ≤ y.length + p.length := by
  induction p with
  | nil => exact le_rfl
  | cons hadj p ih =>
    have hstep := length_le_of_adj hadj
    rw [SimpleGraph.Walk.length_cons]
    omega

lemma exists_walk {i : Nat} (k : Nat) (hk : i + k < n) :
    ∃ p : (chain n).Walk (stop i) (stop (i + k)), p.length = k := by
  induction k with
  | zero => exact ⟨.nil, rfl⟩
  | succ k ih =>
    obtain ⟨p, hp⟩ := ih (by omega)
    exact ⟨p.concat (chain_adj hk), by rw [SimpleGraph.Walk.length_concat, hp]⟩

lemma chain_dist {i j : Nat} (hi : i < n) (hj : j < n) :
    (chain n).dist (stop i) (stop j) = i - j + (j - i) := by
  have hup : ∀ i k, i + k < n → (chain n).dist (stop i) (stop (i + k)) = k := by
    intro i k hk
    obtain ⟨p, hp⟩ := exists_walk k hk
    obtain ⟨q, hq⟩ := p.reachable.symm.exists_walk_length_eq_dist
    have hupper := SimpleGraph.dist_le p
    have hlower := length_le_of_walk q
    rw [length_stop, length_stop, hq, SimpleGraph.dist_comm] at hlower
    omega
  rcases le_total i j with hij | hij
  · obtain ⟨k, rfl⟩ := Nat.exists_eq_add_of_le hij
    rw [hup i k hj]
    omega
  · obtain ⟨k, rfl⟩ := Nat.exists_eq_add_of_le hij
    rw [SimpleGraph.dist_comm, hup j k hi]
    omega

lemma chainRouter_stop {i : Nat} (hi : i < n) :
    (chainRouter n (stop i)).forwardingTable = chainTable i n := by
  unfold chainRouter
  rw [length_stop, Nat.add_sub_cancel, if_pos ⟨rfl, hi⟩]

lemma chainRouter_other {b : PeerId} (hb : b ∉ onChain n) :
    chainRouter n b = RouterState.create b 0 := by
  unfold chainRouter
  refine if_neg fun h => hb ⟨b.length - 1, ?_, h.1⟩
  have hlength := congrArg String.length h.1
  rw [length_stop] at hlength
  omega

lemma chainEntry_cost {i j : Nat} (hi : i < n) (hj : j < n) (hn : n ≤ 16) :
    (chainEntry i j).cost.toNat = (chain n).dist (stop i) (stop j) := by
  rw [chain_dist hi hj]
  exact UInt32.toNat_ofNat_of_lt' (by
    change _ < 2 ^ 32
    omega)

lemma chainEntry_live {i j : Nat} (hi : i < n) (hj : j < n) (hn : n ≤ 16) :
    (chainEntry i j).cost < infCost := by
  rw [lt_infCost_iff, chainEntry_cost hi hj hn, chain_dist hi hj]
  omega

lemma chainEntry_hop {i j : Nat} (hi : i < n) (hj : j < n) (hne : i ≠ j) :
    (chain n).Adj (stop i) (chainEntry i j).nextHop ∧
      (chain n).dist (chainEntry i j).nextHop (stop j) + 1 = (chain n).dist (stop i) (stop j) := by
  unfold chainEntry
  dsimp only
  split_ifs with hij
  · refine ⟨chain_adj (by omega), ?_⟩
    rw [chain_dist (by omega) hj, chain_dist hi hj]
    omega
  · obtain ⟨k, rfl⟩ : ∃ k, i = k + 1 := ⟨i - 1, by omega⟩
    rw [Nat.add_sub_cancel]
    refine ⟨(chain_adj hi).symm, ?_⟩
    rw [chain_dist (by omega) hj, chain_dist hi hj]
    omega

lemma chainRouter_exact (hn : n ≤ 16) : ExactTables (chain n) (chainRouter n) := by
  constructor
  · intro b dest e he _
    by_cases hb : b ∈ onChain n
    · obtain ⟨i, hi, rfl⟩ := hb
      rw [chainRouter_stop hi, lookup_chainTable] at he
      obtain ⟨j, hj, rfl, rfl⟩ := he
      refine ⟨chainEntry_cost hi hj hn, fun hne => chainEntry_hop hi hj ?_⟩
      rintro rfl
      exact hne rfl
    · rw [chainRouter_other hb] at he
      change (AList.singleton b _ : UMap PeerId RouteEntry).lookup dest = some e at he
      rw [UMap.lookup_singleton_eq] at he
      split_ifs at he with hdest
      cases he
      rw [hdest]
      exact ⟨SimpleGraph.dist_self.symm, fun hne => absurd rfl hne⟩
  · intro b dest hreach hdist
    by_cases hb : b ∈ onChain n
    · have hdest : dest ∈ onChain n :=
        Flooding.mem_of_closed (fun x _ y hadj => (onChain_of_adj hadj).2) hb hreach
      obtain ⟨i, hi, rfl⟩ := hb
      obtain ⟨j, hj, rfl⟩ := hdest
      refine ⟨chainEntry i j, ?_, chainEntry_live hi hj hn⟩
      rw [chainRouter_stop hi, lookup_chainTable]
      exact ⟨j, hj, rfl, rfl⟩
    · -- a node that is not on the line reaches itself only
      obtain ⟨p⟩ := hreach
      cases p with
      | nil =>
        rw [chainRouter_other hb]
        refine ⟨⟨b, 0, false, 0⟩, ?_, show (0 : UInt32) < infCost by decide⟩
        change (AList.singleton b _ : UMap PeerId RouteEntry).lookup b = _
        rw [UMap.lookup_singleton_eq, if_pos rfl]
      | cons hadj _ => exact absurd (onChain_of_adj hadj).1 hb

/-- The text that the first node of a line sends to the node at place `n`. -/
def chainText (n : Nat) : RoutedPacket :=
  makeTextRoutedPacket [] (stop 0) (stop n) defaultTtl "hello"

lemma chainText_originates (n : Nat) : Originates openLibraries (stop 0) (stop n) (chainText n) :=
  .sent (plainEnv 0) { peerId := stop 0, encryptMessages := false } (.sendText (stop n) "hello") rfl
    (.text "hello")
    (List.mem_singleton_self _)

lemma chainText_fresh (m n : Nat) :
    FreshId (dedupKeyOf (chainText m)) (plainNodes (chainRouter n)) := by
  refine ⟨fun b => ?_, fun _ _ _ hp => absurd hp List.not_mem_nil⟩
  rw [plainNodes_routers]
  unfold chainRouter
  split_ifs <;> exact Finset.notMem_empty _

lemma stop_ne_empty (i : Nat) : stop i ≠ "" := by
  intro h
  have hlength := congrArg String.length h
  simp at hlength

lemma chain_lookup {i j : Nat} (hi : i < n) (hj : j < n) :
    (chainRouter n (stop i)).forwardingTable.lookup (stop j) = some (chainEntry i j) := by
  rw [chainRouter_stop hi, lookup_chainTable]
  exact ⟨j, hj, rfl, rfl⟩

end Chain

/-- Two links: the text arrives. -/
theorem unicast_arrives_two_links :
    (chainEntry 0 2).cost = 2 ∧
      ∀ net, Relation.ReflTransGen (Network.Moves (fun _ => onPacketForMe openLibraries)
          (StaticDelivery (chain 3) (dedupKeyOf (chainText 2)) fun _ => onPacketForMe
            openLibraries))
          ((plainNodes (chainRouter 3)).step (fun _ => onPacketForMe openLibraries) (plainEnv 0)
            (.router (stop 0) (.sendPacket (chainText 2)))) net →
        (∀ x y, ∀ p ∈ net.channel x y, ¬IsCopy (chainText 2) p) →
        ∃ p ∈ net.handled (stop 2), IsCopy (chainText 2) p := by
  have hexact : ExactTables (chain 3) (plainNodes (chainRouter 3)).routers := by
    rw [plainNodes_routers]
    exact chainRouter_exact (by decide)
  have hlookup : ((plainNodes (chainRouter 3)).routers (stop 0)).forwardingTable.lookup (stop 2) =
      some (chainEntry 0 2) := by
    rw [plainNodes_routers]
    exact chain_lookup (i := 0) (j := 2) (by decide) (by decide)
  have harrives := unicast_arrives_iff openLibraries (chain 3) (plainNodes (chainRouter 3)) hexact
    (stop 0) (stop 2)
    (stop_ne_empty 2) (chainEntry 0 2) hlookup (by decide) (chainText 2) (chainText_originates 2)
    (chainText_fresh 2 3) (fun p hp => absurd hp List.not_mem_nil) (plainEnv 0)
  exact ⟨by decide, harrives.mpr ⟨by decide, by decide, .inl rfl⟩⟩

/-- Ten links: the route is live, and the text does not arrive. -/
theorem live_route_drops_packet :
    ExactTables (chain 11) (chainRouter 11) ∧
      (chainRouter 11 (stop 0)).forwardingTable.lookup (stop 10) = some (chainEntry 0 10) ∧
      (chainEntry 0 10).cost = 10 ∧ (chainEntry 0 10).cost < infCost ∧
      Originates openLibraries (stop 0) (stop 10) (chainText 10) ∧
      FreshId (dedupKeyOf (chainText 10)) (plainNodes (chainRouter 11)) ∧
      ∃ net, Relation.ReflTransGen (Network.Moves (fun _ => onPacketForMe openLibraries)
          (StaticDelivery (chain 11) (dedupKeyOf (chainText 10)) fun _ => onPacketForMe
            openLibraries))
          ((plainNodes (chainRouter 11)).callNode openLibraries (plainEnv 0) (stop 0)
            (.sendText (stop 10) "hello")) net ∧
        (∀ x y, ∀ p ∈ net.channel x y, ¬IsCopy (chainText 10) p) ∧
        ∀ p ∈ net.handled (stop 10), ¬IsCopy (chainText 10) p := by
  have hexact : ExactTables (chain 11) (chainRouter 11) := chainRouter_exact (by decide)
  have hlookup : (chainRouter 11 (stop 0)).forwardingTable.lookup (stop 10) =
      some (chainEntry 0 10) :=
    chain_lookup (i := 0) (j := 10) (by decide) (by decide)
  have hroutable : Routable (chain 11) (chainText 10) (plainNodes (chainRouter 11))
      (chainEntry 0 10) := {
    tables := by rw [plainNodes_routers]; exact hexact
    named := stop_ne_empty 10
    data := by decide
    entry := by rw [plainNodes_routers]; exact hlookup
    live := by decide
    ttl := by decide
    fresh := chainText_fresh 10 11
    unhandled := fun p hp => absurd hp List.not_mem_nil }
  have hfar : ¬InReach (chainText 10) (chainEntry 0 10) := fun h => absurd h.2.1 (by decide)
  obtain ⟨net, hrun, hquiet, hlost⟩ :=
    hroutable.lost hfar (fun _ => onPacketForMe openLibraries) (plainEnv 0)
  have hsent : (((plainNodes (chainRouter 11)).owners (stop 0)).call openLibraries (plainEnv 0)
      (.sendText (stop 10) "hello")).sent = [chainText 10] := rfl
  have hcall : (plainNodes (chainRouter 11)).callNode openLibraries (plainEnv 0) (stop 0)
      (.sendText (stop 10) "hello") =
      (plainNodes (chainRouter 11)).step (fun _ => onPacketForMe openLibraries) (plainEnv 0)
        (.router (stop 0) (.sendPacket (chainText 10))) := by
    have hnode : (((plainNodes (chainRouter 11)).owners (stop 0)).call openLibraries (plainEnv 0)
        (.sendText (stop 10) "hello")).node = (plainNodes (chainRouter 11)).owners (stop 0) := rfl
    rw [callNode_eq_sendPacket hsent rfl, hnode, Function.update_eq_self]
  exact ⟨hexact, hlookup, by decide, by decide, chainText_originates 10, chainText_fresh 10 11, net,
    hcall ▸ hrun, hquiet, hlost⟩

end MeshNetwork.Proofs
