import MeshNetwork.Library.Quiescence
import MeshNetwork.Proofs.Relaying

/-!
# Data traffic dies out

A packet under way is replaced by copies with a lower TTL and by what the owner of the node sends
because of it. If that is of a lower kind than the packet, the traffic ends whatever the forwarding
tables say and however they change meanwhile. Routing loops and the wrap-around of a TTL of 0 are no
exceptions.
-/

namespace MeshNetwork.Proofs

open Quiescence

variable {ν : Type}

/-! ## Ranks -/

/-- A TTL of 0 wraps around when it is lowered. -/
def ttlRank (ttl : UInt32) : ℕ := if ttl = 0 then 2 ^ 32 else ttl.toNat

lemma ttlRank_pos (ttl : UInt32) : 0 < ttlRank ttl := by
  unfold ttlRank
  split_ifs with h
  · exact Nat.two_pow_pos 32
  · exact Nat.pos_of_ne_zero fun hzero => h (UInt32.toNat_inj.mp hzero)

lemma ttlRank_le (ttl : UInt32) : ttlRank ttl ≤ 2 ^ 32 := by
  unfold ttlRank
  split_ifs
  · exact le_rfl
  · exact ttl.toNat_lt.le

/-- The TTL of a copy is lower. -/
lemma ttlRank_pred {ttl : UInt32} (h : 0 < ttl - 1) : ttlRank (ttl - 1) < ttlRank ttl := by
  have hne : ttl - 1 ≠ 0 := fun hzero => absurd h (by rw [hzero]; decide)
  unfold ttlRank
  rw [if_neg hne]
  split_ifs with hzero
  · exact (ttl - 1).toNat_lt
  · have hpos : ttl.toNat ≠ 0 := fun h0 => hzero (UInt32.toNat_inj.mp h0)
    rw [toNat_pred hpos]
    omega

section Load

variable (kind : RoutedPacket → ℕ)

def flightRank (pkt : RoutedPacket) : ℕ := kind pkt * 2 ^ 33 + ttlRank pkt.ttl

/-- The rank of a packet that an owner has given to its router; its copies have lower ranks. -/
def sendRank (pkt : RoutedPacket) : ℕ := kind pkt * 2 ^ 33 + (2 ^ 33 - 1)

/-- The rank of a data packet under way. -/
def dataRank (pkt : RoutedPacket) : Option ℕ :=
  if pkt.type = .routingUpdate then none else some (flightRank kind pkt)

def outputRank : RouterOutput → Option ℕ
  | .transmit _ pkt => dataRank kind pkt
  | .packetForMe _ => none

def channelLoad (packets : List RoutedPacket) : Multiset ℕ := ↑(packets.filterMap (dataRank kind))

def outputLoad (outs : List RouterOutput) : Multiset ℕ := ↑(outs.filterMap (outputRank kind))

def sentLoad (packets : List RoutedPacket) : Multiset ℕ := ↑(packets.map (sendRank kind))

/-- The data packets on each link. -/
def linkLoad (net : Network ν) (link : PeerId × PeerId) : Multiset ℕ :=
  channelLoad kind (net.channel link.1 link.2)

/-- The ranks of all data packets under way, and of what the owners hold. -/
noncomputable def trafficLoad (held : ν → Multiset ℕ) (net : Network ν) : Multiset ℕ :=
  total (linkLoad kind net) + total (fun x => held (net.owners x))

/-- Only finitely many links carry data, and only finitely many owners hold something. -/
structure FiniteTraffic (held : ν → Multiset ℕ) (net : Network ν) : Prop where
  links : (linkLoad kind net).support.Finite
  owners : (fun x => held (net.owners x)).support.Finite

variable {kind} {held : ν → Multiset ℕ} {net : Network ν}

lemma channelLoad_append (packets packets' : List RoutedPacket) :
    channelLoad kind (packets ++ packets') = channelLoad kind packets +
      channelLoad kind packets' := by
  unfold channelLoad
  rw [List.filterMap_append, Multiset.coe_add]

lemma outputLoad_append (outs outs' : List RouterOutput) :
    outputLoad kind (outs ++ outs') = outputLoad kind outs + outputLoad kind outs' := by
  unfold outputLoad
  rw [List.filterMap_append, Multiset.coe_add]

lemma outputLoad_cons_owner (pkt : RoutedPacket) (outs : List RouterOutput) :
    outputLoad kind (.packetForMe pkt :: outs) = outputLoad kind outs := by
  unfold outputLoad
  rw [List.filterMap_cons_none rfl]

lemma linkLoad_transmit (node next : PeerId) (pkt : RoutedPacket) :
    linkLoad kind (net.emit node (.transmit next pkt)) =
      Function.update (linkLoad kind net) (node, next)
        (linkLoad kind net (node, next) + channelLoad kind [pkt]) := by
  funext ⟨x, y⟩
  by_cases hlink : x = node ∧ y = next
  · obtain ⟨rfl, rfl⟩ := hlink
    rw [Function.update_self]
    simp only [linkLoad, Network.emit, and_self, if_true]
    exact channelLoad_append ..
  · rw [Function.update_of_ne fun heq => hlink (Prod.mk.injEq .. ▸ heq)]
    simp only [linkLoad, Network.emit, if_neg hlink]

lemma emit_linkLoad (node : PeerId) (o : RouterOutput) (h : (linkLoad kind net).support.Finite) :
    (linkLoad kind (net.emit node o)).support.Finite ∧
      total (linkLoad kind (net.emit node o)) = total (linkLoad kind net) +
        outputLoad kind [o] := by
  cases o with
  | packetForMe pkt => exact ⟨h, (add_zero _).symm⟩
  | transmit next pkt =>
    rw [linkLoad_transmit]
    refine ⟨support_update_finite h _ _, ?_⟩
    have htotal :=
      total_update h (node, next) (linkLoad kind net (node, next) + channelLoad kind [pkt])
    rw [add_comm (linkLoad kind net (node, next)), ← add_assoc] at htotal
    rw [add_comm (linkLoad kind net (node, next))]
    exact add_right_cancel htotal

/-- The packets on the links after some outputs. -/
lemma foldl_emit_linkLoad (node : PeerId) (outs : List RouterOutput)
    (h : (linkLoad kind net).support.Finite) :
    (linkLoad kind (outs.foldl (Network.emit node) net)).support.Finite ∧
      total (linkLoad kind (outs.foldl (Network.emit node) net)) =
        total (linkLoad kind net) + outputLoad kind outs := by
  induction outs generalizing net with
  | nil => exact ⟨h, (add_zero _).symm⟩
  | cons o outs ih =>
    obtain ⟨hfirst, hone⟩ := emit_linkLoad node o h
    obtain ⟨hfin, htotal⟩ := ih hfirst
    refine ⟨hfin, ?_⟩
    rw [List.foldl_cons, htotal, hone, add_assoc, ← outputLoad_append]
    rfl

/-- A step at `x` replaces what its owner holds, and adds what it transmits. -/
lemma apply_trafficLoad (h : FiniteTraffic kind held net) (x : PeerId) :
    ∃ rest, trafficLoad kind held net = rest + held (net.owners x) ∧
      ∀ r, FiniteTraffic kind held (net.apply x r) ∧
        trafficLoad kind held (net.apply x r) = rest + (outputLoad kind r.1 + held r.2.1) := by
  refine ⟨total (linkLoad kind net) + total (Function.update (fun y => held (net.owners y)) x 0),
    ?_, fun r => ?_⟩
  · have htake := total_update h.owners x 0
    rw [add_zero] at htake
    rw [add_assoc, htake]
    rfl
  · have howners : (fun y => held ((net.apply x r).owners y)) =
        Function.update (fun y => held (net.owners y)) x (held r.2.1) := by
      funext y
      rw [apply_eq]
      by_cases hy : y = x
      · subst hy
        simp only [Function.update_self]
      · simp only [Function.update_of_ne hy]
    obtain ⟨hfin, htotal⟩ := foldl_emit_linkLoad x r.1 (show (linkLoad kind { net with
      routers := Function.update net.routers x r.2.2
      owners := Function.update net.owners x r.2.1 }).support.Finite from h.links)
    refine ⟨⟨hfin, by rw [howners]; exact support_update_finite h.owners _ _⟩, ?_⟩
    have hput := total_update (support_update_finite h.owners x 0) x (held r.2.1)
    rw [Function.update_idem, Function.update_self, add_zero] at hput
    unfold trafficLoad
    rw [howners, hput]
    change total (linkLoad kind (r.1.foldl (Network.emit x) _)) + _ = _
    rw [htotal]
    change total (linkLoad kind net) + outputLoad kind r.1 + _ = _
    exact add_add_add_comm _ _ _ _

/-- A packet is taken from its link. -/
lemma take_trafficLoad (h : FiniteTraffic kind held net) {src dst : PeerId} {index : ℕ}
    {pkt : RoutedPacket} (hpkt : (net.channel src dst)[index]? = some pkt) :
    FiniteTraffic kind held (net.take src dst index) ∧
      trafficLoad kind held net = trafficLoad kind held (net.take src dst index) +
        channelLoad kind [pkt] := by
  have hload : linkLoad kind (net.take src dst index) =
      Function.update (linkLoad kind net) (src, dst)
      (channelLoad kind ((net.channel src dst).eraseIdx index)) := by
    funext ⟨x, y⟩
    by_cases hlink : x = src ∧ y = dst
    · obtain ⟨rfl, rfl⟩ := hlink
      rw [Function.update_self]
      simp only [linkLoad, Network.take, and_self, if_true]
    · rw [Function.update_of_ne fun heq => hlink (Prod.mk.injEq .. ▸ heq)]
      simp only [linkLoad, Network.take, if_neg hlink]
  have hperm : linkLoad kind net (src, dst) =
      channelLoad kind ((net.channel src dst).eraseIdx index) + channelLoad kind [pkt] := by
    obtain ⟨hlt, hget⟩ := List.getElem?_eq_some_iff.mp hpkt
    have hsplit : (net.channel src dst).Perm ((net.channel src dst).eraseIdx index ++ [pkt]) := by
      have herase := List.getElem_cons_eraseIdx_perm hlt
      rw [hget] at herase
      exact herase.symm.trans (List.perm_append_singleton pkt _).symm
    rw [← channelLoad_append]
    exact Multiset.coe_eq_coe.mpr (hsplit.filterMap _)
  refine ⟨⟨by rw [hload]; exact support_update_finite h.links _ _, h.owners⟩, ?_⟩
  have htotal :=
    total_update h.links (src, dst) (channelLoad kind ((net.channel src dst).eraseIdx index))
  rw [hperm, add_comm (channelLoad kind ((net.channel src dst).eraseIdx index)),
    ← add_assoc] at htotal
  unfold trafficLoad
  rw [hload, ← add_right_cancel htotal]
  exact add_right_comm _ _ _

end Load

/-! ## Owners -/

/-- Handling a packet, the owner exchanges what it holds and the packet for lower items. -/
structure SettlesTraffic (kind : RoutedPacket → ℕ) (held : ν → Multiset ℕ) (inv : ν → Prop)
    (cb : OnPacketForMe ν) :
    Prop where
  keeps : ∀ env owner s pkt, inv owner → inv (cb env owner s pkt).1
  header : ∀ env owner s pkt, (cb env owner s pkt).2.1.ttl = pkt.ttl ∧
    kind (cb env owner s pkt).2.1 ≤ kind pkt
  lowers : ∀ env owner s pkt, inv owner →
    Below (held (cb env owner s pkt).1 + sentLoad kind (cb env owner s pkt).2.2)
      (held owner + {kind pkt * 2 ^ 33})

section Router

variable {kind : RoutedPacket → ℕ} {held : ν → Multiset ℕ} {inv : ν → Prop} {self src : PeerId}
  {s : RouterState}

lemma forwardPacket_alive {ord : IterOrder PeerId} {now : Time} {dest next : PeerId}
    {pktId : String} {pkt p : RoutedPacket}
    (h : .transmit next p ∈ (s.forwardPacket self ord now src dest pktId pkt).1) :
    0 < pkt.ttl - 1 := by
  unfold RouterState.forwardPacket at h
  dsimp only at h
  split_ifs at h
  · exact absurd h List.not_mem_nil
  · obtain ⟨hop, -, hhop⟩ := List.mem_filterMap.mp h
    unfold forwardTo at hhop
    dsimp only at hhop
    split_ifs at hhop with _ _ hdead
    exact UInt32.not_le.mp hdead

/-- The copies of a packet have lower ranks. -/
lemma forwardPacket_lower (hkind : ∀ p ttl, kind { p with ttl } = kind p) {ord : IterOrder PeerId}
    {now : Time} {dest : PeerId} {pktId : String} {pkt : RoutedPacket} :
    ∀ y ∈ outputLoad kind (s.forwardPacket self ord now src dest pktId pkt).1,
      y < flightRank kind pkt := by
  intro y hy
  obtain ⟨o, ho, hy⟩ := List.mem_filterMap.mp (Multiset.mem_coe.mp hy)
  cases o with
  | packetForMe p => cases hy
  | transmit next p =>
    obtain rfl := forwardPacket_sends ho
    have hlower := ttlRank_pred (forwardPacket_alive ho)
    dsimp only [outputRank, dataRank, flightRank] at hy
    split_ifs at hy
    obtain rfl := Option.some.inj hy
    rw [hkind]
    exact Nat.add_lt_add_left hlower _

lemma sendRank_gt (pkt : RoutedPacket) : flightRank kind pkt < sendRank kind pkt := by
  have hle := ttlRank_le pkt.ttl
  unfold flightRank sendRank
  omega

lemma sendOwnPackets_lower (hkind : ∀ p ttl, kind { p with ttl } = kind p) (env : StepEnv) (i : ℕ)
    (pkts : List RoutedPacket) (M : Multiset ℕ) :
    Below (M + outputLoad kind (s.sendOwnPackets self env i pkts).1) (M + sentLoad kind pkts) := by
  induction pkts generalizing i s M with
  | nil => exact .refl
  | cons pkt pkts ih =>
    have hfirst : Below (M + outputLoad kind (s.sendOwnPacket self env.order (env.clock i) pkt).1)
        (M + {sendRank kind pkt}) := by
      refine below_replace fun y hy => ?_
      unfold RouterState.sendOwnPacket at hy
      split_ifs at hy
      · exact absurd hy (Multiset.notMem_zero y)
      · exact (forwardPacket_lower hkind y hy).trans (sendRank_gt pkt)
    unfold RouterState.sendOwnPackets
    dsimp only
    rw [outputLoad_append, ← add_assoc]
    refine Relation.ReflTransGen.trans (ih (i + 1) _) ?_
    have hsent : sentLoad kind (pkt :: pkts) = {sendRank kind pkt} + sentLoad kind pkts := rfl
    rw [hsent, ← add_assoc]
    exact hfirst.add_right _

/-- A router exchanges a data packet for copies and for what its owner sends. -/
lemma handlePacket_lower {cb : OnPacketForMe ν} (hcb : SettlesTraffic kind held inv cb)
    (hkind : ∀ p ttl, kind { p with ttl } = kind p) (env : StepEnv) {owner : ν} (howner : inv owner)
    {pkt : RoutedPacket} (hdata : pkt.type ≠ .routingUpdate) :
    StrictlyBelow (outputLoad kind (s.handlePacket cb self env owner src pkt).1 +
      held (s.handlePacket cb self env owner src pkt).2.1)
        (held owner + {flightRank kind pkt}) := by
  have hdropped : StrictlyBelow (outputLoad kind [] + held owner)
      (held owner + {flightRank kind pkt}) := by
    rw [add_comm]
    exact strictlyBelow_replace fun y hy => absurd hy (Multiset.notMem_zero y)
  have hbase : kind pkt * 2 ^ 33 < flightRank kind pkt :=
    Nat.lt_add_of_pos_right (ttlRank_pos pkt.ttl)
  unfold RouterState.handlePacket
  split_ifs with hown
  · exact hdropped
  · unfold RouterState.routeDataPacket
    dsimp only
    generalize s.heardFrom src (env.clock 0) = s₁
    have hlowers := hcb.lowers env owner s₁ pkt howner
    have hheader := hcb.header env owner s₁ pkt
    generalize cb env owner s₁ pkt = r at hlowers hheader ⊢
    have hsent : ∀ X, Below (X + (outputLoad kind (s₁.sendOwnPackets self env 2 r.2.2).1 +
        held r.1))
        (X + (held owner + {kind pkt * 2 ^ 33})) := by
      intro X
      rw [add_comm (outputLoad kind _)]
      exact Below.add_left ((sendOwnPackets_lower hkind env 2 r.2.2 (held r.1)).trans hlowers) X
    split_ifs with hforMe hself hself'
    · -- only for the owner
      rw [outputLoad_cons_owner]
      have hlast := hsent 0
      rw [zero_add, zero_add] at hlast
      exact Relation.TransGen.trans_right hlast (strictlyBelow_replace (by simpa using hbase))
    · -- a broadcast: the owner is called, and the packet is passed on
      rw [List.cons_append, outputLoad_cons_owner, outputLoad_append]
      have hcopies : ∀ y ∈ outputLoad kind
          (((s₁.sendOwnPackets self env 2 r.2.2).2.forwardPacket self env.order
            (env.clock (2 + r.2.2.length)) src pkt.toPeerId (toHex pkt.id) r.2.1).1),
          y < flightRank kind pkt := by
        intro y hy
        refine (forwardPacket_lower hkind y hy).trans_le ?_
        unfold flightRank
        rw [hheader.1]
        exact Nat.add_le_add_right (Nat.mul_le_mul_right _ hheader.2) _
      have hlast := hsent
        (outputLoad kind (((s₁.sendOwnPackets self env 2 r.2.2).2.forwardPacket self env.order
        (env.clock (2 + r.2.2.length)) src pkt.toPeerId (toHex pkt.id) r.2.1).1))
      rw [← add_assoc, add_comm (outputLoad kind (RouterState.forwardPacket ..).1)] at hlast
      refine Relation.TransGen.trans_right hlast ?_
      rw [add_left_comm]
      refine strictlyBelow_replace fun y hy => ?_
      rcases Multiset.mem_add.mp hy with hy | hy
      · exact hcopies y hy
      · rw [Multiset.mem_singleton.mp hy]
        exact hbase
    · exact hdropped
    · -- a relayed packet
      rw [add_comm]
      exact strictlyBelow_replace (forwardPacket_lower hkind)

lemma handlePacket_inv {cb : OnPacketForMe ν} (hcb : SettlesTraffic kind held inv cb)
    (env : StepEnv) {owner : ν} (howner : inv owner) {pkt : RoutedPacket} :
    inv (s.handlePacket cb self env owner src pkt).2.1 := by
  have hcalled := hcb.keeps env owner (s.heardFrom src (env.clock 0)) pkt howner
  unfold RouterState.handlePacket RouterState.routeDataPacket
  dsimp only
  split_ifs
  · exact howner
  · exact howner
  · exact hcalled
  · exact hcalled
  · exact howner
  · exact howner

end Router

/-! ## Networks -/

/-- Events that put new packets into the network. -/
def Injects : NetworkEvent → Prop
  | .router _ (.sendPacket _) => True
  | .router _ (.packetReceived _ _) => True
  | _ => False

section Steps

variable {kind : RoutedPacket → ℕ} {held : ν → Multiset ℕ} {inv : ν → Prop}
  {cb : PeerId → OnPacketForMe ν}
  {net : Network ν} {env : StepEnv} {event : NetworkEvent}

lemma routingPackets_load (self : PeerId) (env : StepEnv) (first : ℕ) (ttl : UInt32)
    (updates : List (PeerId × RouteTable)) :
    outputLoad kind (routingPackets self env first ttl updates) = 0 := by
  unfold outputLoad
  rw [Multiset.coe_eq_zero, List.filterMap_eq_nil_iff]
  intro o ho
  obtain ⟨u, -, rfl⟩ := List.mem_map.mp ho
  rfl

lemma runPeriodicMaintenance_load (self : PeerId) (env : StepEnv) (s : RouterState) :
    outputLoad kind (s.runPeriodicMaintenance self env).1 = 0 := by
  unfold RouterState.runPeriodicMaintenance RouterState.fireTrigger RouterState.firePeriodic
  dsimp only
  rw [outputLoad_append]
  split_ifs
  · rw [routingPackets_load, routingPackets_load, add_zero]
  · rw [routingPackets_load]
    rfl
  · rw [routingPackets_load]
    rfl
  · rfl

/-- A step that leaves the owner alone and sends routing updates only. -/
lemma apply_quiet (h : FiniteTraffic kind held net) {x : PeerId}
    {r : List RouterOutput × ν × RouterState} (hout : outputLoad kind r.1 = 0)
    (howner : r.2.1 = net.owners x) :
    FiniteTraffic kind held (net.apply x r) ∧
      trafficLoad kind held (net.apply x r) = trafficLoad kind held net ∧
      (net.apply x r).owners = net.owners := by
  obtain ⟨rest, hload, happly⟩ := apply_trafficLoad h x
  obtain ⟨hfin, hload'⟩ := happly r
  refine ⟨hfin, ?_, ?_⟩
  · rw [hload', hload, hout, howner, zero_add]
  · rw [apply_eq, howner]
    exact Function.update_eq_self x net.owners

/-- The traffic after one event. -/
structure TrafficStep (kind : RoutedPacket → ℕ) (held : ν → Multiset ℕ) (inv : ν → Prop)
    (net net' : Network ν) :
    Prop where
  finite : FiniteTraffic kind held net'
  inv : ∀ x, inv (net'.owners x)
  below : Below (trafficLoad kind held net') (trafficLoad kind held net)

lemma TrafficStep.of_quiet {net' : Network ν} (hinv : ∀ x, inv (net.owners x))
    (h : FiniteTraffic kind held net' ∧ trafficLoad kind held net' = trafficLoad kind held net ∧
      net'.owners = net.owners) : TrafficStep kind held inv net net' :=
  ⟨h.1, fun x => h.2.2 ▸ hinv x, by rw [h.2.1]⟩

variable (hcb : ∀ b, SettlesTraffic kind held inv (cb b))
  (hkind : ∀ p ttl, kind { p with ttl } = kind p)
  (hinv : ∀ x, inv (net.owners x)) (hfin : FiniteTraffic kind held net)
include hcb hkind hinv hfin

/-- The delivery of a data packet. -/
lemma deliver_data {src dst : PeerId} {index : ℕ} {pkt : RoutedPacket}
    (hpkt : (net.channel src dst)[index]? = some pkt) (hdata : pkt.type ≠ .routingUpdate) :
    TrafficStep kind held inv net (net.step cb env (.deliver src dst index)) ∧
      StrictlyBelow (trafficLoad kind held (net.step cb env (.deliver src dst index)))
        (trafficLoad kind held net) := by
  rw [step_deliver_some hpkt]
  obtain ⟨hfin', htake⟩ := take_trafficLoad hfin hpkt
  obtain ⟨rest, hload, happly⟩ := apply_trafficLoad hfin' dst
  obtain ⟨hfin'', hload'⟩ :=
    happly ((net.routers dst).handlePacket (cb dst) dst env (net.owners dst) src pkt)
  have hrank : channelLoad kind [pkt] = {flightRank kind pkt} := by
    simp [channelLoad, dataRank, hdata]
  have hlower : StrictlyBelow (outputLoad kind
      ((net.routers dst).handlePacket (cb dst) dst env (net.owners dst) src
      pkt).1 + held ((net.routers dst).handlePacket (cb dst) dst env (net.owners dst) src pkt).2.1)
      (held (net.owners dst) + {flightRank kind pkt}) :=
        handlePacket_lower (hcb dst) hkind env (hinv dst) hdata
  have hstrict : StrictlyBelow (trafficLoad kind held ((net.take src dst index).apply dst
      ((net.routers dst).handlePacket (cb dst) dst env (net.owners dst) src pkt)))
      (trafficLoad kind held net) := by
    rw [hload', htake, hload, hrank, add_assoc]
    exact StrictlyBelow.add_left hlower rest
  refine ⟨⟨hfin'', fun x => ?_, hstrict.to_reflTransGen⟩, hstrict⟩
  rw [apply_eq]
  by_cases hx : x = dst
  · subst hx
    simp only [Function.update_self]
    exact handlePacket_inv (hcb x) env (hinv x)
  · simp only [Function.update_of_ne hx]
    exact hinv x

/-- Without new packets the traffic does not grow. -/
lemma step_traffic (hevent : ¬Injects event) :
    TrafficStep kind held inv net (net.step cb env event) := by
  cases event with
  | router x routerEvent =>
    cases routerEvent with
    | packetReceived src pkt => exact absurd trivial hevent
    | sendPacket pkt => exact absurd trivial hevent
    | peerConnected p => exact .of_quiet hinv (apply_quiet hfin rfl rfl)
    | peerDisconnected p => exact .of_quiet hinv (apply_quiet hfin rfl rfl)
    | maintenance => exact .of_quiet hinv (apply_quiet hfin (runPeriodicMaintenance_load ..) rfl)
  | sendTriggeredUpdates x => exact .of_quiet hinv (apply_quiet hfin (routingPackets_load ..) rfl)
  | broadcastFullTable x => exact .of_quiet hinv (apply_quiet hfin (routingPackets_load ..) rfl)
  | deliver src dst index =>
    cases hpkt : (net.channel src dst)[index]? with
    | none =>
      rw [step_deliver_none hpkt]
      exact .of_quiet hinv ⟨hfin, rfl, rfl⟩
    | some pkt =>
      by_cases hdata : pkt.type = .routingUpdate
      · obtain ⟨hfin', htake⟩ := take_trafficLoad hfin hpkt
        have hnone : channelLoad kind [pkt] = 0 := by simp [channelLoad, dataRank, hdata]
        rw [hnone, add_zero] at htake
        have hquiet : outputLoad kind ((net.routers dst).handlePacket (cb dst) dst env
            (net.owners dst) src pkt).1 = 0 ∧
            ((net.routers dst).handlePacket (cb dst) dst env (net.owners dst) src pkt).2.1 =
              net.owners dst := by
          unfold RouterState.handlePacket
          split_ifs
          · exact ⟨rfl, rfl⟩
          · exact ⟨rfl, rfl⟩
        obtain ⟨hfin'', hload, howners⟩ := apply_quiet hfin' hquiet.1 hquiet.2
        rw [step_deliver_some hpkt]
        exact .of_quiet hinv ⟨hfin'', hload.trans htake.symm, howners⟩
      · exact (deliver_data hcb hkind hinv hfin hpkt hdata).1

end Steps

/-! ## Executions -/

/-- The steps `i` with `active i` lower the traffic, the others do not raise it: there are finitely
many of them. -/
lemma traffic_dies_out {kind : RoutedPacket → ℕ} {held : ν → Multiset ℕ} {inv : ν → Prop}
    {σ : ℕ → Network ν} {active : ℕ → Prop} (hfin : FiniteTraffic kind held (σ 0))
    (hinv : ∀ x, inv ((σ 0).owners x))
    (hstep : ∀ i, FiniteTraffic kind held (σ i) → (∀ x, inv ((σ i).owners x)) →
      TrafficStep kind held inv (σ i) (σ (i + 1)) ∧
        (active i → StrictlyBelow (trafficLoad kind held (σ (i + 1))) (trafficLoad kind held
          (σ i)))) :
    ∃ n, ∀ i, n ≤ i → ¬active i := by
  have hall : ∀ i, FiniteTraffic kind held (σ i) ∧ ∀ x, inv ((σ i).owners x) := by
    intro i
    induction i with
    | zero => exact ⟨hfin, hinv⟩
    | succ i ih =>
      have hnext := (hstep i ih.1 ih.2).1
      exact ⟨hnext.finite, hnext.inv⟩
  obtain ⟨n, hn⟩ := eventually_idle (f := fun i => trafficLoad kind held (σ i)) fun i =>
    (hstep i (hall i).1 (hall i).2).1.below
  exact ⟨n, fun i hi hactive => hn i hi ((hstep i (hall i).1 (hall i).2).2 hactive)⟩

/-- A data packet is delivered. -/
def DeliversData (net : Network ν) (event : NetworkEvent) : Prop :=
  ∃ src dst index pkt, event = .deliver src dst index ∧ (net.channel src dst)[index]? = some pkt ∧
    pkt.type ≠ .routingUpdate

/-- An owner that answers requests only, by packets that are no requests. -/
structure AnswersRequests (cb : OnPacketForMe ν) : Prop where
  header : ∀ env owner s pkt, (cb env owner s pkt).2.1.ttl = pkt.ttl ∧
    (cb env owner s pkt).2.1.expectResponse = pkt.expectResponse
  answers : ∀ env owner s pkt, ∀ q ∈ (cb env owner s pkt).2.2, pkt.expectResponse = true ∧
    q.expectResponse = false

def requestKind (pkt : RoutedPacket) : ℕ := if pkt.expectResponse then 1 else 0

lemma AnswersRequests.settles {cb : OnPacketForMe ν} (h : AnswersRequests cb) :
    SettlesTraffic requestKind (fun _ => 0) (fun _ => True) cb := by
  refine ⟨fun _ _ _ _ _ => trivial, fun env owner s pkt => ?_, fun env owner s pkt _ => ?_⟩
  · obtain ⟨httl, hresponse⟩ := h.header env owner s pkt
    refine ⟨httl, ?_⟩
    unfold requestKind
    rw [hresponse]
  · refine below_replace fun y hy => ?_
    obtain ⟨q, hq, rfl⟩ := List.mem_map.mp (Multiset.mem_coe.mp hy)
    obtain ⟨hrequest, hanswer⟩ := h.answers env owner s pkt q hq
    simp [sendRank, requestKind, hrequest, hanswer]

/-- Every data packet under way is delivered some time. -/
def DeliversAll (σ : ℕ → Network ν) (event : ℕ → NetworkEvent) : Prop :=
  ∀ a b i, ∀ pkt ∈ (σ i).channel a b, pkt.type ≠ .routingUpdate →
    ∃ j index, i ≤ j ∧ event j = .deliver a b index ∧ ((σ j).channel a b)[index]? = some pkt

lemma linkLoad_finite {kind : RoutedPacket → ℕ} {net : Network ν}
    (h : {link : PeerId × PeerId | net.channel link.1 link.2 ≠ []}.Finite) :
    (linkLoad kind net).support.Finite := by
  refine h.subset fun link hlink hnil => hlink ?_
  unfold linkLoad
  rw [hnil]
  rfl

/-- Without new packets the data traffic ends, in whatever state the routers are and however they
change. -/
theorem answered_traffic_ends (cb : PeerId → OnPacketForMe ν) (hcb : ∀ b, AnswersRequests (cb b))
    (σ : ℕ → Network ν) (env : ℕ → StepEnv) (event : ℕ → NetworkEvent)
    (hlinks : {link : PeerId × PeerId | (σ 0).channel link.1 link.2 ≠ []}.Finite)
    (hstep : ∀ i, σ (i + 1) = (σ i).step cb (env i) (event i)) (hevent : ∀ i, ¬Injects (event i)) :
    ∃ n, ∀ i, n ≤ i → ¬DeliversData (σ i) (event i) ∧
      (DeliversAll σ event → ∀ a b, ∀ pkt ∈ (σ i).channel a b, pkt.type = .routingUpdate) := by
  have hsettles : ∀ b, SettlesTraffic requestKind (fun _ => 0) (fun _ => True) (cb b) :=
    fun b => (hcb b).settles
  have hkind : ∀ p ttl, requestKind { p with ttl } = requestKind p := fun _ _ => rfl
  have hfin : FiniteTraffic requestKind (fun _ => 0) (σ 0) := by
    refine ⟨linkLoad_finite hlinks, ?_⟩
    rw [show (fun x : PeerId => (0 : Multiset ℕ)) = 0 from rfl, Function.support_zero]
    exact Set.finite_empty
  have hdies : ∃ n, ∀ i, n ≤ i → ¬DeliversData (σ i) (event i) := by
    refine @traffic_dies_out ν requestKind _ (fun _ => True) σ _ hfin (fun _ => trivial)
      fun i hfin hinv => ?_
    rw [hstep i]
    refine ⟨step_traffic hsettles hkind hinv hfin (hevent i), ?_⟩
    rintro ⟨src, dst, index, pkt, hdeliver, hpkt, hdata⟩
    rw [hdeliver]
    exact (deliver_data hsettles hkind hinv hfin hpkt hdata).2
  obtain ⟨n, hn⟩ := hdies
  refine ⟨n, fun i hi => ⟨hn i hi, fun hall a b pkt hpkt => ?_⟩⟩
  by_contra hdata
  obtain ⟨j, index, hij, hdeliver, hpkt'⟩ := hall a b i pkt hpkt hdata
  exact hn j (hi.trans hij) ⟨a, b, index, pkt, hdeliver, hpkt', hdata⟩

/-- Routers "a", "b" and "c" that send packets for "d" round in a circle, and such a packet with TTL
0. -/
def loopNet : Network Unit where
  routers x := { RouterState.create x 0 with
    forwardingTable := AList.singleton "d"
      ⟨if x = "a" then "b" else if x = "b" then "c" else "a", 1, false, 0⟩ }
  owners _ := ()
  channel x y := if x = "a" ∧ y = "b" then [makeTextRoutedPacket [1] "e" "d" 0 "hello"] else []

def loopEvent (i : ℕ) : NetworkEvent :=
  if i % 3 = 0 then .deliver "a" "b" 0 else if i % 3 = 1 then .deliver "b" "c" 0
    else .deliver "c" "a" 0

def loopRun : ℕ → Network Unit
  | 0 => loopNet
  | i + 1 => (loopRun i).step (fun _ => silentOwner) (plainEnv 0) (loopEvent i)

/-- A packet in a routing loop. -/
theorem answered_traffic_ends_loop : ∃ n, ∀ i, n ≤ i → ¬DeliversData (loopRun i) (loopEvent i) := by
  obtain ⟨n, hn⟩ := answered_traffic_ends (fun _ => silentOwner)
    (fun _ => ⟨fun _ _ _ _ => ⟨rfl, rfl⟩, fun _ _ _ _ q hq => absurd hq List.not_mem_nil⟩) loopRun
    (fun _ => plainEnv 0) loopEvent
    ((Set.finite_singleton ("a", "b")).subset fun link hlink => by
      by_contra hne
      exact hlink (if_neg fun hab => hne (Prod.ext hab.1 hab.2)))
    (fun _ => rfl) fun i => by
      unfold loopEvent
      split_ifs <;> exact id
  exact ⟨n, fun i hi => (hn i hi).1⟩

end MeshNetwork.Proofs
