import MeshNetwork.Proofs.NetworkStep
import MeshNetwork.Proofs.RouterInvariant

/-!
# Forwarding

Which packets the forwarding loop of a router transmits, and what it adds to the seen packet ids.
-/

namespace MeshNetwork.Proofs

variable {self src : PeerId} {pkt : RoutedPacket}

lemma toNat_pred {t : UInt32} (h : t.toNat ≠ 0) : (t - 1).toNat = t.toNat - 1 :=
  UInt32.toNat_sub_of_le t 1 (UInt32.le_iff_toNat_le.mpr (Nat.one_le_iff_ne_zero.mpr h))

lemma pos_of_toNat {t : UInt32} (h : 0 < t.toNat) : 0 < t :=
  UInt32.lt_iff_toNat_lt.mpr h

/-- The router has a live route to `dest` through `hop`. -/
def NextHop (s : RouterState) (dest hop : PeerId) : Prop :=
  ∃ e, s.forwardingTable.lookup dest = some e ∧ e.cost < infCost ∧ e.nextHop = hop

lemma NextHop.of_same {s s' : RouterState} {dest hop : PeerId} (h : NextHop s dest hop)
    (hsame : SameRoutes s s') :
    NextHop s' dest hop := by
  obtain ⟨e, he, hlive, hhop⟩ := h
  obtain ⟨e', he', hcost, hhop'⟩ := hsame.kept dest e he (lt_infCost_iff.mp hlive)
  refine ⟨e', he', ?_, hhop'.trans hhop⟩
  rw [hcost]
  exact hlive

lemma NextHop.determineNextHop_eq {s : RouterState} {dest hop : PeerId} (h : NextHop s dest hop)
    (hdest : dest ≠ "") (ord : IterOrder PeerId) : s.determineNextHop self ord dest = [hop] := by
  obtain ⟨e, he, hlive, rfl⟩ := h
  have hcost : ¬e.cost ≥ infCost := UInt32.not_le.mpr hlive
  simp [RouterState.determineNextHop, hdest, he, hcost]

/-- A data packet of another node that comes over a link. -/
lemma handlePacket_data {ν : Type} {cb : OnPacketForMe ν} {env : StepEnv} {owner : ν}
    {s : RouterState} (hsrc : src ≠ self) (hfrom : pkt.fromPeerId ≠ self)
    (hdata : pkt.type ≠ .routingUpdate) :
    s.handlePacket cb self env owner src pkt =
      (s.heardFrom src (env.clock 0)).routeDataPacket cb self env owner src pkt.toPeerId
        (toHex pkt.id) pkt := by
  unfold RouterState.handlePacket
  simp [hsrc, hfrom, hdata]

lemma mem_getDirectNeighbors {s : RouterState} {ord : IterOrder PeerId} {p : PeerId} :
    p ∈ s.getDirectNeighbors self ord ↔ p ∈ s.neighborViews ∧ p ≠ self := by
  simp [RouterState.getDirectNeighbors, (ord.visit_perm 0 s.neighborViews.keys).mem_iff,
    AList.mem_keys]

/-- What the forwarding loop does with one next hop. -/
lemma forwardTo_eq_some (hknown : pkt.transport = .tcp ∨ pkt.transport = .udp) {hop next : PeerId}
    {p : RoutedPacket} :
    forwardTo self src pkt hop = some (.transmit next p) ↔
      hop = next ∧ hop ≠ src ∧ hop ≠ self ∧ 0 < pkt.ttl - 1 ∧
        p = { pkt with ttl := pkt.ttl - 1 } := by
  have hpos : 0 < pkt.ttl - 1 ↔ ¬pkt.ttl - 1 ≤ 0 := UInt32.not_le.symm
  unfold forwardTo
  rw [hpos]
  by_cases hsrc : hop = src
  · simp [hsrc]
  · by_cases hself : hop = self
    · simp [hself]
    · by_cases hdead : pkt.ttl - 1 ≤ 0
      · simp [hdead]
      · rcases hknown with htcp | hudp
        · simp [hsrc, hself, hdead, htcp, eq_comm]
        · simp [hsrc, hself, hdead, hudp, eq_comm]

lemma mem_forwardPacket (hknown : pkt.transport = .tcp ∨ pkt.transport = .udp)
    {ord : IterOrder PeerId} {now : Time} {s : RouterState} {dest : PeerId} {pktId : String}
    {next : PeerId} {p : RoutedPacket} :
    .transmit next p ∈ (s.forwardPacket self ord now src dest pktId pkt).1 ↔
      ¬(src ≠ self ∧ (pktId, pkt.expectResponse) ∈ s.seenPacketIds.set) ∧
        next ∈ s.determineNextHop self ord dest ∧
        next ≠ src ∧ next ≠ self ∧ 0 < pkt.ttl - 1 ∧ p = { pkt with ttl := pkt.ttl - 1 } := by
  unfold RouterState.forwardPacket TimedDedupSet.contains
  simp only [decide_eq_true_eq]
  split_ifs with hseen
  · simp [hseen]
  · simp only [List.mem_filterMap, forwardTo_eq_some hknown]
    constructor
    · rintro ⟨hop, hmem, rfl, hrest⟩
      exact ⟨hseen, hmem, hrest⟩
    · rintro ⟨-, hmem, hrest⟩
      exact ⟨next, hmem, rfl, hrest⟩

/-- A broadcast packet goes to the neighbours. -/
lemma mem_forwardPacket_broadcast (hknown : pkt.transport = .tcp ∨ pkt.transport = .udp)
    {ord : IterOrder PeerId} {now : Time} {s : RouterState} {pktId : String} {next : PeerId}
    {p : RoutedPacket} :
    .transmit next p ∈ (s.forwardPacket self ord now src "" pktId pkt).1 ↔
      ¬(src ≠ self ∧ (pktId, pkt.expectResponse) ∈ s.seenPacketIds.set) ∧ next ∈ s.neighborViews ∧
        next ≠ src ∧ next ≠ self ∧ 0 < pkt.ttl - 1 ∧ p = { pkt with ttl := pkt.ttl - 1 } := by
  have hneighbors : next ∈ s.determineNextHop self ord "" ↔ next ∈ s.neighborViews ∧ next ≠ self :=
    mem_getDirectNeighbors
  rw [mem_forwardPacket hknown, hneighbors]
  constructor
  · rintro ⟨hseen, ⟨hmem, -⟩, hrest⟩
    exact ⟨hseen, hmem, hrest⟩
  · rintro ⟨hseen, hmem, hsrc, hself, hrest⟩
    exact ⟨hseen, ⟨hmem, hself⟩, hsrc, hself, hrest⟩

lemma mem_forwardPacket_seen {ord : IterOrder PeerId} {now : Time} {s : RouterState} {dest : PeerId}
    {pktId : String} {key : DedupKey} :
    key ∈ (s.forwardPacket self ord now src dest pktId pkt).2.seenPacketIds.set ↔
      key = (pktId, pkt.expectResponse) ∨ key ∈ s.seenPacketIds.set := by
  constructor
  · unfold RouterState.forwardPacket
    dsimp only
    split_ifs
    · exact .inr
    · intro hkey
      by_cases hnew : key = (pktId, pkt.expectResponse)
      · exact .inl hnew
      · exact .inr (mem_of_mem_insert hnew hkey)
  · rintro (rfl | hkey)
    · exact forwardPacket_seen_mem ..
    · unfold RouterState.forwardPacket
      dsimp only
      split_ifs
      · exact hkey
      · exact mem_insert_of_mem hkey _ _

/-- The packets that a node sends to `dest` itself all go to the next hop. -/
lemma mem_sendOwnPackets (env : StepEnv) {dest hop : PeerId} (hdest : dest ≠ "")
    (hself : dest ≠ self) (hhop : hop ≠ self) {pkts : List RoutedPacket}
    (hpkts : ∀ pkt ∈ pkts, pkt.toPeerId = dest ∧ (pkt.transport = .tcp ∨ pkt.transport = .udp))
    (i : Nat) {s : RouterState} (hroute : NextHop s dest hop) {next : PeerId} {p : RoutedPacket} :
    .transmit next p ∈ (s.sendOwnPackets self env i pkts).1 ↔
      next = hop ∧ ∃ pkt ∈ pkts, 0 < pkt.ttl - 1 ∧ p = { pkt with ttl := pkt.ttl - 1 } := by
  induction pkts generalizing i s with
  | nil => simp [RouterState.sendOwnPackets]
  | cons pkt pkts ih =>
    obtain ⟨hto, hknown⟩ := hpkts pkt List.mem_cons_self
    have hfirst : s.sendOwnPacket self env.order (env.clock i) pkt =
        s.forwardPacket self env.order (env.clock i) self dest (toHex pkt.id) pkt := by
      unfold RouterState.sendOwnPacket
      rw [hto, if_neg hself]
    have hrest := ih (fun p hp => hpkts p (List.mem_cons_of_mem _ hp)) (i + 1)
      (hroute.of_same (.of_frame (forwardPacket_frame self env.order (env.clock i) s self dest
        (toHex pkt.id) pkt)))
    simp only [RouterState.sendOwnPackets, List.mem_append, hfirst, hrest, mem_forwardPacket hknown,
      hroute.determineNextHop_eq hdest, List.mem_singleton, List.exists_mem_cons_iff]
    constructor
    · rintro (⟨-, hnext, -, -, hpos, hp⟩ | ⟨hnext, hmem⟩)
      · exact ⟨hnext, .inl ⟨hpos, hp⟩⟩
      · exact ⟨hnext, .inr hmem⟩
    · rintro ⟨rfl, ⟨hpos, hp⟩ | hmem⟩
      · exact .inl ⟨by simp, rfl, hhop, hhop, hpos, hp⟩
      · exact .inr ⟨rfl, hmem⟩

/-- The packets of the owner enter their keys, except those it sends to itself. -/
lemma mem_sendOwnPackets_seen_iff {env : StepEnv} {pkts : List RoutedPacket} {key : DedupKey}
    (i : Nat) (s : RouterState) :
    key ∈ (s.sendOwnPackets self env i pkts).2.seenPacketIds.set ↔
      (∃ pkt ∈ pkts, pkt.toPeerId ≠ self ∧ key = (toHex pkt.id, pkt.expectResponse)) ∨
        key ∈ s.seenPacketIds.set := by
  induction pkts generalizing i s with
  | nil => simp [RouterState.sendOwnPackets]
  | cons pkt pkts ih =>
    unfold RouterState.sendOwnPackets
    dsimp only
    rw [ih, List.exists_mem_cons_iff, or_right_comm]
    unfold RouterState.sendOwnPacket
    split_ifs with hto
    · simp [hto, or_comm]
    · rw [mem_forwardPacket_seen]
      simp [hto, or_comm]

lemma mem_sendOwnPackets_seen {env : StepEnv} {pkts : List RoutedPacket} {key : DedupKey}
    (hpkts : ∀ pkt ∈ pkts, key ≠ (toHex pkt.id, pkt.expectResponse)) (i : Nat) (s : RouterState) :
    key ∈ (s.sendOwnPackets self env i pkts).2.seenPacketIds.set ↔ key ∈ s.seenPacketIds.set := by
  rw [mem_sendOwnPackets_seen_iff]
  refine or_iff_right ?_
  rintro ⟨pkt, hpkt, -, hkey⟩
  exact hpkts pkt hpkt hkey

/-- A packet for another node goes to its next hop unless its id has been seen on a packet of a
neighbour, its TTL runs out or its protocol is not known. -/
lemma forwardPacket_unicast {s : RouterState} {dest hop : PeerId} (hnamed : dest ≠ "")
    (hroute : NextHop s dest hop) (hhop : hop ≠ self) (hback : hop ≠ src) (ord : IterOrder PeerId)
    (now : Time) (pktId : String) :
    (s.forwardPacket self ord now src dest pktId pkt).1 =
      if ¬(src ≠ self ∧ (pktId, pkt.expectResponse) ∈ s.seenPacketIds.set) ∧ 0 < pkt.ttl - 1 ∧
        (pkt.transport = .tcp ∨ pkt.transport = .udp) then
        [.transmit hop { pkt with ttl := pkt.ttl - 1 }] else [] := by
  have hstay : ∀ seen, NextHop { s with seenPacketIds := seen } dest hop :=
    fun seen => hroute.of_same (.of_eq rfl rfl)
  unfold RouterState.forwardPacket TimedDedupSet.contains
  simp only [decide_eq_true_eq]
  split_ifs with hdup hsends hsends
  · exact absurd hdup hsends.1
  · rfl
  · rw [(hstay _).determineNextHop_eq hnamed]
    obtain ⟨-, hlive, hknown⟩ := hsends
    unfold forwardTo
    rcases hknown with hknown | hknown <;> simp [hhop, hback, hknown, UInt32.not_le.mpr hlive]
  · rw [(hstay _).determineNextHop_eq hnamed]
    have hdrop : ¬(0 < pkt.ttl - 1 ∧ (pkt.transport = .tcp ∨ pkt.transport = .udp)) :=
      fun h => hsends ⟨hdup, h⟩
    unfold forwardTo
    dsimp only
    by_cases hlive : 0 < pkt.ttl - 1
    · cases htransport : pkt.transport with
      | tcp => exact absurd ⟨hlive, .inl htransport⟩ hdrop
      | udp => exact absurd ⟨hlive, .inr htransport⟩ hdrop
      | unknown => simp
    · simp [UInt32.not_lt.mp hlive]

/-- A packet for another node that comes over a link. -/
lemma handlePacket_unicast {ν : Type} (cb : OnPacketForMe ν) (env : StepEnv) (owner : ν)
    {s : RouterState} (hsrc : src ≠ self) (hfrom : pkt.fromPeerId ≠ self)
    (hdata : pkt.type ≠ .routingUpdate) (hnamed : pkt.toPeerId ≠ "") (hother : pkt.toPeerId ≠ self)
    (hknown : pkt.transport = .tcp ∨ pkt.transport = .udp) {hop : PeerId}
    (hroute : NextHop s pkt.toPeerId hop) (hhop : hop ≠ self) (hback : hop ≠ src) :
    let r := s.handlePacket cb self env owner src pkt
    r.1 = (if (toHex pkt.id, pkt.expectResponse) ∉ s.seenPacketIds.set ∧ 0 < pkt.ttl - 1 then
      [.transmit hop { pkt with ttl := pkt.ttl - 1 }] else []) ∧
    r.2.1 = owner ∧ SameRoutes s r.2.2 ∧
    ∀ key, key ∈ r.2.2.seenPacketIds.set ↔ key = (toHex pkt.id, pkt.expectResponse) ∨
      key ∈ s.seenPacketIds.set := by
  have hheard := heardFrom_same s src (env.clock 0)
  have hseen := heardFrom_seen s src (env.clock 0)
  have heq : s.handlePacket cb self env owner src pkt =
      (((s.heardFrom src (env.clock 0)).forwardPacket self env.order (env.clock 2) src pkt.toPeerId
        (toHex pkt.id) pkt).1, owner,
        ((s.heardFrom src (env.clock 0)).forwardPacket self env.order (env.clock 2) src pkt.toPeerId
        (toHex pkt.id) pkt).2) := by
    rw [handlePacket_data hsrc hfrom hdata]
    unfold RouterState.routeDataPacket
    simp [hnamed, hother]
  dsimp only
  rw [heq]
  refine ⟨?_, rfl, hheard.trans (.of_frame (forwardPacket_frame ..)), fun key => ?_⟩
  · rw [forwardPacket_unicast hnamed (hroute.of_same hheard) hhop hback, hseen]
    simp [hsrc, hknown]
  · rw [mem_forwardPacket_seen, hseen]

end MeshNetwork.Proofs
