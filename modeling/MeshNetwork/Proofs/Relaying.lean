import MeshNetwork.Library.Flooding
import MeshNetwork.Model.Node
import MeshNetwork.Proofs.BroadcastOnce
import MeshNetwork.Proofs.Forwarding

/-!
# Relaying

What the delivery of one packet means for another: a router that gets a packet with a different id
neither sends a copy of it nor takes it for seen, and neither does the destination of the packet
itself.
-/

namespace MeshNetwork.Proofs

variable {ν : Type}

/-! ## Headers -/

/-- `p'` is addressed and carried like `p`; its TTL and its content may differ. -/
structure SameHeader (p p' : RoutedPacket) : Prop where
  id : p'.id = p.id
  sender : p'.fromPeerId = p.fromPeerId
  dest : p'.toPeerId = p.toPeerId
  type : p'.type = p.type
  transport : p'.transport = p.transport
  kind : p'.expectResponse = p.expectResponse

namespace SameHeader

variable {p p' p'' : RoutedPacket}

lemma trans (h : SameHeader p p') (h' : SameHeader p' p'') : SameHeader p p'' :=
  ⟨h'.id.trans h.id, h'.sender.trans h.sender, h'.dest.trans h.dest, h'.type.trans h.type,
    h'.transport.trans h.transport, h'.kind.trans h.kind⟩

lemma withTtl (h : SameHeader p p') (ttl : UInt32) : SameHeader p { p' with ttl } :=
  ⟨h.id, h.sender, h.dest, h.type, h.transport, h.kind⟩

lemma refl (p : RoutedPacket) : SameHeader p p := ⟨rfl, rfl, rfl, rfl, rfl, rfl⟩

lemma isCopy (h : SameHeader p p') : IsCopy p p' := ⟨h.id, h.sender, h.dest, h.kind⟩

end SameHeader

/-- The callback may change the content of a packet, but not where it goes and how far. -/
def KeepsHeader (cb : OnPacketForMe ν) : Prop :=
  ∀ env owner s pkt, SameHeader pkt (cb env owner s pkt).2.1 ∧
    (cb env owner s pkt).2.1.ttl = pkt.ttl

/-! ## Packets with another id -/

section Router

variable {self src : PeerId} {pkt : RoutedPacket} {s : RouterState} {key : DedupKey}

lemma forwardPacket_sends {ord : IterOrder PeerId} {now : Time} {dest : PeerId} {pktId : String}
    {next : PeerId} {p : RoutedPacket}
    (h : .transmit next p ∈ (s.forwardPacket self ord now src dest pktId pkt).1) :
    p = { pkt with ttl := pkt.ttl - 1 } := by
  unfold RouterState.forwardPacket at h
  dsimp only at h
  split_ifs at h
  · exact absurd h List.not_mem_nil
  · obtain ⟨hop, -, hhop⟩ := List.mem_filterMap.mp h
    unfold forwardTo at hhop
    dsimp only at hhop
    split_ifs at hhop
    split at hhop <;> cases hhop <;> rfl

lemma sendOwnPackets_sends {env : StepEnv} {pkts : List RoutedPacket} {i : Nat} {next : PeerId}
    {p : RoutedPacket} (h : .transmit next p ∈ (s.sendOwnPackets self env i pkts).1) :
    ∃ q ∈ pkts, p = { q with ttl := q.ttl - 1 } := by
  induction pkts generalizing i s with
  | nil => exact absurd h List.not_mem_nil
  | cons q pkts ih =>
    unfold RouterState.sendOwnPackets at h
    rcases List.mem_append.mp h with hfirst | hrest
    · unfold RouterState.sendOwnPacket at hfirst
      split_ifs at hfirst
      · exact absurd hfirst List.not_mem_nil
      · exact ⟨q, List.mem_cons_self, forwardPacket_sends hfirst⟩
    · obtain ⟨q', hq', hp⟩ := ih hrest
      exact ⟨q', List.mem_cons_of_mem q hq', hp⟩

/-- The packets that the owner sends when `pkt` comes over the link from `src`. -/
def ownerSends (cb : OnPacketForMe ν) (self : PeerId) (env : StepEnv) (owner : ν) (s : RouterState)
    (src : PeerId) (pkt : RoutedPacket) : List RoutedPacket :=
  if src = self ∨ pkt.fromPeerId = self ∨ pkt.type = .routingUpdate then []
  else if pkt.toPeerId = "" ∨ pkt.toPeerId =
    self then (cb env owner (s.heardFrom src (env.clock 0)) pkt).2.2
  else []

/-- The outcome of a step in which no packet with the id `key` is seen or sent. -/
structure Unaffected (key : DedupKey) (s : RouterState)
    (r : List RouterOutput × ν × RouterState) : Prop where
  seen : key ∈ r.2.2.seenPacketIds.set ↔ key ∈ s.seenPacketIds.set
  silent : ∀ next p, .transmit next p ∈ r.1 → dedupKeyOf p ≠ key

lemma forwardPacket_silent {ord : IterOrder PeerId} {now : Time} {dest : PeerId} {pktId : String}
    (hkey : dedupKeyOf pkt ≠ key) {next : PeerId} {p : RoutedPacket}
    (h : .transmit next p ∈ (s.forwardPacket self ord now src dest pktId pkt).1) :
    dedupKeyOf p ≠ key := by
  rw [forwardPacket_sends h]
  exact hkey

lemma sendOwnPackets_silent {env : StepEnv} {pkts : List RoutedPacket} {i : Nat}
    (hpkts : ∀ q ∈ pkts, dedupKeyOf q ≠ key) {next : PeerId} {p : RoutedPacket}
    (h : .transmit next p ∈ (s.sendOwnPackets self env i pkts).1) : dedupKeyOf p ≠ key := by
  obtain ⟨q, hq, rfl⟩ := sendOwnPackets_sends h
  exact hpkts q hq

lemma routeDataPacket_other {cb : OnPacketForMe ν} (hcb : KeepsHeader cb) {env : StepEnv}
    {owner : ν} (hkey : pkt.toPeerId ≠ self → dedupKeyOf pkt ≠ key)
    (hsent : (pkt.toPeerId = "" ∨ pkt.toPeerId = self) ∧ pkt.fromPeerId ≠ self →
      ∀ q ∈ (cb env owner s pkt).2.2, dedupKeyOf q ≠ key) :
    Unaffected key s (s.routeDataPacket cb self env owner src pkt.toPeerId (toHex pkt.id) pkt) := by
  unfold RouterState.routeDataPacket
  split_ifs with hme hself hself
  · have hown := hsent hme
    refine ⟨mem_sendOwnPackets_seen (fun q hq => (hown q hq).symm) 2 s, fun next p hp => ?_⟩
    exact sendOwnPackets_silent hown (List.mem_of_ne_of_mem (by simp) hp)
  · have hown := hsent hme
    obtain ⟨hheader, -⟩ := hcb env owner s pkt
    have hkey' : dedupKeyOf (cb env owner s pkt).2.1 ≠ key := by
      rw [hheader.isCopy.key]
      exact hkey hself
    constructor
    · dsimp only
      rw [mem_forwardPacket_seen, hheader.kind,
        mem_sendOwnPackets_seen (fun q hq => (hown q hq).symm)]
      exact or_iff_right (hkey hself).symm
    · intro next p hp
      rcases List.mem_append.mp hp with hfirst | hforward
      · exact sendOwnPackets_silent hown (List.mem_of_ne_of_mem (by simp) hfirst)
      · exact forwardPacket_silent hkey' hforward
  · exact ⟨Iff.rfl, fun next p hp => absurd hp List.not_mem_nil⟩
  · refine ⟨?_, fun next p hp => forwardPacket_silent (hkey hself) hp⟩
    dsimp only
    rw [mem_forwardPacket_seen]
    exact or_iff_right (hkey hself).symm

/-- A packet that has another id, or that goes no further. -/
lemma handlePacket_other {cb : OnPacketForMe ν} (hcb : KeepsHeader cb) {env : StepEnv} {owner : ν}
    (hkey : pkt.toPeerId ≠ self → dedupKeyOf pkt ≠ key)
    (hsent : ∀ q ∈ ownerSends cb self env owner s src pkt, dedupKeyOf q ≠ key) :
    Unaffected key s (s.handlePacket cb self env owner src pkt) := by
  unfold ownerSends at hsent
  unfold RouterState.handlePacket
  split_ifs with hown hupdate
  · exact ⟨Iff.rfl, fun next p hp => absurd hp List.not_mem_nil⟩
  · refine ⟨?_, fun next p hp => absurd hp List.not_mem_nil⟩
    dsimp only
    unfold RouterState.processRoutingUpdate
    rw [recalculate_seen, heardFrom_seen]
  · have hroute : Unaffected key (s.heardFrom src (env.clock 0))
        ((s.heardFrom src (env.clock 0)).routeDataPacket cb self env owner src pkt.toPeerId
          (toHex pkt.id) pkt) := by
      apply routeDataPacket_other hcb hkey
      rintro ⟨hme, hfrom⟩
      rw [if_neg (by tauto), if_pos hme] at hsent
      exact hsent
    refine ⟨?_, hroute.silent⟩
    rw [← heardFrom_seen s src (env.clock 0)]
    exact hroute.seen

lemma handlePacket_owner {cb : OnPacketForMe ν} {env : StepEnv} {owner : ν} {q : RoutedPacket}
    (h : q ∈ (s.handlePacket cb self env owner src pkt).1.filterMap packetForOwner) : q = pkt := by
  unfold RouterState.handlePacket at h
  split_ifs at h
  · exact absurd h List.not_mem_nil
  · exact absurd h List.not_mem_nil
  · rw [routeDataPacket_owner] at h
    split_ifs at h
    · exact List.mem_singleton.mp h
    · exact absurd h List.not_mem_nil

end Router

/-! ## Runs in which packets are delivered -/

/-- A packet is delivered over a link, and the owner sends none with the id `key` meanwhile. -/
def CarriesOther (G : SimpleGraph PeerId) (key : DedupKey) (cb : PeerId → OnPacketForMe ν)
    (net : Network ν) (env : StepEnv) : NetworkEvent → Prop
  | .deliver src dst index => G.Adj src dst ∧ ∀ pkt, (net.channel src dst)[index]? = some pkt →
      ∀ q ∈ ownerSends (cb dst) dst env (net.owners dst) (net.routers dst) src pkt,
        dedupKeyOf q ≠ key
  | _ => False

/-- A delivery does nothing, or a packet arrives. -/
lemma CarriesOther.cases {G : SimpleGraph PeerId} {key : DedupKey} {cb : PeerId → OnPacketForMe ν}
    {net : Network ν} {env : StepEnv} {event : NetworkEvent}
    (h : CarriesOther G key cb net env event) :
    net.step cb env event = net ∨
      ∃ src dst index pkt, event = .deliver src dst index ∧ G.Adj src dst ∧
        (net.channel src dst)[index]? = some pkt ∧
        ∀ q ∈ ownerSends (cb dst) dst env (net.owners dst) (net.routers dst) src pkt,
          dedupKeyOf q ≠ key := by
  cases event with
  | deliver src dst index =>
    cases hpkt : (net.channel src dst)[index]? with
    | none => exact .inl (step_deliver_none hpkt)
    | some pkt => exact .inr ⟨src, dst, index, pkt, rfl, h.1, hpkt, h.2 pkt hpkt⟩
  | router | sendTriggeredUpdates | broadcastFullTable => exact h.elim

/-- No router has seen the id, and no packet on its way has it. -/
structure FreshId (key : DedupKey) (net : Network ν) : Prop where
  unseen : ∀ b, key ∉ (net.routers b).seenPacketIds.set
  unsent : ∀ x y, ∀ p ∈ net.channel x y, dedupKeyOf p ≠ key

/-! ## Sending -/

section Send

variable {net : Network ν} {p₀ : RoutedPacket} {cb : PeerId → OnPacketForMe ν} {env : StepEnv}

/-- The call of `send_packet` at the origin. -/
lemma send_eq (hne : p₀.toPeerId ≠ p₀.fromPeerId) :
    net.step cb env (.router p₀.fromPeerId (.sendPacket p₀)) =
      net.apply p₀.fromPeerId
        (((net.routers p₀.fromPeerId).forwardPacket p₀.fromPeerId env.order (env.clock 2)
            p₀.fromPeerId p₀.toPeerId (toHex p₀.id) p₀).1,
          net.owners p₀.fromPeerId,
          ((net.routers p₀.fromPeerId).forwardPacket p₀.fromPeerId env.order (env.clock 2)
            p₀.fromPeerId p₀.toPeerId (toHex p₀.id) p₀).2) := by
  simp only [Network.step, RouterState.step, RouterState.routeDataPacket, ne_eq, not_true_eq_false,
    and_false, if_false, hne]

lemma send_handled (v : PeerId) :
    (net.step cb env (.router p₀.fromPeerId (.sendPacket p₀))).handled v = net.handled v := by
  have hown : ((net.routers p₀.fromPeerId).routeDataPacket (cb p₀.fromPeerId) p₀.fromPeerId env
      (net.owners p₀.fromPeerId) p₀.fromPeerId p₀.toPeerId (toHex p₀.id) p₀).1.filterMap
      packetForOwner = [] :=
    (routeDataPacket_owner ..).trans (if_neg fun h => h.2 rfl)
  change (net.apply _ _).handled v = _
  rw [apply_eq]
  dsimp only [RouterState.step]
  rw [hown, ite_self, List.append_nil]

/-- Only the origin has seen the id then. -/
lemma send_seen (hfresh : FreshId (dedupKeyOf p₀) net) (hne : p₀.toPeerId ≠ p₀.fromPeerId) :
    seenBy (dedupKeyOf p₀) (net.step cb env (.router p₀.fromPeerId (.sendPacket p₀))).routers =
      {p₀.fromPeerId} := by
  ext x
  rw [send_eq hne, mem_seenBy_apply, Set.mem_singleton_iff]
  split_ifs with hx
  · simp only [hx, iff_true]
    exact forwardPacket_seen_mem ..
  · simp only [hx, iff_false]
    exact hfresh.unseen x

end Send

/-- The node's callback decrypts a packet in place. -/
lemma onPacketForMe_keepsHeader (lib : Libraries) : KeepsHeader (onPacketForMe lib) := by
  intro env node router pkt
  have hpacket : (onPacketForMe lib env node router pkt).2.1 = pkt ∨
      ∃ plaintext, (onPacketForMe lib env node router pkt).2.1 =
        NodeCall.decrypted pkt plaintext := by
    unfold onPacketForMe NodeCall.handleIncomingPacket NodeCall.handleWith
    dsimp only
    split_ifs
    · exact .inl rfl
    · exact .inl rfl
    · cases decryptPacket lib.toOpenSsl node.identity pkt with
      | error _ => exact .inl rfl
      | ok plaintext => exact .inr ⟨plaintext, rfl⟩
    · exact .inl rfl
  rcases hpacket with h | ⟨plaintext, h⟩
  · rw [h]
    exact ⟨.refl pkt, rfl⟩
  · rw [h]
    exact ⟨⟨rfl, rfl, rfl, rfl, rfl, rfl⟩, rfl⟩

end MeshNetwork.Proofs
