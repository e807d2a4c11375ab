import MeshNetwork.Proofs.BroadcastRequest
import MeshNetwork.Proofs.Relaying

/-!
# Coverage of broadcasts

A node relays the first copy of a broadcast that it gets, and that copy may have come the long way
round. It has come along a path of nodes that have seen the packet, and no path has more links than
there are nodes to go to, so a TTL of at least the number of nodes never runs out before a node that
has not seen the packet.
-/

namespace MeshNetwork.Proofs

open Flooding

variable {ν : Type}

/-! ## One copy at one node -/

/-- A broadcast is handled by the owner, and goes on to the other neighbours if its id has not been
seen. -/
lemma handlePacket_broadcast {cb : OnPacketForMe ν} (hcb : KeepsHeader cb) {env : StepEnv}
    {owner : ν} {s : RouterState} {self src : PeerId} {pkt : RoutedPacket} (hself : self ≠ "")
    (hsrc : src ≠ self) (hfrom : pkt.fromPeerId ≠ self) (hdata : pkt.type ≠ .routingUpdate)
    (hto : pkt.toPeerId = "") (hknown : pkt.transport = .tcp ∨ pkt.transport = .udp)
    (hsent : ∀ q ∈ ownerSends cb self env owner s src pkt, dedupKeyOf q ≠ dedupKeyOf pkt) :
    let r := s.handlePacket cb self env owner src pkt
    SameRoutes s r.2.2 ∧ dedupKeyOf pkt ∈ r.2.2.seenPacketIds.set ∧
      pkt ∈ r.1.filterMap packetForOwner ∧
    ∃ pkt', SameHeader pkt pkt' ∧ ∀ next p, dedupKeyOf p = dedupKeyOf pkt →
      (.transmit next p ∈ r.1 ↔
      dedupKeyOf pkt ∉ s.seenPacketIds.set ∧ next ∈ s.neighborViews ∧ next ≠ src ∧ next ≠ self ∧
        0 < pkt.ttl - 1 ∧ p = { pkt' with ttl := pkt.ttl - 1 }) := by
  have hown : ∀ q ∈ (cb env owner (s.heardFrom src (env.clock 0)) pkt).2.2,
      dedupKeyOf q ≠ dedupKeyOf pkt := by
    unfold ownerSends at hsent
    rw [if_neg (by tauto), if_pos (.inl hto)] at hsent
    exact hsent
  have howner : pkt ∈ (s.handlePacket cb self env owner src pkt).1.filterMap packetForOwner := by
    rw [handlePacket_data hsrc hfrom hdata, routeDataPacket_owner, if_pos ⟨.inl hto, hfrom⟩]
    exact List.mem_singleton_self pkt
  have hroutes : SameRoutes s (s.handlePacket cb self env owner src pkt).2.2 := by
    rw [handlePacket_data hsrc hfrom hdata]
    exact (heardFrom_same ..).trans (.of_frame (routeDataPacket_frame ..))
  have hseen : dedupKeyOf pkt ∈ (s.handlePacket cb self env owner src
      pkt).2.2.seenPacketIds.set := by
    rw [handlePacket_data hsrc hfrom hdata, hto]
    exact routeDataPacket_seen_mem cb (fun env owner s pkt => (hcb env owner s pkt).1.kind) hself
      env owner _ src hfrom
  refine ⟨hroutes, hseen, howner, (cb env owner (s.heardFrom src (env.clock 0)) pkt).2.1, ?_⟩
  obtain ⟨hheader, httl⟩ := hcb env owner (s.heardFrom src (env.clock 0)) pkt
  rw [handlePacket_data hsrc hfrom hdata, hto]
  unfold RouterState.routeDataPacket
  rw [if_pos ⟨.inl rfl, hfrom⟩]
  dsimp only
  rw [if_neg hself.symm]
  generalize cb env owner (s.heardFrom src (env.clock 0)) pkt = called at hheader httl hown
  obtain ⟨owner', pkt', sent⟩ := called
  refine ⟨hheader, fun next p hp => ?_⟩
  -- what the owner has sent before does not matter to a copy
  have hkept : SameRoutes s ((s.heardFrom src (env.clock 0)).sendOwnPackets self env 2 sent).2 :=
    (heardFrom_same ..).trans (.of_frame (sendOwnPackets_frame ..))
  have hfirst : .transmit next p ∉ .packetForMe pkt ::
      ((s.heardFrom src (env.clock 0)).sendOwnPackets self env 2 sent).1 :=
    fun hmem => sendOwnPackets_silent hown (List.mem_of_ne_of_mem (by simp) hmem) hp
  have hdup : (toHex pkt.id, pkt'.expectResponse) = dedupKeyOf pkt := by
    rw [hheader.kind]
    rfl
  rw [List.mem_append, or_iff_right hfirst,
    mem_forwardPacket_broadcast (hheader.transport ▸ hknown), hdup,
    mem_sendOwnPackets_seen (fun q hq => (hown q hq).symm), heardFrom_seen, hkept.mem,
    httl, not_and]
  exact and_congr_left fun _ => forall_prop_of_true hsrc

/-- A packet from a neighbour does not change who the neighbours are. -/
lemma handlePacket_neighbors (cb : OnPacketForMe ν) (self : PeerId) (env : StepEnv) (owner : ν)
    {s : RouterState} {src : PeerId} (hsrc : src ∈ s.neighborViews) (pkt : RoutedPacket)
    (p : PeerId) :
    p ∈ (s.handlePacket cb self env owner src pkt).2.2.neighborViews ↔ p ∈ s.neighborViews := by
  have hheard := heardFrom_same s src (env.clock 0)
  unfold RouterState.handlePacket
  split_ifs with hown hupdate
  · rfl
  · unfold RouterState.processRoutingUpdate
    dsimp only
    rw [recalculate_views, AList.mem_insert, hheard.mem, or_iff_right_iff_imp]
    rintro rfl
    exact hsrc
  · exact (hheard.trans (.of_frame (routeDataPacket_frame ..))).mem p

/-! ## The flood -/

/-- A static network: its nodes are `T`, its links are those of `G`, and each router knows its
neighbours. -/
structure StaticMesh (G : SimpleGraph PeerId) (T : Finset PeerId)
    (routers : PeerId → RouterState) : Prop where
  named : "" ∉ T
  links : ∀ x y, G.Adj x y → x ∈ T ∧ y ∈ T
  connected : ∀ x ∈ T, ∀ y ∈ T, G.Reachable x y
  neighbors : ∀ b ∈ T, ∀ p, p ∈ (routers b).neighborViews ↔ G.Adj b p

/-- A broadcast of data with a fresh id that `send_packet` is called with at one of the nodes. -/
structure FreshBroadcast (T : Finset PeerId) (p₀ : RoutedPacket) (net : Network ν) : Prop where
  origin : p₀.fromPeerId ∈ T
  dest : p₀.toPeerId = ""
  data : p₀.type ≠ .routingUpdate
  transport : p₀.transport = .tcp ∨ p₀.transport = .udp
  ttl : T.card ≤ p₀.ttl.toNat
  fresh : FreshId (dedupKeyOf p₀) net

/-- A copy on its way from `x` to `y`, which has come along a path of nodes in `S`. -/
structure FloodCopy (G : SimpleGraph PeerId) (p₀ : RoutedPacket) (S : Set PeerId) (x y : PeerId)
    (p : RoutedPacket) :
    Prop where
  adj : G.Adj x y
  header : SameHeader p₀ p
  trail : ∃ n, Trail G S p₀.fromPeerId x n ∧ p.ttl.toNat + n = p₀.ttl.toNat - 1

/-- What holds from the call of `send_packet` on. -/
structure Flood (G : SimpleGraph PeerId) (T : Finset PeerId) (p₀ : RoutedPacket)
    (net : Network ν) : Prop where
  mesh : StaticMesh G T net.routers
  origin : p₀.fromPeerId ∈ seenBy (dedupKeyOf p₀) net.routers
  handled : ∀ v ∈ seenBy (dedupKeyOf p₀) net.routers, v ≠ p₀.fromPeerId →
    ∃ p ∈ net.handled v, IsCopy p₀ p
  inFlight : ∀ x y, ∀ p ∈ net.channel x y, dedupKeyOf p = dedupKeyOf p₀ →
    FloodCopy G p₀ (seenBy (dedupKeyOf p₀) net.routers) x y p
  covers : Covers G (seenBy (dedupKeyOf p₀) net.routers) fun x y =>
    ∃ p ∈ net.channel x y, dedupKeyOf p = dedupKeyOf p₀

section Steps

variable {G : SimpleGraph PeerId} {T : Finset PeerId} {p₀ : RoutedPacket} {net : Network ν}

lemma StaticMesh.update {routers : PeerId → RouterState} (h : StaticMesh G T routers) {b : PeerId}
    {s : RouterState} (hsame : ∀ p, p ∈ s.neighborViews ↔ p ∈ (routers b).neighborViews) :
    StaticMesh G T (Function.update routers b s) := by
  refine ⟨h.named, h.links, h.connected, fun x hx p => ?_⟩
  by_cases hxb : x = b
  · rw [hxb, Function.update_self, hsame]
    exact h.neighbors b (hxb ▸ hx) p
  · rw [Function.update_of_ne hxb]
    exact h.neighbors x hx p

/-- No path is longer than the TTL allows. -/
lemma StaticMesh.pathsWithin {routers : PeerId → RouterState} (h : StaticMesh G T routers)
    (horigin : p₀.fromPeerId ∈ T) (httl : T.card ≤ p₀.ttl.toNat) :
    PathsWithin G p₀.fromPeerId (p₀.ttl.toNat - 1) := by
  have hpos : 0 < T.card := Finset.card_pos.mpr ⟨_, horigin⟩
  exact pathsWithin_of_closed (fun x _ y hadj => (h.links x y hadj).2) horigin (by omega)

lemma StaticMesh.ne_empty {routers : PeerId → RouterState} (h : StaticMesh G T routers)
    {x y : PeerId} (hadj : G.Adj x y) : y ≠ "" := by
  rintro rfl
  exact h.named (h.links x "" hadj).2

lemma FreshBroadcast.dest_ne {routers : PeerId → RouterState} (h : FreshBroadcast T p₀ net)
    (hmesh : StaticMesh G T routers) : p₀.toPeerId ≠ p₀.fromPeerId := by
  rw [h.dest]
  intro hempty
  exact hmesh.named (hempty ▸ h.origin)

lemma FloodCopy.mono {S S' : Set PeerId} {x y : PeerId} {p : RoutedPacket}
    (h : FloodCopy G p₀ S x y p) (hsub : S ⊆ S') : FloodCopy G p₀ S' x y p := by
  obtain ⟨n, htrail, httl⟩ := h.trail
  exact ⟨h.adj, h.header, n, htrail.mono hsub, httl⟩

section Delivered

variable {src dst : PeerId} {index : Nat} {pkt : RoutedPacket}
  {r : List RouterOutput × ν × RouterState}

/-- A delivery keeps the invariant if the node keeps its neighbours, handles a packet that it has
not seen before, and sends only such copies. -/
lemma Flood.delivered (h : Flood G T p₀ net)
    (hneighbors : ∀ p, p ∈ r.2.2.neighborViews ↔ p ∈ (net.routers dst).neighborViews)
    (hseen : dst ∈ seenBy (dedupKeyOf p₀) net.routers → dedupKeyOf p₀ ∈ r.2.2.seenPacketIds.set)
    (hhandled : dedupKeyOf p₀ ∈ r.2.2.seenPacketIds.set → dst ∈ seenBy (dedupKeyOf p₀) net.routers ∨
      ∃ p ∈ r.1.filterMap packetForOwner, IsCopy p₀ p)
    (hsends : ∀ y p, .transmit y p ∈ r.1 → dedupKeyOf p = dedupKeyOf p₀ →
      FloodCopy G p₀ (seenBy (dedupKeyOf p₀) ((net.take src dst index).apply dst r).routers) dst y
        p)
    (hcovers : Covers G (seenBy (dedupKeyOf p₀) ((net.take src dst index).apply dst r).routers)
      fun x y =>
      ∃ p ∈ ((net.take src dst index).apply dst r).channel x y, dedupKeyOf p = dedupKeyOf p₀) :
    Flood G T p₀ ((net.take src dst index).apply dst r) := by
  have hmono : seenBy (dedupKeyOf p₀) net.routers ⊆
      seenBy (dedupKeyOf p₀) ((net.take src dst index).apply dst r).routers := seenBy_mono hseen
  refine ⟨?_, hmono h.origin, ?_, ?_, hcovers⟩
  · rw [apply_eq]
    exact h.mesh.update hneighbors
  · intro v hv hvo
    rw [mem_seenBy_apply] at hv
    have hkept : v ∈ seenBy (dedupKeyOf p₀) net.routers →
        ∃ p ∈ ((net.take src dst index).apply dst r).handled v, IsCopy p₀ p := by
      intro hold
      obtain ⟨p, hp, hcopy⟩ := h.handled v hold hvo
      exact ⟨p, mem_handled_delivered.mpr (.inl hp), hcopy⟩
    split_ifs at hv with hvd
    · rcases hhandled hv with hold | ⟨p, hp, hcopy⟩
      · exact hkept (hvd ▸ hold)
      · exact ⟨p, mem_handled_delivered.mpr (.inr ⟨hvd, hp⟩), hcopy⟩
    · exact hkept hv
  · intro x y p hp hkey
    rcases mem_delivered.mp hp with hold | ⟨rfl, hnew⟩
    · exact (h.inFlight x y p (mem_of_mem_take hold) hkey).mono hmono
    · exact hsends y p hnew hkey

/-- A packet with another id leaves the flood as it is. -/
lemma Flood.deliver_other (h : Flood G T p₀ net) (hpkt : (net.channel src dst)[index]? = some pkt)
    (hkey : dedupKeyOf pkt ≠ dedupKeyOf p₀) (hr : Unaffected (dedupKeyOf p₀) (net.routers dst) r)
    (hneighbors : ∀ p, p ∈ r.2.2.neighborViews ↔ p ∈ (net.routers dst).neighborViews) :
    Flood G T p₀ ((net.take src dst index).apply dst r) := by
  apply h.delivered hneighbors hr.seen.mpr
  · exact fun hseen => .inl (hr.seen.mp hseen)
  · exact fun y p hp hp₀ => absurd hp₀ (hr.silent y p hp)
  · rw [seenBy_eq hr.seen]
    exact covers_of_other h.covers hpkt hkey

/-- A copy comes back to the origin. -/
lemma Flood.deliver_back (h : Flood G T p₀ net) (hpkt : (net.channel src dst)[index]? = some pkt)
    (hdst : dst = p₀.fromPeerId) (hr : r = ([], net.owners dst, net.routers dst)) :
    Flood G T p₀ ((net.take src dst index).apply dst r) := by
  have hseen : dedupKeyOf p₀ ∈ r.2.2.seenPacketIds.set ↔
      dst ∈ seenBy (dedupKeyOf p₀) net.routers := by
    rw [hr]
    rfl
  apply h.delivered (fun p => by rw [hr]) hseen.mpr (fun hkey => .inl (hseen.mp hkey))
  · rw [hr]
    exact fun y p hp => absurd hp List.not_mem_nil
  · rw [seenBy_eq hseen]
    exact covers_of_reached h.covers hpkt (hdst ▸ h.origin)

/-- A copy reaches another node. -/
lemma Flood.deliver_copy (h : Flood G T p₀ net) (hpkt : (net.channel src dst)[index]? = some pkt)
    (hpaths : PathsWithin G p₀.fromPeerId (p₀.ttl.toNat - 1))
    (hcopy : FloodCopy G p₀ (seenBy (dedupKeyOf p₀) net.routers) src dst pkt)
    (hroutes : SameRoutes (net.routers dst) r.2.2) (hseen : dedupKeyOf p₀ ∈ r.2.2.seenPacketIds.set)
    (howner : pkt ∈ r.1.filterMap packetForOwner) {pkt' : RoutedPacket}
    (hheader : SameHeader pkt pkt')
    (htransmit : ∀ next p, dedupKeyOf p = dedupKeyOf p₀ → (.transmit next p ∈ r.1 ↔
      dst ∉ seenBy (dedupKeyOf p₀) net.routers ∧ next ∈ (net.routers dst).neighborViews ∧
        next ≠ src ∧ next ≠ dst ∧ 0 < pkt.ttl - 1 ∧ p = { pkt' with ttl := pkt.ttl - 1 })) :
    Flood G T p₀ ((net.take src dst index).apply dst r) := by
  obtain ⟨hadj, hpkt₀, n, htrail, httl⟩ := hcopy
  have hnode : dst ∈ T := (h.mesh.links src dst hadj).2
  have hsame : SameHeader p₀ { pkt' with ttl := pkt.ttl - 1 } := (hpkt₀.trans hheader).withTtl _
  have hreached : seenBy (dedupKeyOf p₀) ((net.take src dst index).apply dst r).routers =
      insert dst (seenBy (dedupKeyOf p₀) net.routers) := seenBy_insert hseen
  apply h.delivered hroutes.mem (fun _ => hseen) (fun _ => .inr ⟨pkt, howner, hpkt₀.isCopy⟩)
  · intro y p hp hkey
    obtain ⟨hnew, hy, -, -, -, rfl⟩ := (htransmit y p hkey).mp hp
    obtain ⟨htrail', httl'⟩ := extend_trail hpaths htrail httl hadj hnew
    rw [hreached]
    exact ⟨(h.mesh.neighbors dst hnode y).mp hy, hsame, n + 1, htrail', httl'⟩
  · rw [hreached]
    apply h.covers.arrive (a := src)
    · rintro x y ⟨p, hp, hp₀⟩ hne
      exact ⟨p, mem_delivered.mpr (.inl (mem_take_of_ne hpkt hp fun heq => absurd heq hne)), hp₀⟩
    · intro hnew y hy hyS
      -- the first copy: what is left of its TTL is enough for one more link of its path
      obtain ⟨htrail', httl'⟩ := extend_trail hpaths htrail httl hadj hnew
      have hlt := htrail'.lt_bound hy (by simp [hyS, hy.ne']) hpaths
      have hback : y ≠ src := by
        rintro rfl
        exact hyS htrail.mem
      refine ⟨_, mem_delivered.mpr (.inr ⟨rfl, (htransmit y _ hsame.isCopy.key).mpr ?_⟩),
        hsame.isCopy.key⟩
      exact ⟨hnew, (h.mesh.neighbors dst hnode y).mpr hy, hback, hy.ne',
        pos_of_toNat (by omega), rfl⟩

end Delivered

/-! ## Runs -/

variable {cb : PeerId → OnPacketForMe ν}

/-- The copies that `send_packet` sends. -/
lemma mem_flood_send (hmesh : StaticMesh G T net.routers) (h : FreshBroadcast T p₀ net)
    {env : StepEnv} {x y : PeerId} {p : RoutedPacket} (hkey : dedupKeyOf p = dedupKeyOf p₀) :
    p ∈ (net.step cb env (.router p₀.fromPeerId (.sendPacket p₀))).channel x y ↔
      x = p₀.fromPeerId ∧ G.Adj x y ∧ 0 < p₀.ttl - 1 ∧ p = { p₀ with ttl := p₀.ttl - 1 } := by
  have hold : p ∉ net.channel x y := fun hp => h.fresh.unsent x y p hp hkey
  rw [send_eq (h.dest_ne hmesh), apply_eq]
  dsimp only
  rw [List.mem_append, or_iff_right hold]
  conv_lhs => rw [h.dest]
  by_cases hx : x = p₀.fromPeerId
  · rw [if_pos hx, mem_filterMap_packetTo, mem_forwardPacket_broadcast h.transport,
      hmesh.neighbors _ h.origin, hx]
    constructor
    · rintro ⟨-, hadj, -, -, hlive, hp⟩
      exact ⟨rfl, hadj, hlive, hp⟩
    · rintro ⟨-, hadj, hlive, hp⟩
      exact ⟨fun hdup => hdup.1 rfl, hadj, hadj.ne', hadj.ne', hlive, hp⟩
  · rw [if_neg hx]
    simp [hx]

/-- The call of `send_packet` at the origin. -/
lemma flood_send (hmesh : StaticMesh G T net.routers) (h : FreshBroadcast T p₀ net)
    (env : StepEnv) :
    Flood G T p₀ (net.step cb env (.router p₀.fromPeerId (.sendPacket p₀))) := by
  have hne := h.dest_ne hmesh
  have hpos : 0 < T.card := Finset.card_pos.mpr ⟨_, h.origin⟩
  have httl := h.ttl
  have hpred := toNat_pred (t := p₀.ttl) (by omega)
  have htrail : Trail G {p₀.fromPeerId} p₀.fromPeerId p₀.fromPeerId 0 := .nil (Set.mem_singleton _)
  have hheader : SameHeader p₀ { p₀ with ttl := p₀.ttl - 1 } := (SameHeader.refl p₀).withTtl _
  constructor
  · rw [send_eq hne, apply_eq]
    exact hmesh.update fun p => (SameRoutes.of_frame (forwardPacket_frame ..)).mem p
  · rw [send_seen h.fresh hne]
    exact Set.mem_singleton _
  · rw [send_seen h.fresh hne]
    exact fun v hv hvo => absurd hv hvo
  · intro x y p hp hkey
    obtain ⟨rfl, hadj, -, rfl⟩ := (mem_flood_send hmesh h hkey).mp hp
    rw [send_seen h.fresh hne]
    refine ⟨hadj, hheader, 0, htrail, ?_⟩
    dsimp only
    omega
  · rw [send_seen h.fresh hne]
    intro x hx y hadj
    obtain rfl : x = p₀.fromPeerId := hx
    have hlt := htrail.lt_bound hadj hadj.ne' (hmesh.pathsWithin h.origin h.ttl)
    exact .inr ⟨_, (mem_flood_send hmesh h hheader.isCopy.key).mpr
      ⟨rfl, hadj, pos_of_toNat (by omega), rfl⟩, hheader.isCopy.key⟩

lemma Flood.step (hcb : ∀ b, KeepsHeader (cb b)) (hdest : p₀.toPeerId = "")
    (hdata : p₀.type ≠ .routingUpdate) (hknown : p₀.transport = .tcp ∨ p₀.transport = .udp)
    (hpaths : PathsWithin G p₀.fromPeerId (p₀.ttl.toNat - 1)) (h : Flood G T p₀ net) {env : StepEnv}
    {event : NetworkEvent} (hevent : CarriesOther G (dedupKeyOf p₀) cb net env event) :
    Flood G T p₀ (net.step cb env event) := by
  rcases hevent.cases with hsame | ⟨src, dst, index, pkt, rfl, hadj, hpkt, hsent⟩
  · rw [hsame]
    exact h
  · rw [step_deliver_some hpkt]
    have hsrc : src ∈ (net.routers dst).neighborViews :=
      (h.mesh.neighbors dst (h.mesh.links src dst hadj).2 src).mpr hadj.symm
    by_cases hkey : dedupKeyOf pkt = dedupKeyOf p₀
    · have hcopy := h.inFlight src dst pkt (List.mem_of_getElem? hpkt) hkey
      by_cases hdst : dst = p₀.fromPeerId
      · refine h.deliver_back hpkt hdst (if_pos (.inr ?_))
        rw [hcopy.header.sender, hdst]
      · have hfrom : pkt.fromPeerId ≠ dst := by
          rw [hcopy.header.sender]
          exact Ne.symm hdst
        obtain ⟨hroutes, hseen, howner, pkt', hheader, htransmit⟩ :=
          handlePacket_broadcast (hcb dst)
          (h.mesh.ne_empty hadj) hadj.ne hfrom (hcopy.header.type ▸ hdata)
          (hcopy.header.dest.trans hdest)
          (hcopy.header.transport ▸ hknown) (hkey ▸ hsent)
        rw [hkey] at hseen htransmit
        exact h.deliver_copy hpkt hpaths hcopy hroutes hseen howner hheader htransmit
    · exact h.deliver_other hpkt hkey (handlePacket_other (hcb dst) (fun _ => hkey) hsent)
        (handlePacket_neighbors (cb dst) dst env _ hsrc pkt)

lemma flood_run (hcb : ∀ b, KeepsHeader (cb b)) (hmesh : StaticMesh G T net.routers)
    (h : FreshBroadcast T p₀ net) (env : StepEnv) {net' : Network ν}
    (hrun : Relation.ReflTransGen (Network.Moves cb (CarriesOther G (dedupKeyOf p₀) cb))
      (net.step cb env (.router p₀.fromPeerId (.sendPacket p₀))) net') : Flood G T p₀ net' := by
  induction hrun with
  | refl => exact flood_send hmesh h env
  | tail _ hmove ih =>
    obtain ⟨env', event, hevent, rfl⟩ := hmove
    exact ih.step hcb h.dest h.data h.transport (hmesh.pathsWithin h.origin h.ttl) hevent

/-- When no copy of a broadcast is on its way any more, every node other than its origin has handled
it. -/
theorem broadcast_covers (cb : PeerId → OnPacketForMe ν) (hcb : ∀ b, KeepsHeader (cb b))
    (G : SimpleGraph PeerId) (T : Finset PeerId) (net₀ : Network ν)
    (hmesh : StaticMesh G T net₀.routers) (p₀ : RoutedPacket) (hfresh : FreshBroadcast T p₀ net₀)
    (env : StepEnv) (net : Network ν)
    (hrun : Relation.ReflTransGen (Network.Moves cb (CarriesOther G (dedupKeyOf p₀) cb))
      (net₀.step cb env (.router p₀.fromPeerId (.sendPacket p₀))) net)
    (hquiet : ∀ x y, ∀ p ∈ net.channel x y, ¬IsCopy p₀ p) (v : PeerId) (hv : v ∈ T)
    (hvo : v ≠ p₀.fromPeerId) :
    ∃ p ∈ net.handled v, IsCopy p₀ p := by
  have hflood := flood_run hcb hmesh hfresh env hrun
  refine hflood.handled v ?_ hvo
  refine hflood.covers.reachable_mem ?_ hflood.origin (hmesh.connected _ hfresh.origin v hv)
  rintro x y ⟨p, hp, hkey⟩
  exact hquiet x y p hp (hflood.inFlight x y p hp hkey).header.isCopy

end Steps

/-! ## A text to all nodes of a line -/

lemma lineRouters_mesh : StaticMesh lineGraph {"a", "b", "c"} lineRouters := by
  have hab : lineGraph.Reachable "a" "b" := lineGraph_ab.reachable
  have hac : lineGraph.Reachable "a" "c" := hab.trans lineGraph_bc.reachable
  have hstart : ∀ x ∈ ({"a", "b", "c"} : Finset PeerId), lineGraph.Reachable "a" x := by
    intro x hx
    rcases (by simpa using hx : x = "a" ∨ x = "b" ∨ x = "c") with rfl | rfl | rfl
    · exact .rfl
    · exact hab
    · exact hac
  refine ⟨by decide, fun x y hadj => ?_, fun x hx y hy => (hstart x hx).symm.trans (hstart y hy),
    fun b _ p => ?_⟩
  · rcases lineGraph_adj.mp hadj with ⟨rfl, rfl⟩ | ⟨rfl, rfl⟩ | ⟨rfl, rfl⟩ | ⟨rfl, rfl⟩ <;> decide
  · exact lineRouters_neighbors b p

def textToAll : RoutedPacket := makeTextRoutedPacket [7] "a" "" 3 "hello"

lemma textToAll_fresh : FreshBroadcast {"a", "b", "c"} textToAll (plainNodes lineRouters) where
  origin := by decide
  dest := rfl
  data := by decide
  transport := .inl rfl
  ttl := by decide
  fresh := by
    refine ⟨fun b => ?_, fun _ _ _ hp => absurd hp List.not_mem_nil⟩
    change _ ∉ (lineRouters b).seenPacketIds.set
    rw [lineRouters_unseen]
    exact Finset.notMem_empty _

def textSent : Network NodeState :=
  (plainNodes lineRouters).step (fun _ => onPacketForMe openLibraries) (plainEnv 0)
    (.router "a" (.sendPacket textToAll))

def textAtB : Network NodeState :=
  textSent.step (fun _ => onPacketForMe openLibraries) (plainEnv 0) (.deliver "a" "b" 0)

def textEnd : Network NodeState :=
  textAtB.step (fun _ => onPacketForMe openLibraries) (plainEnv 0) (.deliver "b" "c" 0)

lemma textEnd_run :
    Relation.ReflTransGen (Network.Moves (fun _ => onPacketForMe openLibraries)
      (CarriesOther lineGraph (dedupKeyOf textToAll) fun _ => onPacketForMe openLibraries)) textSent
        textEnd := by
  have hsent : (textSent.channel "a" "b")[0]? = some { textToAll with ttl := 2 } := by decide
  have hatB : (textAtB.channel "b" "c")[0]? = some { textToAll with ttl := 1 } := by decide
  refine .head ⟨plainEnv 0, .deliver "a" "b" 0, ⟨lineGraph_ab, fun pkt hpkt => ?_⟩, rfl⟩
    (.single ⟨plainEnv 0, .deliver "b" "c" 0, ⟨lineGraph_bc, fun pkt hpkt => ?_⟩, rfl⟩)
  · obtain rfl := Option.some.inj (hsent.symm.trans hpkt)
    decide
  · obtain rfl := Option.some.inj (hatB.symm.trans hpkt)
    decide

theorem broadcast_covers_line :
    StaticMesh lineGraph {"a", "b", "c"} lineRouters ∧
      FreshBroadcast {"a", "b", "c"} textToAll (plainNodes lineRouters) ∧
        ∃ p ∈ textEnd.handled "c", IsCopy textToAll p := by
  have hflood := flood_run (fun _ => onPacketForMe_keepsHeader openLibraries) lineRouters_mesh
    textToAll_fresh (plainEnv 0)
    textEnd_run
  refine ⟨lineRouters_mesh, textToAll_fresh, broadcast_covers (fun _ => onPacketForMe openLibraries)
    (fun _ => onPacketForMe_keepsHeader openLibraries) lineGraph {"a", "b", "c"}
    (plainNodes lineRouters) lineRouters_mesh
    textToAll textToAll_fresh (plainEnv 0) textEnd textEnd_run ?_ "c" (by decide) (by decide)⟩
  intro x y p hp hcopy
  rcases lineGraph_adj.mp (hflood.inFlight x y p hp hcopy.key).adj with ⟨rfl, rfl⟩ | ⟨rfl, rfl⟩ |
    ⟨rfl, rfl⟩ | ⟨rfl, rfl⟩
  · have hnone : textEnd.channel "a" "b" = [] := by decide
    exact absurd (hnone ▸ hp) List.not_mem_nil
  · have hnone : textEnd.channel "b" "a" = [] := by decide
    exact absurd (hnone ▸ hp) List.not_mem_nil
  · have hnone : textEnd.channel "b" "c" = [] := by decide
    exact absurd (hnone ▸ hp) List.not_mem_nil
  · have hnone : textEnd.channel "c" "b" = [] := by decide
    exact absurd (hnone ▸ hp) List.not_mem_nil

end MeshNetwork.Proofs
