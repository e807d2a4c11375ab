import MeshNetwork.Library.Lists
import MeshNetwork.Proofs.Relaying

/-!
# The way of a unicast packet

A packet for one node goes from next hop to next hop, each one link closer to its destination, and
loses one of its TTL on each link. In every state of a run its only copy is on its way, or it has
landed: at its destination, or at the relay where its TTL has run out.
-/

namespace MeshNetwork.Proofs

variable {ν : Type}

/-! ## Copies on their way -/

section Copies

variable {key : DedupKey} {net : Network ν} {src dst : PeerId} {index : Nat} {pkt : RoutedPacket}
  {r : List RouterOutput × ν × RouterState}

/-- The packets on the way from `x` to `y` that have the id `key`. -/
def copiesOn (key : DedupKey) (net : Network ν) (x y : PeerId) : List RoutedPacket :=
  (net.channel x y).filter fun p => dedupKeyOf p = key

/-- One packet `p` on the way from `x` to `y`, and none elsewhere. -/
def onlyOn (x y : PeerId) (p : RoutedPacket) (x' y' : PeerId) : List RoutedPacket :=
  if x' = x ∧ y' = y then [p] else []

lemma mem_copiesOn {x y : PeerId} {p : RoutedPacket} :
    p ∈ copiesOn key net x y ↔ p ∈ net.channel x y ∧ dedupKeyOf p = key := by
  simp [copiesOn]

/-- Another packet is taken out of its channel. -/
lemma copiesOn_take_other (hpkt : (net.channel src dst)[index]? = some pkt)
    (hkey : dedupKeyOf pkt ≠ key) (x y : PeerId) :
    copiesOn key (net.take src dst index) x y = copiesOn key net x y := by
  unfold copiesOn Network.take
  dsimp only
  split_ifs with hxy
  · obtain ⟨rfl, rfl⟩ := hxy
    obtain ⟨before, after, hl, herase⟩ := List.eraseIdx_split hpkt
    rw [herase, hl, List.filter_append, List.filter_append,
      List.filter_cons_of_neg (by simp [hkey])]
  · rfl

/-- The only copy is taken out of its channel. -/
lemma copiesOn_take_copy {x y : PeerId} {p : RoutedPacket} (honly : copiesOn key net = onlyOn x y p)
    (hpkt : (net.channel src dst)[index]? = some pkt) (hkey : dedupKeyOf pkt = key) :
    src = x ∧ dst = y ∧ pkt = p ∧ ∀ x' y', copiesOn key (net.take src dst index) x' y' = [] := by
  have hmem : pkt ∈ onlyOn x y p src dst := by
    rw [← honly]
    exact mem_copiesOn.mpr ⟨List.mem_of_getElem? hpkt, hkey⟩
  unfold onlyOn at hmem
  split_ifs at hmem with hxy
  · obtain ⟨rfl, rfl⟩ := hxy
    refine ⟨rfl, rfl, List.mem_singleton.mp hmem, fun x' y' => ?_⟩
    have hold := congrFun (congrFun honly x') y'
    unfold onlyOn at hold
    unfold copiesOn Network.take at *
    dsimp only at *
    split_ifs at hold ⊢ with hxy
    · obtain ⟨rfl, rfl⟩ := hxy
      obtain ⟨before, after, hl, herase⟩ := List.eraseIdx_split hpkt
      rw [hl, List.filter_append, List.filter_cons_of_pos (by simp [hkey])] at hold
      have hlength := congrArg List.length hold
      rw [List.length_append, List.length_cons, List.length_singleton] at hlength
      rw [herase, List.filter_append, ← List.length_eq_zero_iff, List.length_append]
      omega
    · exact hold
  · exact absurd hmem List.not_mem_nil

lemma copiesOn_apply (x y : PeerId) :
    copiesOn key (net.apply dst r) x y =
      copiesOn key net x y ++ if x = dst then (r.1.filterMap (packetTo y)).filter fun p =>
        dedupKeyOf p = key else [] := by
  unfold copiesOn
  rw [apply_eq]
  dsimp only
  rw [List.filter_append]
  split_ifs <;> rfl

/-- No copy is sent. -/
lemma copiesOn_apply_silent (hsilent : ∀ next p, .transmit next p ∈ r.1 → dedupKeyOf p ≠ key)
    (x y : PeerId) :
    copiesOn key (net.apply dst r) x y = copiesOn key net x y := by
  rw [copiesOn_apply]
  split_ifs
  · have hnone : ((r.1.filterMap (packetTo y)).filter fun p => dedupKeyOf p = key) = [] := by
      rw [List.filter_eq_nil_iff]
      intro p hp
      simpa using hsilent y p (mem_filterMap_packetTo.mp hp)
    rw [hnone, List.append_nil]
  · rw [List.append_nil]

/-- One copy is sent. -/
lemma copiesOn_apply_single {hop : PeerId} {p : RoutedPacket} (hr : r.1 = [.transmit hop p])
    (hkey : dedupKeyOf p = key) (hnone : ∀ x y, copiesOn key net x y = []) :
    copiesOn key (net.apply dst r) = onlyOn dst hop p := by
  funext x y
  rw [copiesOn_apply, hnone, List.nil_append, hr]
  unfold onlyOn
  by_cases hx : x = dst
  · by_cases hy : y = hop
    · simp [hx, hy, packetTo, hkey]
    · simp [hx, hy, packetTo]
  · simp [hx]

end Copies

/-! ## Exact tables -/

/-- The live entries of all routers are exact: their cost is the distance and their next hop is one
link closer. Every destination within 15 links has one. -/
structure ExactTables (G : SimpleGraph PeerId) (routers : PeerId → RouterState) : Prop where
  exact : ∀ b dest e, (routers b).forwardingTable.lookup dest = some e → e.cost < infCost →
    e.cost.toNat = G.dist b dest ∧ (b ≠ dest → G.Adj b e.nextHop ∧
      G.dist e.nextHop dest + 1 = G.dist b dest)
  complete : ∀ b dest, G.Reachable b dest → G.dist b dest < 16 →
    ∃ e, (routers b).forwardingTable.lookup dest = some e ∧ e.cost < infCost

section Tables

variable {G : SimpleGraph PeerId} {routers : PeerId → RouterState}

lemma ExactTables.update (h : ExactTables G routers) {b : PeerId} {s : RouterState}
    (hsame : SameRoutes (routers b) s) : ExactTables G (Function.update routers b s) := by
  have hrouter := fun x => hsame.update x
  constructor
  · intro x dest e' he' hlive
    obtain ⟨e, he, hcost, hhop⟩ := (hrouter x).entry dest e' he'
    rw [hcost] at hlive ⊢
    rw [hhop]
    exact h.exact x dest e he hlive
  · intro x dest hreach hdist
    obtain ⟨e, he, hlive⟩ := h.complete x dest hreach hdist
    obtain ⟨e', he', hcost, -⟩ := (hrouter x).kept dest e he (lt_infCost_iff.mp hlive)
    exact ⟨e', he', hcost ▸ hlive⟩

lemma ExactTables.nextHop (h : ExactTables G routers) {b dest : PeerId}
    (hreach : G.Reachable b dest) (hdist : G.dist b dest < 16) (hne : b ≠ dest) :
    ∃ hop, NextHop (routers b) dest hop ∧ G.Adj b hop ∧ G.dist hop dest + 1 = G.dist b dest := by
  obtain ⟨e, he, hlive⟩ := h.complete b dest hreach hdist
  exact ⟨e.nextHop, ⟨e, he, hlive, rfl⟩, (h.exact b dest e he hlive).2 hne⟩

end Tables

/-! ## The way of a packet -/

/-- A data packet of one node for another. -/
structure Unicast (G : SimpleGraph PeerId) (p₀ : RoutedPacket) : Prop where
  named : p₀.toPeerId ≠ ""
  data : p₀.type ≠ .routingUpdate
  transport : p₀.transport = .tcp ∨ p₀.transport = .udp
  near : G.dist p₀.fromPeerId p₀.toPeerId < 16

/-- The only copy of `p₀` is `p`, on its way from `x` to `y`, and it has come straight from its
origin. -/
structure Flying (G : SimpleGraph PeerId) (p₀ : RoutedPacket) (net : Network ν) (x y : PeerId)
    (p : RoutedPacket) :
    Prop where
  copies : copiesOn (dedupKeyOf p₀) net = onlyOn x y p
  header : SameHeader p₀ p
  adj : G.Adj x y
  closer : G.dist y p₀.toPeerId + 1 = G.dist x p₀.toPeerId
  within : G.dist x p₀.toPeerId ≤ G.dist p₀.fromPeerId p₀.toPeerId
  reachable : G.Reachable y p₀.toPeerId
  ttl : G.dist y p₀.toPeerId + p₀.ttl.toNat = p.ttl.toNat + G.dist p₀.fromPeerId p₀.toPeerId
  alive : 0 < p.ttl.toNat
  unseen : ∀ b ∈ seenBy (dedupKeyOf p₀) net.routers, G.dist y p₀.toPeerId < G.dist b p₀.toPeerId
  unhandled : ∀ q ∈ net.handled p₀.toPeerId, ¬IsCopy p₀ q

/-- No copy of `p₀` is left, and its destination has handled one exactly if the TTL was larger than
the distance. -/
structure Landed (G : SimpleGraph PeerId) (p₀ : RoutedPacket) (net : Network ν) : Prop where
  copies : ∀ x y, copiesOn (dedupKeyOf p₀) net x y = []
  outcome : (∃ q ∈ net.handled p₀.toPeerId, IsCopy p₀ q) ↔
    G.dist p₀.fromPeerId p₀.toPeerId < p₀.ttl.toNat

def Journey (G : SimpleGraph PeerId) (p₀ : RoutedPacket) (net : Network ν) : Prop :=
  Landed G p₀ net ∨ ∃ x y p, Flying G p₀ net x y p

section Steps

variable {G : SimpleGraph PeerId} {p₀ : RoutedPacket} {net : Network ν} {src dst : PeerId}
  {index : Nat}
  {pkt : RoutedPacket} {r : List RouterOutput × ν × RouterState}

/-- A packet with another id leaves the copy where it is. -/
lemma Journey.deliver_other (h : Journey G p₀ net) (hpkt : (net.channel src dst)[index]? = some pkt)
    (hkey : dedupKeyOf pkt ≠ dedupKeyOf p₀) (hr : Unaffected (dedupKeyOf p₀) (net.routers dst) r)
    (howner : ∀ q ∈ r.1.filterMap packetForOwner, q = pkt) :
    Journey G p₀ ((net.take src dst index).apply dst r) := by
  have hcopies : copiesOn (dedupKeyOf p₀) ((net.take src dst index).apply dst r) =
      copiesOn (dedupKeyOf p₀) net := by
    funext x y
    rw [copiesOn_apply_silent hr.silent, copiesOn_take_other hpkt hkey]
  have hhandled : ∀ q ∈ ((net.take src dst index).apply dst r).handled p₀.toPeerId, IsCopy p₀ q →
      q ∈ net.handled p₀.toPeerId := by
    intro q hq hcopy
    rcases mem_handled_delivered.mp hq with hold | ⟨-, hnew⟩
    · exact hold
    · rw [howner q hnew] at hcopy
      exact absurd hcopy.key hkey
  rcases h with hlanded | ⟨x, y, p, hflying⟩
  · refine .inl ⟨fun x y => (congrFun (congrFun hcopies x) y).trans (hlanded.copies x y), ?_⟩
    rw [← hlanded.outcome]
    constructor
    · rintro ⟨q, hq, hcopy⟩
      exact ⟨q, hhandled q hq hcopy, hcopy⟩
    · rintro ⟨q, hq, hcopy⟩
      exact ⟨q, mem_handled_delivered.mpr (.inl hq), hcopy⟩
  · refine .inr
      ⟨x, y, p,
        { hflying with copies := hcopies.trans hflying.copies, unseen := ?_, unhandled := ?_ }⟩
    · rw [seenBy_eq hr.seen]
      exact hflying.unseen
    · exact fun q hq hcopy => hflying.unhandled q (hhandled q hq hcopy) hcopy

/-- The copy reaches its destination, which calls its owner and sends it no further. -/
lemma Flying.deliver_dest {x : PeerId} {p : RoutedPacket} (h : Flying G p₀ net x p₀.toPeerId p)
    (hnone : ∀ x' y', copiesOn (dedupKeyOf p₀) (net.take x p₀.toPeerId index) x' y' = [])
    (hr : Unaffected (dedupKeyOf p₀) (net.routers p₀.toPeerId) r)
    (howner : p ∈ r.1.filterMap packetForOwner) :
    Landed G p₀ ((net.take x p₀.toPeerId index).apply p₀.toPeerId r) := by
  constructor
  · intro x' y'
    rw [copiesOn_apply_silent hr.silent, hnone]
  · have httl := h.ttl
    have halive := h.alive
    rw [SimpleGraph.dist_self] at httl
    exact iff_of_true ⟨p, mem_handled_delivered.mpr (.inr ⟨rfl, howner⟩), h.header.isCopy⟩
      (by omega)

/-- The copy reaches a relay, which sends it on with one hop less or drops it. -/
lemma Flying.deliver_relay {x y hop : PeerId} {p : RoutedPacket} (h : Flying G p₀ net x y p)
    (hy : y ≠ p₀.toPeerId)
    (hnone : ∀ x' y', copiesOn (dedupKeyOf p₀) (net.take x y index) x' y' = []) (hhop : G.Adj y hop)
    (hcloser : G.dist hop p₀.toPeerId + 1 = G.dist y p₀.toPeerId)
    (hsent : r.1 = if 0 < p.ttl - 1 then [.transmit hop { p with ttl := p.ttl - 1 }] else [])
    (hseen : dedupKeyOf p₀ ∈ r.2.2.seenPacketIds.set) :
    Landed G p₀ ((net.take x y index).apply y r) ∧ G.dist p₀.fromPeerId p₀.toPeerId ≥ p₀.ttl.toNat ∨
      Flying G p₀ ((net.take x y index).apply y r) y hop { p with ttl := p.ttl - 1 } := by
  have httl := h.ttl
  have halive := h.alive
  have hpred := toNat_pred (t := p.ttl) (by omega)
  have hunhandled : ∀ q ∈ ((net.take x y index).apply y r).handled p₀.toPeerId, ¬IsCopy p₀ q := by
    intro q hq
    rcases mem_handled_delivered.mp hq with hold | ⟨hdest, -⟩
    · exact h.unhandled q hold
    · exact absurd hdest.symm hy
  by_cases hlive : 0 < p.ttl - 1
  · rw [if_pos hlive] at hsent
    right
    have hwithin := h.within
    have hstep := h.closer
    have hlive' : 0 < (p.ttl - 1).toNat := UInt32.lt_iff_toNat_lt.mp hlive
    exact {
      copies := copiesOn_apply_single hsent (h.header.withTtl _).isCopy.key hnone
      header := h.header.withTtl _
      adj := hhop
      closer := hcloser
      within := by omega
      reachable := hhop.symm.reachable.trans h.reachable
      ttl := by
        dsimp only
        omega
      alive := hlive'
      unseen := by
        rw [seenBy_insert hseen]
        rintro b (rfl | hb)
        · omega
        · have hb' := h.unseen b hb
          omega
      unhandled := hunhandled }
  · rw [if_neg hlive] at hsent
    left
    have hdead : (p.ttl - 1).toNat = 0 := by
      by_contra hpos
      exact hlive (pos_of_toNat (by omega))
    have hfar : G.dist p₀.fromPeerId p₀.toPeerId ≥ p₀.ttl.toNat := by omega
    refine ⟨⟨fun x' y' => ?_, iff_of_false ?_ (by omega)⟩, hfar⟩
    · rw [copiesOn_apply_silent (by simp [hsent]), hnone]
    · rintro ⟨q, hq, hcopy⟩
      exact hunhandled q hq hcopy

/-- What happens to the copy at a relay. -/
lemma Flying.relays {x y : PeerId} {p : RoutedPacket} (hunicast : Unicast G p₀)
    (hexact : ExactTables G net.routers) (h : Flying G p₀ net x y p)
    (hpkt : (net.channel x y)[index]? = some p) (hy : y ≠ p₀.toPeerId)
    (cb : PeerId → OnPacketForMe ν) (env : StepEnv) :
    (Landed G p₀ (net.step cb env (.deliver x y index)) ∧
      G.dist p₀.fromPeerId p₀.toPeerId ≥ p₀.ttl.toNat ∨
      ∃ hop, Flying G p₀ (net.step cb env (.deliver x y index)) y hop { p with ttl := p.ttl - 1 }) ∧
    ExactTables G (net.step cb env (.deliver x y index)).routers := by
  have hcloser := h.closer
  have hwithin := h.within
  have hnear := hunicast.near
  have hdest : p.toPeerId = p₀.toPeerId := h.header.dest
  obtain ⟨hop, hroute, hhop, hhopCloser⟩ := hexact.nextHop h.reachable (by omega) hy
  have hfrom : p.fromPeerId ≠ y := by
    rw [h.header.sender]
    rintro rfl
    omega
  have hback : hop ≠ x := by
    rintro rfl
    omega
  have hunseen : dedupKeyOf p ∉ (net.routers y).seenPacketIds.set := by
    rw [h.header.isCopy.key]
    exact fun hseen => absurd (h.unseen y hseen) (by omega)
  rw [← hdest] at hroute
  obtain ⟨hsent, -, hroutes, hseen⟩ := handlePacket_unicast (cb y) env (net.owners y) h.adj.ne hfrom
    (h.header.type ▸ hunicast.data) (hdest ▸ hunicast.named) (by rw [hdest]; exact hy.symm)
    (h.header.transport ▸ hunicast.transport) hroute hhop.ne' hback
  rw [step_deliver_some hpkt]
  have hnone := (copiesOn_take_copy h.copies hpkt h.header.isCopy.key).2.2.2
  constructor
  · refine (h.deliver_relay hy hnone hhop hhopCloser ?_ ?_).imp_right fun hflying => ⟨hop, hflying⟩
    · rw [hsent]
      exact if_congr (and_iff_right hunseen) rfl rfl
    · rw [hseen]
      exact .inl h.header.isCopy.key.symm
  · rw [apply_eq]
    exact hexact.update hroutes

/-- The copy is delivered. -/
lemma Flying.deliver (hunicast : Unicast G p₀) (hexact : ExactTables G net.routers)
    {p : RoutedPacket} (h : Flying G p₀ net src dst p)
    (hpkt : (net.channel src dst)[index]? = some p) {cb : PeerId → OnPacketForMe ν}
    (hcb : KeepsHeader (cb dst)) {env : StepEnv}
    (hsent : ∀ q ∈ ownerSends (cb dst) dst env (net.owners dst) (net.routers dst) src p,
      dedupKeyOf q ≠ dedupKeyOf p₀) :
    Journey G p₀ (net.step cb env (.deliver src dst index)) := by
  by_cases hdst : dst = p₀.toPeerId
  · subst hdst
    have hclose := h.closer
    have hwithin := h.within
    have hnone := (copiesOn_take_copy h.copies hpkt h.header.isCopy.key).2.2.2
    have hfrom : p.fromPeerId ≠ p₀.toPeerId := by
      rw [h.header.sender]
      intro heq
      rw [heq, SimpleGraph.dist_self] at hwithin
      omega
    rw [step_deliver_some hpkt]
    refine .inl (h.deliver_dest hnone (handlePacket_other hcb (fun hne => ?_) hsent) ?_)
    · exact absurd h.header.dest hne
    · rw [handlePacket_data h.adj.ne hfrom (h.header.type ▸ hunicast.data), routeDataPacket_owner,
        if_pos ⟨.inr h.header.dest, hfrom⟩]
      exact List.mem_singleton_self p
  · rcases (h.relays hunicast hexact hpkt hdst cb env).1 with ⟨hlanded, -⟩ | ⟨hop, hnext⟩
    · exact .inl hlanded
    · exact .inr ⟨dst, hop, _, hnext⟩

/-- One delivery. -/
lemma Journey.step (hunicast : Unicast G p₀) {cb : PeerId → OnPacketForMe ν}
    (hcb : ∀ b, KeepsHeader (cb b)) (h : Journey G p₀ net) {env : StepEnv} {event : NetworkEvent}
    (hexact : ExactTables G net.routers)
    (hevent : CarriesOther G (dedupKeyOf p₀) cb net env event) :
    Journey G p₀ (net.step cb env event) := by
  rcases hevent.cases with hsame | ⟨src, dst, index, pkt, rfl, -, hpkt, hsent⟩
  · rw [hsame]
    exact h
  · by_cases hkey : dedupKeyOf pkt = dedupKeyOf p₀
    · rcases h with hlanded | ⟨x, y, p, hflying⟩
      · have hmem : pkt ∈ copiesOn (dedupKeyOf p₀) net src dst :=
          mem_copiesOn.mpr ⟨List.mem_of_getElem? hpkt, hkey⟩
        rw [hlanded.copies] at hmem
        exact absurd hmem List.not_mem_nil
      · obtain ⟨rfl, rfl, rfl, -⟩ := copiesOn_take_copy hflying.copies hpkt hkey
        exact hflying.deliver hunicast hexact hpkt (hcb dst) hsent
    · rw [step_deliver_some hpkt]
      exact h.deliver_other hpkt hkey (handlePacket_other (hcb dst) (fun _ => hkey) hsent)
        fun q hq => handlePacket_owner hq

/-! ## Runs -/

variable {cb : PeerId → OnPacketForMe ν} {env : StepEnv}

lemma copiesOn_fresh (hfresh : FreshId (dedupKeyOf p₀) net) (x y : PeerId) :
    copiesOn (dedupKeyOf p₀) net x y = [] := by
  rw [List.eq_nil_iff_forall_not_mem]
  intro p hp
  obtain ⟨hmem, hkey⟩ := mem_copiesOn.mp hp
  exact hfresh.unsent x y p hmem hkey

variable (cb env) in
/-- A packet to the node itself, or for a protocol that is not known, is not sent. -/
lemma send_dropped (hfresh : FreshId (dedupKeyOf p₀) net) {hop : PeerId} (hnamed : p₀.toPeerId ≠ "")
    (hroute : NextHop (net.routers p₀.fromPeerId) p₀.toPeerId hop)
    (hhop : p₀.toPeerId ≠ p₀.fromPeerId →
      hop ≠ p₀.fromPeerId)
    (hdrop : p₀.toPeerId = p₀.fromPeerId ∨ ¬(p₀.transport = .tcp ∨ p₀.transport = .udp))
    (x y : PeerId) :
    copiesOn (dedupKeyOf p₀) (net.step cb env (.router p₀.fromPeerId (.sendPacket p₀))) x
      y = [] := by
  rw [← copiesOn_fresh hfresh x y]
  by_cases hself : p₀.toPeerId = p₀.fromPeerId
  · refine copiesOn_apply_silent (fun next p hp => absurd hp ?_) x y
    simp [RouterState.step, RouterState.routeDataPacket, hself]
  · rw [send_eq hself]
    refine copiesOn_apply_silent (fun next p hp => absurd hp ?_) x y
    dsimp only
    rw [forwardPacket_unicast hnamed hroute (hhop hself) (hhop hself),
      if_neg fun h => hdrop.resolve_left hself h.2.2]
    exact List.not_mem_nil

variable (cb env) in
/-- The origin sends the packet to the first hop. -/
lemma send_flies (hunicast : Unicast G p₀) (hexact : ExactTables G net.routers)
    (hfresh : FreshId (dedupKeyOf p₀) net)
    (hunhandled : ∀ q ∈ net.handled p₀.toPeerId, ¬IsCopy p₀ q) (hne : p₀.toPeerId ≠ p₀.fromPeerId)
    (hreach : G.Reachable p₀.fromPeerId p₀.toPeerId) (httl : 1 < p₀.ttl.toNat) :
    ∃ hop, Flying G p₀ (net.step cb env (.router p₀.fromPeerId (.sendPacket p₀))) p₀.fromPeerId hop
        { p₀ with ttl := p₀.ttl - 1 } ∧
      ExactTables G (net.step cb env (.router p₀.fromPeerId (.sendPacket p₀))).routers := by
  obtain ⟨hop, hroute, hhop, hcloser⟩ := hexact.nextHop hreach hunicast.near hne.symm
  have hpred := toNat_pred (t := p₀.ttl) (by omega)
  have hlive : 0 < p₀.ttl - 1 := pos_of_toNat (by omega)
  have hheader : SameHeader p₀ { p₀ with ttl := p₀.ttl - 1 } := (SameHeader.refl p₀).withTtl _
  refine ⟨hop, ?_, ?_⟩
  · exact {
      copies := by
        rw [send_eq hne]
        refine copiesOn_apply_single ?_ hheader.isCopy.key (copiesOn_fresh hfresh)
        dsimp only
        rw [forwardPacket_unicast hunicast.named hroute hhop.ne' hhop.ne']
        exact if_pos ⟨fun h => h.1 rfl, hlive, hunicast.transport⟩
      header := hheader
      adj := hhop
      closer := hcloser
      within := le_rfl
      reachable := hhop.symm.reachable.trans hreach
      ttl := by
        dsimp only
        omega
      alive := by
        dsimp only
        omega
      unseen := by
        rw [send_seen hfresh hne]
        rintro b rfl
        omega
      unhandled := by
        intro q hq
        rw [send_handled] at hq
        exact hunhandled q hq }
  · rw [send_eq hne, apply_eq]
    exact hexact.update (.of_frame (forwardPacket_frame ..))

/-- Packets are delivered over links while the tables are exact, and none with the id `key` is
sent. -/
def StaticDelivery (G : SimpleGraph PeerId) (key : DedupKey) (cb : PeerId → OnPacketForMe ν)
    (net : Network ν) (env : StepEnv) (event : NetworkEvent) : Prop :=
  ExactTables G net.routers ∧ CarriesOther G key cb net env event

lemma Journey.run (hunicast : Unicast G p₀) (hcb : ∀ b, KeepsHeader (cb b)) {net' : Network ν}
    (hrun : Relation.ReflTransGen (Network.Moves cb (StaticDelivery G (dedupKeyOf p₀) cb)) net net')
    (h : Journey G p₀ net) : Journey G p₀ net' := by
  induction hrun with
  | refl => exact h
  | tail _ hmove ih =>
    obtain ⟨env, event, ⟨hexact, hevent⟩, rfl⟩ := hmove
    exact ih.step hunicast hcb hexact hevent

/-- The TTL of a packet that has too far to go runs out at a relay. -/
lemma Flying.runs_out (hunicast : Unicast G p₀)
    (hfar : p₀.ttl.toNat ≤ G.dist p₀.fromPeerId p₀.toPeerId) {x y : PeerId} {p : RoutedPacket}
    (h : Flying G p₀ net x y p) (hexact : ExactTables G net.routers) :
    ∃ net', Relation.ReflTransGen (Network.Moves cb (StaticDelivery G (dedupKeyOf p₀) cb))
      net net' ∧ Landed G p₀ net' := by
  -- each delivery of the copy takes one of its TTL
  induction hn : p.ttl.toNat generalizing net x y p with
  | zero => exact absurd h.alive (by omega)
  | succ n ih =>
    have httl := h.ttl
    have hy : y ≠ p₀.toPeerId := by
      rintro rfl
      rw [SimpleGraph.dist_self] at httl
      omega
    have hmem : p ∈ copiesOn (dedupKeyOf p₀) net x y := by
      rw [h.copies]
      simp [onlyOn]
    obtain ⟨index, hpkt⟩ := List.getElem?_of_mem (mem_copiesOn.mp hmem).1
    have hmove : Network.Moves cb (StaticDelivery G (dedupKeyOf p₀) cb) net
        (net.step cb (plainEnv 0) (.deliver x y index)) := by
      refine ⟨plainEnv 0, .deliver x y index, ⟨hexact, h.adj, fun pkt hother q hq => ?_⟩, rfl⟩
      obtain rfl : p = pkt := Option.some.inj (hpkt.symm.trans hother)
      have hnotHere : ¬(p.toPeerId = "" ∨ p.toPeerId = y) := by
        rw [h.header.dest]
        exact not_or.mpr ⟨hunicast.named, hy.symm⟩
      simp [ownerSends, hnotHere] at hq
    obtain ⟨hnext, hexact'⟩ := h.relays hunicast hexact hpkt hy cb (plainEnv 0)
    rcases hnext with ⟨hlanded, -⟩ | ⟨hop, hflying⟩
    · exact ⟨_, .single hmove, hlanded⟩
    · have hpred := toNat_pred (t := p.ttl) (by omega)
      obtain ⟨net', hrun, hlanded⟩ := ih hflying hexact' (by dsimp only; omega)
      exact ⟨net', .head hmove hrun, hlanded⟩

lemma Landed.quiet (h : Landed G p₀ net) (x y : PeerId) : ∀ p ∈ net.channel x y, ¬IsCopy p₀ p := by
  intro p hp hcopy
  have hmem : p ∈ copiesOn (dedupKeyOf p₀) net x y := mem_copiesOn.mpr ⟨hp, hcopy.key⟩
  rw [h.copies] at hmem
  exact List.not_mem_nil hmem

lemma Journey.landed (h : Journey G p₀ net) (hquiet : ∀ x y, ∀ p ∈ net.channel x y, ¬IsCopy p₀ p) :
    Landed G p₀ net := by
  rcases h with hlanded | ⟨x, y, p, hflying⟩
  · exact hlanded
  · have hmem : p ∈ copiesOn (dedupKeyOf p₀) net x y := by
      rw [hflying.copies]
      simp [onlyOn]
    exact absurd hflying.header.isCopy (hquiet x y p (mem_copiesOn.mp hmem).1)

/-! ## Arrival -/

/-- A data packet with a fresh id, for which its origin has the live entry `e`. -/
structure Routable (G : SimpleGraph PeerId) (p₀ : RoutedPacket) (net : Network ν)
    (e : RouteEntry) : Prop where
  tables : ExactTables G net.routers
  named : p₀.toPeerId ≠ ""
  data : p₀.type ≠ .routingUpdate
  entry : (net.routers p₀.fromPeerId).forwardingTable.lookup p₀.toPeerId = some e
  live : e.cost < infCost
  ttl : 1 < p₀.ttl.toNat
  fresh : FreshId (dedupKeyOf p₀) net
  unhandled : ∀ q ∈ net.handled p₀.toPeerId, ¬IsCopy p₀ q

/-- The route has at least one link and fewer than the TTL of the packet, and its protocol is
known. -/
def InReach (p₀ : RoutedPacket) (e : RouteEntry) : Prop :=
  0 < e.cost ∧ e.cost < p₀.ttl ∧ (p₀.transport = .tcp ∨ p₀.transport = .udp)

section Arrival

variable {e : RouteEntry}

lemma Routable.dist_eq (h : Routable G p₀ net e) :
    G.dist p₀.fromPeerId p₀.toPeerId = e.cost.toNat :=
  (h.tables.exact _ _ e h.entry h.live).1.symm

lemma Routable.unicast (h : Routable G p₀ net e)
    (hknown : p₀.transport = .tcp ∨ p₀.transport = .udp) :
    Unicast G p₀ := by
  refine ⟨h.named, h.data, hknown, ?_⟩
  rw [h.dist_eq]
  exact lt_infCost_iff.mp h.live

lemma Routable.flies (h : Routable G p₀ net e) (hknown : p₀.transport = .tcp ∨ p₀.transport = .udp)
    (hpos : 0 < e.cost.toNat) (cb : PeerId → OnPacketForMe ν) (env : StepEnv) :
    ∃ hop, Flying G p₀ (net.step cb env (.router p₀.fromPeerId (.sendPacket p₀))) p₀.fromPeerId hop
        { p₀ with ttl := p₀.ttl - 1 } ∧
      ExactTables G (net.step cb env (.router p₀.fromPeerId (.sendPacket p₀))).routers := by
  have hdist := h.dist_eq
  have hne : p₀.toPeerId ≠ p₀.fromPeerId := by
    intro heq
    rw [heq, SimpleGraph.dist_self] at hdist
    omega
  have hreach : G.Reachable p₀.fromPeerId p₀.toPeerId :=
    SimpleGraph.Reachable.of_dist_ne_zero (by omega)
  exact send_flies cb env (h.unicast hknown) h.tables h.fresh h.unhandled hne hreach h.ttl

/-- A packet in reach has been handled when no copy is on its way any more. -/
lemma Routable.arrives (h : Routable G p₀ net e) (hreach : InReach p₀ e)
    (hcb : ∀ b, KeepsHeader (cb b)) (env : StepEnv) {net' : Network ν}
    (hrun : Relation.ReflTransGen (Network.Moves cb (StaticDelivery G (dedupKeyOf p₀) cb))
      (net.step cb env (.router p₀.fromPeerId (.sendPacket p₀))) net')
    (hquiet : ∀ x y, ∀ p ∈ net'.channel x y, ¬IsCopy p₀ p) :
    ∃ p ∈ net'.handled p₀.toPeerId, IsCopy p₀ p := by
  obtain ⟨hpos, hshort, hknown⟩ := hreach
  obtain ⟨hop, hflying, -⟩ := h.flies hknown (UInt32.lt_iff_toNat_lt.mp hpos) cb env
  have hjourney : Journey G p₀ net' :=
    Journey.run (h.unicast hknown) hcb hrun (.inr ⟨_, hop, _, hflying⟩)
  refine (hjourney.landed hquiet).outcome.mpr ?_
  rw [h.dist_eq]
  exact UInt32.lt_iff_toNat_lt.mp hshort

/-- A packet that is not in reach is not sent at all, or its TTL runs out. -/
lemma Routable.lost (h : Routable G p₀ net e) (hreach : ¬InReach p₀ e)
    (cb : PeerId → OnPacketForMe ν) (env : StepEnv) :
    ∃ net', Relation.ReflTransGen (Network.Moves cb (StaticDelivery G (dedupKeyOf p₀) cb))
        (net.step cb env (.router p₀.fromPeerId (.sendPacket p₀))) net' ∧
      (∀ x y, ∀ p ∈ net'.channel x y, ¬IsCopy p₀ p) ∧ ∀ p ∈ net'.handled p₀.toPeerId, ¬IsCopy
        p₀ p := by
  obtain ⟨hcost, hhop⟩ := h.tables.exact _ _ e h.entry h.live
  by_cases hdrop : p₀.toPeerId = p₀.fromPeerId ∨ ¬(p₀.transport = .tcp ∨ p₀.transport = .udp)
  · have hnone := fun x y => send_dropped cb env h.fresh h.named ⟨e, h.entry, h.live, rfl⟩
      (fun hne => (hhop hne.symm).1.ne') hdrop x y
    refine ⟨_, .refl, fun x y p hp hcopy => ?_, fun p hp => ?_⟩
    · have hmem := mem_copiesOn.mpr ⟨hp, hcopy.key⟩
      rw [hnone] at hmem
      exact List.not_mem_nil hmem
    · rw [send_handled] at hp
      exact h.unhandled p hp
  · rw [not_or, not_not] at hdrop
    obtain ⟨hne, hknown⟩ := hdrop
    have hcloser := (hhop (Ne.symm hne)).2
    have hfar : p₀.ttl.toNat ≤ G.dist p₀.fromPeerId p₀.toPeerId := by
      by_contra hlt
      refine hreach ⟨pos_of_toNat (by omega), UInt32.lt_iff_toNat_lt.mpr ?_, hknown⟩
      omega
    obtain ⟨hop, hflying, htables⟩ := h.flies hknown (by omega) cb env
    obtain ⟨net', hrun, hlanded⟩ := hflying.runs_out (h.unicast hknown) hfar htables
    refine ⟨net', hrun, hlanded.quiet, fun p hp hcopy => ?_⟩
    have hnear := hlanded.outcome.mp ⟨p, hp, hcopy⟩
    omega

end Arrival

end Steps

end MeshNetwork.Proofs
