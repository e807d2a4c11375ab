import MeshNetwork.Library.AsyncDistanceVector
import MeshNetwork.Proofs.NetworkStep
import MeshNetwork.Proofs.RoutingUpdate

/-!
# Loop freedom while links are added

A network in which links are only added and routing updates stay in order is a distance-vector
protocol over FIFO channels: every event of the network is a sequence of its steps.
-/

namespace MeshNetwork.Proofs

open DistanceVector

variable {ν : Type}

/-! ## The protocol that a network runs -/

/-- What a routing update says of `d`. -/
def advertised (pkt : RoutedPacket) (d : PeerId) : Option Signal :=
  (pkt.routeTable.lookup d).map fun c => if c ≥ infCost then none else some c.toNat

def asyncState (net : Network ν) : AsyncState PeerId where
  linked b n := n ∈ (net.routers b).neighborViews
  view b n d :=
    (((net.routers b).neighborViews.lookup n).getD {}).advertisedRoutes.lookup d |>.map UInt32.toNat
  table b d := liveRoute (net.routers b) d
  channel n b := (net.channel n b).map advertised

/-- Events of a network in which links are only added and deliver in order. -/
inductive AddsLinks : NetworkEvent → Prop
  | peerConnected {node peerId : PeerId} (h : peerId ≠ node) :
      AddsLinks (.router node (.peerConnected peerId))
  | sendTriggeredUpdates (node : PeerId) : AddsLinks (.sendTriggeredUpdates node)
  | broadcastFullTable (node : PeerId) : AddsLinks (.broadcastFullTable node)
  | deliver (src dst : PeerId) : AddsLinks (.deliver src dst 0)

structure Growing (net : Network ν) : Prop where
  agrees : ∀ b, TableAgrees b (net.routers b)
  own : ∀ b, liveRoute (net.routers b) b = some (0, b)
  irrefl : ∀ b, b ∉ (net.routers b).neighborViews
  carried : ∀ n b, ∀ pkt ∈ net.channel n b, pkt.type = .routingUpdate ∧ pkt.fromPeerId = n ∧ n ≠ b

lemma offers_iff_candidate {net : Network ν} {b d n : PeerId} {c : Nat} :
    (asyncState net).Offers b d n c ↔ Candidate (net.routers b).neighborViews d n c := by
  unfold AsyncState.Offers Candidate
  refine or_congr Iff.rfl ⟨?_, ?_⟩
  · rintro ⟨v, hview, rfl⟩
    obtain ⟨r, hr, rfl⟩ := Option.map_eq_some_iff.mp hview
    exact ⟨r, stored_iff_getD.mpr hr, rfl⟩
  · rintro ⟨r, hr, rfl⟩
    exact ⟨r.toNat, Option.map_eq_some_iff.mpr ⟨r, stored_iff_getD.mp hr, rfl⟩, rfl⟩

/-- A forwarding table that agrees with its views is settled. -/
lemma TableAgrees.settled {net : Network ν} {b : PeerId} (h : TableAgrees b (net.routers b))
    (hown : liveRoute (net.routers b) b = some (0, b)) : (asyncState net).Settled 16 b := by
  constructor
  · exact hown
  · intro d hd c n hlive
    obtain ⟨e, he, hlt, rfl, rfl⟩ := liveRoute_eq_some.mp hlive
    have hbest := h.live d hd e he hlt
    refine ⟨offers_iff_candidate.mpr hbest.candidate, fun n' c' hoffer => ?_, hlt⟩
    exact hbest.least n' c' (offers_iff_candidate.mp hoffer)
  · intro d hd n c hoffer hlt
    obtain ⟨e, he, hlive⟩ := h.complete d hd n c (offers_iff_candidate.mp hoffer) hlt
    exact ⟨e.cost.toNat, e.nextHop, liveRoute_eq_some.mpr ⟨e, he, hlive, rfl, rfl⟩⟩

lemma liveRoute_recalculate_self {self : PeerId} (env : StepEnv) (now : Time) {s : RouterState}
    (h : self ∉ s.neighborViews) :
    liveRoute (s.recalculateForwardingTable self env now) self = some (0, self) := by
  obtain ⟨e, he, hcost, hhop⟩ :=
    mergedEntry_some now ⟨self, 0, false, now⟩ (s.forwardingTable.lookup self)
  refine liveRoute_eq_some.mpr ⟨e, ?_, ?_, ?_, hhop⟩
  · rw [lookup_recalculate, lookup_computeTable_self, if_neg h]
    exact he
  · simp [hcost]
  · simp [hcost]

lemma create_growing (now : PeerId → Time) (owners : PeerId → ν) :
    Growing (Network.create now owners) := by
  refine ⟨fun b => create_agrees b (now b), fun b => ?_, fun b => List.not_mem_nil,
    fun n b pkt h => ?_⟩
  · refine liveRoute_eq_some.mpr ⟨⟨b, 0, false, 0⟩, ?_, ?_, rfl, rfl⟩
    · exact (UMap.lookup_singleton_eq b b _).trans (if_pos rfl)
    · simp
  · cases h

/-- New routers have been told nothing. -/
lemma create_consistent (now : PeerId → Time) (owners : PeerId → ν) :
    (asyncState (Network.create now owners)).Consistent 16 := by
  have hgrow := create_growing now owners
  have hsignals : ∀ b n d, (asyncState (Network.create now owners)).signals b n d = [] :=
    fun _ _ _ => rfl
  constructor
  · intro b
    exact (hgrow.agrees b).settled (hgrow.own b)
  · intro b n d v hv
    rw [hsignals] at hv
    cases hv
  · intro b n d
    rw [hsignals]
    exact List.Pairwise.nil

/-! ## Sending -/

lemma told_of_entry {net : Network ν} {n b d : PeerId} {e : RouteEntry}
    (he : (net.routers n).forwardingTable.lookup d = some e) :
    (asyncState net).told n b d =
      if (if e.nextHop = b then infCost else e.cost) ≥ infCost then none
      else some (if e.nextHop = b then infCost else e.cost).toNat := by
  by_cases hlt : e.cost.toNat < 16
  · rw [AsyncState.told_of_some (liveRoute_eq_some.mpr ⟨e, he, hlt, rfl, rfl⟩)]
    by_cases hhop : e.nextHop = b
    · simp [hhop]
    · simp [hhop, ge_infCost_iff, hlt]
  · have hnone : liveRoute (net.routers n) d = none := by
      rw [Option.eq_none_iff_forall_ne_some]
      rintro ⟨c, h⟩ hlive
      obtain ⟨e', he', hlt', -⟩ := liveRoute_eq_some.mp hlive
      rw [he] at he'
      cases he'
      exact hlt hlt'
    rw [AsyncState.told_of_none hnone]
    by_cases hhop : e.nextHop = b
    · simp [hhop]
    · simp [hhop, ge_infCost_iff, not_lt.mp hlt]

lemma Truthful.signal {net : Network ν} {n b : PeerId} {pkt : RoutedPacket}
    (h : Truthful (net.routers n) b pkt.routeTable) {d : PeerId} {sig : Signal}
    (hsig : advertised pkt d = some sig) : sig = (asyncState net).told n b d := by
  obtain ⟨c, hc, rfl⟩ := Option.map_eq_some_iff.mp hsig
  obtain ⟨e, he, rfl⟩ := h d c hc
  rw [told_of_entry he]

/-- A routing update that the table of `node` backs, for one of its neighbours. -/
def CarriesRoutes (s : RouterState) (node : PeerId) (o : RouterOutput) : Prop :=
  ∃ p pkt, o = .transmit p pkt ∧ pkt.type = .routingUpdate ∧ pkt.fromPeerId = node ∧
    p ∈ s.neighborViews ∧ Truthful s p pkt.routeTable

lemma routingPackets_carry {s : RouterState} (node : PeerId) (env : StepEnv) (first : Nat)
    (ttl : UInt32) {updates : List (PeerId × RouteTable)}
    (h : ∀ u ∈ updates, u.1 ∈ s.neighborViews ∧ Truthful s u.1 u.2) :
    ∀ o ∈ routingPackets node env first ttl updates, CarriesRoutes s node o := by
  intro o ho
  obtain ⟨u, hu, rfl⟩ := List.mem_map.mp ho
  obtain ⟨i, hi, heq⟩ := List.getElem_of_mem hu
  rw [List.getElem_zipIdx] at heq
  have hmem : u.1 ∈ updates := by
    rw [← heq]
    exact List.getElem_mem _
  exact ⟨u.1.1, _, rfl, rfl, rfl, (h u.1 hmem).1, (h u.1 hmem).2⟩

lemma asyncState_transmit (net : Network ν) (node p : PeerId) (pkt : RoutedPacket) :
    asyncState (net.emit node (.transmit p pkt)) =
      { asyncState net with channel := fun x y =>
          if x = node ∧ y = p then (asyncState net).channel x y ++ [advertised pkt]
          else (asyncState net).channel x y } := by
  unfold asyncState Network.emit
  congr 1
  funext x y
  dsimp only
  split_ifs
  · rw [List.map_append, List.map_singleton]
  · rfl

/-- Routing updates that enter the channels are sends of the protocol. -/
lemma emit_sends (node : PeerId) {outs : List RouterOutput} {net : Network ν} (hgrow : Growing net)
    (h : ∀ o ∈ outs, CarriesRoutes (net.routers node) node o) :
    Growing (outs.foldl (Network.emit node) net) ∧
      Relation.ReflTransGen (AsyncState.Step 16) (asyncState net)
        (asyncState (outs.foldl (Network.emit node) net)) := by
  induction outs generalizing net with
  | nil => exact ⟨hgrow, .refl⟩
  | cons o outs ih =>
    obtain ⟨p, pkt, rfl, htype, hfrom, hp, htruth⟩ := h o List.mem_cons_self
    have hgrow' : Growing (net.emit node (.transmit p pkt)) := by
      refine ⟨hgrow.agrees, hgrow.own, hgrow.irrefl, fun n b pkt' hpkt' => ?_⟩
      dsimp only [Network.emit] at hpkt'
      split_ifs at hpkt' with hnb
      · obtain ⟨rfl, rfl⟩ := hnb
        rcases List.mem_append.mp hpkt' with hold | hnew
        · exact hgrow.carried _ _ pkt' hold
        · rw [List.mem_singleton.mp hnew]
          refine ⟨htype, hfrom, ?_⟩
          rintro rfl
          exact hgrow.irrefl _ hp
      · exact hgrow.carried n b pkt' hpkt'
    obtain ⟨hgrow₂, hsteps⟩ := ih hgrow' fun o' ho' => h o' (List.mem_cons_of_mem _ ho')
    refine ⟨hgrow₂, .head ?_ hsteps⟩
    rw [asyncState_transmit]
    exact .send node p (advertised pkt) fun d sig hsig => htruth.signal hsig

/-! ## Receiving -/

lemma asyncState_congr {net net' : Network ν}
    (hviews : ∀ b, (net'.routers b).neighborViews = (net.routers b).neighborViews)
    (hlive : ∀ b d, liveRoute (net'.routers b) d = liveRoute (net.routers b) d)
    (hchannel : net'.channel = net.channel) : asyncState net' = asyncState net := by
  unfold asyncState
  simp only [hviews, hlive, hchannel]

lemma SameRoutes.liveRoute_eq {s s' : RouterState} (h : SameRoutes s s') (d : PeerId) :
    liveRoute s' d = liveRoute s d := by
  apply Option.ext
  rintro ⟨c, n⟩
  rw [liveRoute_eq_some, liveRoute_eq_some]
  constructor
  · rintro ⟨e', he', hlt, rfl, rfl⟩
    obtain ⟨e, he, hcost, hhop⟩ := h.entry d e' he'
    exact ⟨e, he, by rw [← hcost]; exact hlt, by rw [hcost], hhop.symm⟩
  · rintro ⟨e, he, hlt, rfl, rfl⟩
    obtain ⟨e', he', hcost, hhop⟩ := h.kept d e he hlt
    exact ⟨e', he', by rw [hcost]; exact hlt, by rw [hcost], hhop⟩

/-- Node `b` replaces its view of `n`. -/
lemma hears_of_view {net net' : Network ν} {b n : PeerId} {s' : RouterState} {view : NeighborView}
    {msg : PeerId → Option Signal} (hrouters : net'.routers = Function.update net.routers b s')
    (hviews : ∀ m, s'.neighborViews.lookup m =
      if m = n then some view else (net.routers b).neighborViews.lookup m)
    (hroutes : ∀ d, (view.advertisedRoutes.lookup d).map UInt32.toNat =
      AsyncState.heard ((asyncState net).view b n d) (msg d))
    (hagrees : TableAgrees b s') (hown : liveRoute s' b = some (0, b)) :
    AsyncState.Hears 16 (asyncState net) (asyncState net') b n msg := by
  have hself : net'.routers b = s' := by rw [hrouters, Function.update_self]
  have hother : ∀ x, x ≠ b → net'.routers x = net.routers x := by
    intro x hx
    rw [hrouters, Function.update_of_ne hx]
  constructor
  · intro x y
    change y ∈ (net'.routers x).neighborViews ↔ y ∈ (net.routers x).neighborViews ∨ _
    by_cases hx : x = b
    · subst hx
      rw [hself, UMap.mem_iff_lookup, UMap.mem_iff_lookup, hviews]
      by_cases hy : y = n
      · simp [hy]
      · simp [hy]
    · rw [hother x hx]
      simp [hx]
  · intro x y d
    by_cases hx : x = b
    · subst hx
      by_cases hy : y = n
      · subst hy
        rw [if_pos ⟨rfl, rfl⟩, ← hroutes]
        change ((((net'.routers x).neighborViews.lookup y).getD {}).advertisedRoutes.lookup
          d).map _ = _
        rw [hself, hviews, if_pos rfl]
        rfl
      · rw [if_neg fun hand => hy hand.2]
        change ((((net'.routers x).neighborViews.lookup y).getD {}).advertisedRoutes.lookup
          d).map _ = _
        rw [hself, hviews, if_neg hy]
        rfl
    · rw [if_neg fun hand => hx hand.1]
      change ((((net'.routers x).neighborViews.lookup y).getD {}).advertisedRoutes.lookup
        d).map _ = _
      rw [hother x hx]
      rfl
  · intro x hx
    change (fun d => liveRoute (net'.routers x) d) = fun d => liveRoute (net.routers x) d
    rw [hother x hx]
  · apply TableAgrees.settled
    · rw [hself]
      exact hagrees
    · rw [hself]
      exact hown

lemma Growing.update {net net' : Network ν} {b : PeerId} {s' : RouterState} (h : Growing net)
    (hrouters : net'.routers = Function.update net.routers b s')
    (hchannel : ∀ n m, net'.channel n m ⊆ net.channel n m)
    (hagrees : TableAgrees b s') (hown : liveRoute s' b = some (0, b))
    (hirrefl : b ∉ s'.neighborViews) :
    Growing net' := by
  have hcase : ∀ (P : PeerId → RouterState → Prop), P b s' → (∀ x, P x (net.routers x)) →
      ∀ x, P x (net'.routers x) := by
    intro P hb hrest x
    rw [hrouters]
    by_cases hx : x = b
    · subst hx
      rw [Function.update_self]
      exact hb
    · rw [Function.update_of_ne hx]
      exact hrest x
  exact ⟨hcase TableAgrees hagrees h.agrees, hcase (fun x s => liveRoute s x = some (0, x))
    hown h.own, hcase (fun x s => x ∉ s.neighborViews) hirrefl h.irrefl,
    fun n m pkt hpkt => h.carried n m pkt (hchannel n m hpkt)⟩

lemma connect_simulates (cb : PeerId → OnPacketForMe ν) (env : StepEnv) {net : Network ν}
    (h : Growing net) {b n : PeerId} (hne : n ≠ b) :
    Growing (net.step cb env (.router b (.peerConnected n))) ∧
      AsyncState.Step 16 (asyncState net) (asyncState
        (net.step cb env (.router b (.peerConnected n)))) := by
  have hviews : ((net.routers b).peerConnected b env n).neighborViews =
      (net.routers b).neighborViews.insert n
        { ((net.routers b).neighborViews.lookup n).getD {} with lastHeardFrom := env.clock 0 } :=
    recalculate_views ..
  have hagrees : TableAgrees b ((net.routers b).peerConnected b env n) :=
    step_agrees (cb b) b env (net.owners b) (h.agrees b) (.peerConnected n)
  have hirrefl : b ∉ ((net.routers b).peerConnected b env n).neighborViews := by
    rw [hviews, AList.mem_insert]
    rintro (rfl | hb)
    · exact hne rfl
    · exact h.irrefl b hb
  have hown : liveRoute ((net.routers b).peerConnected b env n) b = some (0, b) := by
    apply liveRoute_recalculate_self
    rw [hviews] at hirrefl
    exact hirrefl
  have hlookup : ∀ m, ((net.routers b).peerConnected b env n).neighborViews.lookup m =
      if m = n then some
        { ((net.routers b).neighborViews.lookup n).getD {} with lastHeardFrom := env.clock 0 }
      else (net.routers b).neighborViews.lookup m := by
    intro m
    rw [hviews, UMap.lookup_insert_eq]
  exact ⟨h.update rfl (fun _ _ => List.Subset.refl _) hagrees hown hirrefl,
    .link b n (hears_of_view rfl hlookup (fun d => rfl) hagrees hown) rfl⟩

/-- The router `b` once it has taken in the update `table` of `n`. -/
def afterUpdate (env : StepEnv) (s : RouterState) (b n : PeerId)
    (table : RouteTable) : RouterState :=
  (s.heardFrom n (env.clock 0)).processRoutingUpdate b env n table

lemma handlePacket_update (cb : OnPacketForMe ν) (env : StepEnv) (owner : ν) (s : RouterState)
    {b n : PeerId} {pkt : RoutedPacket} (hne : n ≠ b) (hfrom : pkt.fromPeerId = n)
    (htype : pkt.type = .routingUpdate) :
    s.handlePacket cb b env owner n pkt = ([], owner, afterUpdate env s b n pkt.routeTable) := by
  unfold RouterState.handlePacket
  rw [if_neg, if_pos htype]
  · rfl
  · rintro (heq | heq)
    · exact hne heq
    · exact hne (hfrom.symm.trans heq)

lemma lookup_heardFrom_of_ne (s : RouterState) {n m : PeerId} (hm : m ≠ n) (now : Time) :
    (s.heardFrom n now).neighborViews.lookup m = s.neighborViews.lookup m := by
  unfold RouterState.heardFrom
  cases s.neighborViews.lookup n with
  | none => rfl
  | some view => exact AList.lookup_insert_ne hm

lemma heardFrom_routes (s : RouterState) (n : PeerId) (now : Time) :
    (((s.heardFrom n now).neighborViews.lookup n).getD {}).advertisedRoutes =
      ((s.neighborViews.lookup n).getD {}).advertisedRoutes := by
  unfold RouterState.heardFrom
  cases hn : s.neighborViews.lookup n with
  | none => simp only [hn]
  | some view => simp only [AList.lookup_insert, Option.getD_some]

lemma lookup_afterUpdate (env : StepEnv) (s : RouterState) (b n : PeerId) (table : RouteTable)
    (m : PeerId) :
    (afterUpdate env s b n table).neighborViews.lookup m =
      if m = n then
        some (updatedView env (((s.heardFrom n (env.clock 0)).neighborViews.lookup n).getD
          {}) table)
      else s.neighborViews.lookup m := by
  unfold afterUpdate
  rw [processRoutingUpdate_views, UMap.lookup_insert_eq]
  split_ifs with hm
  · rfl
  · exact lookup_heardFrom_of_ne s hm _

/-- The receiver stores what it is told. -/
lemma updatedView_heard (env : StepEnv) {net : Network ν} {b n : PeerId} {view : NeighborView}
    (hview : view.advertisedRoutes = (((net.routers b).neighborViews.lookup n).getD
      {}).advertisedRoutes) (pkt : RoutedPacket) (d : PeerId) :
    ((updatedView env view pkt.routeTable).advertisedRoutes.lookup d).map UInt32.toNat =
      AsyncState.heard ((asyncState net).view b n d) (advertised pkt d) := by
  rw [lookup_updatedView, hview]
  unfold advertised
  cases pkt.routeTable.lookup d with
  | none => rfl
  | some c =>
    dsimp only [Option.elim_some, Option.map_some, AsyncState.heard]
    split_ifs
    · rfl
    · rfl

lemma deliver_simulates (cb : PeerId → OnPacketForMe ν) (env : StepEnv) {net : Network ν}
    (h : Growing net) {n b : PeerId} {pkt : RoutedPacket} {rest : List RoutedPacket}
    (hhead : net.channel n b = pkt :: rest) :
    Growing (net.step cb env (.deliver n b 0)) ∧
      AsyncState.Step 16 (asyncState net) (asyncState (net.step cb env (.deliver n b 0))) := by
  obtain ⟨htype, hfrom, hne⟩ := h.carried n b pkt (by rw [hhead]; exact List.mem_cons_self)
  have hstep : net.step cb env (.deliver n b 0) =
      (net.take n b 0).apply b ([], net.owners b,
        afterUpdate env (net.routers b) b n pkt.routeTable) := by
    simp only [Network.step, hhead, List.getElem?_cons_zero]
    rw [handlePacket_update (cb b) env (net.owners b) (net.routers b) hne hfrom htype]
  have hagrees : TableAgrees b (afterUpdate env (net.routers b) b n pkt.routeTable) :=
    processRoutingUpdate_agrees b env ((h.agrees b).of_same (heardFrom_same _ _ _)) n _
  have hirrefl : b ∉ (afterUpdate env (net.routers b) b n pkt.routeTable).neighborViews := by
    intro hb
    obtain ⟨view, hview⟩ := (UMap.mem_iff_lookup _ _).mp hb
    rw [lookup_afterUpdate, if_neg hne.symm] at hview
    exact h.irrefl b ((UMap.mem_iff_lookup _ _).mpr ⟨view, hview⟩)
  have hown : liveRoute (afterUpdate env (net.routers b) b n pkt.routeTable) b = some (0, b) := by
    apply liveRoute_recalculate_self
    unfold afterUpdate at hirrefl
    rw [processRoutingUpdate_views] at hirrefl
    exact hirrefl
  have hchannel : ∀ x y, (net.step cb env (.deliver n b 0)).channel x y =
      if x = n ∧ y = b then rest else net.channel x y := by
    intro x y
    rw [hstep]
    dsimp only [Network.apply, Network.take, List.foldl_nil]
    split_ifs with hxy
    · rw [hxy.1, hxy.2, hhead]
      rfl
    · rfl
  have hrouters : (net.step cb env (.deliver n b 0)).routers =
      Function.update net.routers b (afterUpdate env (net.routers b) b n pkt.routeTable) := by
    rw [hstep]
    rfl
  constructor
  · refine h.update hrouters (fun x y => ?_) hagrees hown hirrefl
    rw [hchannel]
    split_ifs with hxy
    · rw [hxy.1, hxy.2, hhead]
      exact List.subset_cons_self pkt rest
    · exact List.Subset.refl _
  · refine .deliver n b (advertised pkt) (rest.map advertised) ?_ ?_ fun x y => ?_
    · change (net.channel n b).map advertised = _
      rw [hhead]
      rfl
    · exact hears_of_view hrouters (lookup_afterUpdate env _ b n _)
        (updatedView_heard env (heardFrom_routes _ _ _) pkt) hagrees hown
    · change ((net.step cb env (.deliver n b 0)).channel x y).map advertised = _
      rw [hchannel]
      split_ifs
      · rfl
      · rfl

lemma triggered_simulates (cb : PeerId → OnPacketForMe ν) (env : StepEnv) {net : Network ν}
    (h : Growing net) (b : PeerId) : Growing (net.step cb env (.sendTriggeredUpdates b)) ∧
      Relation.ReflTransGen (AsyncState.Step 16) (asyncState net)
        (asyncState (net.step cb env (.sendTriggeredUpdates b))) := by
  have hsame := sendTriggeredUpdates_same env.order (net.routers b)
  have hviews : ((net.routers b).sendTriggeredUpdates env.order).2.neighborViews =
      (net.routers b).neighborViews := by rw [sendTriggeredUpdates_state]
  -- clearing the dirty flags changes nothing that the protocol sees
  generalize hnet₁ : ({ net with
    routers := Function.update net.routers b ((net.routers b).sendTriggeredUpdates env.order).2
    owners := Function.update net.owners b (net.owners b) } : Network ν) = net₁
  have hrouters : net₁.routers = Function.update net.routers b ((net.routers b).sendTriggeredUpdates
      env.order).2 := by
    rw [← hnet₁]
  have hchannel : net₁.channel = net.channel := by
    rw [← hnet₁]
  have hgrow : Growing net₁ := by
    refine h.update hrouters (fun x y => ?_) ((h.agrees b).of_same hsame) ?_ ?_
    · rw [hchannel]
      exact List.Subset.refl _
    · rw [hsame.liveRoute_eq]
      exact h.own b
    · rw [hviews]
      exact h.irrefl b
  have heq : asyncState net₁ = asyncState net := by
    refine asyncState_congr (fun x => ?_) (fun x d => ?_) hchannel
    · rw [hrouters]
      by_cases hx : x = b
      · rw [hx, Function.update_self, hviews]
      · rw [Function.update_of_ne hx]
    · rw [hrouters]
      by_cases hx : x = b
      · rw [hx, Function.update_self, hsame.liveRoute_eq]
      · rw [Function.update_of_ne hx]
  have hb : net₁.routers b = ((net.routers b).sendTriggeredUpdates env.order).2 := by
    rw [hrouters, Function.update_self]
  have hsends := emit_sends b hgrow (routingPackets_carry b env 0 defaultTtl fun u hu => by
    rw [hb, hviews]
    exact sendTriggeredUpdates_truthful env.order (net.routers b) u hu)
  rw [heq, ← hnet₁] at hsends
  exact hsends

/-- Every event of a growing network is a sequence of steps of the protocol. -/
theorem step_simulates (cb : PeerId → OnPacketForMe ν) (env : StepEnv) {net : Network ν}
    (h : Growing net) {event : NetworkEvent} (hevent : AddsLinks event) :
    Growing (net.step cb env event) ∧
      Relation.ReflTransGen (AsyncState.Step 16) (asyncState net)
        (asyncState (net.step cb env event)) := by
  cases hevent with
  | peerConnected hne =>
    obtain ⟨hgrow, hstep⟩ := connect_simulates cb env h hne
    exact ⟨hgrow, .single hstep⟩
  | sendTriggeredUpdates b => exact triggered_simulates cb env h b
  | broadcastFullTable b =>
    have hstep : net.step cb env (.broadcastFullTable b) = (routingPackets b env 0 15
        ((net.routers b).broadcastFullTable env.order)).foldl (Network.emit b) net := by
      simp only [Network.step, Network.apply, Function.update_eq_self]
    rw [hstep]
    exact emit_sends b h (routingPackets_carry b env 0 15
      (broadcastFullTable_truthful env.order (net.routers b)))
  | deliver n b =>
    cases hhead : net.channel n b with
    | nil =>
      have hstep : net.step cb env (.deliver n b 0) = net := by
        simp only [Network.step, hhead, List.getElem?_nil]
      rw [hstep]
      exact ⟨h, .refl⟩
    | cons pkt rest =>
      obtain ⟨hgrow, hstep⟩ := deliver_simulates cb env h hhead
      exact ⟨hgrow, .single hstep⟩

/-! ## Runs -/

/-- One event of a network that only gains links. -/
abbrev Grows (cb : PeerId → OnPacketForMe ν) (net net' : Network ν) : Prop :=
  Network.Moves cb (fun _ _ event => AddsLinks event) net net'

lemma grows_simulates {cb : PeerId → OnPacketForMe ν} {net net' : Network ν}
    (hrun : Relation.ReflTransGen (Grows cb) net net') (h : Growing net) :
    Growing net' ∧ Relation.ReflTransGen (AsyncState.Step 16) (asyncState net)
      (asyncState net') := by
  induction hrun with
  | refl => exact ⟨h, .refl⟩
  | tail _ hlast ih =>
    obtain ⟨env, event, hevent, rfl⟩ := hlast
    obtain ⟨hgrow, hsteps⟩ := ih
    obtain ⟨hgrow', hsteps'⟩ := step_simulates cb env hgrow hevent
    exact ⟨hgrow', hsteps.trans hsteps'⟩

lemma costLe_iff {net : Network ν} {b d : PeerId} {u : Nat} :
    (asyncState net).CostLe b d u ↔
      ∃ e, (net.routers b).forwardingTable.lookup d = some e ∧ e.cost < infCost ∧
        e.cost.toNat ≤ u := by
  constructor
  · rintro ⟨c, h, hlive, hle⟩
    obtain ⟨e, he, hlt, rfl, rfl⟩ := liveRoute_eq_some.mp hlive
    exact ⟨e, he, lt_infCost_iff.mpr hlt, hle⟩
  · rintro ⟨e, he, hlt, hle⟩
    exact ⟨_, _, liveRoute_eq_some.mpr ⟨e, he, lt_infCost_iff.mp hlt, rfl, rfl⟩, hle⟩

/-- While links are only added, live costs never rise, every next hop is closer to the destination
and the next hops lead to it without a cycle. -/
theorem growing_loopFree (cb : PeerId → OnPacketForMe ν) (now : PeerId → Time) (owners : PeerId → ν)
    (net : Network ν) (hrun : Relation.ReflTransGen (Grows cb) (Network.create now owners) net) :
    (∀ net', Relation.ReflTransGen (Grows cb) net net' → ∀ b d e,
      (net.routers b).forwardingTable.lookup d = some e → e.cost < infCost →
      ∃ e', (net'.routers b).forwardingTable.lookup d = some e' ∧ e'.cost ≤ e.cost) ∧
    (∀ b d e, d ≠ b → (net.routers b).forwardingTable.lookup d = some e → e.cost < infCost →
      (∃ e', (net.routers e.nextHop).forwardingTable.lookup d = some e' ∧ e'.cost < infCost ∧
        e'.cost.toNat ≤ e.cost.toNat - 1) ∧
      ∃ k, k ≤ e.cost.toNat ∧ Reaches (fun b d => liveRoute (net.routers b) d) d k b) ∧
    (∀ d b, ¬Relation.TransGen (Hop (fun b d => liveRoute (net.routers b) d) d) b b) := by
  obtain ⟨hgrow, hsteps⟩ := grows_simulates hrun (create_growing now owners)
  obtain ⟨hcons, -⟩ := AsyncState.steps_consistent hsteps (create_consistent now owners)
  have hdescends : ∀ d, Descends (fun b d => liveRoute (net.routers b) d) d :=
    fun d b c n hd hlive => hcons.closer hd hlive
  refine ⟨fun net' hrun' b d e he hlt => ?_, fun b d e hd he hlt => ?_,
    fun d => (hdescends d).acyclic⟩
  · obtain ⟨-, hsteps'⟩ := grows_simulates hrun' hgrow
    obtain ⟨-, himproves⟩ := AsyncState.steps_consistent hsteps' hcons
    obtain ⟨e', he', -, hle⟩ :=
      costLe_iff.mp (himproves b d e.cost.toNat (costLe_iff.mpr ⟨e, he, hlt, le_rfl⟩))
    exact ⟨e', he', UInt32.le_iff_toNat_le.mpr hle⟩
  · have hlive := liveRoute_eq_some.mpr ⟨e, he, lt_infCost_iff.mp hlt, rfl, rfl⟩
    obtain ⟨c', h', hlive', hcloser⟩ := hdescends d b _ _ hd hlive
    obtain ⟨e', he', hlt', rfl, rfl⟩ := liveRoute_eq_some.mp hlive'
    exact ⟨⟨e', he', lt_infCost_iff.mpr hlt', by omega⟩, (hdescends d).reaches hlive⟩

/-- Node "a" learns of "c" from its neighbour "b". -/
def lineEvents : List NetworkEvent :=
  [.router "a" (.peerConnected "b"), .router "b" (.peerConnected "a"),
    .router "b" (.peerConnected "c"), .sendTriggeredUpdates "b", .deliver "b" "a" 0]

def lineNet : Network Unit :=
  lineEvents.foldl (Network.step (fun _ => silentOwner) (plainEnv 0))
    (Network.create (fun _ => 0) fun _ => ())

theorem growing_loopFree_line :
    (lineNet.routers "a").forwardingTable.lookup "c" = some ⟨"b", 2, true, 0⟩ ∧
      ∃ k, k ≤ 2 ∧ Reaches (fun b d => liveRoute (lineNet.routers b) d) "c" k "a" := by
  have hroute : (lineNet.routers "a").forwardingTable.lookup "c" = some ⟨"b", 2, true, 0⟩ := by
    decide
  have hadds : ∀ event ∈ lineEvents, AddsLinks event := by
    simp only [lineEvents, List.forall_mem_cons, List.not_mem_nil, false_imp_iff,
      implies_true, and_true]
    exact ⟨.peerConnected (by decide), .peerConnected (by decide), .peerConnected (by decide),
      .sendTriggeredUpdates "b", .deliver "b" "a"⟩
  have hrun :=
    moves_events (fun _ => silentOwner) (plainEnv 0) hadds (Network.create (fun _ => 0) fun _ => ())
  exact ⟨hroute, ((growing_loopFree _ _ _ _ hrun).2.1 "a" "c" _ (by decide) hroute (by decide)).2⟩

end MeshNetwork.Proofs
