import MeshNetwork.Proofs.RouteKnowledge

/-!
# Histories of a network

Links are set up and lost, neighbours expire, data packets travel and routing updates arrive in the
order in which they were sent. Whatever has happened, a neighbour only knows destinations that the
sender still has in its table, and none that the sender has withdrawn.
-/

namespace MeshNetwork.Proofs

open DistanceVector

variable {ν : Type}

/-! ## Data packets -/

/-- The owner sends data packets only. -/
def SendsData (cb : OnPacketForMe ν) : Prop :=
  ∀ env owner s pkt, ((cb env owner s pkt).2.1.type = .routingUpdate → pkt.type = .routingUpdate) ∧
    ∀ q ∈ (cb env owner s pkt).2.2, q.type ≠ .routingUpdate

lemma routeDataPacket_data {cb : OnPacketForMe ν} (hcb : SendsData cb) {self src dest : PeerId}
    {env : StepEnv} {owner : ν} {s : RouterState} {pktId : String} {pkt : RoutedPacket}
    (htype : pkt.type ≠ .routingUpdate) {next : PeerId} {p : RoutedPacket}
    (h : .transmit next p ∈ (s.routeDataPacket cb self env owner src dest pktId pkt).1) :
    p.type ≠ .routingUpdate := by
  obtain ⟨hsame, hsent⟩ := hcb env owner s pkt
  have hown : .transmit next p ∈ (s.sendOwnPackets self env 2 (cb env owner s pkt).2.2).1 →
      p.type ≠ .routingUpdate := by
    intro hp
    obtain ⟨q, hq, rfl⟩ := sendOwnPackets_sends hp
    exact hsent q hq
  unfold RouterState.routeDataPacket at h
  dsimp only at h
  split_ifs at h
  · exact hown (List.mem_of_ne_of_mem (by simp) h)
  · rcases List.mem_append.mp h with h | h
    · exact hown (List.mem_of_ne_of_mem (by simp) h)
    · rw [forwardPacket_sends h]
      exact fun htype' => htype (hsame htype')
  · exact absurd h List.not_mem_nil
  · rw [forwardPacket_sends h]
    exact htype

/-! ## Events -/

/-- The clock has not gone back since the trigger was set. -/
def OnTime (s : RouterState) (env : StepEnv) : Prop :=
  s.triggerPending = true → s.triggerDeadline ≤ env.clock 0 + triggerDebounce

/-- Node `n` is a neighbour of `x`, or it holds nothing that `x` told it over an earlier link. A
reconnect while `n` still holds routes of the old link is left out: such routes are never
withdrawn. -/
def MayLink (net : Network ν) (x n : PeerId) : Prop :=
  n ∈ (net.routers x).neighborViews ∨ ∀ d, believed net x n d = none

/-- The events of a network: routing updates are delivered in order, data packets at any time, and a
link comes up only if the other end has given up the old one. -/
inductive Admitted (net : Network ν) (env : StepEnv) : NetworkEvent → Prop
  | tick (x : PeerId) (htime : OnTime (net.routers x) env) :
      Admitted net env (.router x .maintenance)
  | connect (x n : PeerId) (htime : OnTime (net.routers x) env) (hne : n ≠ x)
      (hlink : MayLink net x n) :
      Admitted net env (.router x (.peerConnected n))
  | disconnect (x n : PeerId) (htime : OnTime (net.routers x) env) :
      Admitted net env (.router x (.peerDisconnected n))
  | send (x : PeerId) (pkt : RoutedPacket) (htime : OnTime (net.routers x) env)
      (htype : pkt.type ≠ .routingUpdate) : Admitted net env (.router x (.sendPacket pkt))
  | data (src x : PeerId) (index : Nat) (pkt : RoutedPacket) (htime : OnTime (net.routers x) env)
      (hpkt : (net.channel src x)[index]? = some pkt) (htype : pkt.type ≠ .routingUpdate) :
      Admitted net env (.deliver src x index)
  | update (src x : PeerId) (index : Nat) (pkt : RoutedPacket) (htime : OnTime (net.routers x) env)
      (hpkt : OldestUpdate net src x index pkt) (hlink : MayLink net x src) :
      Admitted net env (.deliver src x index)

/-! ## The invariant -/

structure Coherent (net : Network ν) : Prop where
  agrees : ∀ b, TableAgrees b (net.routers b)
  own : ∀ b, liveRoute (net.routers b) b = some (0, b)
  irrefl : ∀ b, b ∉ (net.routers b).neighborViews
  sender : ∀ n b, ∀ pkt ∈ net.channel n b, pkt.type = .routingUpdate → pkt.fromPeerId = n ∧ n ≠ b
  known : ∀ a, ∀ b ∈ (net.routers a).neighborViews, ∀ d v, believed net a b d = some v →
    d ∈ (net.routers a).forwardingTable
  ledger : ∀ a, ∃ t l, LedgerCovers a t l (net.routers a) ∧
    ∀ b ∈ (net.routers a).neighborViews, ∀ d, l.withdrawn d = true → believed net a b d = none

lemma LedgerCovers.onTime {self : PeerId} {t : Time} {l : Ledger} {s : RouterState}
    (h : LedgerCovers self t l s) {env : StepEnv} (htime : OnTime s env) :
    LedgerCovers self (env.clock 0) l s :=
  { h with deadline := htime }

lemma ledger_step_of_ne {self : PeerId} {env : StepEnv} {outs : List RouterOutput}
    {s s' : RouterState} {l : Ledger} {event : RouterEvent} (h : event ≠ .maintenance) :
    l.step self env outs s s' event = l.observe s'.forwardingTable := by
  cases event with
  | maintenance => exact absurd rfl h
  | packetReceived _ _ => rfl
  | peerConnected _ => rfl
  | peerDisconnected _ => rfl
  | sendPacket _ => rfl

lemma withdrawn_of_observe {l : Ledger} {table : UMap PeerId RouteEntry} {d : PeerId}
    (h : (l.observe table).withdrawn d = true) :
    l.withdrawn d = true ∧ ∀ e, table.lookup d = some e → e.cost ≥ infCost := by
  obtain ⟨hl, hany⟩ := Bool.and_eq_true_iff.mp h
  refine ⟨hl, fun e he => ?_⟩
  rw [he] at hany
  exact of_decide_eq_true hany

section Steps

variable {net net' : Network ν} {cb : PeerId → OnPacketForMe ν} {env : StepEnv} {x : PeerId}

/-- What a receiver believes after it may have forgotten its views. -/
lemma believed_forgets {a b d : PeerId} (hupdates : updatesOn net' a b = updatesOn net a b)
    (hview : viewOf (net'.routers b) a d = viewOf (net.routers b) a d ∨
      viewOf (net'.routers b) a d = none) :
    believed net' a b d = believed net a b d ∨ believed net' a b d = none := by
  unfold believed
  rw [hupdates]
  exact drain_forgotten hview

/-- An event at `x` that sends no routing update. -/
lemma Coherent.react (cb : PeerId → OnPacketForMe ν) (h : Coherent net)
    (htime : OnTime (net.routers x) env) {event : RouterEvent} {s' : RouterState}
    (hevent : event ≠ .maintenance)
    (hs' : ((net.routers x).step (cb x) x env (net.owners x) event).2.2 = s')
    (hrouters : net'.routers = Function.update net.routers x s')
    (hsent : ∀ n b, ∀ pkt ∈ net'.channel n b, pkt.type = .routingUpdate → pkt ∈ net.channel n b)
    (hbelieved : ∀ a b d, believed net' a b d = believed net a b d ∨ believed net' a b d = none)
    (hlinks : ∀ b ∈ s'.neighborViews, MayLink net x b) (hself : x ∉ s'.neighborViews)
    (hown : liveRoute s' x = some (0, x))
    (hkeys : ∀ d ∈ (net.routers x).forwardingTable, d ∈ s'.forwardingTable) : Coherent net' := by
  have hx : net'.routers x = s' := by rw [hrouters, Function.update_self]
  have hother : ∀ b, b ≠ x → net'.routers b = net.routers b := by
    intro b hb
    rw [hrouters, Function.update_of_ne hb]
  have hnone : ∀ a b d, believed net a b d = none → believed net' a b d = none := by
    intro a b d hold
    rcases hbelieved a b d with hsame | hnone
    · exact hsame.trans hold
    · exact hnone
  have hsome : ∀ a b d v, believed net' a b d = some v → believed net a b d = some v := by
    intro a b d v hv
    rcases hbelieved a b d with hsame | hnone
    · exact hsame.symm.trans hv
    · rw [hnone] at hv
      cases hv
  constructor
  · intro b
    by_cases hb : b = x
    · rw [hb, hx, ← hs']
      exact step_agrees (cb x) x env (net.owners x) (h.agrees x) event
    · rw [hother b hb]
      exact h.agrees b
  · intro b
    by_cases hb : b = x
    · rw [hb, hx]
      exact hown
    · rw [hother b hb]
      exact h.own b
  · intro b
    by_cases hb : b = x
    · rw [hb, hx]
      exact hself
    · rw [hother b hb]
      exact h.irrefl b
  · intro n b pkt hpkt htype
    exact h.sender n b pkt (hsent n b pkt hpkt htype) htype
  · intro a b hb d v hv
    by_cases ha : a = x
    · subst ha
      rw [hx] at hb ⊢
      rcases hlinks b hb with hmem | hforgot
      · exact hkeys d (h.known a b hmem d v (hsome a b d v hv))
      · rw [hnone a b d (hforgot d)] at hv
        cases hv
    · rw [hother a ha] at hb ⊢
      exact h.known a b hb d v (hsome a b d v hv)
  · intro a
    obtain ⟨t, l, hcovers, hwithdrawn⟩ := h.ledger a
    by_cases ha : a = x
    · subst ha
      have hstep :=
        step_ledgerCovers (cb a) (hcovers.onTime htime) env (net.owners a) event le_rfl le_rfl
      rw [ledger_step_of_ne hevent, hs'] at hstep
      refine ⟨_, _, by rw [hx]; exact hstep, fun b hb d hd => hnone a b d ?_⟩
      rw [hx] at hb
      rcases hlinks b hb with hmem | hforgot
      · exact hwithdrawn b hmem d (withdrawn_of_observe hd).1
      · exact hforgot d
    · rw [hother a ha]
      exact ⟨t, l, hcovers, fun b hb d hd => hnone a b d (hwithdrawn b hb d hd)⟩

/-! ## Data packets and links -/

/-- The data packets of a step do not touch what is known. -/
lemma Coherent.of_data {net₁ : Network ν} (h : Coherent net) (htime : OnTime (net.routers x) env)
    {event : RouterEvent} (hevent : event ≠ .maintenance) {r : List RouterOutput × ν × RouterState}
    (hr : (net.routers x).step (cb x) x env (net.owners x) event = r)
    (hrouters : net₁.routers = net.routers) (hsub : ∀ n b, net₁.channel n b ⊆ net.channel n b)
    (hupdates : updatesOn net₁ = updatesOn net)
    (hdata : ∀ next p, .transmit next p ∈ r.1 → p.type ≠ .routingUpdate)
    (hsame : SameRoutes (net.routers x) r.2.2)
    (hkeys : ∀ d ∈ (net.routers x).forwardingTable, d ∈ r.2.2.forwardingTable) :
    Coherent (net₁.apply x r) := by
  have hrouters' : (net₁.apply x r).routers = Function.update net.routers x r.2.2 := by
    rw [apply_eq, hrouters]
  refine h.react cb htime hevent (by rw [hr]) hrouters' (fun n b pkt hpkt htype => ?_)
    (fun a b d => ?_)
    (fun b hb => .inl ((hsame.mem b).mp hb)) (fun hx => h.irrefl x ((hsame.mem x).mp hx)) ?_ hkeys
  · rw [apply_eq] at hpkt
    rcases List.mem_append.mp hpkt with hpkt | hpkt
    · exact hsub n b hpkt
    · split_ifs at hpkt
      · exact absurd htype (hdata b pkt (mem_filterMap_packetTo.mp hpkt))
      · exact absurd hpkt List.not_mem_nil
  · refine believed_forgets (by rw [updatesOn_apply_data x hdata, hupdates]) (.inl ?_)
    rw [hrouters']
    exact (hsame.update b).viewOf_eq a d
  · rw [hsame.liveRoute_eq]
    exact h.own x

lemma Coherent.connect (h : Coherent net) {n : PeerId} (htime : OnTime (net.routers x) env)
    (hne : n ≠ x) (hlink : MayLink net x n) :
    Coherent (net.step cb env (.router x (.peerConnected n))) := by
  have hviews : ((net.routers x).peerConnected x env n).neighborViews =
      (net.routers x).neighborViews.insert n
        { ((net.routers x).neighborViews.lookup n).getD {} with lastHeardFrom := env.clock 0 } :=
    recalculate_views ..
  have hself : x ∉ ((net.routers x).peerConnected x env n).neighborViews := by
    rw [hviews, AList.mem_insert]
    rintro (rfl | hx)
    · exact hne rfl
    · exact h.irrefl x hx
  have hstep : ((net.routers x).step (cb x) x env (net.owners x) (.peerConnected n)).2.2 =
      (net.routers x).peerConnected x env n := rfl
  refine h.react cb htime (by simp) hstep rfl (fun _ _ _ hpkt _ => hpkt)
    (fun a b d => ?_) (fun b hb => ?_) hself ?_ fun d hd => recalculate_keys x env _ hd
  · refine believed_forgets rfl (.inl ?_)
    change viewOf (Function.update net.routers x ((net.routers x).peerConnected x env n) b) a d = _
    by_cases hb : b = x
    · rw [hb, Function.update_self]
      unfold viewOf
      rw [hviews, UMap.lookup_insert_eq]
      split_ifs with ha
      · rw [ha]
        rfl
      · rfl
    · rw [Function.update_of_ne hb]
  · rw [hviews, AList.mem_insert] at hb
    rcases hb with rfl | hb
    · exact hlink
    · exact .inl hb
  · apply liveRoute_recalculate_self
    rw [hviews] at hself
    exact hself

lemma Coherent.disconnect (h : Coherent net) (n : PeerId) (htime : OnTime (net.routers x) env) :
    Coherent (net.step cb env (.router x (.peerDisconnected n))) := by
  have hviews : ((net.routers x).peerDisconnected x env n).neighborViews =
      (net.routers x).neighborViews.erase n :=
    recalculate_views ..
  have hmem : ∀ b, b ∈ ((net.routers x).peerDisconnected x env n).neighborViews →
      b ∈ (net.routers x).neighborViews := by
    intro b hb
    rw [hviews, AList.mem_erase] at hb
    exact hb.2
  have hstep : ((net.routers x).step (cb x) x env (net.owners x) (.peerDisconnected n)).2.2 =
      (net.routers x).peerDisconnected x env n := rfl
  refine h.react cb htime (by simp) hstep rfl (fun _ _ _ hpkt _ => hpkt) (fun a b d => ?_)
    (fun b hb => .inl (hmem b hb)) (fun hx => h.irrefl x (hmem x hx)) ?_ fun d hd =>
      recalculate_keys x env _ hd
  · refine believed_forgets rfl ?_
    change viewOf (Function.update net.routers x ((net.routers x).peerDisconnected x env n)
      b) a d = _ ∨
      viewOf (Function.update net.routers x ((net.routers x).peerDisconnected x env n) b) a d = _
    by_cases hb : b = x
    · rw [hb, Function.update_self]
      refine viewOf_forgets fun c hc => ?_
      rw [hviews] at hc
      exact stored_erase hc
    · rw [Function.update_of_ne hb]
      exact .inl rfl
  · apply liveRoute_recalculate_self
    exact fun hx => h.irrefl x (AList.mem_erase.mp hx).2

/-! ## Updates -/

/-- The receiver of an update believes the same as before. -/
lemma believed_deliver {src : PeerId} {index : Nat} {pkt : RoutedPacket} {s' : RouterState}
    (hpkt : OldestUpdate net src x index pkt)
    (hview : ∀ n d, viewOf s' n d =
      if n = src then AsyncState.heard (viewOf (net.routers x) src d) (advertised pkt d)
      else viewOf (net.routers x) n d)
    (owner : ν) (a b d : PeerId) :
    believed ((net.take src x index).apply x ([], owner, s')) a b d = believed net a b d := by
  have hrouters : ((net.take src x index).apply x ([], owner, s')).routers =
      Function.update net.routers x s' := rfl
  have hupdates : updatesOn ((net.take src x index).apply x ([], owner, s')) =
      updatesOn (net.take src x index) := rfl
  unfold believed
  rw [hupdates]
  by_cases hlink : a = src ∧ b = x
  · obtain ⟨rfl, rfl⟩ := hlink
    rw [hpkt.take, drain_cons]
    congr 1
    funext d
    change viewOf (((net.take a b index).apply b ([], owner, s')).routers b) a d = _
    rw [hrouters, Function.update_self, hview, if_pos rfl]
    rfl
  · rw [updatesOn_take_of_ne hlink]
    congr 1
    funext d
    change viewOf (((net.take src x index).apply x ([], owner, s')).routers b) a d =
      viewOf (net.routers b) a d
    rw [hrouters]
    by_cases hb : b = x
    · subst hb
      rw [Function.update_self, hview, if_neg fun ha => hlink ⟨ha, rfl⟩]
    · rw [Function.update_of_ne hb]

lemma viewOf_afterUpdate (env : StepEnv) (s : RouterState) (b src : PeerId) (pkt : RoutedPacket)
    (n d : PeerId) :
    viewOf (afterUpdate env s b src pkt.routeTable) n d =
      if n = src then AsyncState.heard (viewOf s src d) (advertised pkt d) else viewOf s n d := by
  let net : Network Unit := { routers := fun _ => s, owners := fun _ => () }
  by_cases hn : n = src
  · rw [if_pos hn, hn]
    unfold viewOf
    rw [lookup_afterUpdate, if_pos rfl]
    have hroutes : (((s.heardFrom src (env.clock 0)).neighborViews.lookup src).getD
        {}).advertisedRoutes =
        (((net.routers b).neighborViews.lookup src).getD {}).advertisedRoutes :=
          heardFrom_routes s src _
    exact updatedView_heard env hroutes pkt d
  · rw [if_neg hn]
    unfold viewOf
    rw [lookup_afterUpdate, if_neg hn]

lemma step_update (cb : PeerId → OnPacketForMe ν) (env : StepEnv) {src : PeerId} {index : Nat}
    {pkt : RoutedPacket} (h : Coherent net) (hpkt : OldestUpdate net src x index pkt) :
    (net.routers x).handlePacket (cb x) x env (net.owners x) src pkt =
        ([], net.owners x, afterUpdate env (net.routers x) x src pkt.routeTable) ∧
      net.step cb env (.deliver src x index) =
        (net.take src x index).apply x ([], net.owners x,
          afterUpdate env (net.routers x) x src pkt.routeTable) := by
  obtain ⟨hfrom, hne⟩ := h.sender src x pkt (List.mem_of_getElem? hpkt.packet) hpkt.type
  have hhandle := handlePacket_update (cb x) env (net.owners x) (net.routers x) hne hfrom hpkt.type
  exact ⟨hhandle, by rw [step_deliver_some hpkt.packet, hhandle]⟩

lemma mem_afterUpdate (s : RouterState) (b src : PeerId) (table : RouteTable) (n : PeerId) :
    n ∈ (afterUpdate env s b src table).neighborViews ↔ n = src ∨ n ∈ s.neighborViews := by
  rw [UMap.mem_iff_lookup, UMap.mem_iff_lookup, lookup_afterUpdate]
  by_cases hn : n = src
  · simp [hn]
  · simp [hn]

lemma Coherent.update {src : PeerId} {index : Nat} {pkt : RoutedPacket} (h : Coherent net)
    (htime : OnTime (net.routers x) env) (hpkt : OldestUpdate net src x index pkt)
    (hlink : MayLink net x src) :
    Coherent (net.step cb env (.deliver src x index)) := by
  obtain ⟨hhandle, hstep⟩ := step_update cb env h hpkt
  obtain ⟨-, hne⟩ := h.sender src x pkt (List.mem_of_getElem? hpkt.packet) hpkt.type
  have hself : x ∉ (afterUpdate env (net.routers x) x src pkt.routeTable).neighborViews := by
    rw [mem_afterUpdate]
    rintro (hx | hx)
    · exact hne hx.symm
    · exact h.irrefl x hx
  have hs' : ((net.routers x).step (cb x) x env (net.owners x) (.packetReceived src pkt)).2.2 =
      afterUpdate env (net.routers x) x src pkt.routeTable := by
    change ((net.routers x).handlePacket (cb x) x env (net.owners x) src pkt).2.2 = _
    rw [hhandle]
  rw [hstep]
  refine h.react cb htime (by simp) hs' rfl (fun n b p hp _ => mem_of_mem_take hp)
    (fun a b d => .inl ?_) (fun b hb => ?_) hself ?_ ?_
  · exact believed_deliver hpkt (viewOf_afterUpdate env (net.routers x) x src pkt)
      (net.owners x) a b d
  · rcases (mem_afterUpdate _ _ _ _ _).mp hb with rfl | hb
    · exact hlink
    · exact .inl hb
  · apply liveRoute_recalculate_self
    unfold afterUpdate at hself
    rw [processRoutingUpdate_views] at hself
    exact hself
  · intro d hd
    refine recalculate_keys x env _ ?_
    obtain ⟨views, hviews⟩ := heardFrom_frame (net.routers x) src (env.clock 0)
    rw [hviews]
    exact hd

/-! ## Ticks -/

lemma expireNeighbors_views (self : PeerId) (env : StepEnv) (now : Time) (s : RouterState) :
    (s.expireNeighbors self env now).neighborViews =
      ((s.neighborViews.items env.order 0).foldl (expireNeighbor now)
        (s.neighborViews, false)).1 := by
  unfold RouterState.expireNeighbors
  dsimp only
  split_ifs
  · exact recalculate_views ..
  · rfl

lemma expireNeighbors_mem {self : PeerId} {env : StepEnv} {now : Time} {s : RouterState}
    {b : PeerId} (h : b ∈ (s.expireNeighbors self env now).neighborViews) :
    b ∈ s.neighborViews := by
  rw [expireNeighbors_views] at h
  exact of_expire (P := fun views => b ∈ views) (fun _ _ hb => (AList.mem_erase.mp hb).2) now _ _ h

lemma expireNeighbors_stored {self : PeerId} {env : StepEnv} {now : Time} {s : RouterState}
    {n d : PeerId} {c : UInt32} (h : Stored (s.expireNeighbors self env now).neighborViews n d c) :
    Stored s.neighborViews n d c := by
  rw [expireNeighbors_views] at h
  exact stored_expire now _ _ h

lemma expireNeighbors_own {self : PeerId} (env : StepEnv) (now : Time) {s : RouterState}
    (hown : liveRoute s self = some (0, self)) (hself : self ∉ s.neighborViews) :
    liveRoute (s.expireNeighbors self env now) self = some (0, self) := by
  have hexp : self ∉ (s.expireNeighbors self env now).neighborViews :=
    fun h => hself (expireNeighbors_mem h)
  rw [expireNeighbors_views] at hexp
  unfold RouterState.expireNeighbors
  dsimp only
  split_ifs
  · exact liveRoute_recalculate_self env (env.clock 1) hexp
  · exact hown

lemma tick_same (self : PeerId) (env : StepEnv) (s : RouterState) :
    SameRoutes (s.expireNeighbors self env (env.clock 0)) (s.runPeriodicMaintenance self env).2 :=
  (fireTrigger_same ..).trans ((firePeriodic_same ..).trans
    ((removeDeadRoutes_same ..).trans (.of_eq rfl rfl)))

/-- The network after a tick of `x`. -/
lemma step_tick (cb : PeerId → OnPacketForMe ν) (env : StepEnv) (net : Network ν) (x : PeerId) :
    net.step cb env (.router x .maintenance) =
      net.apply x (((net.routers x).runPeriodicMaintenance x env).1, net.owners x,
        ((net.routers x).runPeriodicMaintenance x env).2) := rfl

/-- What a neighbour believes after a tick: what it believed before, or what the table tells it. -/
lemma believed_tick (cb : PeerId → OnPacketForMe ν) (env : StepEnv) (net : Network ν) {x b : PeerId}
    (hb : b ≠ x) (d : PeerId) :
    believed (net.step cb env (.router x .maintenance)) x b d = believed net x b d ∧
        ¬Mentions ((net.routers x).runPeriodicMaintenance x env).1 b d ∨
      believed (net.step cb env (.router x .maintenance)) x b d =
        toldBy ((net.routers x).expireNeighbors x env (env.clock 0)) b d := by
  have hcarries := tick_carries x env (net.routers x)
  rw [step_tick]
  generalize (net.routers x).runPeriodicMaintenance x env = r at *
  have hview : (routingState (net.apply x (r.1, net.owners x, r.2))).view b x =
      (routingState net).view b x := by
    funext d
    change viewOf ((net.apply x (r.1, net.owners x, r.2)).routers b) x d =
      viewOf (net.routers b) x d
    rw [apply_eq]
    dsimp only
    rw [Function.update_of_ne hb]
  have htruth : ∀ msg ∈ (r.1.filterMap (packetTo b)).filterMap said, ∀ sig, msg d = some sig →
      sig = toldBy ((net.routers x).expireNeighbors x env (env.clock 0)) b d := by
    intro msg hmsg sig hsig
    obtain ⟨pkt, hpkt, hsaid⟩ := List.mem_filterMap.mp hmsg
    obtain ⟨p, pkt', ho, htype, -, -, htruth⟩ := hcarries _ (mem_filterMap_packetTo.mp hpkt)
    cases ho
    rw [said, if_pos htype] at hsaid
    cases hsaid
    exact htruth.toldBy_eq hsig
  unfold believed
  rw [hview, updatesOn_apply, if_pos rfl, drain_append]
  rcases drain_same htruth with ⟨hsame, hnone⟩ | htold
  · refine .inl ⟨hsame, ?_⟩
    rintro ⟨pkt, hpkt, htype, hd⟩
    have hsaid : advertised pkt ∈ (r.1.filterMap (packetTo b)).filterMap said :=
      List.mem_filterMap.mpr ⟨pkt, mem_filterMap_packetTo.mpr hpkt, if_pos htype⟩
    obtain ⟨c, hc⟩ := (UMap.mem_iff_lookup _ _).mp hd
    have habs := hnone _ hsaid
    unfold advertised at habs
    rw [hc] at habs
    cases habs
  · exact .inr htold

/-- The other links of a tick. -/
lemma believed_tick_other (cb : PeerId → OnPacketForMe ν) (env : StepEnv) (net : Network ν)
    {x a : PeerId} (ha : a ≠ x) (b d : PeerId) :
    believed (net.step cb env (.router x .maintenance)) a b d = believed net a b d ∨
      believed (net.step cb env (.router x .maintenance)) a b d = none := by
  rw [step_tick]
  refine believed_forgets (by rw [updatesOn_apply, if_neg ha, List.append_nil]) ?_
  rw [apply_eq]
  dsimp only
  by_cases hb : b = x
  · subst hb
    rw [Function.update_self, (tick_same b env (net.routers b)).viewOf_eq]
    exact viewOf_forgets fun c hc => expireNeighbors_stored hc
  · rw [Function.update_of_ne hb]
    exact .inl rfl

/-- A destination that counts as withdrawn after a tick was withdrawn before it or is told to all
neighbours. -/
lemma withdrawn_tick {l : Ledger} {outs : List RouterOutput} {s s' : RouterState} {d : PeerId}
    (h : (l.step x env outs s s' .maintenance).withdrawn d = true) :
    (∀ e, (s.expireNeighbors x env (env.clock 0)).forwardingTable.lookup d = some e →
      e.cost ≥ infCost) ∧
      (l.withdrawn d = true ∨ ∀ b ∈ (s.expireNeighbors x env (env.clock 0)).neighborViews,
        Mentions outs b d) := by
  rw [step_maintenance_eq] at h
  generalize s.expireNeighbors x env (env.clock 0) = s₁ at h ⊢
  split_ifs at h with hfires
  · rcases Bool.or_eq_true_iff.mp h with hold | hnew
    · exact ⟨(withdrawn_of_observe hold).2, .inl (withdrawn_of_observe hold).1⟩
    · obtain ⟨e, hincluded, hdead⟩ := (Option.any_eq_true _ _).mp hnew
      obtain ⟨he, hsent⟩ := Option.filter_eq_some_iff.mp hincluded
      refine ⟨fun e' he' => ?_, .inr fun b hb => (of_decide_eq_true hsent).2.mentions hb⟩
      rw [he] at he'
      cases he'
      exact of_decide_eq_true hdead
  · exact ⟨(withdrawn_of_observe h).2, .inl (withdrawn_of_observe h).1⟩

lemma Coherent.tick_mem (h : Coherent net) {b : PeerId}
    (hb : b ∈ ((net.routers x).runPeriodicMaintenance x env).2.neighborViews) :
    b ∈ ((net.routers x).expireNeighbors x env (env.clock 0)).neighborViews ∧
      b ∈ (net.routers x).neighborViews ∧ b ≠ x := by
  have hexp := ((tick_same x env (net.routers x)).mem b).mp hb
  refine ⟨hexp, expireNeighbors_mem hexp, ?_⟩
  rintro rfl
  exact h.irrefl _ (expireNeighbors_mem hexp)

/-- A withdrawn destination is not believed by any neighbour that is left. -/
lemma Coherent.tick_withdrawn (h : Coherent net) {l : Ledger}
    (hwithdrawn : ∀ b ∈ (net.routers x).neighborViews, ∀ d, l.withdrawn d = true →
      believed net x b d = none) {b : PeerId} (hb :
      b ∈ ((net.routers x).runPeriodicMaintenance x env).2.neighborViews) {d : PeerId}
    (hd : (l.step x env ((net.routers x).runPeriodicMaintenance x env).1 (net.routers x)
      ((net.routers x).runPeriodicMaintenance x env).2 .maintenance).withdrawn d = true) :
    believed (net.step cb env (.router x .maintenance)) x b d = none := by
  obtain ⟨hexp, hold, hbx⟩ := h.tick_mem hb
  obtain ⟨hdead, hcase⟩ := withdrawn_tick hd
  rcases believed_tick cb env net hbx d with ⟨hsame, hsilent⟩ | htold
  · rcases hcase with hbefore | hmentions
    · rw [hsame]
      exact hwithdrawn b hold d hbefore
    · exact absurd (hmentions b hexp) hsilent
  · rw [htold]
    exact toldBy_of_none b (liveRoute_none_of_dead hdead)

lemma Coherent.tick_sender (h : Coherent net) {n b : PeerId} {pkt : RoutedPacket}
    (hpkt : pkt ∈ (net.step cb env (.router x .maintenance)).channel n b)
    (htype : pkt.type = .routingUpdate) :
    pkt.fromPeerId = n ∧ n ≠ b := by
  rw [step_tick, apply_eq] at hpkt
  rcases List.mem_append.mp hpkt with hpkt | hpkt
  · exact h.sender n b pkt hpkt htype
  · split_ifs at hpkt with hn
    · obtain ⟨p, pkt', ho, -, hfrom, hp, -⟩ :=
        tick_carries x env _ _ (mem_filterMap_packetTo.mp hpkt)
      cases ho
      refine ⟨hfrom.trans hn.symm, ?_⟩
      rintro rfl
      rw [hn] at hp
      exact h.irrefl x (expireNeighbors_mem hp)
    · exact absurd hpkt List.not_mem_nil

/-- What a neighbour that is left believes is still in the table: an entry that is erased has been
withdrawn. -/
lemma Coherent.tick_known (h : Coherent net) (htime : OnTime (net.routers x) env) {b : PeerId}
    (hb : b ∈ ((net.routers x).runPeriodicMaintenance x env).2.neighborViews) {d : PeerId} {v : Nat}
    (hv : believed (net.step cb env (.router x .maintenance)) x b d = some v) :
    d ∈ ((net.routers x).runPeriodicMaintenance x env).2.forwardingTable := by
  obtain ⟨t, l, hcovers, hwithdrawn⟩ := h.ledger x
  obtain ⟨hexp, hold, hbx⟩ := h.tick_mem hb
  by_contra herased
  have hkey : d ∈ (net.routers x).forwardingTable := by
    rcases believed_tick cb env net hbx d with ⟨hsame, -⟩ | htold
    · exact h.known x b hold d v (hsame ▸ hv)
    · obtain ⟨hop, hlive⟩ := toldBy_some_mem (htold.symm.trans hv)
      rw [← (tick_same x env (net.routers x)).liveRoute_eq] at hlive
      obtain ⟨e, he, -⟩ := liveRoute_eq_some.mp hlive
      exact absurd ((UMap.mem_iff_lookup _ _).mpr ⟨e, he⟩) herased
  have hgone := (hcovers.onTime htime).withdrawn_of_erased env le_rfl
    ((net.routers x).runPeriodicMaintenance x env).2 hkey herased
  rw [h.tick_withdrawn hwithdrawn hb hgone] at hv
  cases hv

lemma Coherent.tick (h : Coherent net) (htime : OnTime (net.routers x) env) :
    Coherent (net.step cb env (.router x .maintenance)) := by
  have hx : (net.step cb env (.router x .maintenance)).routers x =
      ((net.routers x).runPeriodicMaintenance x env).2 := by
    rw [step_tick, apply_eq]
    exact Function.update_self ..
  have hother : ∀ b, b ≠ x → (net.step cb env (.router x .maintenance)).routers b =
      net.routers b := by
    intro b hb
    rw [step_tick, apply_eq]
    exact Function.update_of_ne hb ..
  constructor
  · intro b
    by_cases hb : b = x
    · rw [hb, hx]
      exact runPeriodicMaintenance_agrees x env (h.agrees x)
    · rw [hother b hb]
      exact h.agrees b
  · intro b
    by_cases hb : b = x
    · rw [hb, hx, (tick_same x env (net.routers x)).liveRoute_eq]
      exact expireNeighbors_own env _ (h.own x) (h.irrefl x)
    · rw [hother b hb]
      exact h.own b
  · intro b
    by_cases hb : b = x
    · rw [hb, hx]
      exact fun hself => h.irrefl x (h.tick_mem hself).2.1
    · rw [hother b hb]
      exact h.irrefl b
  · exact fun n b pkt hpkt htype => h.tick_sender hpkt htype
  · intro a b hb d v hv
    by_cases ha : a = x
    · subst ha
      rw [hx] at hb ⊢
      exact h.tick_known htime hb hv
    · rw [hother a ha] at hb ⊢
      rcases believed_tick_other cb env net ha b d with hsame | hgone
      · exact h.known a b hb d v (hsame ▸ hv)
      · rw [hgone] at hv
        cases hv
  · intro a
    obtain ⟨t, l, hcovers, hwithdrawn⟩ := h.ledger a
    by_cases ha : a = x
    · subst ha
      rw [hx]
      exact ⟨_, _, (hcovers.onTime htime).maintenance env le_rfl _,
        fun b hb d hd => h.tick_withdrawn hwithdrawn hb hd⟩
    · rw [hother a ha]
      refine ⟨t, l, hcovers, fun b hb d hd => ?_⟩
      rcases believed_tick_other cb env net ha b d with hsame | hgone
      · exact hsame.trans (hwithdrawn b hb d hd)
      · exact hgone

/-! ## Histories -/

lemma create_coherent (now : PeerId → Time) (owners : PeerId → ν) :
    Coherent (Network.create now owners) := by
  have hgrow := create_growing now owners
  refine ⟨hgrow.agrees, hgrow.own, hgrow.irrefl, fun n b pkt hpkt => absurd hpkt List.not_mem_nil,
    fun a b hb => absurd hb List.not_mem_nil, fun a => ?_⟩
  exact ⟨now a, Ledger.empty, create_ledgerCovers a (now a), fun b hb => absurd hb List.not_mem_nil⟩

/-- Data packets that arrive only move the time at which their sender was last heard. -/
lemma handlePacket_same (cb : OnPacketForMe ν) (env : StepEnv) (owner : ν) (s : RouterState)
    (x src : PeerId) {pkt : RoutedPacket} (htype : pkt.type ≠ .routingUpdate) :
    SameRoutes s (s.handlePacket cb x env owner src pkt).2.2 ∧
      (s.handlePacket cb x env owner src pkt).2.2.forwardingTable = s.forwardingTable := by
  have hmove := step_move cb x env owner s (.packetReceived src pkt)
  change RouterMove x env s _ (s.handlePacket cb x env owner src pkt).2.2 at hmove
  generalize (s.handlePacket cb x env owner src pkt).2.2 = s' at hmove
  cases hmove with
  | ignored _ => exact ⟨.of_eq rfl rfl, rfl⟩
  | update _ _ hupdate => exact absurd hupdate htype
  | data _ _ seen =>
    obtain ⟨views, hviews⟩ := heardFrom_frame s src (env.clock 0)
    exact ⟨(heardFrom_same s src _).trans (.of_frame ⟨seen, rfl⟩), by rw [hviews]⟩

lemma handlePacket_sends_data {cb : OnPacketForMe ν} (hcb : SendsData cb) {env : StepEnv}
    {owner : ν} {s : RouterState} {x src : PeerId} {pkt : RoutedPacket}
    (htype : pkt.type ≠ .routingUpdate) {next : PeerId} {p : RoutedPacket}
    (h : .transmit next p ∈ (s.handlePacket cb x env owner src pkt).1) :
    p.type ≠ .routingUpdate := by
  unfold RouterState.handlePacket at h
  dsimp only at h
  split_ifs at h
  · exact absurd h List.not_mem_nil
  · exact routeDataPacket_data hcb htype h

theorem Coherent.step (hcb : ∀ b, SendsData (cb b)) (h : Coherent net) {event : NetworkEvent}
    (hevent : Admitted net env event) : Coherent (net.step cb env event) := by
  cases hevent with
  | tick x htime => exact h.tick htime
  | connect x n htime hne hlink => exact h.connect htime hne hlink
  | disconnect x n htime => exact h.disconnect n htime
  | send x pkt htime htype =>
    obtain ⟨seen, hseen⟩ := routeDataPacket_frame (cb x) x env (net.owners x) (net.routers x) x
      pkt.toPeerId
      (toHex pkt.id) pkt
    refine h.of_data htime (by simp) rfl rfl (fun _ _ => List.Subset.refl _) rfl
      (fun next p hp => routeDataPacket_data (hcb x) htype hp) ?_ ?_
    · exact .of_frame ⟨seen, hseen⟩
    · intro d hd
      change d ∈ ((net.routers x).routeDataPacket (cb x) x env (net.owners x) x pkt.toPeerId
        (toHex pkt.id)
        pkt).2.2.forwardingTable
      rw [hseen]
      exact hd
  | data src x index pkt htime hpkt htype =>
    obtain ⟨hsame, htable⟩ :=
      handlePacket_same (cb x) env (net.owners x) (net.routers x) x src htype
    have hstep : (net.routers x).step (cb x) x env (net.owners x) (.packetReceived src pkt) =
        (net.routers x).handlePacket (cb x) x env (net.owners x) src pkt := rfl
    rw [step_deliver_some hpkt]
    refine h.of_data htime (by simp) hstep rfl (fun _ _ _ => mem_of_mem_take)
      (updatesOn_take_data hpkt htype) (fun next p hp => handlePacket_sends_data (hcb x) htype
        hp) hsame ?_
    intro d hd
    rw [← htable] at hd
    exact hd
  | update src x index pkt htime hpkt hlink => exact h.update htime hpkt hlink

theorem history_coherent (hcb : ∀ b, SendsData (cb b)) {now : PeerId → Time} {owners : PeerId → ν}
    (hrun : Relation.ReflTransGen (Network.Moves cb Admitted) (Network.create now owners) net) :
    Coherent net := by
  induction hrun with
  | refl => exact create_coherent now owners
  | tail _ hlast ih =>
    obtain ⟨env, event, hevent, rfl⟩ := hlast
    exact ih.step hcb hevent

end Steps

end MeshNetwork.Proofs
