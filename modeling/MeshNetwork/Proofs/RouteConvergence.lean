import MeshNetwork.Proofs.RouteHistory

/-!
# Convergence of the routes in every fair execution

From any history on, once the links stay as they are, the forwarding tables become exact and stay
exact, however ticks, deliveries and data traffic interleave: each node has to tick again and again
while its clock advances, and each routing update has to be delivered some time.
-/

namespace MeshNetwork.Proofs

open DistanceVector

variable {ν : Type}

/-! ## Networks whose links stay -/

/-- The neighbours of each node are those of `G`. -/
def HasLinks (G : SimpleGraph PeerId) (net : Network ν) : Prop :=
  ∀ a b, b ∈ (net.routers a).neighborViews ↔ G.Adj a b

/-- The events of a network with the links `G`: no neighbour is silent for longer than the
timeout. -/
inductive KeepsLinks (G : SimpleGraph PeerId) (net : Network ν) (env : StepEnv) :
    NetworkEvent → Prop
  | tick (x : PeerId) (htime : OnTime (net.routers x) env)
      (hheard : ∀ n view, (net.routers x).neighborViews.lookup n = some view →
        env.clock 0 - view.lastHeardFrom ≤ routeTimeout) : KeepsLinks G net env
          (.router x .maintenance)
  | send (x : PeerId) (pkt : RoutedPacket) (htime : OnTime (net.routers x) env)
      (htype : pkt.type ≠ .routingUpdate) : KeepsLinks G net env (.router x (.sendPacket pkt))
  | data (src x : PeerId) (index : Nat) (pkt : RoutedPacket) (htime : OnTime (net.routers x) env)
      (hpkt : (net.channel src x)[index]? = some pkt) (htype : pkt.type ≠ .routingUpdate)
      (hadj : G.Adj src x) :
      KeepsLinks G net env (.deliver src x index)
  | update (src x : PeerId) (index : Nat) (pkt : RoutedPacket) (htime : OnTime (net.routers x) env)
      (hpkt : OldestUpdate net src x index pkt) (hadj : G.Adj src x) :
      KeepsLinks G net env (.deliver src x index)

section Steps

variable {G : SimpleGraph PeerId} {cb : PeerId → OnPacketForMe ν} {net : Network ν} {env : StepEnv}
  {event : NetworkEvent}

lemma KeepsLinks.admitted (h : KeepsLinks G net env event) (hlinks : HasLinks G net) :
    Admitted net env event := by
  cases h with
  | tick x htime _ => exact .tick x htime
  | send x pkt htime htype => exact .send x pkt htime htype
  | data src x index pkt htime hpkt htype _ => exact .data src x index pkt htime hpkt htype
  | update src x index pkt htime hpkt hadj =>
    exact .update src x index pkt htime hpkt (.inl ((hlinks x src).mpr hadj.symm))

/-- No neighbour expires. -/
lemma expireNeighbors_eq {self : PeerId} {now : Time} {s : RouterState}
    (h : ∀ n view, s.neighborViews.lookup n = some view → now - view.lastHeardFrom ≤ routeTimeout) :
    s.expireNeighbors self env now = s := by
  have hfold : ∀ l : List (PeerId × NeighborView),
      (∀ nv ∈ l, now - nv.2.lastHeardFrom ≤ routeTimeout) →
      ∀ acc, l.foldl (expireNeighbor now) acc = acc := by
    intro l hl
    induction l with
    | nil => exact fun _ => rfl
    | cons nv l ih =>
      intro acc
      have hstay : expireNeighbor now acc nv = acc := if_neg (not_lt.mpr (hl nv List.mem_cons_self))
      rw [List.foldl_cons, hstay]
      exact ih (fun nv' hnv' => hl nv' (List.mem_cons_of_mem _ hnv')) acc
  have hitems := hfold (s.neighborViews.items env.order 0)
    (fun nv hnv => h nv.1 nv.2 ((UMap.mem_items env.order 0 s.neighborViews nv.1 nv.2).mp hnv))
    (s.neighborViews, false)
  unfold RouterState.expireNeighbors
  dsimp only
  rw [hitems]
  rfl

/-- A step at `x` that keeps the routes of `x` and sends no update. -/
lemma linkStep_of_same {net' : Network ν} {x : PeerId} {s' : RouterState}
    (hrouters : net'.routers = Function.update net.routers x s')
    (hsame : SameRoutes (net.routers x) s') (hupdates : updatesOn net' = updatesOn net) :
    (HasLinks G net → HasLinks G net') ∧ ∀ a b, AsyncState.LinkStep (routingState net)
      (routingState net') a b := by
  constructor
  · intro hlinks a b
    rw [hrouters, (hsame.update a).mem]
    exact hlinks a b
  · refine fun a b => .inl ⟨?_, [], ?_, fun msg hmsg => absurd hmsg List.not_mem_nil⟩
    · funext d
      change viewOf (net'.routers b) a d = viewOf (net.routers b) a d
      rw [hrouters]
      exact (hsame.update b).viewOf_eq a d
    · rw [List.append_nil]
      exact congrFun (congrFun hupdates a) b

lemma linkStep_tick (cb : PeerId → OnPacketForMe ν) (hlinks : HasLinks G net) {x : PeerId}
    (hstay : (net.routers x).expireNeighbors x env (env.clock 0) = net.routers x) :
    HasLinks G (net.step cb env (.router x .maintenance)) ∧ ∀ a b, G.Adj a b →
      AsyncState.LinkStep (routingState net)
        (routingState (net.step cb env (.router x .maintenance))) a b := by
  have hsame := tick_same x env (net.routers x)
  have hcarries := tick_carries x env (net.routers x)
  rw [hstay] at hsame hcarries
  rw [step_tick]
  generalize (net.routers x).runPeriodicMaintenance x env = r at *
  have hrouters : (net.apply x (r.1, net.owners x, r.2)).routers =
      Function.update net.routers x r.2 := by rw [apply_eq]
  constructor
  · intro a b
    rw [hrouters, (hsame.update a).mem]
    exact hlinks a b
  · refine fun a b hadj => .inl ⟨?_, _, updatesOn_apply net x _ a b, fun msg hmsg d sig hsig => ?_⟩
    · funext d
      change viewOf ((net.apply x (r.1, net.owners x, r.2)).routers b) a d =
        viewOf (net.routers b) a d
      rw [hrouters]
      exact (hsame.update b).viewOf_eq a d
    · split_ifs at hmsg with ha
      · obtain ⟨pkt, hpkt, hsaid⟩ := List.mem_filterMap.mp hmsg
        obtain ⟨p, pkt', ho, htype, -, -, htruth⟩ := hcarries _ (mem_filterMap_packetTo.mp hpkt)
        cases ho
        rw [said, if_pos htype] at hsaid
        cases hsaid
        rw [htruth.toldBy_eq hsig, ha]
        exact (told_eq_toldBy net x b d).symm
      · exact absurd hmsg List.not_mem_nil

lemma linkStep_update {src x : PeerId} {index : Nat} {pkt : RoutedPacket} {s' : RouterState}
    (hpkt : OldestUpdate net src x index pkt)
    (hview : ∀ n d, viewOf s' n d =
      if n = src then AsyncState.heard (viewOf (net.routers x) src d) (advertised pkt d)
      else viewOf (net.routers x) n d)
    (owner : ν) (a b : PeerId) :
    AsyncState.LinkStep (routingState net) (routingState
      ((net.take src x index).apply x ([], owner, s'))) a b ∧
      (a = src → b = x →
        AsyncState.Delivers (routingState net)
          (routingState ((net.take src x index).apply x ([], owner, s'))) a b) := by
  have hdelivers : a = src → b = x →
      AsyncState.Delivers (routingState net)
        (routingState ((net.take src x index).apply x ([], owner, s'))) a b := by
    rintro rfl rfl
    refine ⟨advertised pkt, hpkt.take, ?_⟩
    funext d
    change viewOf (Function.update net.routers b s' b) a d = _
    rw [Function.update_self, hview, if_pos rfl]
    rfl
  refine ⟨?_, hdelivers⟩
  by_cases hlink : a = src ∧ b = x
  · exact .inr (hdelivers hlink.1 hlink.2)
  · refine .inl ⟨?_, [], ?_, fun msg hmsg => absurd hmsg List.not_mem_nil⟩
    · funext d
      change viewOf (Function.update net.routers x s' b) a d = viewOf (net.routers b) a d
      by_cases hb : b = x
      · subst hb
        rw [Function.update_self, hview, if_neg fun ha => hlink ⟨ha, rfl⟩]
      · rw [Function.update_of_ne hb]
    · rw [List.append_nil]
      exact updatesOn_take_of_ne hlink

/-- One event of a network whose links stay is a step of the protocol on every link. -/
lemma KeepsLinks.linkStep (hcb : ∀ b, SendsData (cb b)) (hnet : Coherent net)
    (hlinks : HasLinks G net) (h : KeepsLinks G net env event) :
    HasLinks G (net.step cb env event) ∧ ∀ a b, G.Adj a b →
      AsyncState.LinkStep (routingState net) (routingState (net.step cb env event)) a b := by
  cases h with
  | tick x htime hheard => exact linkStep_tick cb hlinks (expireNeighbors_eq hheard)
  | send x pkt htime htype =>
    have hrouters : (net.step cb env (.router x (.sendPacket pkt))).routers =
        Function.update net.routers x
        ((net.routers x).routeDataPacket (cb x) x env (net.owners x) x pkt.toPeerId (toHex pkt.id)
          pkt).2.2 := by
      simp only [Network.step, apply_eq]
      rfl
    obtain ⟨hkeep, hstep⟩ := linkStep_of_same (G := G) hrouters
      (.of_frame (routeDataPacket_frame ..))
      (updatesOn_apply_data x fun next p hp => routeDataPacket_data (hcb x) htype hp)
    exact ⟨hkeep hlinks, fun a b _ => hstep a b⟩
  | data src x index pkt htime hpkt htype _ =>
    have hrouters : ((net.take src x index).apply x
        ((net.routers x).handlePacket (cb x) x env (net.owners x) src pkt)).routers =
          Function.update net.routers x
        ((net.routers x).handlePacket (cb x) x env (net.owners x) src pkt).2.2 := by
      rw [apply_eq]
      rfl
    rw [step_deliver_some hpkt]
    obtain ⟨hkeep, hstep⟩ := linkStep_of_same (G := G) hrouters
      (handlePacket_same (cb x) env (net.owners x) (net.routers x) x src htype).1
      ((updatesOn_apply_data x fun next p hp => handlePacket_sends_data (hcb x) htype hp).trans
        (updatesOn_take_data hpkt htype))
    exact ⟨hkeep hlinks, fun a b _ => hstep a b⟩
  | update src x index pkt htime hpkt hadj =>
    rw [(step_update cb env hnet hpkt).2]
    refine ⟨fun a b => ?_, fun a b _ => (linkStep_update hpkt
      (viewOf_afterUpdate env _ x src pkt) _ a b).1⟩
    change b ∈ (Function.update net.routers x _ a).neighborViews ↔ _
    by_cases ha : a = x
    · subst ha
      rw [Function.update_self, mem_afterUpdate, hlinks]
      constructor
      · rintro (rfl | hb)
        · exact hadj.symm
        · exact hb
      · exact .inr
    · rw [Function.update_of_ne ha]
      exact hlinks a b

/-! ## Full updates -/

/-- A tick of `x` broadcasts the full table. -/
def BroadcastsAt (x : PeerId) (net : Network ν) (env : StepEnv) (event : NetworkEvent) : Prop :=
  event = .router x .maintenance ∧ env.clock 0 - (net.routers x).lastPeriodicUpdate > updateInterval

lemma fireTrigger_lastPeriodic (self : PeerId) (env : StepEnv) (now : Time) (s : RouterState) :
    (s.fireTrigger self env now).2.lastPeriodicUpdate = s.lastPeriodicUpdate := by
  unfold RouterState.fireTrigger
  split_ifs
  · dsimp only
    rw [sendTriggeredUpdates_state]
  · rfl

/-- A broadcast mentions every destination to every neighbour. -/
lemma tick_mentions {x b d : PeerId} {s : RouterState}
    (hstay : s.expireNeighbors x env (env.clock 0) = s)
    (hfires : env.clock 0 - s.lastPeriodicUpdate > updateInterval) (hb : b ∈ s.neighborViews)
    (hd : d ∈ s.forwardingTable) : Mentions (s.runPeriodicMaintenance x env).1 b d := by
  have hfired : d ∈ (s.fireTrigger x env (env.clock 0)).2.forwardingTable := by
    unfold RouterState.fireTrigger
    split_ifs
    · obtain ⟨e, he⟩ := (UMap.mem_iff_lookup _ _).mp hd
      rw [UMap.mem_iff_lookup]
      dsimp only
      rw [sendTriggeredUpdates_state, lookup_collectDirty, he]
      exact ⟨_, rfl⟩
    · exact hd
  have hneighbor : b ∈ (s.fireTrigger x env (env.clock 0)).2.neighborViews :=
    ((fireTrigger_same ..).mem b).mpr hb
  obtain ⟨pkt, hpkt, hmention⟩ := firePeriodic_mentions x env
    (by rw [fireTrigger_lastPeriodic]; exact hfires)
    (s.fireTrigger x env (env.clock 0)).1.length hneighbor hfired
  refine ⟨pkt, ?_, hmention⟩
  unfold RouterState.runPeriodicMaintenance
  dsimp only
  rw [hstay]
  exact List.mem_append_right _ hpkt

lemma tick_lastPeriodic {x : PeerId} {s : RouterState}
    (hstay : s.expireNeighbors x env (env.clock 0) = s) :
    (s.runPeriodicMaintenance x env).2.lastPeriodicUpdate =
      if env.clock 0 - s.lastPeriodicUpdate > updateInterval then env.clock 0
      else s.lastPeriodicUpdate := by
  unfold RouterState.runPeriodicMaintenance RouterState.firePeriodic
  dsimp only
  rw [hstay, fireTrigger_lastPeriodic]
  split_ifs
  · rfl
  · exact fireTrigger_lastPeriodic ..

/-- After a full update the neighbours will know exactly the table. -/
lemma tick_refreshes (hnet : Coherent net) (hlinks : HasLinks G net) {x b : PeerId}
    (hadj : G.Adj x b) (hstay : (net.routers x).expireNeighbors x env (env.clock 0) = net.routers x)
    (hfires : env.clock 0 - (net.routers x).lastPeriodicUpdate > updateInterval) :
    (routingState (net.step cb env (.router x .maintenance))).Refreshes x b := by
  intro d
  have hsame := tick_same x env (net.routers x)
  rw [hstay] at hsame
  have hx : (net.step cb env (.router x .maintenance)).routers x =
      ((net.routers x).runPeriodicMaintenance x env).2 := by
    rw [step_tick, apply_eq]
    exact Function.update_self ..
  have htold : (routingState (net.step cb env (.router x .maintenance))).told x b d =
      toldBy (net.routers x) b d := by
    refine (told_eq_toldBy _ x b d).trans ?_
    rw [hx, hsame.toldBy_eq]
  rw [htold]
  change believed (net.step cb env (.router x .maintenance)) x b d = _
  rcases believed_tick cb env net hadj.ne' d with ⟨hbelieved, hsilent⟩ | hbelieved
  · -- a destination that is not mentioned has no entry, so that nothing was ever known of it
    have hkey : d ∉ (net.routers x).forwardingTable :=
      fun hd => hsilent (tick_mentions hstay hfires ((hlinks x b).mpr hadj) hd)
    have hnone : believed net x b d = none := by
      cases hold : believed net x b d with
      | none => rfl
      | some v => exact absurd (hnet.known x b ((hlinks x b).mpr hadj) d v hold) hkey
    rw [hbelieved, hnone, toldBy_of_none b (liveRoute_none_of_dead fun e he =>
      absurd ((UMap.mem_iff_lookup _ _).mpr ⟨e, he⟩) hkey)]
  · rw [hbelieved, hstay]

/-- Only a broadcast of the full table moves its time. -/
lemma RouterMove.lastPeriodic {self : PeerId} {s s' : RouterState} {event : RouterEvent}
    (h : RouterMove self env s event s') (hevent : event ≠ .maintenance) :
    s'.lastPeriodicUpdate = s.lastPeriodicUpdate := by
  have hrecalculate : ∀ (now : Time) (s : RouterState),
      (s.recalculateForwardingTable self env now).lastPeriodicUpdate = s.lastPeriodicUpdate := by
    intro now s
    unfold RouterState.recalculateForwardingTable
    dsimp only
    split_ifs <;> rfl
  have hheard : ∀ src now, (s.heardFrom src now).lastPeriodicUpdate = s.lastPeriodicUpdate := by
    intro src now
    obtain ⟨views, hviews⟩ := heardFrom_frame s src now
    rw [hviews]
  cases h with
  | ignored _ => rfl
  | update _ _ _ => exact (hrecalculate _ _).trans (hheard _ _)
  | data _ _ seen => exact hheard _ _
  | connected p => exact hrecalculate _ _
  | disconnected p => exact hrecalculate _ _
  | maintenance => exact absurd rfl hevent
  | sent pkt seen => rfl

lemma step_lastPeriodic (cb : PeerId → OnPacketForMe ν) (h : KeepsLinks G net env event)
    (x : PeerId) :
    ((net.step cb env event).routers x).lastPeriodicUpdate = (net.routers x).lastPeriodicUpdate ∨
      BroadcastsAt x net env event := by
  have hupdate : ∀ (y : PeerId) (s' : RouterState), s'.lastPeriodicUpdate =
      (net.routers y).lastPeriodicUpdate →
      (Function.update net.routers y s' x).lastPeriodicUpdate =
        (net.routers x).lastPeriodicUpdate := by
    intro y s' hs'
    by_cases hx : x = y
    · subst hx
      rw [Function.update_self]
      exact hs'
    · rw [Function.update_of_ne hx]
  cases h with
  | tick y htime hheard =>
    by_cases hfires : BroadcastsAt x net env (.router y .maintenance)
    · exact .inr hfires
    · left
      rw [step_tick, apply_eq]
      dsimp only
      by_cases hx : x = y
      · subst hx
        have hquiet : ¬env.clock 0 - (net.routers x).lastPeriodicUpdate > updateInterval :=
          fun hlate => hfires ⟨rfl, hlate⟩
        rw [Function.update_self, tick_lastPeriodic (expireNeighbors_eq hheard), if_neg hquiet]
      · rw [Function.update_of_ne hx]
  | send y pkt htime htype =>
    left
    simp only [Network.step, apply_eq]
    exact hupdate y _ ((step_move (cb y) y env (net.owners y) (net.routers y)
      (.sendPacket pkt)).lastPeriodic (by simp))
  | data src y index pkt htime hpkt htype _ =>
    left
    rw [step_deliver_some hpkt, apply_eq]
    exact hupdate y _
      ((step_move (cb y) y env (net.owners y) (net.routers y)
        (.packetReceived src pkt)).lastPeriodic (by simp))
  | update src y index pkt htime hpkt hadj =>
    left
    rw [step_deliver_some hpkt.packet, apply_eq]
    exact hupdate y _
      ((step_move (cb y) y env (net.owners y) (net.routers y)
        (.packetReceived src pkt)).lastPeriodic (by simp))

end Steps

/-! ## Executions -/

/-- The states of a network whose links stay, one after the other. -/
structure SteadyExecution (G : SimpleGraph PeerId) (cb : PeerId → OnPacketForMe ν)
    (σ : ℕ → Network ν) (env : ℕ → StepEnv) (event : ℕ → NetworkEvent) : Prop where
  links : HasLinks G (σ 0)
  keeps : ∀ i, KeepsLinks G (σ i) (env i) (event i)
  step : ∀ i, σ (i + 1) = (σ i).step cb (env i) (event i)

/-- Every node with a link goes on ticking while its clock advances, and routing updates are
delivered. -/
structure FairExecution (G : SimpleGraph PeerId) (σ : ℕ → Network ν) (env : ℕ → StepEnv)
    (event : ℕ → NetworkEvent) :
    Prop where
  ticks : ∀ a b, G.Adj a b → ∀ i t, ∃ j, i ≤ j ∧ event j = .router a .maintenance ∧
    t ≤ (env j).clock 0
  delivers : ∀ a b, G.Adj a b → ∀ i, (∃ pkt ∈ (σ i).channel a b, pkt.type = .routingUpdate) →
    ∃ j index pkt, i ≤ j ∧ event j = .deliver a b index ∧ ((σ j).channel a b)[index]? = some pkt ∧
      pkt.type = .routingUpdate

section Executions

variable {G : SimpleGraph PeerId} {cb : PeerId → OnPacketForMe ν} {σ : ℕ → Network ν}
  {env : ℕ → StepEnv}
  {event : ℕ → NetworkEvent}

lemma SteadyExecution.coherent (h : SteadyExecution G cb σ env event) (hcb : ∀ b, SendsData (cb b))
    (hstart : Coherent (σ 0)) (i : ℕ) : Coherent (σ i) ∧ HasLinks G (σ i) := by
  induction i with
  | zero => exact ⟨hstart, h.links⟩
  | succ i ih =>
    obtain ⟨hnet, hlinks⟩ := ih
    rw [h.step i]
    exact ⟨hnet.step hcb ((h.keeps i).admitted hlinks), ((h.keeps i).linkStep hcb hnet hlinks).1⟩

/-- Tables that agree with their views hold the best offers. -/
lemma routingState_linked {net : Network ν} (hnet : Coherent net) (hlinks : HasLinks G net) :
    (routingState net).Linked G 16 := by
  refine ⟨hlinks, fun b n d v hv => ?_, fun b =>
    ⟨fun d hd c n hlive => ?_, fun d hd c n hlive hlinked => ?_, fun d hd n c hoffer hlt => ?_⟩⟩
  · obtain ⟨c, ⟨view, hview, -⟩, -⟩ := viewOf_eq_some.mp hv
    exact (hlinks b n).mp ((UMap.mem_iff_lookup _ _).mpr ⟨view, hview⟩)
  · obtain ⟨e, he, hlt, rfl, rfl⟩ := liveRoute_eq_some.mp hlive
    have hbest := (hnet.agrees b).live d hd e he hlt
    exact ⟨offers_iff_candidate.mpr hbest.candidate, fun n' c' hoffer =>
      hbest.least n' c' (offers_iff_candidate.mp hoffer)⟩
  · obtain ⟨e, he, hlt, rfl, rfl⟩ := liveRoute_eq_some.mp hlive
    exact ((hnet.agrees b).live d hd e he hlt).direct hlinked
  · obtain ⟨e, he, hlive⟩ := (hnet.agrees b).complete d hd n c (offers_iff_candidate.mp hoffer) hlt
    exact ⟨e.cost.toNat, e.nextHop, liveRoute_eq_some.mpr ⟨e, he, hlive, rfl, rfl⟩⟩

lemma SteadyExecution.execution (h : SteadyExecution G cb σ env event) (hcb : ∀ b, SendsData (cb b))
    (hstart : Coherent (σ 0)) : AsyncState.Execution G 16 fun i => routingState (σ i) := by
  constructor
  · intro i
    obtain ⟨hnet, hlinks⟩ := h.coherent hcb hstart i
    exact routingState_linked hnet hlinks
  · intro i a b hadj
    obtain ⟨hnet, hlinks⟩ := h.coherent hcb hstart i
    rw [h.step i]
    exact ((h.keeps i).linkStep hcb hnet hlinks).2 a b hadj

/-- A node that goes on ticking broadcasts its full table again. -/
lemma SteadyExecution.broadcasts (h : SteadyExecution G cb σ env event)
    (hfair : FairExecution G σ env event) {a b : PeerId} (hadj : G.Adj a b) (i : ℕ) :
    ∃ j, i ≤ j ∧ BroadcastsAt a (σ j) (env j) (event j) := by
  by_contra hnever
  push Not at hnever
  have hlast : ∀ j, i ≤ j → ((σ j).routers a).lastPeriodicUpdate =
      ((σ i).routers a).lastPeriodicUpdate := by
    intro j hij
    induction j, hij using Nat.le_induction with
    | base => rfl
    | succ j hij ih =>
      rw [h.step j]
      rcases step_lastPeriodic cb (h.keeps j) a with hsame | hfires
      · rw [hsame]
        exact ih
      · exact absurd hfires (hnever j hij)
  obtain ⟨j, hij, hevent, hclock⟩ := hfair.ticks a b hadj i
    (((σ i).routers a).lastPeriodicUpdate + updateInterval + 1)
  refine hnever j hij ⟨hevent, ?_⟩
  rw [hlast j hij]
  exact Nat.lt_sub_of_add_lt (by rw [Nat.add_comm]; exact hclock)

lemma SteadyExecution.fair (h : SteadyExecution G cb σ env event) (hcb : ∀ b, SendsData (cb b))
    (hstart : Coherent (σ 0)) (hfair : FairExecution G σ env event) :
    AsyncState.Execution.Fair G fun i => routingState (σ i) := by
  constructor
  · intro a b hadj i
    obtain ⟨j, hij, hevent, hfires⟩ := h.broadcasts hfair hadj i
    obtain ⟨hnet, hlinks⟩ := h.coherent hcb hstart j
    refine ⟨j + 1, by omega, ?_⟩
    have hkeeps := h.keeps j
    rw [h.step j]
    rw [hevent] at hkeeps ⊢
    cases hkeeps with
    | tick _ htime hheard =>
      exact tick_refreshes hnet hlinks hadj (expireNeighbors_eq hheard) hfires
  · intro a b hadj i hne
    obtain ⟨msg, rest, hmsg⟩ := List.exists_cons_of_ne_nil hne
    have hmem : msg ∈ updatesOn (σ i) a b := by
      change updatesOn (σ i) a b = _ at hmsg
      rw [hmsg]
      exact List.mem_cons_self
    obtain ⟨pkt, hpkt, hsaid⟩ := List.mem_filterMap.mp hmem
    have htype : pkt.type = .routingUpdate := by
      by_contra hdata
      rw [said, if_neg hdata] at hsaid
      cases hsaid
    obtain ⟨j, index, pkt', hij, hevent, hpkt', htype'⟩ :=
      hfair.delivers a b hadj i ⟨pkt, hpkt, htype⟩
    obtain ⟨hnet, -⟩ := h.coherent hcb hstart j
    refine ⟨j, hij, ?_⟩
    have hkeeps := h.keeps j
    rw [h.step j]
    rw [hevent] at hkeeps ⊢
    cases hkeeps with
    | data _ _ _ pkt₂ _ hpkt₂ hdata _ =>
      rw [hpkt'] at hpkt₂
      cases hpkt₂
      exact absurd htype' hdata
    | update _ _ _ pkt₂ _ hpkt₂ _ =>
      rw [(step_update cb (env j) hnet hpkt₂).2]
      exact (linkStep_update hpkt₂ (viewOf_afterUpdate (env j) _ b a pkt₂) _ a b).2 rfl rfl

end Executions

/-! ## Exact tables -/

lemma exactTables_of_exactUpTo {G : SimpleGraph PeerId} {net : Network ν} (hnet : Coherent net)
    (h : ExactUpTo G 15 (routingState net).table) : ExactTables G net.routers := by
  have hdist : ∀ {b d : PeerId} {n : ℕ}, (n : ℕ∞) = G.edist b d → G.dist b d = n := by
    intro b d n hn
    unfold SimpleGraph.dist
    rw [← hn, ENat.toNat_natCast]
  constructor
  · intro b d e he hlt
    rw [lt_infCost_iff] at hlt
    have hlive := liveRoute_eq_some.mpr ⟨e, he, hlt, rfl, rfl⟩
    by_cases hd : b = d
    · subst hd
      rw [hnet.own b] at hlive
      rw [SimpleGraph.dist_self]
      exact ⟨congrArg Prod.fst (Option.some.inj hlive).symm, fun hne => absurd rfl hne⟩
    · obtain ⟨hnear, hfar⟩ := h b d (Ne.symm hd)
      have hle : G.edist b d ≤ (15 : ℕ) := by
        by_contra hgt
        have := hfar hgt _ _ hlive
        omega
      obtain ⟨c, hop, hlive', hcost, hadj, hcloser⟩ := hnear hle
      obtain ⟨rfl, rfl⟩ := Prod.mk.inj (Option.some.inj (hlive.symm.trans hlive'))
      refine ⟨(hdist hcost).symm, fun _ => ⟨hadj, ?_⟩⟩
      have hfinite : G.edist e.nextHop d ≠ ⊤ := by
        intro htop
        rw [htop, top_add] at hcloser
        rw [← hcloser] at hcost
        exact ENat.natCast_ne_top _ hcost
      obtain ⟨n, hn⟩ := ENat.ne_top_iff_exists.mp hfinite
      rw [hdist hn]
      rw [← hn] at hcloser
      exact (hdist (by exact_mod_cast hcloser)).symm
  · intro b d hreach hlt
    by_cases hd : b = d
    · subst hd
      obtain ⟨e, he, hlt', -⟩ := liveRoute_eq_some.mp (hnet.own b)
      exact ⟨e, he, lt_infCost_iff.mpr hlt'⟩
    · have hle : G.edist b d ≤ (15 : ℕ) := by
        rw [← hreach.coe_dist_eq_edist]
        exact_mod_cast Nat.lt_succ_iff.mp hlt
      obtain ⟨c, hop, hlive, -⟩ := (h b d (Ne.symm hd)).1 hle
      obtain ⟨e, he, hlt', -⟩ := liveRoute_eq_some.mp hlive
      exact ⟨e, he, lt_infCost_iff.mpr hlt'⟩

/-- The tables become exact and stay exact. -/
lemma SteadyExecution.eventually_exact {G : SimpleGraph PeerId} {cb : PeerId → OnPacketForMe ν}
    {σ : ℕ → Network ν} {env : ℕ → StepEnv} {event : ℕ → NetworkEvent}
    (h : SteadyExecution G cb σ env event) (hlinks : {x : PeerId × PeerId | G.Adj x.1 x.2}.Finite)
    (hcb : ∀ b, SendsData (cb b)) (hstart : Coherent (σ 0)) (hfair : FairExecution G σ env event) :
    ∃ n, ∀ i, n ≤ i → ExactTables G (σ i).routers := by
  obtain ⟨n, -, hexact⟩ := (h.execution hcb hstart).eventually_exact
    (h.fair hcb hstart hfair) hlinks 0
    (r := 15) (by decide)
  exact ⟨n, fun i hi => exactTables_of_exactUpTo (h.coherent hcb hstart i).1 (hexact i hi)⟩

end MeshNetwork.Proofs
