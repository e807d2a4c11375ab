import MeshNetwork.Proofs.EventualDelivery

/-!
# The peers in the network

Dead entries are not renewed while the links stay, so that ticks remove them. A node then lists
exactly the nodes within its reach.
-/

namespace MeshNetwork.Proofs

variable {ν : Type}

/-! ## Dead entries -/

/-- The entry of `d` is dead since `t`. -/
def DeadSince (s : RouterState) (d : PeerId) (t : Time) : Prop :=
  ∃ e, s.forwardingTable.lookup d = some e ∧ e.cost ≥ infCost ∧ e.lastUpdated = t

/-- A destination without a live entry. -/
def NotLive (s : RouterState) (d : PeerId) : Prop :=
  ∀ e, s.forwardingTable.lookup d = some e → e.cost ≥ infCost

section Steps

variable {self : PeerId} {env : StepEnv} {s s' : RouterState} {d : PeerId} {t : Time}

/-- Recalculation does not enter dead entries, and it leaves those that are there. -/
lemma recalculate_deadSince (hfin : StoredFinite s.neighborViews) (now : Time) (hold : NotLive s d)
    (h : DeadSince (s.recalculateForwardingTable self env now) d t) : DeadSince s d t := by
  obtain ⟨e, he, hdead, ht⟩ := h
  rw [lookup_recalculate] at he
  have hcomputed : ∀ new, (computeTable self env.order now s.neighborViews).lookup d = some new →
      new.cost.toNat < 16 := by
    intro new hnew
    by_cases hd : d = self
    · rw [hd, lookup_computeTable_self] at hnew
      obtain rfl := Option.some.inj hnew
      split_ifs <;> simp
    · have hbest := computeTable_best self env.order now hfin hd
      rw [hnew] at hbest
      exact hbest.route.1
  rw [ge_infCost_iff] at hdead
  cases hnew : (computeTable self env.order now s.neighborViews).lookup d with
  | some new =>
    obtain ⟨e', he', hcost, -⟩ := mergedEntry_some now new (s.forwardingTable.lookup d)
    rw [hnew, he'] at he
    obtain rfl := Option.some.inj he
    have hlive := hcomputed new hnew
    rw [hcost] at hdead
    omega
  | none =>
    rw [hnew] at he
    obtain ⟨-, o, ho, -⟩ := mergedEntry_none he
    have ho' := hold o ho
    rw [ho] at he
    dsimp only [mergedEntry] at he
    rw [if_neg (by rw [lt_infCost_iff]; rw [ge_infCost_iff] at ho'; omega)] at he
    exact ⟨o, ho, ho', Option.some.inj he ▸ ht⟩

/-- A tick without expiries keeps the dead entries that are not older than 15 s, and no others. -/
lemma tick_deadSince (hstay : s.expireNeighbors self env (env.clock 0) = s)
    (h : DeadSince (s.runPeriodicMaintenance self env).2 d t) :
    DeadSince s d t ∧ env.clock 0 - t ≤ seconds 15 := by
  obtain ⟨e, he, hdead, ht⟩ := h
  obtain ⟨last, seen, htick⟩ := runPeriodicMaintenance_frame self env s
  rw [htick] at he
  dsimp only [RouterState.removeDeadRoutes] at he
  rw [lookup_collectGarbage, hstay] at he
  obtain ⟨he, hkept⟩ := Option.filter_eq_some_iff.mp he
  have hyoung : env.clock 0 - e.lastUpdated ≤ seconds 15 := by
    rw [decide_eq_true_eq, not_and, not_lt] at hkept
    exact hkept hdead
  refine ⟨?_, ht ▸ hyoung⟩
  unfold RouterState.fireTrigger at he
  split_ifs at he
  · dsimp only at he
    rw [sendTriggeredUpdates_state, lookup_collectDirty] at he
    obtain ⟨e₀, he₀, rfl⟩ := Option.map_eq_some_iff.mp he
    refine ⟨e₀, he₀, ?_, ?_⟩
    · split_ifs at hdead <;> exact hdead
    · split_ifs at ht <;> exact ht
  · exact ⟨e, he, hdead, ht⟩

/-- Only routes that were live become dead. -/
lemma RouterMove.deadSince {event : RouterEvent} (h : RouterMove self env s event s')
    (hagrees : TableAgrees self s)
    (hstay : event = .maintenance → s.expireNeighbors self env (env.clock 0) = s)
    (hold : NotLive s d) (hdead : DeadSince s' d t) : DeadSince s d t := by
  have hheard : ∀ src now, (s.heardFrom src now).forwardingTable = s.forwardingTable := by
    intro src now
    obtain ⟨views, hviews⟩ := heardFrom_frame s src now
    rw [hviews]
  cases h with
  | ignored _ => exact hdead
  | @update src pkt _ _ _ =>
    have hagrees' := processRoutingUpdate_agrees self env
      (hagrees.of_same (heardFrom_same s src (env.clock 0))) src
      pkt.routeTable
    unfold RouterState.processRoutingUpdate at hagrees' hdead
    have hfin := hagrees'.finite
    rw [recalculate_views] at hfin
    have hbefore :=
      recalculate_deadSince hfin (env.clock 2) (by unfold NotLive; rw [hheard]; exact hold) hdead
    unfold DeadSince at hbefore ⊢
    rwa [hheard] at hbefore
  | @data src pkt _ _ seen =>
    unfold DeadSince at hdead ⊢
    rwa [hheard] at hdead
  | connected p =>
    unfold RouterState.peerConnected at hdead
    refine recalculate_deadSince (s := { s with neighborViews := s.neighborViews.insert p _ }) ?_
      (env.clock 1) hold hdead
    exact storedFinite_insert hagrees.finite p (hagrees.finite.view p)
  | disconnected p =>
    unfold RouterState.peerDisconnected at hdead
    refine recalculate_deadSince (s := { s with neighborViews := s.neighborViews.erase p }) ?_
      (env.clock 1) hold hdead
    exact fun n d c hc => hagrees.finite n d c (stored_erase hc)
  | maintenance => exact (tick_deadSince (hstay rfl) hdead).1
  | sent pkt seen => exact hdead

/-- The last change of any entry. -/
lemma exists_lastUpdated_le (s : RouterState) :
    ∃ T : ℕ, ∀ d e, s.forwardingTable.lookup d = some e → (e.lastUpdated : ℕ) ≤ T := by
  obtain ⟨T, hT⟩ := ((List.finite_toSet s.forwardingTable.entries).image
    fun entry => (entry.2.lastUpdated : ℕ)).bddAbove
  refine ⟨T, fun d e he => hT ⟨⟨d, e⟩, ?_, rfl⟩⟩
  exact AList.mem_lookup_iff.mp he

end Steps

section Executions

variable {G : SimpleGraph PeerId} {cb : PeerId → OnPacketForMe ν} {net : Network ν}
  {σ : ℕ → Network ν}
  {env : ℕ → StepEnv} {event : ℕ → NetworkEvent} {x d : PeerId}

/-- A live entry of an exact table leads to a node within reach. -/
lemma ExactTables.notLive {routers : PeerId → RouterState} (h : ExactTables G routers)
    (hfar : ¬(G.Reachable x d ∧ G.dist x d < 16)) : NotLive (routers x) d := by
  intro e he
  by_contra hlive
  rw [ge_infCost_iff, not_le] at hlive
  obtain ⟨hcost, hnext⟩ := h.exact x d e he (lt_infCost_iff.mpr hlive)
  refine hfar ⟨?_, by omega⟩
  by_cases hxd : x = d
  · rw [hxd]
  · obtain ⟨-, hcloser⟩ := hnext hxd
    exact SimpleGraph.Reachable.of_dist_ne_zero (by omega)

/-- One event leaves the dead entries as they are or removes them. -/
lemma KeepsLinks.deadSince {env : StepEnv} {event : NetworkEvent} (h : KeepsLinks G net env event)
    (hnet : Coherent net) (hold : NotLive (net.routers x) d) {t : Time}
    (hdead : DeadSince ((net.step cb env event).routers x) d t) :
    DeadSince (net.routers x) d t := by
  have hmove : ∀ y routerEvent s', RouterMove y env (net.routers y) routerEvent s' →
      (routerEvent = .maintenance → (net.routers y).expireNeighbors y env (env.clock 0) =
        net.routers y) →
      DeadSince (Function.update net.routers y s' x) d t → DeadSince (net.routers x) d t := by
    intro y routerEvent s' hmove hstay hdead
    by_cases hx : x = y
    · subst hx
      rw [Function.update_self] at hdead
      exact hmove.deadSince (hnet.agrees x) hstay hold hdead
    · rwa [Function.update_of_ne hx] at hdead
  cases h with
  | tick y htime hheard =>
    rw [step_tick, apply_eq] at hdead
    exact hmove y .maintenance _ .maintenance (fun _ => expireNeighbors_eq hheard) hdead
  | send y pkt htime htype =>
    simp only [Network.step, apply_eq] at hdead
    exact hmove y _ _ (step_move (cb y) y env (net.owners y) (net.routers y) (.sendPacket pkt))
      (by simp) hdead
  | data src y index pkt htime hpkt htype _ =>
    rw [step_deliver_some hpkt, apply_eq] at hdead
    exact hmove y _ _ (step_move (cb y) y env (net.owners y) (net.routers y)
      (.packetReceived src pkt)) (by simp) hdead
  | update src y index pkt htime hpkt _ =>
    rw [step_deliver_some hpkt.packet, apply_eq] at hdead
    exact hmove y _ _ (step_move (cb y) y env (net.owners y) (net.routers y)
      (.packetReceived src pkt)) (by simp) hdead

/-- A dead entry is never renewed. -/
lemma SteadyExecution.deadSince (h : SteadyExecution G cb σ env event) (hcb : ∀ b, SendsData (cb b))
    (hstart : Coherent (σ 0)) {n : ℕ} (hexact : ∀ i, n ≤ i → ExactTables G (σ i).routers)
    (hfar : ¬(G.Reachable x d ∧ G.dist x d < 16)) {i j : ℕ} (hi : n ≤ i) (hij : i ≤ j) {t : Time}
    (hdead : DeadSince ((σ j).routers x) d t) : DeadSince ((σ i).routers x) d t := by
  induction j, hij using Nat.le_induction with
  | base => exact hdead
  | succ j hij ih =>
    rw [h.step j] at hdead
    exact ih ((h.keeps j).deadSince (h.coherent hcb hstart j).1
      ((hexact j (by omega)).notLive hfar) hdead)

/-- The first tick that is late enough removes the dead entries for good. -/
lemma SteadyExecution.eventually_clean (h : SteadyExecution G cb σ env event)
    (hcb : ∀ b, SendsData (cb b)) (hstart : Coherent (σ 0)) (hfair : FairExecution G σ env event)
    {n : ℕ} (hexact : ∀ i, n ≤ i → ExactTables G (σ i).routers) {y : PeerId} (hadj : G.Adj x y) :
    ∃ m, ∀ i, m ≤ i → ∀ d t, ¬(G.Reachable x d ∧ G.dist x d < 16) → ¬DeadSince
      ((σ i).routers x) d t := by
  obtain ⟨T, hT⟩ := exists_lastUpdated_le ((σ n).routers x)
  obtain ⟨j, hj, hevent, hlate⟩ := hfair.ticks x y hadj n (T + (seconds 15 + 1) : ℕ)
  refine ⟨j + 1, fun i hi d t hfar hdead => ?_⟩
  have hafter := h.deadSince hcb hstart hexact hfar (by omega) hi hdead
  have hkeeps := h.keeps j
  rw [h.step j, hevent, step_tick, apply_eq] at hafter
  dsimp only at hafter
  rw [Function.update_self] at hafter
  rw [hevent] at hkeeps
  cases hkeeps with
  | tick _ _ hheard =>
    obtain ⟨hbefore, hyoung⟩ := tick_deadSince (expireNeighbors_eq hheard) hafter
    obtain ⟨e, he, -, rfl⟩ := h.deadSince hcb hstart hexact hfar le_rfl hj hbefore
    exact absurd hyoung (not_le.mpr (Nat.lt_sub_of_add_lt (lt_of_lt_of_le (by
      rw [Nat.add_comm]
      exact Nat.add_lt_add_of_le_of_lt (hT d e he) (Nat.lt_succ_self _)) hlate)))

end Executions

/-- Once the links stay, every node with a link lists exactly the nodes within its reach. -/
theorem fairExecution_peersInNetwork (G : SimpleGraph PeerId)
    (hlinks : {x : PeerId × PeerId | G.Adj x.1 x.2}.Finite) (cb : PeerId → OnPacketForMe ν)
    (hcb : ∀ b, SendsData (cb b)) (now : PeerId → Time) (owners : PeerId → ν) (σ : ℕ → Network ν)
    (env : ℕ → StepEnv) (event : ℕ → NetworkEvent)
    (hhistory : Relation.ReflTransGen (Network.Moves cb Admitted) (Network.create now owners) (σ 0))
    (hrun : SteadyExecution G cb σ env event) (hfair : FairExecution G σ env event) :
    ∃ n, ∀ i, n ≤ i → ∀ x y, G.Adj x y → ∀ ord,
      (((σ i).routers x).getPeersInNetwork ord).Nodup ∧
      ∀ d, d ∈ ((σ i).routers x).getPeersInNetwork ord ↔ G.Reachable x d ∧ G.dist x d < 16 := by
  have hstart := history_coherent hcb hhistory
  obtain ⟨n, hexact⟩ := hrun.eventually_exact hlinks hcb hstart hfair
  have hclean : ∀ᶠ i in Filter.atTop, ∀ link ∈ {x : PeerId × PeerId | G.Adj x.1 x.2}, ∀ d t,
      ¬(G.Reachable link.1 d ∧ G.dist link.1 d < 16) → ¬DeadSince ((σ i).routers link.1) d t := by
    rw [Filter.eventually_all_finite hlinks]
    rintro ⟨x, y⟩ hadj
    exact Filter.eventually_atTop.mpr (hrun.eventually_clean hcb hstart hfair hexact hadj)
  obtain ⟨m, hm⟩ := Filter.eventually_atTop.mp hclean
  refine ⟨max n m, fun i hi x y hadj ord => ⟨?_, fun d => ?_⟩⟩
  · exact (ord.visit_perm 0 _).nodup_iff.mpr ((σ i).routers x).forwardingTable.nodupKeys
  · have hmem : d ∈ ((σ i).routers x).getPeersInNetwork ord ↔
        d ∈ ((σ i).routers x).forwardingTable :=
      (ord.visit_perm 0 _).mem_iff
    rw [hmem, UMap.mem_iff_lookup]
    constructor
    · rintro ⟨e, he⟩
      by_contra hfar
      exact hm i (by omega) (x, y) hadj d _ hfar
        ⟨e, he, (hexact i (by omega)).notLive hfar e he, rfl⟩
    · rintro ⟨hreach, hnear⟩
      obtain ⟨e, he, -⟩ := (hexact i (by omega)).complete x d hreach hnear
      exact ⟨e, he⟩

/-- A node lists its neighbour, and no longer the node that is gone. -/
theorem fairExecution_peersInNetwork_pair :
    "c" ∈ ((pairRun 0).routers "a").getPeersInNetwork (IterOrder.stored PeerId) ∧
      ∃ n, ∀ i, n ≤ i → "b" ∈ ((pairRun i).routers "a").getPeersInNetwork
        (IterOrder.stored PeerId) ∧
        "c" ∉ ((pairRun i).routers "a").getPeersInNetwork (IterOrder.stored PeerId) := by
  obtain ⟨n, hn⟩ := fairExecution_peersInNetwork (SimpleGraph.edge "a" "b") pair_finite silent
    silent_sendsData
    (fun _ => 0) (fun _ => ()) pairRun (fun i => plainEnv (pairTime i)) pairEvent pairStart_history
    pairRun_steady
    pairRun_fair
  have hdist : (SimpleGraph.edge "a" "b").dist "a" "b" = 1 :=
    SimpleGraph.dist_eq_one_iff_adj.mpr pair_adj
  refine ⟨by decide, n, fun i hi => ?_⟩
  have hlists := (hn i hi "a" "b" pair_adj (IterOrder.stored PeerId)).2
  refine ⟨(hlists "b").mpr ⟨pair_adj.reachable, hdist.trans_lt (by decide)⟩, fun hc => ?_⟩
  rcases pair_reachable ((hlists "c").mp hc).1 with h | h
  · exact absurd h (by decide)
  · exact absurd h (by decide)

end MeshNetwork.Proofs
