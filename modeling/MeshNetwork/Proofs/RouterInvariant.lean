import MeshNetwork.Library.EventRuns
import MeshNetwork.Proofs.RoutingTable

/-!
# The forwarding table agrees with the neighbour views

In every reachable state of a router the live entries of the forwarding table are the solution of
the Bellman-Ford equation for the stored views.
-/

namespace MeshNetwork.Proofs

/-- `c` is the least cost to `d`, and `n` is a neighbour that attains it. -/
structure BestRoute (views : UMap PeerId NeighborView) (d n : PeerId) (c : Nat) : Prop where
  candidate : Candidate views d n c
  least : ∀ n' c', Candidate views d n' c' → c ≤ c'
  direct : d ∈ views → n = d

/-- The forwarding table is the one that the views determine, up to dead entries. -/
structure TableAgrees (selfId : PeerId) (s : RouterState) : Prop where
  finite : StoredFinite s.neighborViews
  cost_le : ∀ d e, s.forwardingTable.lookup d = some e → e.cost.toNat ≤ 16
  live : ∀ d, d ≠ selfId → ∀ e, s.forwardingTable.lookup d = some e → e.cost.toNat < 16 →
    BestRoute s.neighborViews d e.nextHop e.cost.toNat
  complete : ∀ d, d ≠ selfId → ∀ n c, Candidate s.neighborViews d n c → c < 16 →
    ∃ e, s.forwardingTable.lookup d = some e ∧ e.cost.toNat < 16

lemma Candidate.mem {views : UMap PeerId NeighborView} {d n : PeerId} {c : Nat}
    (h : Candidate views d n c) : n ∈ views := by
  rcases h with ⟨rfl, hmem, -⟩ | ⟨r, ⟨view, hview, -⟩, -⟩
  · exact hmem
  · exact (UMap.mem_iff_lookup views n).mpr ⟨view, hview⟩

/-! ## Recalculation -/

lemma mergedEntry_some (now : Time) (new : RouteEntry) (old : Option RouteEntry) :
    ∃ e, mergedEntry now (some new) old = some e ∧ e.cost = new.cost ∧ e.nextHop = new.nextHop := by
  cases old with
  | none => exact ⟨_, rfl, rfl, rfl⟩
  | some old =>
    dsimp only [mergedEntry]
    by_cases hch : old.cost ≠ new.cost ∨ old.nextHop ≠ new.nextHop
    · rw [if_pos hch]
      exact ⟨_, rfl, rfl, rfl⟩
    · rw [if_neg hch]
      rw [not_or, not_not, not_not] at hch
      exact ⟨old, rfl, hch.1, hch.2⟩

lemma mergedEntry_none {now : Time} {old : Option RouteEntry} {e : RouteEntry}
    (h : mergedEntry now none old = some e) :
    16 ≤ e.cost.toNat ∧ ∃ o, old = some o ∧ (e.cost.toNat = 16 ∨ e.cost = o.cost) := by
  cases old with
  | none => cases h
  | some old =>
    dsimp only [mergedEntry] at h
    by_cases hlive : old.cost < infCost
    · rw [if_pos hlive] at h
      cases h
      exact ⟨le_rfl, old, rfl, .inl rfl⟩
    · rw [if_neg hlive, Option.some_inj] at h
      rw [lt_infCost_iff, not_lt] at hlive
      rw [← h]
      exact ⟨hlive, old, rfl, .inr rfl⟩

lemma Best.route {now : Time} {views : UMap PeerId NeighborView} {d : PeerId} {e : RouteEntry}
    (h : Best now views d (some e)) :
    e.cost.toNat < 16 ∧ BestRoute views d e.nextHop e.cost.toNat := by
  cases h with
  | neighbor hmem =>
    refine ⟨by simp, .inl ⟨rfl, hmem, rfl⟩, fun n' c' hc => ?_, fun _ => rfl⟩
    rcases hc with ⟨-, -, rfl⟩ | ⟨r, -, rfl⟩
    · exact le_rfl
    · exact Nat.le_add_left 1 _
  | learned n c hmem hst hc hmin =>
    have hsucc := succ_toNat (c := c) (by omega)
    rw [hsucc]
    refine ⟨by omega, .inr ⟨c, hst, rfl⟩, fun n' c' hc' => ?_, fun hin => absurd hin hmem⟩
    rcases hc' with ⟨-, hin, -⟩ | ⟨r, hr, rfl⟩
    · exact absurd hin hmem
    · exact Nat.add_le_add_right (hmin n' r hr) 1

lemma Best.unreachable_of_none {now : Time} {views : UMap PeerId NeighborView} {d : PeerId}
    (h : Best now views d none) {n : PeerId} {c : Nat} (hc : Candidate views d n c) : 16 ≤ c := by
  cases h with
  | unreachable hmem hall =>
    rcases hc with ⟨-, hin, -⟩ | ⟨r, hr, rfl⟩
    · exact absurd hin hmem
    · have := hall n r hr
      omega

section Recalculation

variable (self : PeerId) (env : StepEnv) (now : Time) {s : RouterState}

/-- Recalculation leaves the best route to another node, or an entry that is dead if there is
none. -/
lemma recalculate_entry (hfin : StoredFinite s.neighborViews)
    (hle : ∀ d e, s.forwardingTable.lookup d = some e → e.cost.toNat ≤ 16) {d : PeerId}
    (hd : d ≠ self) :
    (∃ e, (s.recalculateForwardingTable self env now).forwardingTable.lookup d = some e ∧
      e.cost.toNat < 16 ∧ BestRoute s.neighborViews d e.nextHop e.cost.toNat) ∨
    ((∀ n c, Candidate s.neighborViews d n c → 16 ≤ c) ∧
      ∀ e, (s.recalculateForwardingTable self env now).forwardingTable.lookup d = some e →
        e.cost.toNat = 16) := by
  have hbest := computeTable_best self env.order now hfin hd
  rw [lookup_recalculate]
  generalize (computeTable self env.order now s.neighborViews).lookup d = new at hbest ⊢
  cases new with
  | none =>
    refine .inr ⟨fun n c hc => hbest.unreachable_of_none hc, fun e he => ?_⟩
    obtain ⟨hdead, o, ho, hcost | hcost⟩ := mergedEntry_none he
    · exact hcost
    · rw [hcost] at hdead ⊢
      exact le_antisymm (hle d o ho) hdead
  | some new =>
    obtain ⟨e, he, hcost, hhop⟩ := mergedEntry_some now new (s.forwardingTable.lookup d)
    refine .inl ⟨e, he, ?_⟩
    rw [hcost, hhop]
    exact hbest.route

lemma recalculate_own_cost {e : RouteEntry}
    (he : (s.recalculateForwardingTable self env now).forwardingTable.lookup self = some e) :
    e.cost.toNat ≤ 16 := by
  rw [lookup_recalculate, lookup_computeTable_self] at he
  obtain ⟨e', he', hcost, -⟩ := mergedEntry_some now
    (if self ∈ s.neighborViews then ⟨self, 1, true, now⟩ else ⟨self, 0, false, now⟩)
    (s.forwardingTable.lookup self)
  rw [he'] at he
  cases he
  rw [hcost]
  split_ifs <;> simp

/-- Recalculation establishes the agreement from finite views. -/
theorem recalculate_agrees (hfin : StoredFinite s.neighborViews)
    (hle : ∀ d e, s.forwardingTable.lookup d = some e → e.cost.toNat ≤ 16) :
    TableAgrees self (s.recalculateForwardingTable self env now) := by
  have hviews := recalculate_views self env now s
  constructor
  · rw [hviews]
    exact hfin
  · intro d e he
    by_cases hd : d = self
    · rw [hd] at he
      exact recalculate_own_cost self env now he
    · rcases recalculate_entry self env now hfin hle hd with ⟨e', he', hlive, -⟩ | ⟨-, hdead⟩
      · rw [he'] at he
        cases he
        exact hlive.le
      · exact (hdead e he).le
  · intro d hd e he hlive
    rw [hviews]
    rcases recalculate_entry self env now hfin hle hd with ⟨e', he', -, hroute⟩ | ⟨-, hdead⟩
    · rw [he'] at he
      cases he
      exact hroute
    · have := hdead e he
      omega
  · intro d hd n c hc hlt
    rw [hviews] at hc
    rcases recalculate_entry self env now hfin hle hd with ⟨e, he, hlive, -⟩ | ⟨hnone, -⟩
    · exact ⟨e, he, hlive⟩
    · have := hnone n c hc
      omega

end Recalculation

/-! ## Steps that keep the routes -/

/-- `s'` has the views of `s` up to times, and its table up to flags, times and dead entries. -/
structure SameRoutes (s s' : RouterState) : Prop where
  stored : ∀ n d c, Stored s'.neighborViews n d c ↔ Stored s.neighborViews n d c
  mem : ∀ n, n ∈ s'.neighborViews ↔ n ∈ s.neighborViews
  entry : ∀ d e', s'.forwardingTable.lookup d = some e' →
    ∃ e, s.forwardingTable.lookup d = some e ∧ e'.cost = e.cost ∧ e'.nextHop = e.nextHop
  kept : ∀ d e, s.forwardingTable.lookup d = some e → e.cost.toNat < 16 →
    ∃ e', s'.forwardingTable.lookup d = some e' ∧ e'.cost = e.cost ∧ e'.nextHop = e.nextHop

lemma SameRoutes.of_eq {s s' : RouterState} (hviews : s'.neighborViews = s.neighborViews)
    (htable : s'.forwardingTable = s.forwardingTable) : SameRoutes s s' := by
  refine ⟨fun n d c => by rw [hviews], fun n => by rw [hviews], fun d e' he' => ?_,
    fun d e he _ => ?_⟩
  · exact ⟨e', htable ▸ he', rfl, rfl⟩
  · exact ⟨e, htable ▸ he, rfl, rfl⟩

lemma SameRoutes.trans {s s' s'' : RouterState} (h : SameRoutes s s') (h' : SameRoutes s' s'') :
    SameRoutes s s'' := by
  refine ⟨fun n d c => (h'.stored n d c).trans (h.stored n d c),
    fun n => (h'.mem n).trans (h.mem n), fun d e'' he'' => ?_, fun d e he hlive => ?_⟩
  · obtain ⟨e', he', hcost', hhop'⟩ := h'.entry d e'' he''
    obtain ⟨e, he, hcost, hhop⟩ := h.entry d e' he'
    exact ⟨e, he, hcost'.trans hcost, hhop'.trans hhop⟩
  · obtain ⟨e', he', hcost, hhop⟩ := h.kept d e he hlive
    obtain ⟨e'', he'', hcost', hhop'⟩ := h'.kept d e' he' (hcost ▸ hlive)
    exact ⟨e'', he'', hcost'.trans hcost, hhop'.trans hhop⟩

/-- One router of several changes. -/
lemma SameRoutes.update {routers : PeerId → RouterState} {b : PeerId} {s : RouterState}
    (h : SameRoutes (routers b) s) (x : PeerId) :
    SameRoutes (routers x) (Function.update routers b s x) := by
  by_cases hx : x = b
  · rw [hx, Function.update_self]
    exact h
  · rw [Function.update_of_ne hx]
    exact .of_eq rfl rfl

lemma SameRoutes.candidate {s s' : RouterState} (h : SameRoutes s s') (d n : PeerId) (c : Nat) :
    Candidate s'.neighborViews d n c ↔ Candidate s.neighborViews d n c := by
  unfold Candidate
  simp only [h.stored, h.mem]

theorem TableAgrees.of_same {self : PeerId} {s s' : RouterState} (h : TableAgrees self s)
    (hsame : SameRoutes s s') : TableAgrees self s' := by
  refine ⟨fun n d c hc => h.finite n d c ((hsame.stored n d c).mp hc), ?_, ?_, ?_⟩
  · intro d e' he'
    obtain ⟨e, he, hcost, -⟩ := hsame.entry d e' he'
    rw [hcost]
    exact h.cost_le d e he
  · intro d hd e' he' hlive
    obtain ⟨e, he, hcost, hhop⟩ := hsame.entry d e' he'
    rw [hcost] at hlive
    have hbest := h.live d hd e he hlive
    rw [hcost, hhop]
    exact ⟨(hsame.candidate d _ _).mpr hbest.candidate,
      fun n' c' hc' => hbest.least n' c' ((hsame.candidate d n' c').mp hc'),
      fun hmem => hbest.direct ((hsame.mem d).mp hmem)⟩
  · intro d hd n c hc hlt
    obtain ⟨e, he, hlive⟩ := h.complete d hd n c ((hsame.candidate d n c).mp hc) hlt
    obtain ⟨e', he', hcost, -⟩ := hsame.kept d e he hlive
    exact ⟨e', he', hcost ▸ hlive⟩

lemma heardFrom_frame (s : RouterState) (src : PeerId) (now : Time) :
    ∃ views, s.heardFrom src now = { s with neighborViews := views } := by
  unfold RouterState.heardFrom
  split <;> exact ⟨_, rfl⟩

lemma heardFrom_same (s : RouterState) (srcId : PeerId) (now : Time) :
    SameRoutes s (s.heardFrom srcId now) := by
  unfold RouterState.heardFrom
  cases hview : s.neighborViews.lookup srcId with
  | none => exact .of_eq rfl rfl
  | some view =>
    refine ⟨fun n d c => ?_, fun n => ?_, fun d e' he' => ⟨e', he', rfl, rfl⟩,
      fun d e he _ => ⟨e, he, rfl, rfl⟩⟩
    · unfold Stored
      dsimp only
      rw [UMap.lookup_insert_eq]
      by_cases hn : n = srcId
      · subst hn
        rw [if_pos rfl, hview]
        simp only [Option.some.injEq, exists_eq_left']
      · rw [if_neg hn]
    · rw [AList.mem_insert]
      constructor
      · rintro (rfl | hmem)
        · exact (UMap.mem_iff_lookup _ _).mpr ⟨view, hview⟩
        · exact hmem
      · exact .inr

/-- Forwarding a packet only adds to the packet ids that have been seen. -/
lemma forwardPacket_frame (self : PeerId) (ord : IterOrder PeerId) (now : Time) (s : RouterState)
    (src dest : PeerId) (pktId : String) (pkt : RoutedPacket) :
    ∃ seen, (s.forwardPacket self ord now src dest pktId pkt).2 =
      { s with seenPacketIds := seen } := by
  unfold RouterState.forwardPacket
  dsimp only
  split_ifs <;> exact ⟨_, rfl⟩

lemma sendOwnPackets_frame (self : PeerId) (env : StepEnv) (i : Nat) (s : RouterState)
    (pkts : List RoutedPacket) :
    ∃ seen, (s.sendOwnPackets self env i pkts).2 = { s with seenPacketIds := seen } := by
  induction pkts generalizing i s with
  | nil => exact ⟨_, rfl⟩
  | cons pkt pkts ih =>
    have hfirst : ∃ seen, (s.sendOwnPacket self env.order (env.clock i) pkt).2 =
        { s with seenPacketIds := seen } := by
      unfold RouterState.sendOwnPacket
      split_ifs
      · exact ⟨_, rfl⟩
      · exact forwardPacket_frame ..
    obtain ⟨seen, hseen⟩ := hfirst
    obtain ⟨seen', hseen'⟩ := ih (i + 1) { s with seenPacketIds := seen }
    refine ⟨seen', ?_⟩
    change (RouterState.sendOwnPackets self env (i + 1) _ pkts).2 = _
    rw [hseen, hseen']

lemma routeDataPacket_frame {ν : Type} (cb : OnPacketForMe ν) (self : PeerId) (env : StepEnv)
    (owner : ν) (s : RouterState) (src dest : PeerId) (pktId : String) (pkt : RoutedPacket) :
    ∃ seen, (s.routeDataPacket cb self env owner src dest pktId pkt).2.2 =
      { s with seenPacketIds := seen } := by
  unfold RouterState.routeDataPacket
  dsimp only
  split_ifs
  · exact sendOwnPackets_frame ..
  · obtain ⟨seen, hseen⟩ := sendOwnPackets_frame self env 2 s (cb env owner s pkt).2.2
    rw [hseen]
    exact forwardPacket_frame ..
  · exact ⟨_, rfl⟩
  · exact forwardPacket_frame ..

/-- Data packets do not touch the routes. -/
lemma SameRoutes.of_frame {s s' : RouterState} (h : ∃ seen, s' = { s with seenPacketIds := seen }) :
    SameRoutes s s' := by
  obtain ⟨seen, rfl⟩ := h
  exact .of_eq rfl rfl

lemma lookup_collectDirty (ord : IterOrder PeerId) (table : UMap PeerId RouteEntry) (d : PeerId) :
    ((table.items ord 2).foldl collectDirty (∅, table)).2.lookup d =
      (table.lookup d).map fun e => if e.dirty ∨ e.cost ≥ infCost then { e with dirty := false }
      else e := by
  have hloop := UMap.get_foldl_items collectDirty (fun acc d => acc.2.lookup d)
    (fun _ cur (e : RouteEntry) => if e.dirty ∨
      e.cost ≥ infCost then some { e with dirty := false } else cur)
    (fun acc a e => by
      dsimp only [collectDirty]
      split_ifs
      · exact AList.lookup_insert _
      · rfl)
    (fun acc a e a' ha => by
      dsimp only [collectDirty]
      split_ifs
      · exact AList.lookup_insert_ne ha
      · rfl) ord 2 table (∅, table) d
  refine hloop.trans ?_
  cases table.lookup d with
  | none => rfl
  | some e =>
    dsimp only [Option.elim, Option.map]
    split_ifs <;> rfl

lemma sendTriggeredUpdates_state (ord : IterOrder PeerId) (s : RouterState) :
    (s.sendTriggeredUpdates ord).2 =
      { s with
        forwardingTable :=
          ((s.forwardingTable.items ord 2).foldl collectDirty (∅, s.forwardingTable)).2 } := by
  unfold RouterState.sendTriggeredUpdates
  dsimp only
  split_ifs <;> rfl

lemma sendTriggeredUpdates_same (ord : IterOrder PeerId) (s : RouterState) :
    SameRoutes s (s.sendTriggeredUpdates ord).2 := by
  rw [sendTriggeredUpdates_state]
  refine ⟨fun n d c => Iff.rfl, fun n => Iff.rfl, fun d e' he' => ?_, fun d e he _ => ?_⟩
  · dsimp only at he'
    rw [lookup_collectDirty] at he'
    obtain ⟨e, he, rfl⟩ := Option.map_eq_some_iff.mp he'
    refine ⟨e, he, ?_, ?_⟩ <;> split_ifs <;> rfl
  · dsimp only
    rw [lookup_collectDirty, he]
    refine ⟨_, rfl, ?_, ?_⟩ <;> dsimp only <;> split_ifs <;> rfl

lemma lookup_collectGarbage (ord : IterOrder PeerId) (now : Time) (table : UMap PeerId RouteEntry)
    (d : PeerId) :
    ((table.items ord 2).foldl (collectGarbage now) table).lookup d =
      (table.lookup d).filter fun e => ¬(e.cost ≥ infCost ∧ now - e.lastUpdated > seconds 15) := by
  have hloop := UMap.get_foldl_items (collectGarbage now) (fun t d => t.lookup d)
    (fun _ cur (e : RouteEntry) =>
      if e.cost ≥ infCost ∧ now - e.lastUpdated > seconds 15 then none else cur)
    (fun t a e => by
      dsimp only [collectGarbage]
      split_ifs
      · exact AList.lookup_erase _ _
      · rfl)
    (fun t a e a' ha => by
      dsimp only [collectGarbage]
      split_ifs
      · exact AList.lookup_erase_ne ha
      · rfl) ord 2 table table d
  refine hloop.trans ?_
  cases hl : table.lookup d with
  | none => rfl
  | some e =>
    dsimp only [Option.elim, Option.filter]
    by_cases hdead : e.cost ≥ infCost ∧ now - e.lastUpdated > seconds 15
    · simp [hdead]
    · simp [hdead]

lemma removeDeadRoutes_same (ord : IterOrder PeerId) (now : Time) (s : RouterState) :
    SameRoutes s (s.removeDeadRoutes ord now) := by
  have hlookup : ∀ d, (s.removeDeadRoutes ord now).forwardingTable.lookup d = _ :=
    lookup_collectGarbage ord now s.forwardingTable
  refine ⟨fun n d c => Iff.rfl, fun n => Iff.rfl, fun d e' he' => ?_, fun d e he hlive => ?_⟩
  · rw [hlookup] at he'
    exact ⟨e', (Option.filter_eq_some_iff.mp he').1, rfl, rfl⟩
  · refine ⟨e, ?_, rfl, rfl⟩
    rw [hlookup, he, Option.filter_some]
    apply if_pos
    rw [decide_eq_true_eq]
    rintro ⟨hdead, -⟩
    rw [ge_infCost_iff] at hdead
    omega

lemma fireTrigger_same (self : PeerId) (env : StepEnv) (now : Time) (s : RouterState) :
    SameRoutes s (s.fireTrigger self env now).2 := by
  unfold RouterState.fireTrigger
  split_ifs
  · exact (sendTriggeredUpdates_same env.order s).trans (.of_eq rfl rfl)
  · exact .of_eq rfl rfl

lemma firePeriodic_frame (self : PeerId) (env : StepEnv) (now : Time) (first : Nat)
    (s : RouterState) :
    ∃ last, (s.firePeriodic self env now first).2 = { s with lastPeriodicUpdate := last } := by
  unfold RouterState.firePeriodic
  split_ifs <;> exact ⟨_, rfl⟩

lemma firePeriodic_same (self : PeerId) (env : StepEnv) (now : Time) (first : Nat)
    (s : RouterState) :
    SameRoutes s (s.firePeriodic self env now first).2 := by
  obtain ⟨last, hlast⟩ := firePeriodic_frame self env now first s
  exact .of_eq (by rw [hlast]) (by rw [hlast])

/-- After the trigger a maintenance tick touches the dead routes, and nothing else of the tables. -/
lemma runPeriodicMaintenance_frame (self : PeerId) (env : StepEnv) (s : RouterState) :
    ∃ last seen, (s.runPeriodicMaintenance self env).2 =
      { ((s.expireNeighbors self env (env.clock 0)).fireTrigger self env
        (env.clock 0)).2.removeDeadRoutes
          env.order (env.clock 0) with
        lastPeriodicUpdate := last
        seenPacketIds := seen } := by
  unfold RouterState.runPeriodicMaintenance
  dsimp only
  obtain ⟨last, hlast⟩ := firePeriodic_frame self env (env.clock 0)
    ((s.expireNeighbors self env (env.clock 0)).fireTrigger self env (env.clock 0)).1.length
    ((s.expireNeighbors self env (env.clock 0)).fireTrigger self env (env.clock 0)).2
  rw [hlast]
  exact ⟨last, _, rfl⟩

/-! ## Steps that recalculate -/

lemma expireNeighbor_fold (now : Time) (l : List (PeerId × NeighborView))
    (acc : UMap PeerId NeighborView × Bool) :
    l.foldl (expireNeighbor now) acc = acc ∨ (l.foldl (expireNeighbor now) acc).2 = true := by
  refine UMap.foldl_eq_or_flag (fun acc nv => ?_) l acc
  unfold expireNeighbor
  split_ifs
  · exact .inr rfl
  · exact .inl rfl

lemma stored_erase {views : UMap PeerId NeighborView} {p n d : PeerId} {c : UInt32}
    (h : Stored (views.erase p) n d c) : Stored views n d c := by
  obtain ⟨view, hview, hc⟩ := h
  rw [UMap.lookup_erase_eq] at hview
  by_cases hn : n = p
  · rw [if_pos hn] at hview
    cases hview
  · rw [if_neg hn] at hview
    exact ⟨view, hview, hc⟩

/-- Expiring only erases: what an erasure cannot bring about, the loop over the neighbours cannot
either. -/
lemma of_expire {P : UMap PeerId NeighborView → Prop}
    (herase : ∀ views n, P (views.erase n) → P views) (now : Time)
    (l : List (PeerId × NeighborView)) (acc : UMap PeerId NeighborView × Bool)
    (h : P (l.foldl (expireNeighbor now) acc).1) : P acc.1 := by
  induction l generalizing acc with
  | nil => exact h
  | cons nv l ih =>
    have hstep := ih (expireNeighbor now acc nv) h
    unfold expireNeighbor at hstep
    split_ifs at hstep
    · exact herase _ _ hstep
    · exact hstep

lemma stored_expire (now : Time) (l : List (PeerId × NeighborView))
    (acc : UMap PeerId NeighborView × Bool) {n d : PeerId} {c : UInt32}
    (h : Stored (l.foldl (expireNeighbor now) acc).1 n d c) :
    Stored acc.1 n d c :=
  of_expire (P := fun views => Stored views n d c) (fun _ _ => stored_erase) now l acc h

lemma expireNeighbors_agrees (self : PeerId) (env : StepEnv) (now : Time) {s : RouterState}
    (h : TableAgrees self s) : TableAgrees self (s.expireNeighbors self env now) := by
  unfold RouterState.expireNeighbors
  dsimp only
  by_cases hflag : ((s.neighborViews.items env.order 0).foldl (expireNeighbor now)
    (s.neighborViews, false)).2
  · rw [if_pos hflag]
    exact recalculate_agrees self env _ (fun n d c hc => h.finite n d c (stored_expire now _ _ hc))
      h.cost_le
  · rw [if_neg hflag]
    rcases expireNeighbor_fold now (s.neighborViews.items env.order 0)
      (s.neighborViews, false) with heq | htrue
    · rw [heq]
      exact h
    · exact absurd htrue hflag

lemma runPeriodicMaintenance_agrees (self : PeerId) (env : StepEnv) {s : RouterState}
    (h : TableAgrees self s) : TableAgrees self (s.runPeriodicMaintenance self env).2 := by
  have hexp := expireNeighbors_agrees self env (env.clock 0) h
  exact hexp.of_same ((fireTrigger_same ..).trans ((firePeriodic_same ..).trans
    ((removeDeadRoutes_same ..).trans (.of_eq rfl rfl))))

lemma lookup_applyCost (ord : IterOrder PeerId) (table : RouteTable) (routes : UMap PeerId UInt32)
    (d : PeerId) :
    ((table.items ord 3).foldl applyCost routes).lookup d =
      (table.lookup d).elim (routes.lookup d) fun c => if c ≥ infCost then none else some c := by
  refine UMap.get_foldl_items applyCost (fun r d => r.lookup d)
    (fun _ _ c => if c ≥ infCost then none else some c) ?_ ?_ ord 3 table routes d
  · intro r a c
    dsimp only [applyCost]
    split_ifs
    · exact AList.lookup_erase _ _
    · exact AList.lookup_insert _
  · intro r a c a' ha
    dsimp only [applyCost]
    split_ifs
    · exact AList.lookup_erase_ne ha
    · exact AList.lookup_insert_ne ha

lemma storedFinite_insert {views : UMap PeerId NeighborView} (h : StoredFinite views) (n : PeerId)
    {view : NeighborView} (hview : ∀ d c, view.advertisedRoutes.lookup d = some c → c.toNat < 16) :
    StoredFinite (views.insert n view) := by
  intro n' d c hc
  obtain ⟨view', hl, hc⟩ := hc
  rw [UMap.lookup_insert_eq] at hl
  by_cases hn : n' = n
  · rw [if_pos hn] at hl
    cases hl
    exact hview d c hc
  · rw [if_neg hn] at hl
    exact h n' d c ⟨view', hl, hc⟩

lemma StoredFinite.view {views : UMap PeerId NeighborView} (h : StoredFinite views) (n : PeerId)
    (d : PeerId) (c : UInt32) (hc : ((views.lookup n).getD {}).advertisedRoutes.lookup d = some c) :
    c.toNat < 16 := by
  cases hl : views.lookup n with
  | none =>
    rw [hl] at hc
    cases hc
  | some view =>
    rw [hl] at hc
    exact h n d c ⟨view, hl, hc⟩

lemma updatedView_finite (env : StepEnv) {view : NeighborView}
    (h : ∀ d c, view.advertisedRoutes.lookup d = some c → c.toNat < 16) (table : RouteTable)
    (d : PeerId) (c : UInt32)
    (hc : (updatedView env view table).advertisedRoutes.lookup d = some c) : c.toNat < 16 := by
  unfold updatedView at hc
  dsimp only at hc
  rw [lookup_applyCost] at hc
  cases ht : table.lookup d with
  | none =>
    rw [ht] at hc
    exact h d c hc
  | some c' =>
    rw [ht] at hc
    dsimp only [Option.elim] at hc
    split_ifs at hc with hinf
    cases hc
    rw [ge_infCost_iff] at hinf
    omega

lemma processRoutingUpdate_agrees (self : PeerId) (env : StepEnv) {s : RouterState}
    (h : TableAgrees self s) (n : PeerId) (table : RouteTable) :
    TableAgrees self (s.processRoutingUpdate self env n table) :=
  recalculate_agrees self env _
    (storedFinite_insert h.finite n (updatedView_finite env (h.finite.view n) table)) h.cost_le

/-- What one event does to the state of a router. -/
inductive RouterMove (self : PeerId) (env : StepEnv) (s : RouterState) :
    RouterEvent → RouterState → Prop
  | ignored {src : PeerId} {pkt : RoutedPacket} (h : src = self ∨ pkt.fromPeerId = self) :
      RouterMove self env s (.packetReceived src pkt) s
  | update {src : PeerId} {pkt : RoutedPacket} (hsrc : src ≠ self) (hfrom : pkt.fromPeerId ≠ self)
      (htype : pkt.type = .routingUpdate) :
      RouterMove self env s (.packetReceived src pkt)
        ((s.heardFrom src (env.clock 0)).processRoutingUpdate self env src pkt.routeTable)
  | data {src : PeerId} {pkt : RoutedPacket} (hsrc : src ≠ self) (htype : pkt.type ≠ .routingUpdate)
      (seen : TimedDedupSet DedupKey) :
      RouterMove self env s (.packetReceived src pkt)
        { s.heardFrom src (env.clock 0) with seenPacketIds := seen }
  | connected (p : PeerId) : RouterMove self env s (.peerConnected p) (s.peerConnected self env p)
  | disconnected (p : PeerId) : RouterMove self env s (.peerDisconnected p)
      (s.peerDisconnected self env p)
  | maintenance : RouterMove self env s .maintenance (s.runPeriodicMaintenance self env).2
  | sent (pkt : RoutedPacket) (seen : TimedDedupSet DedupKey) :
      RouterMove self env s (.sendPacket pkt) { s with seenPacketIds := seen }

theorem step_move {ν : Type} (cb : OnPacketForMe ν) (self : PeerId) (env : StepEnv) (owner : ν)
    (s : RouterState) (event : RouterEvent) :
    RouterMove self env s event (s.step cb self env owner event).2.2 := by
  cases event with
  | packetReceived src pkt =>
    change RouterMove self env s _ (s.handlePacket cb self env owner src pkt).2.2
    unfold RouterState.handlePacket
    dsimp only
    split_ifs with hown htype
    · exact .ignored hown
    · exact .update (fun h => hown (.inl h)) (fun h => hown (.inr h)) htype
    · obtain ⟨seen, hseen⟩ := routeDataPacket_frame cb self env owner
        (s.heardFrom src (env.clock 0)) src
        pkt.toPeerId (toHex pkt.id) pkt
      rw [hseen]
      exact .data (fun h => hown (.inl h)) htype seen
  | peerConnected p => exact .connected p
  | peerDisconnected p => exact .disconnected p
  | maintenance => exact .maintenance
  | sendPacket pkt =>
    obtain ⟨seen, hseen⟩ :=
      routeDataPacket_frame cb self env owner s self pkt.toPeerId (toHex pkt.id) pkt
    change RouterMove self env s _ (s.routeDataPacket cb self env owner self pkt.toPeerId
      (toHex pkt.id) pkt).2.2
    rw [hseen]
    exact .sent pkt seen

/-- One event of a router keeps the agreement. -/
theorem step_agrees {ν : Type} (cb : OnPacketForMe ν) (self : PeerId) (env : StepEnv) (owner : ν)
    {s : RouterState} (h : TableAgrees self s) (event : RouterEvent) :
    TableAgrees self (s.step cb self env owner event).2.2 := by
  have hmove := step_move cb self env owner s event
  generalize (s.step cb self env owner event).2.2 = s' at hmove
  cases hmove with
  | ignored _ => exact h
  | @update src pkt _ _ _ =>
    exact processRoutingUpdate_agrees self env
      (h.of_same (heardFrom_same s src (env.clock 0))) src _
  | @data src pkt _ _ seen =>
    exact (h.of_same (heardFrom_same s src (env.clock 0))).of_same (.of_frame ⟨seen, rfl⟩)
  | connected p =>
    exact recalculate_agrees self env _ (storedFinite_insert h.finite p (h.finite.view p)) h.cost_le
  | disconnected p =>
    exact recalculate_agrees self env _ (fun n d c hc => h.finite n d c (stored_erase hc)) h.cost_le
  | maintenance => exact runPeriodicMaintenance_agrees self env h
  | sent pkt seen => exact h.of_same (.of_frame ⟨seen, rfl⟩)

lemma create_agrees (self : PeerId) (now : Time) :
    TableAgrees self (RouterState.create self now) := by
  have hlookup : ∀ d, (RouterState.create self now).forwardingTable.lookup d =
      if d = self then some ⟨self, 0, false, 0⟩ else none :=
    fun d => UMap.lookup_singleton_eq d self _
  have hnone : ∀ n d c, ¬Stored (RouterState.create self now).neighborViews n d c := by
    rintro n d c ⟨view, hview, -⟩
    cases hview
  refine ⟨fun n d c hc => absurd hc (hnone n d c), fun d e he => ?_, fun d hd e he => ?_, ?_⟩
  · rw [hlookup] at he
    split_ifs at he
    cases he
    exact Nat.zero_le _
  · rw [hlookup, if_neg hd] at he
    cases he
  · rintro d _ n c (⟨-, hmem, -⟩ | ⟨r, hr, -⟩)
    · exact absurd hmem (AList.notMem_empty d)
    · exact absurd hr (hnone n d r)

theorem run_agrees {ν : Type} {cb : OnPacketForMe ν} {self : PeerId} {owner₀ : ν}
    {events : List (StepEnv × RouterEvent)} {owner : ν} {s : RouterState}
    (h : RouterRun cb self owner₀ events owner s) : TableAgrees self s := by
  induction h with
  | create now => exact create_agrees self now
  | step env event _ ih => exact step_agrees cb self env _ ih event

/-- One step of a router and its owner. -/
def routerStep {ν : Type} (cb : OnPacketForMe ν) (self : PeerId) (os : ν × RouterState)
    (ee : StepEnv × RouterEvent) : ν × RouterState :=
  (os.2.step cb self ee.1 os.1 ee.2).2

theorem routerRun_iff {ν : Type} {cb : OnPacketForMe ν} {self : PeerId} {owner₀ : ν}
    {events : List (StepEnv × RouterEvent)} {owner : ν} {s : RouterState} :
    RouterRun cb self owner₀ events owner s ↔
      ∃ now, EventRun.run (routerStep cb self) (owner₀, RouterState.create self now) events =
        (owner, s) := by
  constructor
  · intro h
    induction h with
    | create now => exact ⟨now, rfl⟩
    | step env event _ ih =>
      obtain ⟨now, hrun⟩ := ih
      exact ⟨now, by rw [EventRun.run_concat, hrun]; rfl⟩
  · rintro ⟨now, hrun⟩
    induction events using List.reverseRecOn generalizing owner s with
    | nil =>
      cases hrun
      exact .create now
    | append_singleton events ee ih =>
      rw [EventRun.run_concat] at hrun
      obtain ⟨rfl, rfl⟩ := Prod.mk.inj hrun
      exact .step ee.1 ee.2 (ih rfl)

/-- In every reachable state the forwarding table is the Bellman-Ford solution of the views. -/
theorem forwardingTable_bellmanFord {ν : Type} (cb : OnPacketForMe ν) (self : PeerId) (owner₀ : ν)
    (events : List (StepEnv × RouterEvent)) (owner : ν) (s : RouterState)
    (h : RouterRun cb self owner₀ events owner s) :
    (∀ n d c, Stored s.neighborViews n d c → c < infCost ∧ (c + 1).toNat = c.toNat + 1) ∧
    (∀ d, d ≠ self → ((∃ e, s.forwardingTable.lookup d = some e ∧ e.cost < infCost) ↔
      d ∈ s.neighborViews ∨ ∃ n c, Stored s.neighborViews n d c ∧ c ≤ 14)) ∧
    (∀ d, d ≠ self → ∀ e, s.forwardingTable.lookup d = some e → e.cost < infCost →
      IsLeast {c | d ∈ s.neighborViews ∧ c = 1 ∨
        ∃ n r, Stored s.neighborViews n d r ∧ c = r.toNat + 1}
        e.cost.toNat ∧
      e.nextHop ∈ s.neighborViews ∧
      (d ∈ s.neighborViews → e.nextHop = d) ∧
      (d ∉ s.neighborViews → ∃ r, Stored s.neighborViews e.nextHop d r ∧
        e.cost.toNat = r.toNat + 1)) ∧
    (∀ d e, s.forwardingTable.lookup d = some e → e.cost ≤ infCost) := by
  have hag := run_agrees h
  refine ⟨?_, ?_, ?_, ?_⟩
  · intro n d c hc
    have hlt := hag.finite n d c hc
    exact ⟨lt_infCost_iff.mpr hlt, succ_toNat hlt⟩
  · intro d hd
    constructor
    · rintro ⟨e, he, hlive⟩
      rcases (hag.live d hd e he (lt_infCost_iff.mp hlive)).candidate with ⟨-, hmem, -⟩ |
        ⟨r, hr, hcost⟩
      · exact .inl hmem
      · refine .inr ⟨e.nextHop, r, hr, ?_⟩
        rw [lt_infCost_iff, hcost] at hlive
        rw [UInt32.le_iff_toNat_le]
        exact Nat.le_of_lt_succ (Nat.lt_of_succ_lt_succ hlive)
    · intro hcase
      have hcand : ∃ n c, Candidate s.neighborViews d n c ∧ c < 16 := by
        rcases hcase with hmem | ⟨n, r, hr, hle⟩
        · exact ⟨d, 1, .inl ⟨rfl, hmem, rfl⟩, by decide⟩
        · rw [UInt32.le_iff_toNat_le] at hle
          exact ⟨n, r.toNat + 1, .inr ⟨r, hr, rfl⟩, Nat.succ_lt_succ (Nat.lt_succ_of_le hle)⟩
      obtain ⟨n, c, hc, hlt⟩ := hcand
      obtain ⟨e, he, hlive⟩ := hag.complete d hd n c hc hlt
      exact ⟨e, he, lt_infCost_iff.mpr hlive⟩
  · intro d hd e he hlive
    have hbest := hag.live d hd e he (lt_infCost_iff.mp hlive)
    refine ⟨⟨?_, ?_⟩, hbest.candidate.mem, hbest.direct, ?_⟩
    · rcases hbest.candidate with ⟨-, hmem, hone⟩ | ⟨r, hr, hcost⟩
      · exact .inl ⟨hmem, hone⟩
      · exact .inr ⟨e.nextHop, r, hr, hcost⟩
    · rintro c (⟨hmem, rfl⟩ | ⟨n, r, hr, rfl⟩)
      · exact hbest.least d 1 (.inl ⟨rfl, hmem, rfl⟩)
      · exact hbest.least n _ (.inr ⟨r, hr, rfl⟩)
    · intro hmem
      rcases hbest.candidate with ⟨-, hin, -⟩ | hlearned
      · exact absurd hin hmem
      · exact hlearned
  · intro d e he
    rw [UInt32.le_iff_toNat_le]
    exact hag.cost_le d e he

/-- A step that visits maps in their stored order, with the clock at `t`. -/
def plainEnv (t : Time) : StepEnv :=
  ⟨IterOrder.stored PeerId, fun _ => t, monotone_const, fun _ => [], fun _ => []⟩

def silentOwner : OnPacketForMe Unit := fun _ _ _ pkt => ((), pkt, [])

/-- The router `"a"` after `events`, each at its time. -/
def timedRun (events : List (Time × RouterEvent)) : RouterState :=
  (EventRun.run (routerStep silentOwner "a") ((), RouterState.create "a" 0)
    (events.map fun te => (plainEnv te.1, te.2))).2

/-- Two neighbours know "d", at the costs 3 and 1. -/
def twoViews : RouterState :=
  timedRun [(0, .peerConnected "b"), (0, .peerConnected "c"),
    (1, .packetReceived "b" (makeRoutingTableRoutedPacket [1] "b" "a" defaultTtl
      (AList.singleton "d" 3))),
    (2, .packetReceived "c" (makeRoutingTableRoutedPacket [2] "c" "a" defaultTtl
      (AList.singleton "d" 1)))]

theorem forwardingTable_bellmanFord_twoViews :
    twoViews.forwardingTable.lookup "d" = some ⟨"c", 2, true, 2⟩ ∧
    IsLeast {c | "d" ∈ twoViews.neighborViews ∧ c = 1 ∨
      ∃ n r, Stored twoViews.neighborViews n "d" r ∧ c = r.toNat + 1} 2 ∧
    ∃ r, Stored twoViews.neighborViews "c" "d" r ∧ 2 = r.toNat + 1 := by
  have hlookup : twoViews.forwardingTable.lookup "d" = some ⟨"c", 2, true, 2⟩ := by decide +kernel
  have hfar : "d" ∉ twoViews.neighborViews := by decide +kernel
  obtain ⟨hleast, -, -, hlearned⟩ := (forwardingTable_bellmanFord silentOwner "a" () _ () twoViews
    (routerRun_iff.mpr ⟨0, rfl⟩)).2.2.1 "d" (by decide) _ hlookup (by decide)
  exact ⟨hlookup, hleast, hlearned hfar⟩

end MeshNetwork.Proofs
