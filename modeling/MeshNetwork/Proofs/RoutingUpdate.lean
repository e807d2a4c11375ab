import MeshNetwork.Proofs.RouterInvariant

/-!
# Routing updates

What an update says of each destination, what the receiver stores of it, and the live routes that
updates are about.
-/

namespace MeshNetwork.Proofs

/-! ## Live routes -/

/-- The live route of a router to `d`. -/
def liveRoute (s : RouterState) (d : PeerId) : Option (Nat × PeerId) :=
  (s.forwardingTable.lookup d).bind fun e =>
    if e.cost < infCost then some (e.cost.toNat, e.nextHop) else none

lemma liveRoute_eq_some {s : RouterState} {d : PeerId} {c : Nat} {h : PeerId} :
    liveRoute s d = some (c, h) ↔
      ∃ e, s.forwardingTable.lookup d = some e ∧ e.cost.toNat < 16 ∧ e.cost.toNat = c ∧
        e.nextHop = h := by
  unfold liveRoute
  rw [Option.bind_eq_some_iff]
  constructor
  · rintro ⟨e, he, hlive⟩
    split_ifs at hlive with hlt
    cases hlive
    exact ⟨e, he, lt_infCost_iff.mp hlt, rfl, rfl⟩
  · rintro ⟨e, he, hlt, rfl, rfl⟩
    exact ⟨e, he, if_pos (lt_infCost_iff.mpr hlt)⟩

/-! ## Sending -/

lemma lookup_fullUpdate (ord : IterOrder PeerId) (loop : Nat) (table : UMap PeerId RouteEntry)
    (n d : PeerId) :
    (fullUpdate ord loop table n).lookup d =
      (table.lookup d).map fun e => if e.nextHop = n then infCost else e.cost := by
  have hloop := UMap.get_foldl_items (addFull n) (fun u d => u.lookup d)
    (fun _ _ (e : RouteEntry) => some (if e.nextHop = n then infCost else e.cost))
    (fun u a e => AList.lookup_insert u) (fun u a e a' ha => AList.lookup_insert_ne ha) ord
    loop table ∅ d
  refine hloop.trans ?_
  cases table.lookup d with
  | none => rfl
  | some e => rfl

lemma lookup_triggeredUpdate (ord : IterOrder PeerId) (loop : Nat) (table : UMap PeerId RouteEntry)
    (routes : UMap PeerId UInt32) (n d : PeerId) :
    (triggeredUpdate ord loop table routes n).lookup d =
      (routes.lookup d).map (poisonReverse table n d) := by
  have hloop := UMap.get_foldl_items (addTriggered table n) (fun u d => u.lookup d)
    (fun d _ c => some (poisonReverse table n d c))
    (fun u a c => AList.lookup_insert u) (fun u a c a' ha => AList.lookup_insert_ne ha) ord loop
    routes ∅ d
  refine hloop.trans ?_
  cases routes.lookup d with
  | none => rfl
  | some c => rfl

lemma lookup_collectDirty_routes (ord : IterOrder PeerId) (table : UMap PeerId RouteEntry)
    (d : PeerId) :
    ((table.items ord 2).foldl collectDirty (∅, table)).1.lookup d =
      (table.lookup d).bind fun e => if e.dirty ∨ e.cost ≥ infCost then some e.cost else none := by
  have hloop := UMap.get_foldl_items collectDirty (fun acc d => acc.1.lookup d)
    (fun _ cur (e : RouteEntry) => if e.dirty ∨ e.cost ≥ infCost then some e.cost else cur)
    (fun acc a e => by
      dsimp only [collectDirty]
      split_ifs
      · exact AList.lookup_insert _
      · rfl)
    (fun acc a e a' ha => by
      dsimp only [collectDirty]
      split_ifs
      · exact AList.lookup_insert_ne ha
      · rfl)
    ord 2 table (∅, table) d
  refine hloop.trans ?_
  cases table.lookup d with
  | none => rfl
  | some e => rfl

/-- The costs of an update are those of the sender's table; routes through the receiver are
poisoned. -/
def Truthful (s : RouterState) (n : PeerId) (update : RouteTable) : Prop :=
  ∀ d c, update.lookup d = some c →
    ∃ e, s.forwardingTable.lookup d = some e ∧ c = if e.nextHop = n then infCost else e.cost

lemma mem_neighborViews_of_zipIdx {ord : IterOrder PeerId} {loop : Nat}
    {views : UMap PeerId NeighborView} {nvi : (PeerId × NeighborView) × Nat}
    (h : nvi ∈ (views.items ord loop).zipIdx) : nvi.1.1 ∈ views := by
  have hmem : nvi.1 ∈ views.items ord loop := by
    obtain ⟨i, hi, heq⟩ := List.getElem_of_mem h
    rw [List.getElem_zipIdx] at heq
    rw [← heq]
    exact List.getElem_mem _
  exact (UMap.mem_iff_lookup _ _).mpr ⟨nvi.1.2, (UMap.mem_items ord loop views _ _).mp hmem⟩

theorem broadcastFullTable_truthful (ord : IterOrder PeerId) (s : RouterState)
    (u : PeerId × RouteTable) (hu : u ∈ s.broadcastFullTable ord) :
    u.1 ∈ s.neighborViews ∧ Truthful s u.1 u.2 := by
  obtain ⟨nvi, hnvi, rfl⟩ := List.mem_map.mp hu
  refine ⟨mem_neighborViews_of_zipIdx hnvi, fun d c hc => ?_⟩
  rw [lookup_fullUpdate] at hc
  obtain ⟨e, he, rfl⟩ := Option.map_eq_some_iff.mp hc
  exact ⟨e, he, rfl⟩

theorem sendTriggeredUpdates_truthful (ord : IterOrder PeerId) (s : RouterState)
    (u : PeerId × RouteTable) (hu : u ∈ (s.sendTriggeredUpdates ord).1) :
    u.1 ∈ s.neighborViews ∧ Truthful (s.sendTriggeredUpdates ord).2 u.1 u.2 := by
  rw [sendTriggeredUpdates_state]
  unfold RouterState.sendTriggeredUpdates at hu
  dsimp only at hu
  split_ifs at hu with hempty
  · cases hu
  · obtain ⟨nvi, hnvi, rfl⟩ := List.mem_map.mp hu
    refine ⟨mem_neighborViews_of_zipIdx hnvi, fun d c hc => ?_⟩
    rw [lookup_triggeredUpdate, lookup_collectDirty_routes] at hc
    obtain ⟨cost, hcost, rfl⟩ := Option.map_eq_some_iff.mp hc
    obtain ⟨e, he, hdirty⟩ := Option.bind_eq_some_iff.mp hcost
    split_ifs at hdirty with hsent
    cases hdirty
    have hentry := lookup_collectDirty ord s.forwardingTable d
    rw [he, Option.map_some, if_pos hsent] at hentry
    refine ⟨_, hentry, ?_⟩
    unfold poisonReverse
    rw [hentry]

/-! ## Receiving -/

lemma stored_insert {views : UMap PeerId NeighborView} {n p d : PeerId} {c : UInt32}
    {view : NeighborView} :
    Stored (views.insert n view) p d c ↔
      if p = n then view.advertisedRoutes.lookup d = some c else Stored views p d c := by
  unfold Stored
  rw [UMap.lookup_insert_eq]
  by_cases hp : p = n
  · simp only [if_pos hp, Option.some.injEq, exists_eq_left']
  · simp only [if_neg hp]

lemma stored_iff_getD {views : UMap PeerId NeighborView} {n d : PeerId} {c : UInt32} :
    Stored views n d c ↔ ((views.lookup n).getD {}).advertisedRoutes.lookup d = some c := by
  unfold Stored
  cases views.lookup n with
  | none => simp [AList.lookup_empty]
  | some view => simp

lemma recalculate_keys (self : PeerId) (env : StepEnv) (now : Time) {s : RouterState} {d : PeerId}
    (hd : d ∈ s.forwardingTable) :
    d ∈ (s.recalculateForwardingTable self env now).forwardingTable := by
  obtain ⟨old, hold⟩ := (UMap.mem_iff_lookup _ _).mp hd
  rw [UMap.mem_iff_lookup, lookup_recalculate, hold]
  cases (computeTable self env.order now s.neighborViews).lookup d with
  | none =>
    dsimp only [mergedEntry]
    split_ifs <;> exact ⟨_, rfl⟩
  | some new =>
    obtain ⟨e, he, -⟩ := mergedEntry_some now new (some old)
    exact ⟨e, he⟩

lemma processRoutingUpdate_views (self : PeerId) (env : StepEnv) (s : RouterState) (n : PeerId)
    (table : RouteTable) : (s.processRoutingUpdate self env n table).neighborViews =
      s.neighborViews.insert n (updatedView env ((s.neighborViews.lookup n).getD {}) table) :=
  recalculate_views ..

/-- What node `b` stores for its neighbour `n` once the update `table` of `n` has been applied. -/
lemma lookup_updatedView (env : StepEnv) (view : NeighborView) (table : RouteTable) (d : PeerId) :
    (updatedView env view table).advertisedRoutes.lookup d =
      (table.lookup d).elim (view.advertisedRoutes.lookup d) fun c => if c ≥ infCost then none
      else some c :=
  lookup_applyCost ..

end MeshNetwork.Proofs
