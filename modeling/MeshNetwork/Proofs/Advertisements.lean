import MeshNetwork.Proofs.RoutingUpdate

/-!
# Advertised route changes

A ledger kept beside a run records what the triggered updates that a router transmits have told all
its neighbours of each destination. Every change of the forwarding table ends up in it: an entry
that is not dirty is the one last included, a dirty entry has a trigger pending, and a dead entry is
not removed before its cost was included.
-/

namespace MeshNetwork.Proofs

/-! ## The ledger -/

/-- What the triggered updates of a run have said: the pair that a destination had when it was last
included, and the dead destinations whose cost was included since they went dead. -/
structure Ledger where
  last : PeerId → Option (UInt32 × PeerId)
  withdrawn : PeerId → Bool

def Ledger.empty : Ledger := ⟨fun _ => none, fun _ => false⟩

/-- The forwarding table is now `table`; a destination that is not dead in it is not withdrawn. -/
def Ledger.observe (table : UMap PeerId RouteEntry) (l : Ledger) : Ledger :=
  { l with withdrawn := fun d => l.withdrawn d && (table.lookup d).any fun e => e.cost ≥ infCost }

/-- The output is a triggered update for `n` that tells it `cost` for `d`. Full tables have a ttl of
15. -/
def tells (n d : PeerId) (cost : UInt32) : RouterOutput → Bool
  | .transmit next pkt =>
    next = n ∧ pkt.type = .routingUpdate ∧ pkt.ttl = defaultTtl ∧
      pkt.routeTable.lookup d = some cost
  | .packetForMe _ => false

/-- The triggered updates among `outs` tell each neighbour of `s` about the entry `e` of `d`: its
cost, or infinity where the route goes through that neighbour. -/
def Advertised (outs : List RouterOutput) (s : RouterState) (d : PeerId) (e : RouteEntry) : Prop :=
  ∀ n ∈ s.neighborViews.keys, ∃ o ∈ outs, tells n d (if e.nextHop = n then infCost else e.cost) o

instance (outs : List RouterOutput) (s : RouterState) (d : PeerId) (e : RouteEntry) :
    Decidable (Advertised outs s d e) :=
  inferInstanceAs (Decidable (∀ n ∈ s.neighborViews.keys,
    ∃ o ∈ outs, tells n d (if e.nextHop = n then infCost else e.cost) o))

/-- `routes_to_send` of `send_triggered_updates`. -/
def routesToSend (ord : IterOrder PeerId) (table : UMap PeerId RouteEntry) : UMap PeerId UInt32 :=
  ((table.items ord 2).foldl collectDirty (∅, table)).1

/-- The entry of `d` if the updates `outs`, sent for `routes`, include it. Without a neighbour there
is no update, and to be in `routes` is all there is to inclusion. -/
def includedEntry (outs : List RouterOutput) (s : RouterState) (routes : UMap PeerId UInt32)
    (d : PeerId) : Option RouteEntry :=
  (s.forwardingTable.lookup d).filter fun e => d ∈ routes ∧ Advertised outs s d e

/-- The trigger has fired in the state `s`, with `routes` to send and `outs` transmitted. -/
def Ledger.include (outs : List RouterOutput) (s : RouterState) (routes : UMap PeerId UInt32)
    (l : Ledger) : Ledger where
  last d := ((includedEntry outs s routes d).map fun e => (e.cost, e.nextHop)).or (l.last d)
  withdrawn d := l.withdrawn d || (includedEntry outs s routes d).any fun e => e.cost ≥ infCost

/-- The ledger after an event that took the router from `s` to `s'` and transmitted `outs`. Within a
maintenance tick the table is recalculated before the trigger fires, and dead routes are removed
after it. -/
def Ledger.step (self : PeerId) (env : StepEnv) (outs : List RouterOutput) (s s' : RouterState)
    (l : Ledger) : RouterEvent → Ledger
  | .maintenance =>
    let s := s.expireNeighbors self env (env.clock 0)
    let l := l.observe s.forwardingTable
    if s.triggerPending ∧ env.clock 0 ≥ s.triggerDeadline then
      l.include outs s (routesToSend env.order s.forwardingTable)
    else l
  | _ => l.observe s'.forwardingTable

/-- The runs of a router under a clock that does not go back, with their ledgers. The steps read the
clock for the routes at most three times; `latest` bounds all readings so far. -/
inductive LedgerRun {ν : Type} (cb : OnPacketForMe ν) (self : PeerId) (owner₀ : ν) :
    List (StepEnv × RouterEvent) → Time → Ledger → ν → RouterState → Prop
  | create (now : Time) : LedgerRun cb self owner₀ [] now Ledger.empty owner₀
      (RouterState.create self now)
  | step {events : List (StepEnv × RouterEvent)} {latest : Time} {l : Ledger} {owner : ν}
      {s : RouterState}
      (env : StepEnv) (event : RouterEvent) (latest' : Time) (hstart : latest ≤ env.clock 0)
      (hend : env.clock 2 ≤ latest') : LedgerRun cb self owner₀ events latest l owner s →
      LedgerRun cb self owner₀ (events ++ [(env, event)]) latest'
        (l.step self env (s.step cb self env owner event).1 s
          (s.step cb self env owner event).2.2 event)
        (s.step cb self env owner event).2.1 (s.step cb self env owner event).2.2

theorem LedgerRun.run {ν : Type} {cb : OnPacketForMe ν} {self : PeerId} {owner₀ : ν}
    {events : List (StepEnv × RouterEvent)} {latest : Time} {l : Ledger} {owner : ν}
    {s : RouterState} (h : LedgerRun cb self owner₀ events latest l owner s) :
    RouterRun cb self owner₀ events owner s := by
  induction h with
  | create now => exact .create now
  | step env event _ _ _ _ ih => exact .step env event ih

/-! ## What the trigger transmits -/

lemma lookup_routesToSend (ord : IterOrder PeerId) (table : UMap PeerId RouteEntry) (d : PeerId) :
    (routesToSend ord table).lookup d =
      (table.lookup d).bind fun e => if e.dirty ∨ e.cost ≥ infCost then some e.cost else none :=
  lookup_collectDirty_routes ord table d

lemma mem_routesToSend (ord : IterOrder PeerId) {table : UMap PeerId RouteEntry} {d : PeerId}
    {e : RouteEntry} (he : table.lookup d = some e) :
    d ∈ routesToSend ord table ↔ e.dirty ∨ e.cost ≥ infCost := by
  rw [← AList.lookup_isSome, lookup_routesToSend, he, Option.bind_some]
  split_ifs with hsent
  · simpa using hsent
  · simpa using hsent

/-- Each neighbour has its element in the loop over the views. -/
lemma exists_zipIdx {views : UMap PeerId NeighborView} {b : PeerId} (hb : b ∈ views)
    (ord : IterOrder PeerId) (loop : Nat) :
    ∃ nvi ∈ (views.items ord loop).zipIdx, nvi.1.1 = b := by
  obtain ⟨view, hview⟩ := (UMap.mem_iff_lookup _ _).mp hb
  obtain ⟨i, hi, heq⟩ := List.getElem_of_mem ((UMap.mem_items ord loop views b view).mpr hview)
  refine ⟨((b, view), i), List.mem_zipIdx_iff_getElem?.mpr ?_, rfl⟩
  rw [List.getElem?_eq_getElem hi, heq]

lemma mem_routingPackets (self : PeerId) (env : StepEnv) (first : Nat) (ttl : UInt32)
    {updates : List (PeerId × RouteTable)} {u : PeerId × RouteTable} (hu : u ∈ updates) :
    ∃ id, .transmit u.1 (makeRoutingTableRoutedPacket id self u.1 ttl u.2) ∈
      routingPackets self env first ttl updates := by
  obtain ⟨i, hi, rfl⟩ := List.getElem_of_mem hu
  refine ⟨env.uuid (first + i), List.mem_map.mpr ⟨(updates[i], i), ?_, rfl⟩⟩
  rw [List.mem_zipIdx_iff_getElem?, List.getElem?_eq_getElem hi]

/-- Each neighbour has its triggered update, which has all changed and dead destinations. -/
lemma sendTriggeredUpdates_neighbor (ord : IterOrder PeerId) {s : RouterState} {n d : PeerId}
    {e : RouteEntry} (hn : n ∈ s.neighborViews) (he : s.forwardingTable.lookup d = some e)
    (hsent : e.dirty ∨ e.cost ≥ infCost) :
    ∃ u ∈ (s.sendTriggeredUpdates ord).1, u.1 = n ∧
      u.2.lookup d = some (if e.nextHop = n then infCost else e.cost) := by
  obtain ⟨nvi, hnvi, rfl⟩ := exists_zipIdx hn ord 0
  have hroute := lookup_routesToSend ord s.forwardingTable d
  have hentry := lookup_collectDirty ord s.forwardingTable d
  rw [he, Option.bind_some, if_pos hsent] at hroute
  rw [he, Option.map_some, if_pos hsent] at hentry
  have hne : ¬ (routesToSend ord s.forwardingTable).keys.isEmpty = true := by
    rw [List.isEmpty_iff]
    intro hnil
    have hkey := AList.mem_keys.mp ((mem_routesToSend ord he).mpr hsent)
    rw [hnil] at hkey
    exact List.not_mem_nil hkey
  unfold routesToSend at hroute hne
  unfold RouterState.sendTriggeredUpdates
  dsimp only
  rw [if_neg hne]
  refine ⟨_, List.mem_map_of_mem hnvi, rfl, ?_⟩
  dsimp only
  rw [lookup_triggeredUpdate, hroute, Option.map_some]
  unfold poisonReverse
  rw [hentry]

/-- A trigger that fires tells all neighbours about each changed or dead destination. -/
lemma fireTrigger_advertised (self : PeerId) (env : StepEnv) {now : Time} {s : RouterState}
    (hfires : s.triggerPending ∧ now ≥ s.triggerDeadline) {d : PeerId} {e : RouteEntry}
    (he : s.forwardingTable.lookup d = some e) (hsent : e.dirty ∨ e.cost ≥ infCost) :
    Advertised (s.fireTrigger self env now).1 s d e := by
  intro n hn
  obtain ⟨u, hu, rfl, hcost⟩ :=
    sendTriggeredUpdates_neighbor env.order (AList.mem_keys.mpr hn) he hsent
  obtain ⟨id, hpkt⟩ := mem_routingPackets self env 0 defaultTtl hu
  unfold RouterState.fireTrigger
  rw [if_pos hfires]
  exact ⟨_, hpkt, decide_eq_true ⟨rfl, rfl, rfl, hcost⟩⟩

lemma Advertised.append {outs : List RouterOutput} {s : RouterState} {d : PeerId} {e : RouteEntry}
    (h : Advertised outs s d e) (more : List RouterOutput) : Advertised (outs ++ more) s d e :=
  fun n hn => (h n hn).imp fun _ ho => ⟨List.mem_append_left more ho.1, ho.2⟩

/-- Where everything to send is announced, it is included. -/
lemma includedEntry_eq {outs : List RouterOutput} {s : RouterState}
    (h : ∀ d e, s.forwardingTable.lookup d = some e → e.dirty ∨ e.cost ≥ infCost →
      Advertised outs s d e) (ord : IterOrder PeerId) (d : PeerId) :
    includedEntry outs s (routesToSend ord s.forwardingTable) d =
      (s.forwardingTable.lookup d).filter fun e => e.dirty ∨ e.cost ≥ infCost := by
  unfold includedEntry
  cases he : s.forwardingTable.lookup d with
  | none => rfl
  | some e =>
    have hiff : (d ∈ routesToSend ord s.forwardingTable ∧ Advertised outs s d e) ↔
        (e.dirty ∨ e.cost ≥ infCost) := by
      rw [mem_routesToSend ord he]
      exact and_iff_left_of_imp (h d e he)
    simp only [Option.filter_some, hiff]

/-! ## What a recalculation changes -/

lemma mergedEntry_changed {now : Time} {new old : Option RouteEntry} {e : RouteEntry}
    (h : mergedEntry now new old = some e) :
    old = some e ∨ e.dirty = true ∧ e.lastUpdated = now := by
  cases new with
  | none =>
    cases old with
    | none => cases h
    | some o =>
      dsimp only [mergedEntry] at h
      split_ifs at h
      · cases h
        exact .inr ⟨rfl, rfl⟩
      · exact .inl h
  | some n =>
    cases old with
    | none =>
      cases h
      exact .inr ⟨rfl, rfl⟩
    | some o =>
      dsimp only [mergedEntry] at h
      split_ifs at h
      · cases h
        exact .inr ⟨rfl, rfl⟩
      · exact .inl h

section Recalculation

variable (self : PeerId) (env : StepEnv) (now : Time) {s : RouterState}

/-- An entry is left as it was, or it is marked dirty. -/
lemma recalculate_changed {d : PeerId} {e : RouteEntry}
    (he : (s.recalculateForwardingTable self env now).forwardingTable.lookup d = some e) :
    s.forwardingTable.lookup d = some e ∨ e.dirty = true ∧ e.lastUpdated = now := by
  rw [lookup_recalculate] at he
  exact mergedEntry_changed he

/-- A recalculation that changes the table has a trigger pending afterwards, with the earlier
deadline if one was pending before. -/
lemma recalculate_trigger (s : RouterState) :
    (s.recalculateForwardingTable self env now).forwardingTable = s.forwardingTable ∧
      (s.recalculateForwardingTable self env now).triggerPending = s.triggerPending ∧
      (s.recalculateForwardingTable self env now).triggerDeadline = s.triggerDeadline ∨
    (s.recalculateForwardingTable self env now).triggerPending = true ∧
      (s.recalculateForwardingTable self env now).triggerDeadline =
        if s.triggerPending then s.triggerDeadline else now + triggerDebounce := by
  unfold RouterState.recalculateForwardingTable
  dsimp only
  generalize computeTable self env.order now s.neighborViews = newTable
  have hmerge := UMap.foldl_eq_or_flag (f := mergeRoute now) (fun acc de => by
    unfold mergeRoute
    split
    · exact .inr rfl
    · split_ifs
      · exact .inr rfl
      · exact .inl rfl) (newTable.items env.order 1) (s.forwardingTable, false)
  generalize (newTable.items env.order 1).foldl (mergeRoute now) (s.forwardingTable, false) =
    merged at hmerge ⊢
  have hcheck := UMap.foldl_eq_or_flag (f := markLost newTable now) (fun acc de => by
    unfold markLost
    split_ifs
    · exact .inr rfl
    · exact .inl rfl) (merged.1.items env.order 2) merged
  generalize (merged.1.items env.order 2).foldl (markLost newTable now) merged = checked at hcheck ⊢
  -- the flag is raised in one of the loops, or neither has touched the table
  have hflag : checked = (s.forwardingTable, false) ∨ checked.2 = true := by
    rcases hcheck with rfl | hflag
    · exact hmerge
    · exact .inr hflag
  rcases hflag with rfl | hflag
  · simp
  · cases hpending : s.triggerPending <;> simp [hflag]

end Recalculation

/-! ## The invariant -/

/-- What the ledger knows of the table at time `t`. -/
structure LedgerCovers (selfId : PeerId) (t : Time) (l : Ledger) (s : RouterState) : Prop where
  clean : ∀ d, d ≠ selfId → ∀ e, s.forwardingTable.lookup d = some e → e.dirty = false →
    l.last d = some (e.cost, e.nextHop)
  pending : ∀ d e, s.forwardingTable.lookup d = some e → e.dirty = true → s.triggerPending = true
  /-- The trigger fires at most the debounce time after the change. -/
  debounced : ∀ d e, s.forwardingTable.lookup d = some e → e.dirty = true →
    s.triggerDeadline ≤ e.lastUpdated + triggerDebounce
  deadline : s.triggerPending = true → s.triggerDeadline ≤ t + triggerDebounce
  withdrawn : ∀ d e, s.forwardingTable.lookup d = some e → e.cost ≥ infCost → e.dirty = false →
    l.withdrawn d = true

variable {self : PeerId} {t t' : Time} {l : Ledger} {s s' : RouterState}

lemma LedgerCovers.mono (h : LedgerCovers self t l s) (ht : t ≤ t') : LedgerCovers self t' l s :=
  { h with deadline := fun hp => (h.deadline hp).trans (Nat.add_le_add_right ht _) }

/-- The invariant only reads the table and the trigger; entries may be missing from the table. -/
lemma LedgerCovers.of_sub (h : LedgerCovers self t l s)
    (htable : ∀ d e, s'.forwardingTable.lookup d = some e → s.forwardingTable.lookup d = some e)
    (hpending : s'.triggerPending = s.triggerPending)
    (hdeadline : s'.triggerDeadline = s.triggerDeadline) :
    LedgerCovers self t l s' where
  clean d hd e he := h.clean d hd e (htable d e he)
  pending d e he hdirty := hpending ▸ h.pending d e (htable d e he) hdirty
  debounced d e he hdirty := hdeadline ▸ h.debounced d e (htable d e he) hdirty
  deadline hp := hdeadline ▸ h.deadline (hpending ▸ hp)
  withdrawn d e he := h.withdrawn d e (htable d e he)

lemma withdrawn_observe (table : UMap PeerId RouteEntry) {d : PeerId} {e : RouteEntry}
    (he : table.lookup d = some e) (hdead : e.cost ≥ infCost) :
    (l.observe table).withdrawn d = l.withdrawn d := by
  simp [Ledger.observe, he, hdead]

lemma LedgerCovers.observe (h : LedgerCovers self t l s) :
    LedgerCovers self t (l.observe s.forwardingTable) s where
  clean := h.clean
  pending := h.pending
  debounced := h.debounced
  deadline := h.deadline
  withdrawn d e he hdead hclean :=
    (withdrawn_observe _ he hdead).trans (h.withdrawn d e he hdead hclean)

lemma LedgerCovers.recalculate (h : LedgerCovers self t l s) (env : StepEnv) {now : Time}
    (ht : t ≤ now) :
    LedgerCovers self now (l.observe (s.recalculateForwardingTable self env now).forwardingTable)
      (s.recalculateForwardingTable self env now) := by
  have htrigger := recalculate_trigger self env now s
  have hchanged := fun d e => recalculate_changed self env now (s := s) (d := d) (e := e)
  generalize s.recalculateForwardingTable self env now = s' at htrigger hchanged
  -- an entry that is not dirty is an old one
  have hclean : ∀ d e, s'.forwardingTable.lookup d = some e → e.dirty = false →
      s.forwardingTable.lookup d = some e := by
    intro d e he hdirty
    rcases hchanged d e he with hold | ⟨hnew, -⟩
    · exact hold
    · rw [hdirty] at hnew
      cases hnew
  rcases htrigger with ⟨htable, hpending, hdeadline⟩ | ⟨hpending, hdeadline⟩
  · have hsame : LedgerCovers self t l s' := h.of_sub (fun d e he => htable ▸ he) hpending hdeadline
    exact (hsame.mono ht).observe
  · have hbound : s'.triggerDeadline ≤ now + triggerDebounce := by
      rw [hdeadline]
      split_ifs with hp
      · exact (h.deadline hp).trans (Nat.add_le_add_right ht _)
      · exact le_rfl
    refine ⟨fun d hd e he hdirty => h.clean d hd e (hclean d e he hdirty) hdirty,
      fun _ _ _ _ => hpending,
      fun d e he hdirty => ?_, fun _ => hbound, fun d e he hdead hdirty => ?_⟩
    · rcases hchanged d e he with hold | ⟨-, hnow⟩
      · rw [hdeadline, if_pos (h.pending d e hold hdirty)]
        exact h.debounced d e hold hdirty
      · rw [hnow]
        exact hbound
    · rw [withdrawn_observe _ he hdead]
      exact h.withdrawn d e (hclean d e he hdirty) hdead hdirty

/-! ## A maintenance tick -/

lemma LedgerCovers.expireNeighbors (h : LedgerCovers self t l s) (env : StepEnv)
    (ht : t ≤ env.clock 0) :
    LedgerCovers self (env.clock 1)
      (l.observe (s.expireNeighbors self env (env.clock 0)).forwardingTable)
      (s.expireNeighbors self env (env.clock 0)) := by
  have hclock : t ≤ env.clock 1 := ht.trans (env.clock_mono (Nat.zero_le 1))
  unfold RouterState.expireNeighbors
  dsimp only
  have hviews : ∀ views, LedgerCovers self t l { s with neighborViews := views } :=
    fun views => h.of_sub (fun _ _ he => he) rfl rfl
  split_ifs
  · exact (hviews _).recalculate env hclock
  · exact ((hviews _).mono hclock).observe

/-- Once the trigger has fired, the ledger has the whole table. -/
lemma LedgerCovers.included (h : LedgerCovers self t l s) (ord : IterOrder PeerId)
    {outs : List RouterOutput}
    (hadvertised : ∀ d e, s.forwardingTable.lookup d = some e → e.dirty ∨ e.cost ≥ infCost →
      Advertised outs s d e) :
    LedgerCovers self t (l.include outs s (routesToSend ord s.forwardingTable))
      { (s.sendTriggeredUpdates ord).2 with triggerPending := false } := by
  rw [sendTriggeredUpdates_state]
  have hentry : ∀ d e', ((s.forwardingTable.items ord 2).foldl collectDirty
      (∅, s.forwardingTable)).2.lookup d =
      some e' → ∃ e, s.forwardingTable.lookup d = some e ∧ e'.dirty = false ∧ e'.cost = e.cost ∧
        e'.nextHop = e.nextHop := by
    intro d e' he'
    rw [lookup_collectDirty] at he'
    obtain ⟨e, he, rfl⟩ := Option.map_eq_some_iff.mp he'
    refine ⟨e, he, ?_⟩
    split_ifs with hsent
    · exact ⟨rfl, rfl, rfl⟩
    · rw [not_or] at hsent
      exact ⟨by simpa using hsent.1, rfl, rfl⟩
  refine ⟨fun d hd e' he' _ => ?_, fun d e' he' hdirty => ?_, fun d e' he' hdirty => ?_,
    fun hp => ?_, fun d e' he' hdead _ => ?_⟩
  · obtain ⟨e, he, -, hcost, hhop⟩ := hentry d e' he'
    rw [hcost, hhop]
    by_cases hsent : e.dirty ∨ e.cost ≥ infCost
    · simp [Ledger.include, includedEntry_eq hadvertised, he, hsent]
    · have hclean := h.clean d hd e he (by simpa using fun hdirty => hsent (.inl hdirty))
      simp only [Ledger.include, includedEntry_eq hadvertised, he, Option.filter_some, hsent,
        decide_false, Bool.false_eq_true, if_false, Option.map_none, Option.none_or, hclean]
  · obtain ⟨-, -, hclean, -⟩ := hentry d e' he'
    rw [hclean] at hdirty
    cases hdirty
  · obtain ⟨-, -, hclean, -⟩ := hentry d e' he'
    rw [hclean] at hdirty
    cases hdirty
  · cases hp
  · obtain ⟨e, he, -, hcost, -⟩ := hentry d e' he'
    rw [hcost] at hdead
    simp [Ledger.include, includedEntry_eq hadvertised, he, hdead]

/-- The ledger when dead routes are removed, at the end of a tick that began with `s` and `l`. -/
lemma step_maintenance_eq (env : StepEnv) (outs : List RouterOutput) (s s' : RouterState)
    (l : Ledger) :
    l.step self env outs s s' .maintenance =
      if (s.expireNeighbors self env (env.clock 0)).triggerPending ∧
          env.clock 0 ≥ (s.expireNeighbors self env (env.clock 0)).triggerDeadline then
        (l.observe (s.expireNeighbors self env (env.clock 0)).forwardingTable).include outs
          (s.expireNeighbors self env (env.clock 0))
          (routesToSend env.order (s.expireNeighbors self env (env.clock 0)).forwardingTable)
      else l.observe (s.expireNeighbors self env (env.clock 0)).forwardingTable := rfl

/-- The triggered updates of a tick are among all that it transmits. -/
lemma runPeriodicMaintenance_advertised (env : StepEnv) (s : RouterState)
    (hfires : (s.expireNeighbors self env (env.clock 0)).triggerPending ∧
      env.clock 0 ≥ (s.expireNeighbors self env (env.clock 0)).triggerDeadline) {d : PeerId}
    {e : RouteEntry}
    (he : (s.expireNeighbors self env (env.clock 0)).forwardingTable.lookup d = some e)
    (hsent : e.dirty ∨ e.cost ≥ infCost) :
    Advertised (s.runPeriodicMaintenance self env).1
      (s.expireNeighbors self env (env.clock 0)) d e :=
  (fireTrigger_advertised self env hfires he hsent).append _

lemma LedgerCovers.fireTrigger (h : LedgerCovers self t l s) (env : StepEnv) (now : Time)
    {outs : List RouterOutput}
    (hadvertised : s.triggerPending ∧ now ≥ s.triggerDeadline → ∀ d e,
      s.forwardingTable.lookup d = some e → e.dirty ∨ e.cost ≥ infCost → Advertised outs s d e) :
    LedgerCovers self t
      (if s.triggerPending ∧ now ≥ s.triggerDeadline then
        l.include outs s (routesToSend env.order s.forwardingTable) else l)
      (s.fireTrigger self env now).2 := by
  unfold RouterState.fireTrigger
  split_ifs with hfires
  · exact h.included env.order (hadvertised hfires)
  · exact h

lemma LedgerCovers.maintenance (h : LedgerCovers self t l s) (env : StepEnv) (ht : t ≤ env.clock 0)
    (s' : RouterState) :
    LedgerCovers self (env.clock 1)
      (l.step self env (s.runPeriodicMaintenance self env).1 s s' .maintenance)
      (s.runPeriodicMaintenance self env).2 := by
  rw [step_maintenance_eq]
  have hfired := (h.expireNeighbors env ht).fireTrigger env (env.clock 0)
    fun hfires d e => runPeriodicMaintenance_advertised env s hfires
  obtain ⟨last, seen, htick⟩ := runPeriodicMaintenance_frame self env s
  rw [htick]
  refine hfired.of_sub ?_ rfl rfl
  intro d e he
  dsimp only [RouterState.removeDeadRoutes] at he
  rw [lookup_collectGarbage] at he
  exact (Option.filter_eq_some_iff.mp he).1

/-- The entries that a tick removes are dead for more than 15 s when the silent neighbours have been
removed. -/
lemma erased_dead (env : StepEnv) {d : PeerId} {e : RouteEntry}
    (he : (s.expireNeighbors self env (env.clock 0)).forwardingTable.lookup d = some e)
    (herased : d ∉ (s.runPeriodicMaintenance self env).2.forwardingTable) :
    e.cost ≥ infCost ∧ env.clock 0 - e.lastUpdated > seconds 15 := by
  obtain ⟨last, seen, htick⟩ := runPeriodicMaintenance_frame self env s
  rw [htick] at herased
  dsimp only [RouterState.removeDeadRoutes] at herased
  rw [UMap.mem_iff_lookup] at herased
  generalize s.expireNeighbors self env (env.clock 0) = s₁ at *
  -- firing the trigger changes the dirty flags only
  have hfired : ∃ e', (s₁.fireTrigger self env (env.clock 0)).2.forwardingTable.lookup d = some e' ∧
      e'.cost = e.cost ∧ e'.lastUpdated = e.lastUpdated := by
    unfold RouterState.fireTrigger
    split_ifs
    · dsimp only
      rw [sendTriggeredUpdates_state, lookup_collectDirty, he]
      refine ⟨_, rfl, ?_⟩
      dsimp only
      split_ifs <;> exact ⟨rfl, rfl⟩
    · exact ⟨e, he, rfl, rfl⟩
  obtain ⟨e', he', hcost, hupdated⟩ := hfired
  rw [lookup_collectGarbage, he'] at herased
  by_contra hkept
  rw [← hcost, ← hupdated] at hkept
  exact herased ⟨e', by simp [Option.filter, hkept]⟩

/-- A maintenance tick removes an entry only after its infinite cost has been included. -/
lemma LedgerCovers.withdrawn_of_erased (h : LedgerCovers self t l s) (env : StepEnv)
    (ht : t ≤ env.clock 0) (s' : RouterState) {d : PeerId} (hd : d ∈ s.forwardingTable)
    (herased : d ∉ (s.runPeriodicMaintenance self env).2.forwardingTable) :
    (l.step self env (s.runPeriodicMaintenance self env).1 s s' .maintenance).withdrawn d =
      true := by
  have hexp := h.expireNeighbors env ht
  rw [step_maintenance_eq]
  have hmem : d ∈ (s.expireNeighbors self env (env.clock 0)).forwardingTable := by
    unfold RouterState.expireNeighbors
    dsimp only
    split_ifs
    · exact recalculate_keys self env (env.clock 1) (s := { s with neighborViews := _ }) hd
    · exact hd
  obtain ⟨e, he⟩ := (UMap.mem_iff_lookup _ _).mp hmem
  obtain ⟨hdead, hold⟩ := erased_dead env he herased
  have hadvertised := fun hfires => runPeriodicMaintenance_advertised env s hfires he (.inr hdead)
  generalize s.expireNeighbors self env (env.clock 0) = s₁ at *
  cases hdirty : e.dirty with
  | false =>
    have hw := hexp.withdrawn d e he hdead hdirty
    split_ifs
    · simp [Ledger.include, hw]
    · exact hw
  | true =>
    -- the entry has been dirty for longer than the debounce time, so that the trigger fires in this
    -- tick
    have hfires : s₁.triggerPending ∧ env.clock 0 ≥ s₁.triggerDeadline := by
      have hlong : triggerDebounce ≤ env.clock 0 - e.lastUpdated := le_trans (by decide) hold.le
      have hnow : e.lastUpdated ≤ env.clock 0 := (Nat.sub_pos_iff_lt.mp (Nat.zero_lt_of_lt hold)).le
      exact ⟨hexp.pending d e he hdirty,
        (hexp.debounced d e he hdirty).trans (Nat.add_le_of_le_sub' hnow hlong)⟩
    rw [if_pos hfires]
    have hsent := (mem_routesToSend env.order he).mpr (.inr hdead)
    simp [Ledger.include, includedEntry, he, hdead, hsent, hadvertised hfires]

/-! ## Runs -/

lemma create_ledgerCovers (self : PeerId) (now : Time) :
    LedgerCovers self now Ledger.empty (RouterState.create self now) := by
  have hentry : ∀ d e, (RouterState.create self now).forwardingTable.lookup d = some e →
      d = self ∧ e = ⟨self, 0, false, 0⟩ := by
    intro d e he
    change (AList.singleton self _ : UMap PeerId RouteEntry).lookup d = some e at he
    rw [UMap.lookup_singleton_eq] at he
    split_ifs at he with hd
    exact ⟨hd, (Option.some.inj he).symm⟩
  refine ⟨fun d hd e he => absurd (hentry d e he).1 hd, fun d e he hdirty => ?_,
    fun d e he hdirty => ?_, nofun, fun d e he hdead => ?_⟩
  all_goals obtain ⟨-, rfl⟩ := hentry d e he
  · cases hdirty
  · cases hdirty
  · exact absurd hdead (show ¬(0 : UInt32) ≥ infCost by decide)

theorem step_ledgerCovers {ν : Type} (cb : OnPacketForMe ν) (h : LedgerCovers self t l s)
    (env : StepEnv) (owner : ν) (event : RouterEvent) (hstart : t ≤ env.clock 0)
    (hend : env.clock 2 ≤ t') :
    LedgerCovers self t'
      (l.step self env (s.step cb self env owner event).1 s
        (s.step cb self env owner event).2.2 event)
      (s.step cb self env owner event).2.2 := by
  have h1 : t ≤ env.clock 1 := hstart.trans (env.clock_mono (by decide))
  have h12 : env.clock 1 ≤ env.clock 2 := env.clock_mono (by decide)
  have hlater : t ≤ t' := h1.trans (h12.trans hend)
  have hviews : ∀ views seen, LedgerCovers self t l
      { s with neighborViews := views, seenPacketIds := seen } :=
    fun views seen => h.of_sub (fun _ _ he => he) rfl rfl
  have hmove := step_move cb self env owner s event
  generalize (s.step cb self env owner event).2.2 = s' at hmove
  cases hmove with
  | ignored _ => exact (h.mono hlater).observe
  | @update src pkt _ _ _ =>
    obtain ⟨views, hheard⟩ := heardFrom_frame s src (env.clock 0)
    rw [hheard]
    exact ((hviews _ s.seenPacketIds).recalculate env (h1.trans h12)).mono hend
  | @data src pkt _ _ seen =>
    obtain ⟨views, hheard⟩ := heardFrom_frame s src (env.clock 0)
    rw [hheard]
    exact ((hviews views seen).mono hlater).observe
  | connected p => exact ((hviews _ s.seenPacketIds).recalculate env h1).mono (h12.trans hend)
  | disconnected p => exact ((hviews _ s.seenPacketIds).recalculate env h1).mono (h12.trans hend)
  | maintenance => exact (h.maintenance env hstart _).mono (h12.trans hend)
  | sent pkt seen => exact ((hviews s.neighborViews seen).mono hlater).observe

theorem LedgerRun.covers {ν : Type} {cb : OnPacketForMe ν} {owner₀ : ν}
    {events : List (StepEnv × RouterEvent)} {owner : ν}
    (h : LedgerRun cb self owner₀ events t l owner s) : LedgerCovers self t l s := by
  induction h with
  | create now => exact create_ledgerCovers self now
  | step env event _ hstart hend _ ih => exact step_ledgerCovers cb ih env _ event hstart hend

/-- No route change is left unadvertised. -/
theorem routeChanges_advertised {ν : Type} (cb : OnPacketForMe ν) (self : PeerId) (owner₀ : ν)
    (events : List (StepEnv × RouterEvent)) (latest : Time) (l : Ledger) (owner : ν)
    (s : RouterState) (h : LedgerRun cb self owner₀ events latest l owner s) :
    (∀ d, d ≠ self → ∀ e, s.forwardingTable.lookup d = some e → e.dirty = false →
      l.last d = some (e.cost, e.nextHop)) ∧
    (∀ d e, s.forwardingTable.lookup d = some e → e.dirty = true → s.triggerPending = true) ∧
    (∀ env : StepEnv, latest ≤ env.clock 0 → ∀ d ∈ s.forwardingTable,
      d ∉ (s.runPeriodicMaintenance self env).2.forwardingTable →
      (l.step self env (s.runPeriodicMaintenance self env).1 s (s.runPeriodicMaintenance self env).2
        .maintenance).withdrawn d = true) := by
  have hcov := h.covers
  exact ⟨hcov.clean, hcov.pending, fun env ht d hd herased => hcov.withdrawn_of_erased env ht _
    hd herased⟩

/-- `"b"` comes and goes while `"c"` stays. -/
def comesAndGoes : List (Time × RouterEvent) :=
  [(0, .peerConnected "b"), (0, .peerConnected "c"), (seconds 1, .maintenance),
    (seconds 2, .peerDisconnected "b"), (seconds 3, .maintenance)]

/-- The tick at 3 s tells `"c"` that `"b"` is gone, and the one at 19 s removes the entry. -/
theorem routeChanges_advertised_withdrawal :
    ∃ events l, LedgerRun silentOwner "a" () events (seconds 3) l () (timedRun comesAndGoes) ∧
      (timedRun comesAndGoes).neighborViews.keys = ["c"] ∧ l.last "b" = some (infCost, "b") ∧
      (l.step "a" (plainEnv (seconds 19))
        ((timedRun comesAndGoes).runPeriodicMaintenance "a" (plainEnv (seconds 19))).1
        (timedRun comesAndGoes)
        ((timedRun comesAndGoes).runPeriodicMaintenance "a" (plainEnv (seconds 19))).2
        .maintenance).withdrawn "b" = true := by
  have hrun : LedgerRun silentOwner "a" () _ (seconds 3) _ () (timedRun comesAndGoes) :=
    .step (plainEnv (seconds 3)) .maintenance (seconds 3) (by decide) le_rfl <|
    .step (plainEnv (seconds 2)) (.peerDisconnected "b") (seconds 2) (by decide) le_rfl <|
    .step (plainEnv (seconds 1)) .maintenance (seconds 1) (by decide) le_rfl <|
    .step (plainEnv 0) (.peerConnected "c") 0 le_rfl le_rfl <|
    .step (plainEnv 0) (.peerConnected "b") 0 le_rfl le_rfl (.create 0)
  have hcov := routeChanges_advertised _ _ _ _ _ _ _ _ hrun
  exact ⟨_, _, hrun, by decide, hcov.1 "b" (by decide) ⟨"b", infCost, false, seconds 2⟩
    (by decide) rfl, hcov.2.2 (plainEnv (seconds 19)) (by decide) "b" (by decide) (by decide)⟩

end MeshNetwork.Proofs
