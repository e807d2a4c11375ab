import MeshNetwork.Proofs.RoutingUpdate

/-!
# Neighbour views

Where the keys and the routes of the neighbour views come from, event by event, and what follows
for the views of a peer that connects again and for the next hops of the forwarding table.
-/

namespace MeshNetwork.Proofs

variable {ν : Type} {self : PeerId} {env : StepEnv} {s s' : RouterState} {event : RouterEvent}

/-! ## One event -/

/-- The event is a routing update of `p` with the cost `c` for `d`. -/
def CarriesRoute (p d : PeerId) (c : UInt32) : RouterEvent → Prop
  | .packetReceived src pkt =>
    src = p ∧ pkt.type = .routingUpdate ∧ pkt.routeTable.lookup d = some c
  | _ => False

/-- The event is a routing update of `p` that `handle_packet` does not drop. -/
def UpdateFrom (self p : PeerId) : RouterEvent → Prop
  | .packetReceived src pkt =>
    src = p ∧ p ≠ self ∧ pkt.fromPeerId ≠ self ∧ pkt.type = .routingUpdate
  | _ => False

lemma maintenance_views (self : PeerId) (env : StepEnv) (s : RouterState) :
    (s.runPeriodicMaintenance self env).2.neighborViews =
      ((s.neighborViews.items env.order 0).foldl (expireNeighbor (env.clock 0))
        (s.neighborViews, false)).1 := by
  have hfire : ∀ s : RouterState, (s.fireTrigger self env (env.clock 0)).2.neighborViews =
      s.neighborViews := by
    intro s
    unfold RouterState.fireTrigger
    split_ifs
    · dsimp only
      rw [sendTriggeredUpdates_state]
    · rfl
  obtain ⟨last, seen, htick⟩ := runPeriodicMaintenance_frame self env s
  rw [htick]
  dsimp only [RouterState.removeDeadRoutes]
  rw [hfire]
  unfold RouterState.expireNeighbors
  dsimp only
  split_ifs
  · exact recalculate_views ..
  · rfl

lemma mem_expire (now : Time) (l : List (PeerId × NeighborView))
    (acc : UMap PeerId NeighborView × Bool) {n : PeerId}
    (h : n ∈ (l.foldl (expireNeighbor now) acc).1) : n ∈ acc.1 :=
  of_expire (P := fun views => n ∈ views) (fun _ _ hmem => (AList.mem_erase.mp hmem).2) now l acc h

/-- A stored route is one of before, or the event has brought it. -/
theorem stored_of_move (h : RouterMove self env s event s') {p d : PeerId} {c : UInt32}
    (hc : Stored s'.neighborViews p d c) :
    Stored s.neighborViews p d c ∨ CarriesRoute p d c event := by
  cases h with
  | ignored _ => exact .inl hc
  | @update src pkt _ _ htype =>
    rw [processRoutingUpdate_views, stored_insert] at hc
    split_ifs at hc with hp
    · rw [lookup_updatedView] at hc
      cases hl : pkt.routeTable.lookup d with
      | none =>
        rw [hl] at hc
        rw [Option.elim_none, ← stored_iff_getD, (heardFrom_same s src (env.clock 0)).stored] at hc
        exact .inl (hp ▸ hc)
      | some cost =>
        rw [hl] at hc
        rw [Option.elim_some] at hc
        split_ifs at hc
        exact .inr ⟨hp.symm, htype, hl.trans hc⟩
    · exact .inl (((heardFrom_same s src (env.clock 0)).stored p d c).mp hc)
  | @data src pkt _ _ seen => exact .inl (((heardFrom_same s src (env.clock 0)).stored p d c).mp hc)
  | connected q =>
    unfold RouterState.peerConnected at hc
    rw [recalculate_views, stored_insert] at hc
    split_ifs at hc with hp
    · exact .inl (stored_iff_getD.mpr (hp ▸ hc))
    · exact .inl hc
  | disconnected q =>
    unfold RouterState.peerDisconnected at hc
    rw [recalculate_views] at hc
    exact .inl (stored_erase hc)
  | maintenance =>
    rw [maintenance_views] at hc
    exact .inl (stored_expire _ _ _ hc)
  | sent _ _ => exact .inl hc

/-- A key of the views is one of before, or the event has created it. -/
theorem mem_of_move (h : RouterMove self env s event s') {n : PeerId} (hn : n ∈ s'.neighborViews) :
    n ∈ s.neighborViews ∧ event ≠ .peerDisconnected n ∨ event = .peerConnected n ∨
      UpdateFrom self n event := by
  cases h with
  | ignored _ => exact .inl ⟨hn, nofun⟩
  | @update src pkt hsrc hfrom htype =>
    rw [processRoutingUpdate_views, AList.mem_insert] at hn
    rcases hn with rfl | hn
    · exact .inr (.inr ⟨rfl, hsrc, hfrom, htype⟩)
    · exact .inl ⟨((heardFrom_same s src (env.clock 0)).mem n).mp hn, nofun⟩
  | @data src pkt _ _ seen => exact .inl ⟨((heardFrom_same s src (env.clock 0)).mem n).mp hn, nofun⟩
  | connected p =>
    unfold RouterState.peerConnected at hn
    rw [recalculate_views, AList.mem_insert] at hn
    rcases hn with rfl | hn
    · exact .inr (.inl rfl)
    · exact .inl ⟨hn, nofun⟩
  | disconnected p =>
    unfold RouterState.peerDisconnected at hn
    rw [recalculate_views, AList.mem_erase] at hn
    refine .inl ⟨hn.2, fun heq => ?_⟩
    cases heq
    exact hn.1 rfl
  | maintenance =>
    rw [maintenance_views] at hn
    exact .inl ⟨mem_expire _ _ _ hn, nofun⟩
  | sent _ _ => exact .inl ⟨hn, nofun⟩

/-- The events that create a view. -/
theorem mem_of_creating (h : RouterMove self env s event s') {n : PeerId}
    (hevent : event = .peerConnected n ∨ UpdateFrom self n event) : n ∈ s'.neighborViews := by
  rcases hevent with rfl | hupdate
  · cases h with
    | connected _ =>
      unfold RouterState.peerConnected
      rw [recalculate_views, AList.mem_insert]
      exact .inl rfl
  · cases h with
    | ignored hown =>
      obtain ⟨rfl, hn, hfrom, -⟩ := hupdate
      rcases hown with h | h
      · exact absurd h hn
      · exact absurd h hfrom
    | update _ _ _ =>
      obtain ⟨rfl, -⟩ := hupdate
      rw [processRoutingUpdate_views, AList.mem_insert]
      exact .inl rfl
    | data _ htype _ => exact absurd hupdate.2.2.2 htype
    | _ => exact absurd hupdate id

/-! ## The view of a peer after it connects -/

lemma stored_peerConnected {p d : PeerId} {c : UInt32} :
    Stored (s.peerConnected self env p).neighborViews p d c ↔ Stored s.neighborViews p d c := by
  unfold RouterState.peerConnected
  rw [recalculate_views, stored_insert, if_pos rfl, stored_iff_getD]

lemma stored_run (cb : OnPacketForMe ν) (os : ν × RouterState)
    (events : List (StepEnv × RouterEvent)) {p d : PeerId} {c : UInt32}
    (hc : Stored (EventRun.run (routerStep cb self) os events).2.neighborViews p d c) :
    Stored os.2.neighborViews p d c ∨ ∃ ee ∈ events, CarriesRoute p d c ee.2 := by
  induction events generalizing os with
  | nil => exact .inl hc
  | cons ee events ih =>
    rcases ih (routerStep cb self os ee) hc with hold | ⟨ee', hmem, hcarries⟩
    · rcases stored_of_move (step_move cb self ee.1 os.1 os.2 ee.2) hold with hold | hcarries
      · exact .inl hold
      · exact .inr ⟨ee, List.mem_cons_self, hcarries⟩
    · exact .inr ⟨ee', List.mem_cons_of_mem ee hmem, hcarries⟩

/-- After a peer has connected its view holds only routes of later updates, exactly if its view held
no routes when it connected. -/
theorem view_of_connected_peer_iff (cb : OnPacketForMe ν) (self : PeerId) (owner₀ : ν) (now : Time)
    (before : List (StepEnv × RouterEvent)) (env : StepEnv) (p : PeerId) :
    (∀ after, (∀ ee ∈ after, ee.2 ≠ .peerConnected p) → ∀ d c,
      Stored (EventRun.run (routerStep cb self) (owner₀, RouterState.create self now)
        (before ++ (env, .peerConnected p) :: after)).2.neighborViews p d c →
      ∃ ee ∈ after, CarriesRoute p d c ee.2) ↔
    ∀ d c, ¬Stored (EventRun.run (routerStep cb self) (owner₀, RouterState.create self now)
      before).2.neighborViews p d c := by
  simp only [EventRun.run_append, EventRun.run_cons]
  generalize EventRun.run (routerStep cb self) (owner₀, RouterState.create self now) before = os
  constructor
  · intro h d c hc
    obtain ⟨ee, hmem, -⟩ := h [] (by simp) d c (stored_peerConnected.mpr hc)
    cases hmem
  · intro h after _ d c hc
    rcases stored_run cb _ after hc with hold | hcarries
    · exact absurd (stored_peerConnected.mp hold) (h d c)
    · exact hcarries

/-- A routing update of `"b"` with one cost. -/
def updateOfB (d : PeerId) (c : UInt32) : RouterEvent :=
  .packetReceived "b" (makeRoutingTableRoutedPacket [] "b" "a" 15 (AList.singleton d c))

/-- The neighbour `"b"` is evicted by the transport, which is no event of the router, and connects
again after a restart. Its old route to `"c"` stays, whatever it advertises now. -/
theorem view_keeps_routes_of_old_connection :
    ¬∀ (before : List (StepEnv × RouterEvent)) (env : StepEnv) (p : PeerId)
      (after : List (StepEnv × RouterEvent)), (∀ ee ∈ after, ee.2 ≠ .peerConnected p) → ∀ d c,
      Stored (EventRun.run (routerStep silentOwner "a") ((), RouterState.create "a" 0)
        (before ++ (env, .peerConnected p) :: after)).2.neighborViews p d c →
      ∃ ee ∈ after, CarriesRoute p d c ee.2 := by
  intro h
  have hstored : Stored (timedRun [(0, .peerConnected "b"), (seconds 1, updateOfB "c" 1),
      (seconds 2, .peerConnected "b"), (seconds 3, updateOfB "d" 1)]).neighborViews "b" "c" 1 :=
    stored_iff_getD.mpr (by decide)
  obtain ⟨ee, hmem, hcarries⟩ := h [(plainEnv 0, .peerConnected "b"),
    (plainEnv (seconds 1), updateOfB "c" 1)]
    (plainEnv (seconds 2)) "b" [(plainEnv (seconds 3), updateOfB "d" 1)] (by simp [updateOfB])
    "c" 1 hstored
  obtain rfl := List.mem_singleton.mp hmem
  exact absurd hcarries.2.2 (by decide)

/-! ## Connected peers -/

/-- A router and its owner, with the peers whose latest connection event is `PEER_CONNECTED`. -/
structure WatchedRouter (ν : Type) where
  connected : PeerId → Bool
  owner : ν
  router : RouterState

def WatchedRouter.create (self : PeerId) (owner₀ : ν) (now : Time) : WatchedRouter ν :=
  ⟨fun _ => false, owner₀, RouterState.create self now⟩

def noteConnection (connected : PeerId → Bool) : RouterEvent → PeerId → Bool
  | .peerConnected p => Function.update connected p true
  | .peerDisconnected p => Function.update connected p false
  | _ => connected

def WatchedRouter.step (cb : OnPacketForMe ν) (self : PeerId) (w : WatchedRouter ν)
    (ee : StepEnv × RouterEvent) : WatchedRouter ν where
  connected := noteConnection w.connected ee.2
  owner := (w.router.step cb self ee.1 w.owner ee.2).2.1
  router := (w.router.step cb self ee.1 w.owner ee.2).2.2

/-- The watch does not change what the router does. -/
lemma watched_run (cb : OnPacketForMe ν) (self : PeerId) (w : WatchedRouter ν)
    (events : List (StepEnv × RouterEvent)) :
    ((EventRun.run (WatchedRouter.step cb self) w events).owner,
      (EventRun.run (WatchedRouter.step cb self) w events).router) =
      EventRun.run (routerStep cb self) (w.owner, w.router) events := by
  induction events generalizing w with
  | nil => rfl
  | cons ee events ih => exact ih (w.step cb self ee)

/-- The entry of the router itself is the one it was created with. -/
def OwnEntry (self : PeerId) (s : RouterState) : Prop :=
  ∃ e, s.forwardingTable.lookup self = some e ∧ e.nextHop = self ∧ e.cost = 0

/-- Routes only go through connected peers. -/
structure RoutesConnected (selfId : PeerId) (w : WatchedRouter ν) : Prop where
  views : ∀ n ∈ w.router.neighborViews, n ≠ selfId ∧ w.connected n = true
  nextHops : ∀ d, d ≠ selfId → ∀ e, w.router.forwardingTable.lookup d = some e → e.cost < infCost →
    w.connected e.nextHop = true
  own : OwnEntry selfId w.router

/-- A peer that connects is not the router itself, and the updates that `handle_packet` takes are
those of connected peers. -/
def FromConnected (self : PeerId) (w : WatchedRouter ν) (ee : StepEnv × RouterEvent) : Prop :=
  ee.2 ≠ .peerConnected self ∧ ∀ n, UpdateFrom self n ee.2 → w.connected n = true

lemma OwnEntry.of_same (h : OwnEntry self s) (hsame : SameRoutes s s') : OwnEntry self s' := by
  obtain ⟨e, he, hhop, hcost⟩ := h
  obtain ⟨e', he', hcost', hhop'⟩ := hsame.kept self e he (by simp [hcost])
  exact ⟨e', he', hhop'.trans hhop, hcost'.trans hcost⟩

lemma ownEntry_recalculate (env : StepEnv) (now : Time) (h : self ∉ s.neighborViews) :
    OwnEntry self (s.recalculateForwardingTable self env now) := by
  obtain ⟨e, he, hcost, hhop⟩ :=
    mergedEntry_some now ⟨self, 0, false, now⟩ (s.forwardingTable.lookup self)
  refine ⟨e, ?_, hhop, hcost⟩
  rw [lookup_recalculate, lookup_computeTable_self, if_neg h]
  exact he

lemma ownEntry_move (h : RouterMove self env s event s') (hown : OwnEntry self s)
    (hself : self ∉ s'.neighborViews) : OwnEntry self s' := by
  cases h with
  | ignored _ => exact hown
  | update _ _ _ =>
    apply ownEntry_recalculate
    rwa [processRoutingUpdate_views] at hself
  | data _ _ seen =>
    exact (hown.of_same (heardFrom_same ..)).of_same (.of_frame ⟨seen, rfl⟩)
  | connected _ =>
    apply ownEntry_recalculate
    unfold RouterState.peerConnected at hself
    rwa [recalculate_views] at hself
  | disconnected _ =>
    apply ownEntry_recalculate
    unfold RouterState.peerDisconnected at hself
    rwa [recalculate_views] at hself
  | maintenance =>
    rw [maintenance_views] at hself
    have hexp : OwnEntry self (s.expireNeighbors self env (env.clock 0)) := by
      unfold RouterState.expireNeighbors
      dsimp only
      split_ifs
      · exact ownEntry_recalculate env _ hself
      · exact hown
    exact hexp.of_same ((fireTrigger_same ..).trans ((firePeriodic_same ..).trans
      ((removeDeadRoutes_same ..).trans (.of_eq rfl rfl))))
  | sent _ seen => exact hown.of_same (.of_frame ⟨seen, rfl⟩)

lemma noteConnection_of_ne {connected : PeerId → Bool} {n : PeerId} (hn : connected n = true)
    (hevent : event ≠ .peerDisconnected n) : noteConnection connected event n = true := by
  cases event with
  | peerConnected p => by_cases h : n = p <;> simp [noteConnection, h, hn]
  | peerDisconnected p =>
    have h : n ≠ p := fun h => hevent (h ▸ rfl)
    simp [noteConnection, Function.update_of_ne h, hn]
  | _ => exact hn

lemma noteConnection_update {connected : PeerId → Bool} {n : PeerId} (h : UpdateFrom self n event) :
    noteConnection connected event = connected := by
  cases event with
  | packetReceived src pkt => rfl
  | _ => exact absurd h id

/-- One event keeps the routes on connected peers exactly if it comes from one. -/
lemma routesConnected_step (cb : OnPacketForMe ν) (w : WatchedRouter ν) (ee : StepEnv × RouterEvent)
    (hag : TableAgrees self w.router) (h : RoutesConnected self w) :
    RoutesConnected self (w.step cb self ee) ↔ FromConnected self w ee := by
  have hmove := step_move cb self ee.1 w.owner w.router ee.2
  constructor
  · intro h'
    refine ⟨fun heq => (h'.views self (mem_of_creating hmove (.inl heq))).1 rfl, fun n hn => ?_⟩
    have hconn := (h'.views n (mem_of_creating hmove (.inr hn))).2
    change noteConnection w.connected ee.2 n = true at hconn
    rwa [noteConnection_update hn] at hconn
  · rintro ⟨hself, hupdate⟩
    have hviews : ∀ n ∈ (w.step cb self ee).router.neighborViews,
        n ≠ self ∧ (w.step cb self ee).connected n = true := by
      intro n hn
      change n ≠ self ∧ noteConnection w.connected ee.2 n = true
      rcases mem_of_move hmove hn with ⟨hold, hevent⟩ | hevent | hevent
      · exact ⟨(h.views n hold).1, noteConnection_of_ne (h.views n hold).2 hevent⟩
      · rw [hevent]
        exact ⟨fun heq => hself (heq ▸ hevent), by simp [noteConnection]⟩
      · rw [noteConnection_update hevent]
        refine ⟨?_, hupdate n hevent⟩
        rintro rfl
        cases hee : ee.2 with
        | packetReceived src pkt =>
          rw [hee] at hevent
          exact hevent.2.1 rfl
        | _ =>
          rw [hee] at hevent
          exact hevent
    have hag' : TableAgrees self (w.step cb self ee).router :=
      step_agrees cb self ee.1 w.owner hag ee.2
    refine ⟨hviews, fun d hd e he hlive => ?_, ?_⟩
    · exact (hviews _ (hag'.live d hd e he (lt_infCost_iff.mp hlive)).candidate.mem).2
    · exact ownEntry_move hmove h.own fun hmem => (hviews self hmem).1 rfl

/-- In every state of a run the routes go through connected peers only, exactly if every event of
the run comes from a connected peer. -/
theorem routes_connected_iff (cb : OnPacketForMe ν) (self : PeerId) (owner₀ : ν) (now : Time)
    (events : List (StepEnv × RouterEvent)) :
    EventRun.Always (WatchedRouter.step cb self) (RoutesConnected self) (.create self owner₀
      now) events ↔
      EventRun.Guarded (WatchedRouter.step cb self) (FromConnected self) (.create self owner₀ now)
        events := by
  refine EventRun.always_iff_guarded (fun w ee hag => step_agrees cb self ee.1 w.owner hag ee.2)
    (fun w ee hag h => routesConnected_step cb w ee hag h) (create_agrees self now) ?_ events
  have hlookup : ∀ d, (RouterState.create self now).forwardingTable.lookup d =
      if d = self then some ⟨self, 0, false, 0⟩ else none :=
    fun d => UMap.lookup_singleton_eq d self _
  refine ⟨nofun, fun d hd e he => ?_, ⟨_, (hlookup self).trans (if_pos rfl), rfl, rfl⟩⟩
  rw [WatchedRouter.create, hlookup, if_neg hd] at he
  cases he

/-- An update of `"b"` is still queued when `"b"` disconnects. -/
theorem routes_through_disconnected_peer :
    ¬∀ events : List (StepEnv × RouterEvent),
      EventRun.Always (WatchedRouter.step silentOwner "a") (RoutesConnected "a") (.create "a" () 0)
        events := by
  intro h
  have hroute := (h [(plainEnv 0, .peerConnected "b"),
    (plainEnv (seconds 1), .peerDisconnected "b"), (plainEnv (seconds 1), updateOfB "c" 1)] _
    (List.prefix_refl _)).nextHops "c" (by decide)
    ⟨"b", 2, true, seconds 1⟩ (by decide) (by decide)
  exact absurd hroute (by decide)

end MeshNetwork.Proofs
