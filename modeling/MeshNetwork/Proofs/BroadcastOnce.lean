import MeshNetwork.Proofs.NetworkStep
import MeshNetwork.Proofs.RouterInvariant

/-!
# Broadcasts and the owner's callback

A router calls its owner before it looks a packet up among the ids it has seen, so a node that two
copies of a broadcast reach handles both. A node handles a broadcast once as long as no further
copy arrives while the id is remembered.
-/

namespace MeshNetwork.Proofs

variable {ν : Type}

/-- `p` is the packet `p₀`, possibly further on its way. -/
def IsCopy (p₀ p : RoutedPacket) : Prop :=
  p.id = p₀.id ∧ p.fromPeerId = p₀.fromPeerId ∧ p.toPeerId = p₀.toPeerId ∧
    p.expectResponse = p₀.expectResponse

instance (p₀ p : RoutedPacket) : Decidable (IsCopy p₀ p) :=
  inferInstanceAs (Decidable (_ ∧ _))

def dedupKeyOf (p : RoutedPacket) : DedupKey := (toHex p.id, p.expectResponse)

lemma IsCopy.key {p p' : RoutedPacket} (h : IsCopy p p') : dedupKeyOf p' = dedupKeyOf p := by
  unfold dedupKeyOf
  rw [h.1, h.2.2.2]

/-- How often an owner was called with a copy of `p₀`. -/
def callbacks (p₀ : RoutedPacket) (handled : List RoutedPacket) : Nat :=
  handled.countP fun p => decide (IsCopy p₀ p)

/-- Packets come over the links and are sent by their origin, and no copy of `p₀` reaches a node
that is not its origin and has seen its id. -/
def ReachesUnseen (p₀ : RoutedPacket) (net : Network ν) : NetworkEvent → Prop
  | .deliver src dst index =>
    ∀ p, (net.channel src dst)[index]? = some p → IsCopy p₀ p → p.fromPeerId ≠ dst →
      dedupKeyOf p₀ ∉ (net.routers dst).seenPacketIds.set
  | .router node (.sendPacket p) => p.fromPeerId = node
  | .router _ (.packetReceived _ _) => False
  | _ => True

/-- All clock readings are within the lifetime of an id that is first seen at `t₀`. -/
def InLifetime (t₀ : Time) (env : StepEnv) : Prop :=
  ∀ i, t₀ ≤ env.clock i ∧ env.clock i ≤ t₀ + seconds 30

/-- Nobody has seen or handled `p₀`. -/
structure Unheard (p₀ : RoutedPacket) (net : Network ν) : Prop where
  age : ∀ b, (net.routers b).seenPacketIds.maxAge = seconds 30
  unseen : ∀ b t, (t, dedupKeyOf p₀) ∉ (net.routers b).seenPacketIds.timeQueue
  unhandled : ∀ b, callbacks p₀ (net.handled b) = 0

/-- A node has handled `p₀` at most once, and remembers it if it has. -/
structure HandledOnce (p₀ : RoutedPacket) (t₀ : Time) (s : RouterState)
    (handled : List RoutedPacket) : Prop where
  recent : Recent (dedupKeyOf p₀) t₀ s.seenPacketIds
  once : callbacks p₀ handled ≤ 1
  seen : callbacks p₀ handled = 1 → dedupKeyOf p₀ ∈ s.seenPacketIds.set

lemma callbacks_append (p₀ : RoutedPacket) (l l' : List RoutedPacket) :
    callbacks p₀ (l ++ l') = callbacks p₀ l + callbacks p₀ l' :=
  List.countP_append

lemma HandledOnce.of_remembers {p₀ : RoutedPacket} {t₀ : Time} {s s' : RouterState}
    {handled : List RoutedPacket} (h : HandledOnce p₀ t₀ s handled)
    (hr : Remembers (dedupKeyOf p₀) t₀ s s') : HandledOnce p₀ t₀ s' handled :=
  ⟨hr.recent h.recent, h.once, fun hone => hr.mem h.recent (h.seen hone)⟩

/-- A broadcast that the owner was called with is among the seen ids afterwards. -/
lemma routeDataPacket_seen_mem (cb : OnPacketForMe ν)
    (hcb : ∀ env owner s pkt, (cb env owner s pkt).2.1.expectResponse = pkt.expectResponse)
    {self : PeerId} (hself : self ≠ "") (env : StepEnv) (owner : ν) (s : RouterState)
    (immediateSrc : PeerId) {pkt : RoutedPacket} (hfrom : pkt.fromPeerId ≠ self) :
    dedupKeyOf pkt ∈
      (s.routeDataPacket cb self env owner immediateSrc "" (toHex pkt.id)
        pkt).2.2.seenPacketIds.set := by
  unfold RouterState.routeDataPacket
  rw [if_pos ⟨.inl rfl, hfrom⟩]
  dsimp only
  rw [if_neg hself.symm]
  unfold dedupKeyOf
  rw [← hcb env owner s pkt]
  exact forwardPacket_seen_mem ..

/-- A packet from a link that is not a copy of `p₀`, or that finds its id unseen. -/
lemma handlePacket_handledOnce (cb : OnPacketForMe ν)
    (hcb : ∀ env owner s pkt, (cb env owner s pkt).2.1.expectResponse = pkt.expectResponse)
    {p₀ : RoutedPacket} (hbroadcast : p₀.toPeerId = "") {t₀ : Time} {self : PeerId}
    (hself : self ≠ "") {env : StepEnv} (henv : InLifetime t₀ env) (owner : ν) {s : RouterState}
    {handled : List RoutedPacket} (h : HandledOnce p₀ t₀ s handled) (srcId : PeerId)
    (pkt : RoutedPacket)
    (hfirst : IsCopy p₀ pkt → pkt.fromPeerId ≠ self → dedupKeyOf p₀ ∉ s.seenPacketIds.set) :
    HandledOnce p₀ t₀ (s.handlePacket cb self env owner srcId pkt).2.2
      (handled ++ (s.handlePacket cb self env owner srcId pkt).1.filterMap packetForOwner) := by
  have hkept :=
    h.of_remembers (handlePacket_remembers cb self (fun i => (henv i).1) owner s srcId pkt)
  by_cases hcalled : callbacks p₀ ((s.handlePacket cb self env owner srcId pkt).1.filterMap
    packetForOwner) = 0
  · have hcount := callbacks_append p₀ handled
      ((s.handlePacket cb self env owner srcId pkt).1.filterMap packetForOwner)
    rw [hcalled, Nat.add_zero] at hcount
    refine ⟨hkept.recent, ?_, ?_⟩
    · rw [hcount]
      exact hkept.once
    · rw [hcount]
      exact hkept.seen
  · -- the owner is called, so this is the first copy and its id is recorded
    unfold RouterState.handlePacket at hcalled hkept ⊢
    split_ifs at hcalled hkept ⊢ with hown htype
    · exact absurd rfl hcalled
    · exact absurd rfl hcalled
    · rw [routeDataPacket_owner] at hcalled ⊢
      split_ifs at hcalled ⊢ with hme
      · have hcopy : IsCopy p₀ pkt := by
          by_contra hno
          apply hcalled
          simp [callbacks, hno]
        have hto : pkt.toPeerId = "" := hcopy.2.2.1.trans hbroadcast
        have hfresh := hfirst hcopy hme.2
        have hzero : callbacks p₀ handled = 0 := by
          have hne : callbacks p₀ handled ≠ 1 := fun hone => hfresh (h.seen hone)
          have := h.once
          omega
        have hone : callbacks p₀ (handled ++ [pkt]) = 1 := by
          rw [callbacks_append, hzero]
          simp [callbacks, hcopy]
        refine ⟨hkept.recent, hone.le, fun _ => ?_⟩
        rw [← hcopy.key, hto]
        exact routeDataPacket_seen_mem cb hcb hself env owner _ srcId hme.2
      · exact absurd rfl hcalled

lemma routingPackets_owner (self : PeerId) (env : StepEnv) (first : Nat) (ttl : UInt32)
    (updates : List (PeerId × RouteTable)) :
    (routingPackets self env first ttl updates).filterMap packetForOwner = [] := by
  rw [List.filterMap_eq_nil_iff]
  intro o ho
  obtain ⟨u, -, rfl⟩ := List.mem_map.mp ho
  rfl

lemma runPeriodicMaintenance_owner (self : PeerId) (env : StepEnv) (s : RouterState) :
    (s.runPeriodicMaintenance self env).1.filterMap packetForOwner = [] := by
  have htrigger : ∀ (s : RouterState) now,
      (s.fireTrigger self env now).1.filterMap packetForOwner = [] := by
    intro s now
    unfold RouterState.fireTrigger
    split_ifs
    · exact routingPackets_owner ..
    · rfl
  have hperiodic : ∀ (s : RouterState) now first,
      (s.firePeriodic self env now first).1.filterMap packetForOwner = [] := by
    intro s now first
    unfold RouterState.firePeriodic
    split_ifs
    · exact routingPackets_owner ..
    · rfl
  unfold RouterState.runPeriodicMaintenance
  dsimp only
  rw [List.filterMap_append, htrigger, hperiodic]
  rfl

/-- Events other than arrivals do not call the owner. -/
lemma step_owner (cb : OnPacketForMe ν) (self : PeerId) (env : StepEnv) (owner : ν)
    (s : RouterState) {event : RouterEvent}
    (hsend : ∀ p, event = .sendPacket p → p.fromPeerId = self)
    (hlink : ∀ src p, event ≠ .packetReceived src p) :
    (s.step cb self env owner event).1.filterMap packetForOwner = [] := by
  cases event with
  | packetReceived src pkt => exact absurd rfl (hlink src pkt)
  | peerConnected p => rfl
  | peerDisconnected p => rfl
  | maintenance => exact runPeriodicMaintenance_owner self env s
  | sendPacket pkt => exact (routeDataPacket_owner ..).trans (if_neg fun h => h.2 (hsend pkt rfl))

section Runs

variable {p₀ : RoutedPacket} {t₀ : Time}

/-- Every node handles `p₀` at most once. -/
def AllOnce (p₀ : RoutedPacket) (t₀ : Time) (net : Network ν) : Prop :=
  ∀ b, b ≠ "" → HandledOnce p₀ t₀ (net.routers b) (net.handled b)

lemma AllOnce.apply {net : Network ν} (h : AllOnce p₀ t₀ net) {node : PeerId}
    {r : List RouterOutput × ν × RouterState}
    (hnode : node ≠ "" → HandledOnce p₀ t₀ r.2.2
      (net.handled node ++ r.1.filterMap packetForOwner)) :
    AllOnce p₀ t₀ (net.apply node r) := by
  intro b hb
  rw [apply_eq]
  dsimp only
  by_cases hbn : b = node
  · subst hbn
    rw [Function.update_self, if_pos rfl]
    exact hnode hb
  · rw [Function.update_of_ne hbn, if_neg hbn, List.append_nil]
    exact h b hb

/-- A quiet step of one router. -/
lemma HandledOnce.quiet {s s' : RouterState} {handled : List RoutedPacket}
    {outs : List RouterOutput} (h : HandledOnce p₀ t₀ s handled)
    (hr : Remembers (dedupKeyOf p₀) t₀ s s') (houts : outs.filterMap packetForOwner = []) :
    HandledOnce p₀ t₀ s' (handled ++ outs.filterMap packetForOwner) := by
  rw [houts, List.append_nil]
  exact h.of_remembers hr

lemma step_allOnce (cb : PeerId → OnPacketForMe ν)
    (hcb : ∀ node env owner s pkt, (cb node env owner s pkt).2.1.expectResponse =
      pkt.expectResponse) (hbroadcast : p₀.toPeerId = "") {env : StepEnv} (henv :
      InLifetime t₀ env) {net : Network ν} (h : AllOnce p₀ t₀ net) {event : NetworkEvent} (hevent :
      ReachesUnseen p₀ net event) :
    AllOnce p₀ t₀ (net.step cb env event) := by
  cases event with
  | router node event =>
    refine h.apply fun hnode => (h node hnode).quiet (step_remembers (cb node) node henv ..) ?_
    refine step_owner (cb node) node env _ _ ?_ ?_
    · rintro p rfl
      exact hevent
    · rintro src p rfl
      exact hevent
  | sendTriggeredUpdates node =>
    exact h.apply fun hnode => (h node hnode).quiet (.of_eq (sendTriggeredUpdates_seen ..))
      (routingPackets_owner ..)
  | broadcastFullTable node =>
    exact h.apply fun hnode => (h node hnode).quiet (.of_eq rfl) (routingPackets_owner ..)
  | deliver src dst index =>
    cases hpkt : (net.channel src dst)[index]? with
    | none =>
      rw [step_deliver_none hpkt]
      exact h
    | some pkt =>
      rw [step_deliver_some hpkt]
      have htake : AllOnce p₀ t₀ (net.take src dst index) := h
      exact htake.apply fun hdst => handlePacket_handledOnce (cb dst) (hcb dst) hbroadcast hdst henv
        _ (h dst hdst)
        src pkt (hevent pkt hpkt)

/-- In every run within the lifetime of its id in which no copy of a broadcast reaches a node that
has seen it, each node handles the broadcast at most once. -/
theorem broadcast_handled_once (cb : PeerId → OnPacketForMe ν)
    (hcb : ∀ node env owner s pkt, (cb node env owner s pkt).2.1.expectResponse =
      pkt.expectResponse) (p₀ : RoutedPacket) (hbroadcast : p₀.toPeerId = "") (t₀ :
      Time) (net₀ net : Network ν) (hfresh : Unheard p₀ net₀)
    (hrun : Relation.ReflTransGen
      (Network.Moves cb fun net env event => InLifetime t₀ env ∧ ReachesUnseen p₀ net event) net₀
        net)
    (b : PeerId) (hb : b ≠ "") : callbacks p₀ (net.handled b) ≤ 1 := by
  have hall : AllOnce p₀ t₀ net := by
    induction hrun with
    | refl =>
      intro b _
      have hzero := hfresh.unhandled b
      exact ⟨⟨hfresh.age b, fun t ht => absurd ht (hfresh.unseen b t)⟩, by omega,
        fun hone => by omega⟩
    | tail _ hmove ih =>
      obtain ⟨env, event, ⟨henv, hevent⟩, rfl⟩ := hmove
      exact step_allOnce cb hcb hbroadcast henv ih hevent
  exact (hall b hb).once

end Runs

lemma create_unheard (p₀ : RoutedPacket) (now : PeerId → Time) (owners : PeerId → ν) :
    Unheard p₀ (Network.create now owners) :=
  ⟨fun _ => rfl, fun _ _ => List.not_mem_nil, fun _ => rfl⟩

lemma plainEnv_inLifetime (t : Time) : InLifetime t (plainEnv t) :=
  fun _ => ⟨le_rfl, Nat.le_add_right t _⟩

def announcement : RoutedPacket := makeBinaryRoutedPacket [1] "a" "" 10 "Announcement" .tcp [7]

/-- The links of a triangle, a broadcast by "a", and its copies for "b" and "c" and from "c" to
"b". -/
def triangleEvents : List NetworkEvent :=
  [.router "a" (.peerConnected "b"), .router "a" (.peerConnected "c"),
    .router "b" (.peerConnected "a"), .router "b" (.peerConnected "c"),
    .router "c" (.peerConnected "a"), .router "c" (.peerConnected "b"),
    .router "a" (.sendPacket announcement), .deliver "a" "b" 0, .deliver "a" "c" 0,
    .deliver "c" "b" 0]

def silentNet : Network Unit := Network.create (fun _ => 0) fun _ => ()

theorem triangle_handles_twice :
    Unheard announcement silentNet ∧ InLifetime 0 (plainEnv 0) ∧
      callbacks announcement
        ((triangleEvents.foldl (Network.step (fun _ => silentOwner) (plainEnv 0)) silentNet).handled
          "b") = 2 :=
  ⟨create_unheard _ _ _, plainEnv_inLifetime 0, by decide⟩

/-- A tree: "b" has links to "a", "c" and "d", and passes the broadcast of "a" on to the other
two. -/
def treeEvents : List NetworkEvent :=
  [.router "a" (.peerConnected "b"), .router "b" (.peerConnected "a"),
    .router "b" (.peerConnected "c"), .router "b" (.peerConnected "d"),
    .router "c" (.peerConnected "b"), .router "d" (.peerConnected "b"),
    .router "a" (.sendPacket announcement), .deliver "a" "b" 0, .deliver "b" "c" 0,
    .deliver "b" "d" 0]

def treeEnd : Network Unit :=
  EventRun.run (Network.step (fun _ => silentOwner) (plainEnv 0)) silentNet treeEvents

theorem broadcast_handled_once_tree :
    (∀ b ∈ ["b", "c", "d"], (treeEnd.handled b).length = 1) ∧
      ∀ b ∈ ["b", "c", "d"], callbacks announcement (treeEnd.handled b) ≤ 1 := by
  have hguarded : EventRun.Guarded (Network.step (fun _ => silentOwner) (plainEnv 0))
      (ReachesUnseen announcement)
      silentNet treeEvents :=
    ⟨trivial, trivial, trivial, trivial, trivial, trivial, rfl, fun _ _ _ _ => by decide,
      fun _ _ _ _ => by decide, fun _ _ _ _ => by decide, trivial⟩
  exact ⟨by decide, fun b hb => broadcast_handled_once (fun _ => silentOwner) (fun _ _ _ _ _ => rfl)
    announcement rfl 0
    silentNet treeEnd (create_unheard _ _ _)
    (hguarded.reflTransGen fun _ event h => ⟨plainEnv 0, event, ⟨plainEnv_inLifetime 0, h⟩, rfl⟩) b
    (by fin_cases hb <;> decide)⟩

end MeshNetwork.Proofs
