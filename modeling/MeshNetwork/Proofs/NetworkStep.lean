import MeshNetwork.Model.Network
import MeshNetwork.Proofs.RoutingTable

/-!
# One step of a network

What an event changes at each node, on each channel and in the record of the packets handed to
the owners, and what a router step does to the set of packet ids it has seen.
-/

namespace MeshNetwork.Proofs

variable {ν : Type}

/-! ## Outcomes -/

/-- The packet an output hands to the owner. -/
def packetForOwner : RouterOutput → Option RoutedPacket
  | .transmit _ _ => none
  | .packetForMe pkt => some pkt

/-- The packet an output sends to `p`. -/
def packetTo (p : PeerId) : RouterOutput → Option RoutedPacket
  | .transmit nextPeerId pkt => if p = nextPeerId then some pkt else none
  | .packetForMe _ => none

lemma foldl_emit (node : PeerId) (outs : List RouterOutput) (net : Network ν) :
    outs.foldl (Network.emit node) net =
      { net with
        channel :=
          fun x y => net.channel x y ++ if x = node then outs.filterMap (packetTo y) else []
        handled :=
          fun x => net.handled x ++ if x = node then outs.filterMap packetForOwner else [] } := by
  induction outs generalizing net with
  | nil => simp
  | cons o outs ih =>
    rw [List.foldl_cons, ih]
    cases o with
    | transmit p pkt =>
      simp only [Network.emit, List.filterMap_cons, packetTo, packetForOwner]
      congr 1
      funext x y
      by_cases hx : x = node
      · by_cases hy : y = p
        · simp [hx, hy]
        · simp [hx, hy]
      · simp [hx]
    | packetForMe pkt =>
      simp only [Network.emit, List.filterMap_cons, packetTo, packetForOwner]
      congr 1
      funext x
      by_cases hx : x = node
      · simp [hx]
      · simp [hx]

lemma apply_eq (net : Network ν) (node : PeerId) (r : List RouterOutput × ν × RouterState) :
    net.apply node r =
      { routers := Function.update net.routers node r.2.2
        owners := Function.update net.owners node r.2.1
        channel := fun x y => net.channel x y ++ if x = node then r.1.filterMap (packetTo y) else []
        handled :=
          fun x => net.handled x ++ if x = node then r.1.filterMap packetForOwner else [] } :=
  foldl_emit ..

lemma step_deliver_none {cb : PeerId → OnPacketForMe ν} {env : StepEnv} {net : Network ν}
    {src dst : PeerId} {index : Nat} (h : (net.channel src dst)[index]? = none) :
    net.step cb env (.deliver src dst index) = net := by
  simp only [Network.step, h]

lemma step_deliver_some {cb : PeerId → OnPacketForMe ν} {env : StepEnv} {net : Network ν}
    {src dst : PeerId} {index : Nat} {pkt : RoutedPacket}
    (h : (net.channel src dst)[index]? = some pkt) :
    net.step cb env (.deliver src dst index) =
      (net.take src dst index).apply dst
        ((net.routers dst).handlePacket (cb dst) dst env (net.owners dst) src pkt) := by
  simp only [Network.step, h]

lemma moves_events (cb : PeerId → OnPacketForMe ν) (env : StepEnv) {cond : NetworkEvent → Prop}
    {events : List NetworkEvent} (h : ∀ event ∈ events, cond event) (net : Network ν) :
    Relation.ReflTransGen (Network.Moves cb fun _ _ event => cond event) net
      (events.foldl (Network.step cb env) net) := by
  induction events generalizing net with
  | nil => exact .refl
  | cons event events ih =>
    exact .head ⟨env, event, h event List.mem_cons_self, rfl⟩
      (ih (fun e he => h e (List.mem_cons_of_mem _ he)) _)

/-! ## Deliveries -/

lemma mem_filterMap_packetTo {outs : List RouterOutput} {y : PeerId} {p : RoutedPacket} :
    p ∈ outs.filterMap (packetTo y) ↔ .transmit y p ∈ outs := by
  rw [List.mem_filterMap]
  constructor
  · rintro ⟨o, ho, hp⟩
    cases o with
    | packetForMe pkt => cases hp
    | transmit next pkt =>
      simp only [packetTo] at hp
      split_ifs at hp with hy
      cases hp
      rw [hy]
      exact ho
  · intro ho
    exact ⟨_, ho, if_pos rfl⟩

section Delivered

variable {net : Network ν} {src dst : PeerId} {index : Nat} {pkt : RoutedPacket}
  {r : List RouterOutput × ν × RouterState}

/-- What is on its way after a delivery. -/
lemma mem_delivered {x y : PeerId} {p : RoutedPacket} :
    p ∈ ((net.take src dst index).apply dst r).channel x y ↔
      p ∈ (net.take src dst index).channel x y ∨ x = dst ∧ .transmit y p ∈ r.1 := by
  rw [apply_eq]
  dsimp only
  rw [List.mem_append]
  by_cases hx : x = dst
  · rw [if_pos hx, mem_filterMap_packetTo]
    simp [hx]
  · rw [if_neg hx]
    simp [hx]

lemma mem_handled_delivered {v : PeerId} {p : RoutedPacket} :
    p ∈ ((net.take src dst index).apply dst r).handled v ↔
      p ∈ net.handled v ∨ v = dst ∧ p ∈ r.1.filterMap packetForOwner := by
  rw [apply_eq]
  dsimp only [Network.take]
  rw [List.mem_append]
  by_cases hv : v = dst
  · simp [hv]
  · simp [hv]

lemma mem_of_mem_take {x y : PeerId} {p : RoutedPacket}
    (h : p ∈ (net.take src dst index).channel x y) :
    p ∈ net.channel x y := by
  dsimp only [Network.take] at h
  split_ifs at h
  · exact List.mem_of_mem_eraseIdx h
  · exact h

lemma mem_take_of_ne (hpkt : (net.channel src dst)[index]? = some pkt) {x y : PeerId}
    {p : RoutedPacket} (h : p ∈ net.channel x y) (hne : x = src ∧ y = dst → p ≠ pkt) :
    p ∈ (net.take src dst index).channel x y := by
  dsimp only [Network.take]
  split_ifs with hxy
  · obtain ⟨rfl, rfl⟩ := hxy
    obtain ⟨i, hi⟩ := List.getElem?_of_mem h
    refine List.mem_eraseIdx_iff_getElem?.mpr ⟨i, ?_, hi⟩
    rintro rfl
    rw [hpkt] at hi
    exact hne ⟨rfl, rfl⟩ (Option.some.inj hi).symm
  · exact h

/-- The nodes that have seen a packet id. -/
def seenBy (key : DedupKey) (routers : PeerId → RouterState) : Set PeerId :=
  {b | key ∈ (routers b).seenPacketIds.set}

variable {key : DedupKey}

lemma mem_seenBy_apply {x : PeerId} :
    x ∈ seenBy key (net.apply dst r).routers ↔
      if x = dst then key ∈ r.2.2.seenPacketIds.set else x ∈ seenBy key net.routers := by
  rw [apply_eq]
  unfold seenBy
  dsimp only
  rw [Set.mem_ofPred_eq, Function.update_apply]
  split_ifs
  · rfl
  · rfl

lemma seenBy_mono (hseen : dst ∈ seenBy key net.routers → key ∈ r.2.2.seenPacketIds.set) :
    seenBy key net.routers ⊆ seenBy key ((net.take src dst index).apply dst r).routers := by
  intro x hx
  rw [mem_seenBy_apply]
  split_ifs with hdst
  · rw [hdst] at hx
    exact hseen hx
  · exact hx

lemma seenBy_eq (hseen : key ∈ r.2.2.seenPacketIds.set ↔ dst ∈ seenBy key net.routers) :
    seenBy key ((net.take src dst index).apply dst r).routers = seenBy key net.routers := by
  ext x
  rw [mem_seenBy_apply, hseen]
  split_ifs with hx
  · rw [hx]
  · rfl

lemma seenBy_insert (hseen : key ∈ r.2.2.seenPacketIds.set) :
    seenBy key ((net.take src dst index).apply dst r).routers =
      insert dst (seenBy key net.routers) := by
  ext x
  rw [mem_seenBy_apply, Set.mem_insert_iff]
  split_ifs with hx
  · simp [hx, hseen]
  · simp [hx, Network.take]

end Delivered

/-! ## Seen packet ids -/

section Dedup

variable {α : Type} [DecidableEq α]

/-- Every recorded insertion of `key` happened at `t₀` or later. -/
structure Recent (key : α) (t₀ : Time) (s : TimedDedupSet α) : Prop where
  age : s.maxAge = seconds 30
  since : ∀ t, (t, key) ∈ s.timeQueue → t₀ ≤ t

lemma mem_insert_self (s : TimedDedupSet α) (value : α) (now : Time) :
    value ∈ (s.insert value now).2.set := by
  unfold TimedDedupSet.insert
  split_ifs with h
  · exact h
  · exact Finset.mem_insert_self value s.set

lemma mem_insert_of_mem {s : TimedDedupSet α} {key : α} (h : key ∈ s.set) (value : α) (now : Time) :
    key ∈ (s.insert value now).2.set := by
  unfold TimedDedupSet.insert
  split_ifs
  · exact h
  · exact Finset.mem_insert_of_mem h

lemma mem_of_mem_insert {s : TimedDedupSet α} {key value : α} {now : Time} (hne : key ≠ value)
    (h : key ∈ (s.insert value now).2.set) : key ∈ s.set := by
  unfold TimedDedupSet.insert at h
  split_ifs at h
  · exact h
  · exact Finset.mem_of_mem_insert_of_ne h hne

lemma Recent.insert {key : α} {t₀ now : Time} {s : TimedDedupSet α} (h : Recent key t₀ s)
    (hnow : t₀ ≤ now) (value : α) : Recent key t₀ (s.insert value now).2 := by
  unfold TimedDedupSet.insert
  split_ifs
  · exact h
  · refine ⟨h.age, fun t ht => ?_⟩
    rcases List.mem_append.mp ht with hold | hnew
    · exact h.since t hold
    · cases List.mem_singleton.mp hnew
      exact hnow

/-- A value inserted at most `maxAge` ago is not dropped. -/
lemma mem_dropExpired {key : α} {t₀ now maxAge : Time} (hnow : now ≤ t₀ + maxAge)
    (queue : List (Time × α)) (set : Finset α) (h : ∀ t, (t, key) ∈ queue → t₀ ≤ t) :
    (TimedDedupSet.dropExpired now maxAge queue set).1 ⊆ queue ∧
      (key ∈ set → key ∈ (TimedDedupSet.dropExpired now maxAge queue set).2) := by
  induction queue generalizing set with
  | nil => exact ⟨List.Subset.refl _, id⟩
  | cons entry rest ih =>
    obtain ⟨timestamp, value⟩ := entry
    unfold TimedDedupSet.dropExpired
    split_ifs with hold
    · obtain ⟨hsub, hkey⟩ := ih (set.erase value) fun t ht => h t (List.mem_cons_of_mem _ ht)
      refine ⟨fun x hx => List.mem_cons_of_mem _ (hsub hx),
        fun hmem => hkey (Finset.mem_erase.mpr ⟨?_, hmem⟩)⟩
      rintro rfl
      have hsince := h timestamp List.mem_cons_self
      unfold Time at *
      omega
    · exact ⟨List.Subset.refl _, id⟩

lemma Recent.cleanup {key : α} {t₀ now : Time} {s : TimedDedupSet α} (h : Recent key t₀ s)
    (hnow : now ≤ t₀ + seconds 30) :
    Recent key t₀ (s.cleanup now) ∧ (key ∈ s.set → key ∈ (s.cleanup now).set) := by
  rw [← h.age] at hnow
  obtain ⟨hsub, hkey⟩ := mem_dropExpired hnow s.timeQueue s.set h.since
  exact ⟨⟨h.age, fun t ht => h.since t (hsub ht)⟩, hkey⟩

end Dedup

lemma recalculate_seen (self : PeerId) (env : StepEnv) (now : Time) (s : RouterState) :
    (s.recalculateForwardingTable self env now).seenPacketIds = s.seenPacketIds := by
  unfold RouterState.recalculateForwardingTable
  dsimp only
  split_ifs
  · rfl
  · rfl

lemma heardFrom_seen (s : RouterState) (srcId : PeerId) (now : Time) :
    (s.heardFrom srcId now).seenPacketIds = s.seenPacketIds := by
  unfold RouterState.heardFrom
  cases s.neighborViews.lookup srcId with
  | none => rfl
  | some view => rfl

lemma sendTriggeredUpdates_seen (ord : IterOrder PeerId) (s : RouterState) :
    (s.sendTriggeredUpdates ord).2.seenPacketIds = s.seenPacketIds := by
  unfold RouterState.sendTriggeredUpdates
  dsimp only
  split_ifs
  · rfl
  · rfl

/-- A maintenance tick only cleans up the seen ids. -/
lemma runPeriodicMaintenance_seen (self : PeerId) (env : StepEnv) (s : RouterState) :
    (s.runPeriodicMaintenance self env).2.seenPacketIds =
      s.seenPacketIds.cleanup (env.clock 2) := by
  have hexpire : ∀ now, (s.expireNeighbors self env now).seenPacketIds = s.seenPacketIds := by
    intro now
    unfold RouterState.expireNeighbors
    dsimp only
    split_ifs
    · exact recalculate_seen ..
    · rfl
  have htrigger : ∀ (s : RouterState) now, (s.fireTrigger self env now).2.seenPacketIds =
      s.seenPacketIds := by
    intro s now
    unfold RouterState.fireTrigger
    split_ifs
    · exact sendTriggeredUpdates_seen env.order s
    · rfl
  have hperiodic : ∀ (s : RouterState) now first,
      (s.firePeriodic self env now first).2.seenPacketIds = s.seenPacketIds := by
    intro s now first
    unfold RouterState.firePeriodic
    split_ifs
    · rfl
    · rfl
  unfold RouterState.runPeriodicMaintenance
  dsimp only [RouterState.removeDeadRoutes]
  rw [hperiodic, htrigger, hexpire]

/-! ## Data packets -/

lemma forwardPacket_seen_mem (self : PeerId) (ord : IterOrder PeerId) (now : Time) (s : RouterState)
    (immediateSrc destPeer : PeerId) (pktId : String) (pkt : RoutedPacket) :
    (pktId, pkt.expectResponse) ∈
      (s.forwardPacket self ord now immediateSrc destPeer pktId pkt).2.seenPacketIds.set := by
  unfold RouterState.forwardPacket
  dsimp only
  split_ifs with h
  · exact of_decide_eq_true h.2
  · exact mem_insert_self ..

lemma forwardPacket_owner (self : PeerId) (ord : IterOrder PeerId) (now : Time) (s : RouterState)
    (immediateSrc destPeer : PeerId) (pktId : String) (pkt : RoutedPacket) :
    (s.forwardPacket self ord now immediateSrc destPeer pktId pkt).1.filterMap
      packetForOwner = [] := by
  unfold RouterState.forwardPacket
  dsimp only
  split_ifs
  · rfl
  · rw [List.filterMap_eq_nil_iff]
    intro o ho
    obtain ⟨p, -, hp⟩ := List.mem_filterMap.mp ho
    unfold forwardTo at hp
    dsimp only at hp
    split_ifs at hp
    split at hp <;> cases hp <;> rfl

lemma sendOwnPackets_owner (self : PeerId) (env : StepEnv) (i : Nat) (s : RouterState)
    (pkts : List RoutedPacket) :
    (s.sendOwnPackets self env i pkts).1.filterMap packetForOwner = [] := by
  induction pkts generalizing i s with
  | nil => rfl
  | cons pkt pkts ih =>
    unfold RouterState.sendOwnPackets
    rw [List.filterMap_append, ih, List.append_nil]
    unfold RouterState.sendOwnPacket
    split_ifs
    · rfl
    · exact forwardPacket_owner ..

/-- The owner is called exactly with the packets of others that are broadcast or addressed to it. -/
lemma routeDataPacket_owner (cb : OnPacketForMe ν) (self : PeerId) (env : StepEnv) (owner : ν)
    (s : RouterState) (immediateSrc destPeer : PeerId) (pktId : String) (pkt : RoutedPacket) :
    (s.routeDataPacket cb self env owner immediateSrc destPeer pktId pkt).1.filterMap
      packetForOwner =
      if (destPeer = "" ∨ destPeer = self) ∧ pkt.fromPeerId ≠ self then [pkt] else [] := by
  unfold RouterState.routeDataPacket
  dsimp only
  split_ifs with hme hself hself
  · simp only [List.filterMap_cons, packetForOwner, sendOwnPackets_owner]
  · simp only [List.cons_append, List.filterMap_cons, packetForOwner, List.filterMap_append,
      sendOwnPackets_owner, forwardPacket_owner, List.append_nil]
  · rfl
  · exact forwardPacket_owner ..

/-- From `s` to `s'` recent insertions of `key` are kept. -/
structure Remembers (key : DedupKey) (t₀ : Time) (s s' : RouterState) : Prop where
  recent : Recent key t₀ s.seenPacketIds → Recent key t₀ s'.seenPacketIds
  mem : Recent key t₀ s.seenPacketIds → key ∈ s.seenPacketIds.set → key ∈ s'.seenPacketIds.set

section Remembers

variable {key : DedupKey} {t₀ : Time}

lemma Remembers.of_eq {s s' : RouterState} (h : s'.seenPacketIds = s.seenPacketIds) :
    Remembers key t₀ s s' := by
  constructor
  · rw [h]
    exact id
  · rw [h]
    exact fun _ => id

lemma Remembers.trans {s s' s'' : RouterState} (h : Remembers key t₀ s s')
    (h' : Remembers key t₀ s' s'') :
    Remembers key t₀ s s'' := by
  exact ⟨fun hs => h'.recent (h.recent hs), fun hs hkey => h'.mem (h.recent hs) (h.mem hs hkey)⟩

lemma forwardPacket_remembers (self : PeerId) (ord : IterOrder PeerId) {now : Time}
    (hnow : t₀ ≤ now) (s : RouterState) (immediateSrc destPeer : PeerId) (pktId : String)
    (pkt : RoutedPacket) :
    Remembers key t₀ s (s.forwardPacket self ord now immediateSrc destPeer pktId pkt).2 := by
  unfold RouterState.forwardPacket
  dsimp only
  split_ifs
  · exact .of_eq rfl
  · exact ⟨fun hs => hs.insert hnow _, fun _ hkey => mem_insert_of_mem hkey _ _⟩

lemma sendOwnPackets_remembers (self : PeerId) {env : StepEnv} (henv : ∀ i, t₀ ≤ env.clock i)
    (i : Nat) (s : RouterState) (pkts : List RoutedPacket) :
    Remembers key t₀ s (s.sendOwnPackets self env i pkts).2 := by
  induction pkts generalizing i s with
  | nil => exact .of_eq rfl
  | cons pkt pkts ih =>
    unfold RouterState.sendOwnPackets
    refine Remembers.trans ?_ (ih _ _)
    unfold RouterState.sendOwnPacket
    split_ifs
    · exact .of_eq rfl
    · exact forwardPacket_remembers _ _ (henv i) ..

lemma routeDataPacket_remembers (cb : OnPacketForMe ν) (self : PeerId) {env : StepEnv}
    (henv : ∀ i, t₀ ≤ env.clock i) (owner : ν) (s : RouterState) (immediateSrc destPeer : PeerId)
    (pktId : String) (pkt : RoutedPacket) :
    Remembers key t₀ s (s.routeDataPacket cb self env owner immediateSrc destPeer pktId
      pkt).2.2 := by
  unfold RouterState.routeDataPacket
  dsimp only
  split_ifs
  · exact sendOwnPackets_remembers self henv ..
  · exact (sendOwnPackets_remembers self henv ..).trans (forwardPacket_remembers _ _ (henv _) ..)
  · exact .of_eq rfl
  · exact forwardPacket_remembers _ _ (henv _) ..

lemma handlePacket_remembers (cb : OnPacketForMe ν) (self : PeerId) {env : StepEnv}
    (henv : ∀ i, t₀ ≤ env.clock i) (owner : ν) (s : RouterState) (srcId : PeerId)
    (pkt : RoutedPacket) :
    Remembers key t₀ s (s.handlePacket cb self env owner srcId pkt).2.2 := by
  unfold RouterState.handlePacket
  dsimp only
  have hheard : Remembers key t₀ s (s.heardFrom srcId (env.clock 0)) := .of_eq (heardFrom_seen ..)
  split_ifs
  · exact .of_eq rfl
  · exact hheard.trans (.of_eq (recalculate_seen ..))
  · exact hheard.trans (routeDataPacket_remembers cb self henv ..)

/-- Within the lifetime of the entries no router step forgets a packet id. -/
theorem step_remembers (cb : OnPacketForMe ν) (self : PeerId) {env : StepEnv}
    (henv : ∀ i, t₀ ≤ env.clock i ∧ env.clock i ≤ t₀ + seconds 30) (owner : ν) (s : RouterState)
    (event : RouterEvent) : Remembers key t₀ s (s.step cb self env owner event).2.2 := by
  cases event with
  | packetReceived src pkt => exact handlePacket_remembers cb self (fun i => (henv i).1) ..
  | peerConnected p => exact .of_eq (recalculate_seen ..)
  | peerDisconnected p => exact .of_eq (recalculate_seen ..)
  | maintenance =>
    have hseen := runPeriodicMaintenance_seen self env s
    constructor
    · intro hs
      exact (congrArg _ hseen).mpr (hs.cleanup (henv 2).2).1
    · intro hs hkey
      exact (congrArg (fun seen => key ∈ seen.set) hseen).mpr ((hs.cleanup (henv 2).2).2 hkey)
  | sendPacket pkt => exact routeDataPacket_remembers cb self (fun i => (henv i).1) ..

end Remembers

end MeshNetwork.Proofs
