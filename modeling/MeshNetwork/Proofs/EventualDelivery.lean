import MeshNetwork.Proofs.RelayedOnce
import MeshNetwork.Proofs.RouteConvergence

/-!
# Packets reach their destinations

In a fair execution over links that stay, every packet that is sent once the tables have become
exact arrives, whatever ticks, routing updates and other packets are under way meanwhile.
-/

namespace MeshNetwork.Proofs

variable {ν : Type}

/-! ## Events that leave a copy alone -/

/-- No packet with the id `key` is sent anew. -/
def SendsOther (key : DedupKey) (cb : PeerId → OnPacketForMe ν) (net : Network ν) (env : StepEnv) :
    NetworkEvent → Prop
  | .router x .maintenance =>
    ∀ next p, .transmit next p ∈ ((net.routers x).runPeriodicMaintenance x env).1 →
      dedupKeyOf p ≠ key
  | .router x (.sendPacket q) => dedupKeyOf q ≠ key ∧
      ∀ p ∈ (cb x env (net.owners x) (net.routers x) q).2.2, dedupKeyOf p ≠ key
  | .deliver src x index => ∀ pkt, (net.channel src x)[index]? = some pkt →
      ∀ q ∈ ownerSends (cb x) x env (net.owners x) (net.routers x) src pkt, dedupKeyOf q ≠ key
  | _ => True

section Steps

variable {G : SimpleGraph PeerId} {p₀ : RoutedPacket} {net net₁ : Network ν}
  {cb : PeerId → OnPacketForMe ν}
  {env : StepEnv} {event : NetworkEvent} {x y : PeerId} {p : RoutedPacket}

/-- A step at `z` that neither sends nor hands over a copy. -/
lemma Flying.apply_other (h : Flying G p₀ net x y p) {z : PeerId}
    {r : List RouterOutput × ν × RouterState}
    (hcopies : ∀ a b, copiesOn (dedupKeyOf p₀) net₁ a b = copiesOn (dedupKeyOf p₀) net a b)
    (hrouters : net₁.routers = net.routers) (hhandled : net₁.handled = net.handled)
    (hsilent : ∀ next q, .transmit next q ∈ r.1 → dedupKeyOf q ≠ dedupKeyOf p₀)
    (hseen : dedupKeyOf p₀ ∈ r.2.2.seenPacketIds.set →
      dedupKeyOf p₀ ∈ (net.routers z).seenPacketIds.set) (howner :
      ∀ q ∈ r.1.filterMap packetForOwner, dedupKeyOf q ≠ dedupKeyOf p₀) :
    Flying G p₀ (net₁.apply z r) x y p := by
  refine { h with copies := ?_, unseen := fun b hb => ?_, unhandled := fun q hq hcopy => ?_ }
  · rw [← h.copies]
    funext a b
    rw [copiesOn_apply_silent hsilent, hcopies]
  · apply h.unseen
    rw [mem_seenBy_apply, hrouters] at hb
    split_ifs at hb with hbz
    · rw [hbz]
      exact hseen hb
    · exact hb
  · rw [apply_eq] at hq
    rcases List.mem_append.mp hq with hold | hnew
    · rw [hhandled] at hold
      exact h.unhandled q hold hcopy
    · split_ifs at hnew
      · exact howner q hnew hcopy.key
      · exact absurd hnew List.not_mem_nil

lemma dropExpired_subset (now maxAge : Time) (queue : List (Time × DedupKey))
    (set : Finset DedupKey) :
    (TimedDedupSet.dropExpired now maxAge queue set).2 ⊆ set := by
  induction queue generalizing set with
  | nil => exact Finset.Subset.refl set
  | cons entry queue ih =>
    unfold TimedDedupSet.dropExpired
    split_ifs
    · exact (ih _).trans (Finset.erase_subset _ _)
    · exact Finset.Subset.refl set

lemma tick_owner (s : RouterState) :
    (s.runPeriodicMaintenance x env).1.filterMap packetForOwner = [] := by
  rw [List.filterMap_eq_nil_iff]
  intro o ho
  obtain ⟨next, pkt, rfl, -⟩ := tick_carries x env s o ho
  rfl

/-- The copy stays where it is until it is delivered. -/
lemma Flying.stays (h : Flying G p₀ net x y p) (hheader : ∀ b, KeepsHeader (cb b))
    (hkeeps : KeepsLinks G net env event) (hother : SendsOther (dedupKeyOf p₀) cb net env event)
    (hcopy : ∀ src dst index pkt, event = .deliver src dst index →
      (net.channel src dst)[index]? = some pkt →
      dedupKeyOf pkt ≠ dedupKeyOf p₀) : Flying G p₀ (net.step cb env event) x y p := by
  have hdeliver : ∀ src dst index pkt, event = .deliver src dst index →
      (net.channel src dst)[index]? = some pkt →
      Flying G p₀ (net.step cb env (.deliver src dst index)) x y p := by
    rintro src dst index pkt rfl hpkt
    have hkey := hcopy src dst index pkt rfl hpkt
    have hunaffected := handlePacket_other (hheader dst) (fun _ => hkey) (hother pkt hpkt)
    rw [step_deliver_some hpkt]
    refine h.apply_other (copiesOn_take_other hpkt hkey) rfl rfl hunaffected.silent
      hunaffected.seen.mp fun q hq => ?_
    rw [handlePacket_owner hq]
    exact hkey
  cases hkeeps with
  | tick z htime hheard =>
    rw [step_tick]
    refine h.apply_other (fun _ _ => rfl) rfl rfl hother (fun hseen => ?_) fun q hq => ?_
    · dsimp only at hseen
      rw [runPeriodicMaintenance_seen] at hseen
      exact dropExpired_subset _ _ _ _ hseen
    · rw [tick_owner] at hq
      exact absurd hq List.not_mem_nil
  | send z q htime htype =>
    have hunaffected : Unaffected (dedupKeyOf p₀) (net.routers z)
        ((net.routers z).routeDataPacket (cb z) z env
        (net.owners z) z q.toPeerId (toHex q.id) q) :=
      routeDataPacket_other (hheader z) (fun _ => hother.1) fun _ => hother.2
    refine h.apply_other (fun _ _ => rfl) rfl rfl hunaffected.silent hunaffected.seen.mp
      fun q' hq' => ?_
    change q' ∈ ((net.routers z).routeDataPacket (cb z) z env (net.owners z) z q.toPeerId
      (toHex q.id)
      q).1.filterMap packetForOwner at hq'
    rw [routeDataPacket_owner] at hq'
    split_ifs at hq'
    · rw [List.mem_singleton.mp hq']
      exact hother.1
    · exact absurd hq' List.not_mem_nil
  | data src z index pkt htime hpkt htype hadj => exact hdeliver src z index pkt rfl hpkt
  | update src z index pkt htime hpkt hadj => exact hdeliver src z index pkt rfl hpkt.packet

/-- The delivery of the copy takes it one link further, or to the owner of its destination. -/
lemma Flying.advances (h : Flying G p₀ net x y p) (hunicast : Unicast G p₀)
    (hnear : G.dist p₀.fromPeerId p₀.toPeerId < p₀.ttl.toNat) (hexact : ExactTables G net.routers)
    (hheader : ∀ b, KeepsHeader (cb b)) {index : Nat} (hpkt : (net.channel x y)[index]? = some p)
    (hother : SendsOther (dedupKeyOf p₀) cb net env (.deliver x y index)) :
    (∃ q ∈ (net.step cb env (.deliver x y index)).handled p₀.toPeerId, IsCopy p₀ q) ∨
      y ≠ p₀.toPeerId ∧ ∃ hop q, Flying G p₀ (net.step cb env (.deliver x y index)) y hop q := by
  by_cases hy : y = p₀.toPeerId
  · left
    rcases h.deliver hunicast hexact hpkt (hheader y) (hother p hpkt) with hlanded |
      ⟨x', y', p', hflying⟩
    · exact hlanded.outcome.mpr hnear
    · -- the destination hands the copy over and does not send it on
      have hfrom : p.fromPeerId ≠ y := by
        have hcloser := h.closer
        have hwithin := h.within
        rw [h.header.sender]
        rintro rfl
        rw [← hy] at hcloser hwithin
        rw [SimpleGraph.dist_self] at hwithin
        omega
      refine ⟨p, ?_, h.header.isCopy⟩
      rw [step_deliver_some hpkt, mem_handled_delivered]
      refine .inr ⟨hy.symm, ?_⟩
      rw [handlePacket_data h.adj.ne hfrom (h.header.type ▸ hunicast.data), routeDataPacket_owner,
        if_pos ⟨.inr (h.header.dest.trans hy.symm), hfrom⟩]
      exact List.mem_singleton_self p
  · rcases (h.relays hunicast hexact hpkt hy cb env).1 with ⟨-, hfar⟩ | ⟨hop, hflying⟩
    · omega
    · exact .inr ⟨hy, hop, _, hflying⟩

end Steps

/-! ## Executions -/

/-- Every data packet under way is delivered some time. -/
def DataFair (G : SimpleGraph PeerId) (σ : ℕ → Network ν) (event : ℕ → NetworkEvent) : Prop :=
  ∀ a b, G.Adj a b → ∀ i, ∀ pkt ∈ (σ i).channel a b, pkt.type ≠ .routingUpdate →
    ∃ j index, i ≤ j ∧ event j = .deliver a b index ∧ ((σ j).channel a b)[index]? = some pkt

section Executions

variable {G : SimpleGraph PeerId} {cb : PeerId → OnPacketForMe ν} {σ : ℕ → Network ν}
  {env : ℕ → StepEnv}
  {event : ℕ → NetworkEvent} {p₀ : RoutedPacket}

/-- The copy is delivered after finitely many other events. -/
lemma SteadyExecution.flying_delivered (h : SteadyExecution G cb σ env event)
    (hheader : ∀ b, KeepsHeader (cb b)) {i : ℕ}
    (hother : ∀ j, i ≤ j → SendsOther (dedupKeyOf p₀) cb (σ j) (env j) (event j)) {x y : PeerId}
    {p : RoutedPacket} (hflying : Flying G p₀ (σ i) x y p) {m index : ℕ}
    (hevent : event (i + m) = .deliver x y index)
    (hpkt : ((σ (i + m)).channel x y)[index]? = some p) :
    ∃ j index, i ≤ j ∧ Flying G p₀ (σ j) x y p ∧ event j = .deliver x y index ∧
      ((σ j).channel x y)[index]? = some p := by
  induction m generalizing i with
  | zero => exact ⟨i, index, le_rfl, hflying, hevent, hpkt⟩
  | succ m ih =>
    by_cases hnow : ∃ src dst index pkt, event i = .deliver src dst index ∧
        ((σ i).channel src dst)[index]? = some pkt ∧ dedupKeyOf pkt = dedupKeyOf p₀
    · obtain ⟨src, dst, index', pkt, hevent', hpkt', hkey⟩ := hnow
      obtain ⟨rfl, rfl, rfl, -⟩ := copiesOn_take_copy hflying.copies hpkt' hkey
      exact ⟨i, index', le_rfl, hflying, hevent', hpkt'⟩
    · have hnext : Flying G p₀ (σ (i + 1)) x y p := by
        rw [h.step i]
        refine hflying.stays hheader (h.keeps i) (hother i le_rfl)
          fun src dst index pkt hevent' hpkt' hkey => ?_
        exact hnow ⟨src, dst, index, pkt, hevent', hpkt', hkey⟩
      have hshift : i + (m + 1) = i + 1 + m := by omega
      rw [hshift] at hevent hpkt
      obtain ⟨j, index', hij, hdone⟩ := ih (fun j hj => hother j (by omega)) hnext hevent hpkt
      exact ⟨j, index', by omega, hdone⟩

/-- A copy under way arrives; each delivery brings it one link closer. -/
lemma SteadyExecution.arrives (h : SteadyExecution G cb σ env event)
    (hheader : ∀ b, KeepsHeader (cb b)) (hdata : DataFair G σ event) (hunicast : Unicast G p₀)
    (hnear : G.dist p₀.fromPeerId p₀.toPeerId < p₀.ttl.toNat) {i : ℕ}
    (hexact : ∀ j, i ≤ j → ExactTables G (σ j).routers)
    (hother : ∀ j, i ≤ j → SendsOther (dedupKeyOf p₀) cb (σ j) (env j) (event j)) {x y : PeerId}
    {p : RoutedPacket} (hflying : Flying G p₀ (σ i) x y p) :
    ∃ k, i < k ∧ ∃ q ∈ (σ k).handled p₀.toPeerId, IsCopy p₀ q := by
  induction hn : G.dist y p₀.toPeerId using Nat.strong_induction_on generalizing i x y p with
  | _ n ih =>
    have hmem : p ∈ copiesOn (dedupKeyOf p₀) (σ i) x y := by
      rw [hflying.copies]
      simp [onlyOn]
    obtain ⟨j, index, hij, hevent, hpkt⟩ := hdata x y hflying.adj i p (mem_copiesOn.mp hmem).1
      (hflying.header.type ▸ hunicast.data)
    obtain ⟨m, rfl⟩ := Nat.exists_eq_add_of_le hij
    obtain ⟨j, index, hij, hflying', hevent, hpkt⟩ :=
      h.flying_delivered hheader hother hflying hevent hpkt
    have hstep := h.step j
    have hother' := hother j hij
    rw [hevent] at hstep hother'
    rcases hflying'.advances hunicast hnear (hexact j hij) hheader hpkt hother' with harrived |
      ⟨-, hop, q, hnext⟩
    · rw [← hstep] at harrived
      exact ⟨j + 1, by omega, harrived⟩
    · rw [← hstep] at hnext
      have hcloser := hnext.closer
      obtain ⟨k, hk, harrived⟩ := ih _ (by omega) (fun j' hj' => hexact j' (by omega))
        (fun j' hj' => hother j' (by omega)) hnext rfl
      exact ⟨k, by omega, harrived⟩

end Executions

/-! ## Two nodes that tick in turn -/

/-- All owners are silent. -/
abbrev silent : PeerId → OnPacketForMe Unit := fun _ => silentOwner

lemma silent_sendsData (b : PeerId) : SendsData (silent b) :=
  fun _ _ _ _ => ⟨id, fun _ hq => absurd hq List.not_mem_nil⟩

lemma silent_keepsHeader (b : PeerId) : KeepsHeader (silent b) := fun _ _ _ pkt => ⟨.refl pkt, rfl⟩

/-- The state of a network at time `t`; the ids of the data packets that were sent satisfy `old`. -/
structure Ticking (G : SimpleGraph PeerId) (t : ℕ) (old : DedupKey → Prop)
    (net : Network Unit) : Prop where
  coherent : Coherent net
  links : HasLinks G net
  onTime : ∀ x, (net.routers x).triggerPending = true →
    (net.routers x).triggerDeadline ≤ t + triggerDebounce
  seen : ∀ x, ∀ key ∈ (net.routers x).seenPacketIds.set, old key
  handled : ∀ x, ∀ q ∈ net.handled x, old (dedupKeyOf q)

/-- Only routing updates, without ids, are under way. -/
def OnlyUpdates (net : Network Unit) : Prop :=
  ∀ n b, ∀ pkt ∈ net.channel n b, pkt.type = .routingUpdate ∧ pkt.id = []

/-- A router that has heard its neighbours at `t` or later and has told its table at `t` or
earlier. -/
structure Punctual (t : ℕ) (s : RouterState) : Prop where
  heard : ∀ n view, s.neighborViews.lookup n = some view → t ≤ (view.lastHeardFrom : ℕ)
  told : (s.lastPeriodicUpdate : ℕ) ≤ t

section Pair

variable {G : SimpleGraph PeerId} {t t' : ℕ} {old old' : DedupKey → Prop} {net net' : Network Unit}
  {x : PeerId}

/-- A router event at the time `t'` sets no later deadline. -/
lemma step_deadline {self : PeerId} {s : RouterState} {l : Ledger} (h : LedgerCovers self t' l s)
    (owner : Unit) (event : RouterEvent) :
    (s.step silentOwner self (plainEnv t') owner event).2.2.triggerPending = true →
      (s.step silentOwner self (plainEnv t') owner event).2.2.triggerDeadline ≤ t' +
        triggerDebounce :=
  (step_ledgerCovers silentOwner h (plainEnv t') owner event le_rfl le_rfl).deadline

lemma Ticking.later (h : Ticking G t old net) (ht : t ≤ t') (x : PeerId) :
    OnTime (net.routers x) (plainEnv t') :=
  fun hp => (h.onTime x hp).trans (Nat.add_le_add_right ht _)

lemma Ticking.mono (h : Ticking G t old net) (ht : t ≤ t') : Ticking G t' old net :=
  { h with onTime := fun x hp => (h.onTime x hp).trans (Nat.add_le_add_right ht _) }

lemma Ticking.step {event : NetworkEvent} (h : Ticking G t old net) (routerEvent : RouterEvent)
    (ht : t ≤ t') (hkeeps : KeepsLinks G net (plainEnv t') event)
    (hnet' : net' = net.step silent (plainEnv t') event)
    (hrouters : net'.routers = Function.update net.routers x
      ((net.routers x).step silentOwner x (plainEnv t') (net.owners x) routerEvent).2.2)
    (hold : ∀ key, old key → old' key)
    (hseen : ∀ key ∈ (net'.routers x).seenPacketIds.set, key ∈ (net.routers x).seenPacketIds.set ∨
      old' key) (hhandled : ∀ y, ∀ q ∈ net'.handled y, q ∈ net.handled y ∨ old' (dedupKeyOf q)) :
      Ticking G t' old' net' := by
  have hlinks := (hkeeps.linkStep silent_sendsData h.coherent h.links).1
  rw [← hnet'] at hlinks
  refine ⟨?_, hlinks, fun y => ?_, fun y key hkey => ?_, fun y q hq => ?_⟩
  · rw [hnet']
    exact h.coherent.step silent_sendsData (hkeeps.admitted h.links)
  · rw [hrouters]
    by_cases hy : y = x
    · subst hy
      rw [Function.update_self]
      obtain ⟨_, l, hl, -⟩ := h.coherent.ledger y
      exact step_deadline (hl.onTime (h.later ht y)) _ routerEvent
    · rw [Function.update_of_ne hy]
      exact h.later ht y
  · by_cases hy : y = x
    · subst hy
      exact (hseen key hkey).elim (fun hmem => hold key (h.seen y key hmem)) id
    · rw [hrouters, Function.update_of_ne hy] at hkey
      exact hold key (h.seen y key hkey)
  · exact (hhandled y q hq).elim (fun hmem => hold _ (h.handled y q hmem)) id

/-- The packets of a tick have the ids that the generator gives. -/
lemma tick_ids {s : RouterState} {next : PeerId} {pkt : RoutedPacket}
    (h : .transmit next pkt ∈ (s.runPeriodicMaintenance x (plainEnv t)).1) : pkt.id = [] := by
  have hpackets : ∀ first ttl updates, .transmit next pkt ∈
      routingPackets x (plainEnv t) first ttl updates → pkt.id = [] := by
    intro first ttl updates hmem
    obtain ⟨u, -, hu⟩ := List.mem_map.mp hmem
    cases hu
    rfl
  rcases List.mem_append.mp h with h | h
  · unfold RouterState.fireTrigger at h
    split_ifs at h
    · exact hpackets _ _ _ h
    · exact absurd h List.not_mem_nil
  · unfold RouterState.firePeriodic at h
    split_ifs at h
    · exact hpackets _ _ _ h
    · exact absurd h List.not_mem_nil

lemma apply_handled {r : List RouterOutput × Unit × RouterState}
    (h : r.1.filterMap packetForOwner = []) :
    (net.apply x r).handled = net.handled := by
  rw [apply_eq]
  simp only [h, ite_self, List.append_nil]

lemma OnlyUpdates.apply (h : OnlyUpdates net) {r : List RouterOutput × Unit × RouterState}
    (hr : ∀ next pkt, .transmit next pkt ∈ r.1 → pkt.type = .routingUpdate ∧ pkt.id = []) :
    OnlyUpdates (net.apply x r) := by
  intro n b pkt hpkt
  rw [apply_eq] at hpkt
  rcases List.mem_append.mp hpkt with hold | hnew
  · exact h n b pkt hold
  · split_ifs at hnew
    · exact hr b pkt (mem_filterMap_packetTo.mp hnew)
    · exact absurd hnew List.not_mem_nil

lemma OnlyUpdates.tick (h : OnlyUpdates net) :
    OnlyUpdates (net.step silent (plainEnv t) (.router x .maintenance)) := by
  rw [step_tick]
  refine h.apply fun next pkt hpkt => ⟨?_, tick_ids hpkt⟩
  obtain ⟨p, pkt', ho, htype, -⟩ := tick_carries x (plainEnv t) _ _ hpkt
  cases ho
  exact htype

/-- The routing updates under way are handled without a reply. -/
lemma OnlyUpdates.deliver (h : OnlyUpdates net) (src : PeerId) (index : ℕ) :
    OnlyUpdates (net.step silent (plainEnv t) (.deliver src x index)) ∧
      (net.step silent (plainEnv t) (.deliver src x index)).handled = net.handled := by
  cases hpkt : (net.channel src x)[index]? with
  | none =>
    rw [step_deliver_none hpkt]
    exact ⟨h, rfl⟩
  | some pkt =>
    have htype := (h src x pkt (List.mem_of_getElem? hpkt)).1
    have hsilent : ((net.routers x).handlePacket (silent x) x (plainEnv t) (net.owners x) src
        pkt).1 = [] := by
      unfold RouterState.handlePacket
      split_ifs
      · rfl
      · rfl
    rw [step_deliver_some hpkt]
    refine ⟨OnlyUpdates.apply (fun n b p hp => h n b p (mem_of_mem_take hp))
      fun next p hp => ?_, ?_⟩
    · rw [hsilent] at hp
      exact absurd hp List.not_mem_nil
    · rw [apply_handled (by rw [hsilent]; rfl)]
      rfl

/-- A tick of `x` after more than the update interval. -/
lemma Ticking.tick {last : ℕ} (h : Ticking G last old net) (hlast : last ≤ t')
    (hx : Punctual t (net.routers x)) (hlate : t + updateInterval < t')
    (hsoon : t' ≤ t + routeTimeout)
    (hnet' : net' = net.step silent (plainEnv t') (.router x .maintenance)) :
    KeepsLinks G net (plainEnv t') (.router x .maintenance) ∧ Ticking G t' old net' ∧
    (OnlyUpdates net → OnlyUpdates net') ∧ (∀ b, G.Adj x b → net'.channel x b ≠ []) ∧
    (∀ n b, net.channel n b ≠ [] → net'.channel n b ≠ []) ∧
    (∀ y, y ≠ x → net'.routers y = net.routers y) ∧ (net'.routers x).lastPeriodicUpdate = t' := by
  have hheard : ∀ n view, (net.routers x).neighborViews.lookup n = some view →
      (plainEnv t').clock 0 - view.lastHeardFrom ≤ routeTimeout := by
    intro n view hview
    exact Nat.sub_le_of_le_add (hsoon.trans
      (by rw [Nat.add_comm]; exact Nat.add_le_add_left (hx.heard n view hview) _))
  have hkeeps : KeepsLinks G net (plainEnv t') (.router x .maintenance) :=
    .tick x (h.later hlast x) hheard
  have hstay : (net.routers x).expireNeighbors x (plainEnv t') ((plainEnv t').clock 0) =
      net.routers x :=
    expireNeighbors_eq hheard
  have hfires : t' - (net.routers x).lastPeriodicUpdate > updateInterval :=
    Nat.lt_sub_of_add_lt (lt_of_le_of_lt (by
      rw [Nat.add_comm]; exact Nat.add_le_add_right hx.told _) hlate)
  have hchannel : ∀ n b, net'.channel n b = net.channel n b ++
      if n = x then ((net.routers x).runPeriodicMaintenance x (plainEnv t')).1.filterMap
        (packetTo b) else [] := by
    intro n b
    rw [hnet', step_tick, apply_eq]
  have hrouters : net'.routers = Function.update net.routers x
      ((net.routers x).runPeriodicMaintenance x (plainEnv t')).2 := by
    rw [hnet', step_tick, apply_eq]
  have hhandled : net'.handled = net.handled := by
    rw [hnet', step_tick, apply_eq]
    simp only [tick_owner, ite_self, List.append_nil]
  refine ⟨hkeeps, h.step .maintenance hlast hkeeps hnet' hrouters (fun _ hold => hold)
    (fun key hkey => .inl ?_) (fun y q hq => .inl (hhandled ▸ hq)), fun honly => hnet' ▸ honly.tick,
    fun b hadj hnil => ?_, fun n b hne => ?_, fun y hy => ?_, ?_⟩
  · rw [hrouters, Function.update_self, runPeriodicMaintenance_seen] at hkey
    exact dropExpired_subset _ _ _ _ hkey
  · obtain ⟨e, he, -⟩ := liveRoute_eq_some.mp (h.coherent.own x)
    obtain ⟨pkt, hpkt, -⟩ := tick_mentions hstay hfires ((h.links x b).mpr hadj)
      ((UMap.mem_iff_lookup _ _).mpr ⟨e, he⟩)
    rw [hchannel, if_pos rfl, List.append_eq_nil_iff] at hnil
    exact absurd (mem_filterMap_packetTo.mpr hpkt) (by rw [hnil.2]; exact List.not_mem_nil)
  · rw [hchannel]
    exact fun hnil => hne (List.append_eq_nil_iff.mp hnil).1
  · rw [hrouters, Function.update_of_ne hy]
  · rw [hrouters, Function.update_self, tick_lastPeriodic hstay]
    exact if_pos hfires

/-- The oldest packet on a link is a routing update. -/
def UpdateFirst (net : Network Unit) (src dst : PeerId) : Prop :=
  ∃ pkt, (net.channel src dst)[0]? = some pkt ∧ pkt.type = .routingUpdate

lemma afterUpdate_seen (env : StepEnv) (s : RouterState) (b src : PeerId) (table : RouteTable) :
    (afterUpdate env s b src table).seenPacketIds = s.seenPacketIds := by
  unfold afterUpdate RouterState.processRoutingUpdate
  rw [recalculate_seen]
  exact heardFrom_seen ..

/-- A routing update reaches `x`, and the time of its sender is noted. -/
lemma Ticking.deliver {src : PeerId} (h : Ticking G t old net) (honly : OnlyUpdates net)
    (hadj : G.Adj src x) (hne : net.channel src x ≠ [])
    (hnet' : net' = net.step silent (plainEnv t) (.deliver src x 0)) :
    (UpdateFirst net src x ∧ KeepsLinks G net (plainEnv t) (.deliver src x 0)) ∧
      Ticking G t old net' ∧
    OnlyUpdates net' ∧
    (∀ n b, ¬(n = src ∧ b = x) → net'.channel n b = net.channel n b) ∧
    (∀ y, y ≠ x → net'.routers y = net.routers y) ∧
    (net'.routers x).lastPeriodicUpdate = (net.routers x).lastPeriodicUpdate ∧
    ∀ n view, (net'.routers x).neighborViews.lookup n = some view →
      if n = src then view.lastHeardFrom = t
      else (net.routers x).neighborViews.lookup n = some view := by
  obtain ⟨pkt, rest, hcons⟩ := List.exists_cons_of_ne_nil hne
  have hpkt : OldestUpdate net src x 0 pkt := by
    refine ⟨by rw [hcons]; rfl, (honly src x pkt (by rw [hcons]; exact List.mem_cons_self)).1,
      fun j hj => ?_⟩
    exact absurd hj (Nat.not_lt_zero j)
  have hkeeps : KeepsLinks G net (plainEnv t) (.deliver src x 0) :=
    .update src x 0 pkt (h.later le_rfl x) hpkt hadj
  obtain ⟨hhandle, hstep⟩ := step_update silent (plainEnv t) h.coherent hpkt
  have hs' : ((net.routers x).step silentOwner x (plainEnv t) (net.owners x)
      (.packetReceived src pkt)).2.2 =
      afterUpdate (plainEnv t) (net.routers x) x src pkt.routeTable := by
    rw [RouterState.step, show silentOwner = silent x from rfl, hhandle]
  have hrouters : net'.routers =
      Function.update net.routers x (afterUpdate (plainEnv t) (net.routers x) x src
        pkt.routeTable) := by
    rw [hnet', hstep, apply_eq, Network.take]
  refine ⟨⟨⟨pkt, hpkt.packet, hpkt.type⟩, hkeeps⟩,
    h.step (.packetReceived src pkt) le_rfl hkeeps hnet'
    (by rw [hs']; exact hrouters) (fun _ hold => hold) (fun key hkey => .inl ?_)
    (fun y q hq => .inl ?_), hnet' ▸ (honly.deliver src 0).1, fun n b hnb => ?_, fun y hy => ?_, ?_,
    fun n view hview => ?_⟩
  · rw [hrouters, Function.update_self, afterUpdate_seen] at hkey
    exact hkey
  · rw [hnet', hstep, apply_eq] at hq
    simpa [Network.take] using hq
  · rw [hnet', hstep]
    exact if_neg hnb
  · rw [hrouters, Function.update_of_ne hy]
  · rw [hrouters, Function.update_self, ← hs']
    exact (step_move ..).lastPeriodic (by simp)
  · rw [hrouters, Function.update_self, lookup_afterUpdate] at hview
    split_ifs at hview ⊢
    · cases hview
      rfl
    · exact hview

lemma lookup_heardFrom_self {s : RouterState} {n : PeerId} {view : NeighborView} {now : Time}
    (h : (s.heardFrom n now).neighborViews.lookup n = some view) : view.lastHeardFrom = now := by
  unfold RouterState.heardFrom at h
  cases hn : s.neighborViews.lookup n with
  | none =>
    rw [hn] at h
    exact absurd (h.symm.trans hn) (by simp)
  | some old =>
    simp only [hn, AList.lookup_insert, Option.some.injEq] at h
    rw [← h]

/-- The text that "a" sends to "b" in its `k`-th round. -/
def pairText (k : ℕ) : RoutedPacket :=
  makeTextRoutedPacket (List.replicate (k + 1) 0) "a" "b" defaultTtl "hello"

/-- A text of "a" for its neighbour "b" is sent and overtakes the routing updates. -/
lemma Ticking.text {net₁ net₂ : Network Unit} {k : ℕ} (h : Ticking G t old net)
    (hadj : G.Adj "a" "b")
    (hnet₁ : net₁ = net.step silent (plainEnv t) (.router "a" (.sendPacket (pairText k))))
    (hnet₂ : net₂ = net₁.step silent (plainEnv t) (.deliver "a" "b"
      ((net₁.channel "a" "b").length - 1))) :
    KeepsLinks G net (plainEnv t) (.router "a" (.sendPacket (pairText k))) ∧
    KeepsLinks G net₁ (plainEnv t) (.deliver "a" "b" ((net₁.channel "a" "b").length - 1)) ∧
    (∀ n b, net₁.channel n b =
      net.channel n b ++ if n = "a" ∧ b = "b" then [{ pairText k with ttl := defaultTtl - 1 }]
      else []) ∧
    Ticking G t (fun key => old key ∨ key = dedupKeyOf (pairText k)) net₂ ∧
    net₂.channel = net.channel ∧ (∀ y, (net₂.routers y).lastPeriodicUpdate =
      (net.routers y).lastPeriodicUpdate) ∧
    ∀ y n view, (net₂.routers y).neighborViews.lookup n = some view →
      view.lastHeardFrom = t ∨ (net.routers y).neighborViews.lookup n = some view := by
  have hkeeps : KeepsLinks G net (plainEnv t) (.router "a" (.sendPacket (pairText k))) :=
    .send "a" (pairText k) (h.later le_rfl "a") (show PacketType.text ≠ .routingUpdate by decide)
  -- the neighbour is the next hop
  have hroute : NextHop (net.routers "a") "b" "b" := by
    have hmem : "b" ∈ (net.routers "a").neighborViews := (h.links "a" "b").mpr hadj
    obtain ⟨e, he, hlive⟩ :=
      (h.coherent.agrees "a").complete "b" (by decide) "b" 1 (.inl ⟨rfl, hmem, rfl⟩) (by decide)
    exact ⟨e, he, lt_infCost_iff.mpr hlive,
      ((h.coherent.agrees "a").live "b" (by decide) e he hlive).direct hmem⟩
  have hne : (pairText k).toPeerId ≠ (pairText k).fromPeerId := show "b" ≠ "a" by decide
  have hstep : net₁ = net.apply "a" (((net.routers "a").forwardPacket "a" (plainEnv t).order
      ((plainEnv t).clock 2) "a"
      "b" (toHex (pairText k).id) (pairText k)).1, (),
      ((net.routers "a").forwardPacket "a" (plainEnv t).order
        ((plainEnv t).clock 2) "a" "b" (toHex (pairText k).id) (pairText k)).2) := hnet₁.trans
        (send_eq hne)
  have hout : ((net.routers "a").forwardPacket "a" (plainEnv t).order ((plainEnv t).clock 2) "a" "b"
      (toHex (pairText k).id) (pairText k)).1 =
        [.transmit "b" { pairText k with ttl := defaultTtl - 1 }] := by
    rw [forwardPacket_unicast (by decide) hroute (by decide) (by decide)]
    refine (if_pos ?_).trans rfl
    exact ⟨fun hnot => hnot.1 rfl, show 0 < defaultTtl - 1 by decide, .inl rfl⟩
  obtain ⟨seen, hframe⟩ := forwardPacket_frame "a" (plainEnv t).order ((plainEnv t).clock 2)
    (net.routers "a") "a" "b"
    (toHex (pairText k).id) (pairText k)
  have hseen : ∀ key ∈ seen.set, key ∈ (net.routers "a").seenPacketIds.set ∨
      key = dedupKeyOf (pairText k) := by
    intro key hkey
    have hmem := mem_forwardPacket_seen.mp (show
      key ∈ ((net.routers "a").forwardPacket "a" (plainEnv t).order
      ((plainEnv t).clock 2) "a" "b" (toHex (pairText k).id) (pairText k)).2.seenPacketIds.set
      by rw [hframe]; exact hkey)
    exact hmem.symm
  rw [hout, hframe, apply_eq] at hstep
  have hrouters₁ : net₁.routers = Function.update net.routers "a"
      { net.routers "a" with seenPacketIds := seen } := by
    rw [hstep]
  have hchannel₁ : ∀ n b, net₁.channel n b =
      net.channel n b ++ if n = "a" ∧ b = "b" then [{ pairText k with ttl := defaultTtl - 1 }]
      else [] := by
    intro n b
    rw [hstep]
    by_cases hn : n = "a"
    · by_cases hb : b = "b"
      · simp [hn, hb, packetTo]
      · simp [hn, hb, packetTo]
    · simp [hn]
  have hticking₁ : Ticking G t (fun key => old key ∨ key = dedupKeyOf (pairText k)) net₁ := by
    refine h.step (.sendPacket (pairText k)) le_rfl hkeeps hnet₁ (x := "a") ?_
      (fun _ hold => .inl hold)
      (fun key hkey => ?_) fun y q hq => .inl ?_
    · rw [hnet₁]
      simp only [Network.step, apply_eq]
    · rw [hrouters₁, Function.update_self] at hkey
      exact (hseen key hkey).imp_right .inr
    · rw [hstep] at hq
      simpa [packetForOwner] using hq
  have hlast : (net₁.channel "a" "b").length - 1 = (net.channel "a" "b").length := by
    rw [hchannel₁, if_pos ⟨rfl, rfl⟩, List.length_append]
    rfl
  rw [hlast] at hnet₂ ⊢
  have hpkt : (net₁.channel "a" "b")[(net.channel "a" "b").length]? =
      some { pairText k with ttl := defaultTtl - 1 } := by
    rw [hchannel₁, if_pos ⟨rfl, rfl⟩]
    exact List.getElem?_concat_length
  have hkeeps₁ : KeepsLinks G net₁ (plainEnv t) (.deliver "a" "b" (net.channel "a" "b").length) :=
    .data "a" "b" _ _ (hticking₁.later le_rfl "b") hpkt
      (show PacketType.text ≠ .routingUpdate by decide) hadj
  -- "b" hands the text to its owner
  have hhandle : (net₁.routers "b").handlePacket silentOwner "b" (plainEnv t) (net₁.owners "b") "a"
      { pairText k with ttl := defaultTtl - 1 } =
        ([.packetForMe { pairText k with ttl := defaultTtl - 1 }], (),
        (net.routers "b").heardFrom "a" t) := by
    rw [handlePacket_data (by decide) (show "a" ≠ "b" by decide)
      (show PacketType.text ≠ .routingUpdate by decide), hrouters₁,
      Function.update_of_ne (by decide)]
    rfl
  have hstep₂ := hnet₂.trans (step_deliver_some hpkt)
  rw [hhandle, apply_eq] at hstep₂
  have hrouters₂ : net₂.routers = Function.update net₁.routers "b" ((net.routers "b").heardFrom
      "a" t) := by
    rw [hstep₂]
    rfl
  have hticking₂ : Ticking G t (fun key => old key ∨ key = dedupKeyOf (pairText k)) net₂ := by
    refine hticking₁.step (.packetReceived "a" { pairText k with ttl := defaultTtl - 1 }) le_rfl
      hkeeps₁ hnet₂ (x := "b")
      ?_ (fun _ hold => hold) (fun key hkey => .inl ?_) fun y q hq => ?_
    · rw [hrouters₂]
      exact congrArg (fun r => Function.update net₁.routers "b" r.2.2) hhandle.symm
    · rw [hrouters₂, Function.update_self, heardFrom_seen] at hkey
      rwa [hrouters₁, Function.update_of_ne (by decide)]
    · rw [hstep₂] at hq
      by_cases hy : y = "b"
      · subst hy
        simp [Network.take, packetForOwner] at hq
        rcases hq with hq | rfl
        · exact .inl hq
        · exact .inr (.inr rfl)
      · simp [Network.take, hy] at hq
        exact .inl hq
  have hchannel₂ : net₂.channel = net.channel := by
    funext n b
    have htake : net₂.channel n b = (net₁.take "a" "b"
        (net.channel "a" "b").length).channel n b := by
      rw [hstep₂]
      by_cases hn : n = "b"
      · simp [hn, packetTo]
      · simp [hn]
    rw [htake]
    dsimp only [Network.take]
    rw [hchannel₁]
    split_ifs with hnb
    · rw [hnb.1, hnb.2, List.eraseIdx_append_of_length_le le_rfl, Nat.sub_self]
      exact List.append_nil _
    · exact List.append_nil _
  have hsame : ∀ y, y ≠ "b" → ∃ seen, net₂.routers y =
      { net.routers y with seenPacketIds := seen } := by
    intro y hy
    rw [hrouters₂, Function.update_of_ne hy, hrouters₁]
    by_cases hya : y = "a"
    · subst hya
      exact ⟨seen, Function.update_self ..⟩
    · exact ⟨_, Function.update_of_ne hya ..⟩
  refine ⟨hkeeps, hkeeps₁, hchannel₁, hticking₂, hchannel₂, fun y => ?_, fun y n view hview => ?_⟩
  · by_cases hy : y = "b"
    · obtain ⟨views, hviews⟩ := heardFrom_frame (net.routers "b") "a" t
      rw [hy, hrouters₂, Function.update_self, hviews]
    · obtain ⟨seen', hseen'⟩ := hsame y hy
      rw [hseen']
  · by_cases hy : y = "b"
    · rw [hy, hrouters₂, Function.update_self] at hview
      rw [hy]
      by_cases hn : n = "a"
      · subst hn
        exact .inl (lookup_heardFrom_self hview)
      · exact .inr (lookup_heardFrom_of_ne _ hn _ ▸ hview)
    · obtain ⟨seen', hseen'⟩ := hsame y hy
      rw [hseen'] at hview
      exact .inr hview

/-- The keys of the texts and of the updates differ. -/
lemma pairText_key_ne {k : ℕ} {p : RoutedPacket} (h : p.id.length ≠ k + 1) :
    dedupKeyOf p ≠ dedupKeyOf (pairText k) := by
  intro heq
  have hid : p.id = (pairText k).id := toHex_injective (congrArg Prod.fst heq)
  rw [hid] at h
  exact h List.length_replicate

end Pair

/-- What happens in the `k`-th round: both nodes tick, both hear from the other one, and a text is
sent. -/
def pairChoice (k : ℕ) : ℕ → Network Unit → NetworkEvent
  | 0, _ => .router "a" .maintenance
  | 1, _ => .router "b" .maintenance
  | 2, _ => .deliver "a" "b" 0
  | 3, _ => .deliver "b" "a" 0
  | 4, _ => .router "a" (.sendPacket (pairText k))
  | _, net => .deliver "a" "b" ((net.channel "a" "b").length - 1)

def pairTime (i : ℕ) : ℕ := seconds (20 * (i / 6 + 1))

/-- Node "c" is linked to "b", and "a" hears of it; then "c" leaves. -/
def pairHistory : List (Time × NetworkEvent) :=
  [(0, .router "a" (.peerConnected "b")), (0, .router "b" (.peerConnected "a")),
    (0, .router "b" (.peerConnected "c")), (0, .router "c" (.peerConnected "b")),
    (seconds 1, .router "b" .maintenance), (seconds 1, .deliver "b" "a" 0),
    (seconds 2, .router "b" (.peerDisconnected "c")),
    (seconds 2, .router "c" (.peerDisconnected "b"))]

def historyRun (history : List (Time × NetworkEvent)) : Network Unit :=
  EventRun.run (fun net te => net.step silent (plainEnv te.1) te.2)
    (Network.create (fun _ => 0) fun _ => ()) history

/-- The two nodes that are left; "a" still has a route to "c". -/
def pairStart : Network Unit := historyRun pairHistory

def pairRun : ℕ → Network Unit
  | 0 => pairStart
  | i + 1 =>
    (pairRun i).step silent (plainEnv (pairTime i)) (pairChoice (i / 6) (i % 6) (pairRun i))

def pairEvent (i : ℕ) : NetworkEvent := pairChoice (i / 6) (i % 6) (pairRun i)

/-- The node at which an event takes place. -/
def eventNode : NetworkEvent → PeerId
  | .router x _ => x
  | .sendTriggeredUpdates x => x
  | .broadcastFullTable x => x
  | .deliver _ x _ => x

lemma step_routers_of_ne {net : Network Unit} {env : StepEnv} {event : NetworkEvent} {y : PeerId}
    (hy : y ≠ eventNode event) : (net.step silent env event).routers y = net.routers y := by
  cases event with
  | router x event =>
    exact congrFun (congrArg Network.routers (apply_eq ..)) y |>.trans (Function.update_of_ne hy ..)
  | sendTriggeredUpdates x =>
    exact congrFun (congrArg Network.routers (apply_eq ..)) y |>.trans (Function.update_of_ne hy ..)
  | broadcastFullTable x =>
    exact congrFun (congrArg Network.routers (apply_eq ..)) y |>.trans (Function.update_of_ne hy ..)
  | deliver src x index =>
    cases hpkt : (net.channel src x)[index]? with
    | none => rw [step_deliver_none hpkt]
    | some pkt =>
      rw [step_deliver_some hpkt, apply_eq]
      exact Function.update_of_ne hy ..

lemma historyRun_moves {history : List (Time × NetworkEvent)}
    (h : EventRun.Guarded (fun net te => net.step silent (plainEnv te.1) te.2)
      (fun net te => Admitted net (plainEnv te.1) te.2) (Network.create (fun _ => 0) fun _ => ())
        history) :
    Relation.ReflTransGen (Network.Moves silent Admitted) (Network.create (fun _ => 0) fun _ => ())
      (historyRun history) :=
  h.reflTransGen fun _ te hadmitted => ⟨plainEnv te.1, te.2, hadmitted, rfl⟩

lemma pairStart_history :
    Relation.ReflTransGen (Network.Moves silent Admitted) (Network.create (fun _ => 0) fun _ => ())
      pairStart := by
  refine historyRun_moves ⟨.connect "a" "b" ?_ (by decide) (.inr fun d => rfl),
    .connect "b" "a" ?_ (by decide) (.inr fun d => rfl),
    .connect "b" "c" ?_ (by decide) (.inr fun d => rfl),
    .connect "c" "b" ?_ (by decide) (.inr fun d => rfl), .tick "b" ?_,
    .update "b" "a" 0 _ ?_ ⟨rfl, rfl, ?_⟩ (.inl ?_), .disconnect "b" "c" ?_,
    .disconnect "c" "b" ?_, trivial⟩
  · exact fun hp => absurd hp (by decide)
  · exact fun hp => absurd hp (by decide)
  · exact fun _ => by decide
  · exact fun hp => absurd hp (by decide)
  · exact fun _ => by decide
  · exact fun _ => by decide
  · exact fun j hj => absurd hj (Nat.not_lt_zero j)
  · decide
  · exact fun hp => absurd hp (by decide)
  · exact fun _ => by decide

/-- A node other than the three is as it was created. -/
lemma pairStart_other {x : PeerId} (ha : x ≠ "a") (hb : x ≠ "b") (hc : x ≠ "c") :
    pairStart.routers x = .create x 0 := by
  unfold pairStart historyRun pairHistory
  simp only [EventRun.run_cons, EventRun.run_nil]
  repeat rw [step_routers_of_ne (by assumption)]
  rfl

lemma pairStart_links : HasLinks (SimpleGraph.edge "a" "b") pairStart := by
  have hkeys : (pairStart.routers "a").neighborViews.keys = ["b"] ∧
      (pairStart.routers "b").neighborViews.keys = ["a"] ∧
      (pairStart.routers "c").neighborViews.keys = [] := by decide
  obtain ⟨ha, hb, hc⟩ := hkeys
  intro x y
  rw [SimpleGraph.edge_adj, AList.mem_keys]
  by_cases hxa : x = "a"
  · subst hxa
    simp +contextual [ha]
  by_cases hxb : x = "b"
  · subst hxb
    simp +contextual [hb]
  by_cases hxc : x = "c"
  · subst hxc
    simp [hc]
  · rw [pairStart_other hxa hxb hxc]
    simp [hxa, hxb, RouterState.create]

/-- Links come and go, the nodes tick, and packets arrive. -/
def upkeep : NetworkEvent → Bool
  | .router _ .maintenance => true
  | .router _ (.peerConnected _) => true
  | .router _ (.peerDisconnected _) => true
  | .deliver _ _ _ => true
  | _ => false

lemma OnlyUpdates.upkeep {net : Network Unit} {t : ℕ} {event : NetworkEvent} (h : OnlyUpdates net)
    (hevent : upkeep event = true) :
    OnlyUpdates (net.step silent (plainEnv t) event) ∧
      (net.step silent (plainEnv t) event).handled = net.handled := by
  have hsilent : ∀ x (s : RouterState), OnlyUpdates (net.apply x ([], (), s)) ∧
      (net.apply x ([], (), s)).handled = net.handled := fun x s =>
    ⟨h.apply fun _ _ hp => absurd hp List.not_mem_nil, apply_handled rfl⟩
  cases event with
  | router x event =>
    cases event with
    | maintenance =>
      refine ⟨h.tick, ?_⟩
      rw [step_tick]
      exact apply_handled (tick_owner ..)
    | peerConnected p => exact hsilent x _
    | peerDisconnected p => exact hsilent x _
    | packetReceived src pkt => cases hevent
    | sendPacket pkt => cases hevent
  | deliver src x index => exact h.deliver src index
  | sendTriggeredUpdates x => cases hevent
  | broadcastFullTable x => cases hevent

lemma historyRun_quiet {history : List (Time × NetworkEvent)}
    (h : ∀ te ∈ history, upkeep te.2 = true) :
    OnlyUpdates (historyRun history) ∧ ∀ x, (historyRun history).handled x = [] := by
  induction history using List.reverseRecOn with
  | nil => exact ⟨fun _ _ _ hp => absurd hp List.not_mem_nil, fun _ => rfl⟩
  | append_singleton history te ih =>
    obtain ⟨honly, hnil⟩ := ih fun te' hte' => h te' (List.mem_append_left _ hte')
    obtain ⟨honly', hsame⟩ := honly.upkeep (t := te.1) (h te (by simp))
    unfold historyRun at honly' hsame hnil ⊢
    rw [EventRun.run_concat]
    exact ⟨honly', fun x => (congrFun hsame x).trans (hnil x)⟩

/-- The state before the `k`-th round. -/
structure PairCycle (k : ℕ) (net : Network Unit) : Prop where
  ticking : Ticking (SimpleGraph.edge "a" "b") (seconds (20 * k + 5))
    (fun key => ∃ m < k, key = dedupKeyOf (pairText m)) net
  quiet : OnlyUpdates net
  first : Punctual (seconds (20 * k)) (net.routers "a")
  second : Punctual (seconds (20 * k)) (net.routers "b")

lemma pairStart_cycle : PairCycle 0 pairStart := by
  have hrouters : ∀ x, ((pairStart.routers x).triggerPending = true →
      (pairStart.routers x).triggerDeadline ≤ seconds 5 + triggerDebounce) ∧
      (pairStart.routers x).seenPacketIds.set = ∅ := by
    intro x
    by_cases ha : x = "a"
    · subst ha
      exact ⟨by decide, rfl⟩
    by_cases hb : x = "b"
    · subst hb
      exact ⟨by decide, rfl⟩
    by_cases hc : x = "c"
    · subst hc
      exact ⟨by decide, rfl⟩
    · rw [pairStart_other ha hb hc]
      exact ⟨fun _ => Nat.zero_le _, rfl⟩
  refine ⟨⟨history_coherent silent_sendsData pairStart_history, pairStart_links,
    fun x => (hrouters x).1,
    fun x key hkey => ?_, fun x q hq => ?_⟩, (historyRun_quiet (by decide)).1,
    ⟨fun _ _ _ => Nat.zero_le _, by decide⟩, ⟨fun _ _ _ => Nat.zero_le _, by decide⟩⟩
  · rw [(hrouters x).2] at hkey
    exact absurd hkey (Finset.notMem_empty key)
  · rw [show pairStart.handled x = [] from (historyRun_quiet (by decide)).2 x] at hq
    exact absurd hq List.not_mem_nil

lemma pair_adj : (SimpleGraph.edge "a" "b").Adj "a" "b" := by simp [SimpleGraph.edge_adj]

lemma pair_cases {a b : PeerId} (h : (SimpleGraph.edge "a" "b").Adj a b) :
    a = "a" ∧ b = "b" ∨ a = "b" ∧ b = "a" := by
  simp [SimpleGraph.edge_adj] at h
  tauto

lemma pair_reachable {d : PeerId} (h : (SimpleGraph.edge "a" "b").Reachable "a" d) :
    d = "a" ∨ d = "b" := by
  rw [SimpleGraph.reachable_iff_reflTransGen] at h
  induction h with
  | refl => exact .inl rfl
  | tail _ hadj _ => exact (pair_cases hadj).elim (fun h => .inr h.2) fun h => .inl h.2

lemma pair_neighbor {net : Network Unit} (h : HasLinks (SimpleGraph.edge "a" "b") net) :
    (∀ n ∈ (net.routers "a").neighborViews, n = "b") ∧
      ∀ n ∈ (net.routers "b").neighborViews, n = "a" := by
  constructor
  · intro n hn
    rcases pair_cases ((h "a" n).mp hn) with ⟨-, hn⟩ | ⟨ha, -⟩
    · exact hn
    · exact absurd ha (by decide)
  · intro n hn
    rcases pair_cases ((h "b" n).mp hn) with ⟨hb, -⟩ | ⟨-, hn⟩
    · exact absurd hb (by decide)
    · exact hn

/-- The only neighbour has been heard. -/
lemma Punctual.of_heard {t : ℕ} {s : RouterState} {other : PeerId}
    (honly : ∀ n ∈ s.neighborViews, n = other)
    (hheard : ∀ view, s.neighborViews.lookup other = some view → view.lastHeardFrom = t)
    (htold : s.lastPeriodicUpdate = t) : Punctual t s := by
  refine ⟨fun n view hview => ?_, htold.le⟩
  obtain rfl := honly n ((UMap.mem_iff_lookup _ _).mpr ⟨view, hview⟩)
  exact (hheard view hview).ge

/-- The states `net 0`, …, `net 6` of the `k`-th round. -/
structure PairRound (k : ℕ) (net : ℕ → Network Unit) : Prop where
  keeps : ∀ j < 6, KeepsLinks (SimpleGraph.edge "a" "b") (net j) (plainEnv (seconds (20 * (k + 1))))
    (pairChoice k j (net j))
  first : UpdateFirst (net 2) "a" "b"
  second : UpdateFirst (net 3) "b" "a"
  quiet : ∀ j < 5, OnlyUpdates (net j)
  ready : Ticking (SimpleGraph.edge "a" "b") (seconds (20 * (k + 1)))
    (fun key => ∃ m < k, key = dedupKeyOf (pairText m))
    (net 4)
  sent : ∀ n b, (net 5).channel n b =
    (net 4).channel n b ++ if n = "a" ∧ b = "b" then [{ pairText k with ttl := defaultTtl - 1 }]
    else []
  next : PairCycle (k + 1) (net 6)

lemma PairCycle.round {k : ℕ} {net : ℕ → Network Unit} (h : PairCycle k (net 0))
    (hstep : ∀ j < 6, net (j + 1) = (net j).step silent (plainEnv (seconds (20 * (k + 1))))
      (pairChoice k j (net j))) :
    PairRound k net := by
  obtain ⟨t, ht⟩ : ∃ t : ℕ, t = seconds (20 * (k + 1)) := ⟨_, rfl⟩
  have hsum : t = seconds (20 * k) + seconds 20 := by
    rw [ht]
    unfold seconds
    ring
  have hlate : seconds (20 * k) + updateInterval < t := by
    rw [hsum]
    exact Nat.add_lt_add_left (by decide) _
  have hsoon : t ≤ seconds (20 * k) + routeTimeout := by
    rw [hsum]
    exact Nat.add_le_add_left (by decide) _
  have hle : seconds (20 * k + 5) ≤ t := by
    rw [ht]
    exact Nat.mul_le_mul_right _ (by omega)
  rw [← ht] at hstep
  obtain ⟨hk₀, ht₁, honly₁, hsent₁, -, hother₁, hlast₁⟩ :=
    h.ticking.tick hle h.first hlate hsoon (hstep 0 (by decide))
  obtain ⟨hk₁, ht₂, honly₂, hsent₂, hkept₂, hother₂, hlast₂⟩ := ht₁.tick (x := "b") le_rfl
    (by rw [hother₁ "b" (by decide)]; exact h.second) hlate hsoon (hstep 1 (by decide))
  obtain ⟨⟨hu₂, hk₂⟩, ht₃, honly₃, hchannel₃, hother₃, hlast₃, hviews₃⟩ :=
    ht₂.deliver (honly₂ (honly₁ h.quiet)) pair_adj (hkept₂ "a" "b" (hsent₁ "b" pair_adj))
      (hstep 2 (by decide))
  obtain ⟨⟨hu₃, hk₃⟩, ht₄, honly₄, -, hother₄, hlast₄, hviews₄⟩ := ht₃.deliver honly₃ pair_adj.symm
    (by rw [hchannel₃ "b" "a" (by decide)]; exact hsent₂ "a" pair_adj.symm) (hstep 3 (by decide))
  obtain ⟨hk₄, hk₅, hsent₅, ht₆, hchannel₆, hlast₆, hviews₆⟩ :=
    ht₄.text pair_adj (hstep 4 (by decide)) (hstep 5 (by decide))
  -- the text does not disturb what the routers know
  have hheard : ∀ x other, (∀ view, ((net 4).routers x).neighborViews.lookup other = some view →
      view.lastHeardFrom = t) → ∀ view, ((net 6).routers x).neighborViews.lookup other = some view →
        view.lastHeardFrom = t :=
    fun x other hbefore view hview => (hviews₆ x other view hview).elim id (hbefore view)
  have hcases : ∀ j < 6, j = 0 ∨ j = 1 ∨ j = 2 ∨ j = 3 ∨ j = 4 ∨ j = 5 := by omega
  refine ⟨fun j hj => ?_, hu₂, hu₃, fun j hj => ?_, ht ▸ ht₄, hsent₅, ?_⟩
  · rw [← ht]
    obtain rfl | rfl | rfl | rfl | rfl | rfl := hcases j hj
    · exact hk₀
    · exact hk₁
    · exact hk₂
    · exact hk₃
    · exact hk₄
    · exact hk₅
  · obtain rfl | rfl | rfl | rfl | rfl : j = 0 ∨ j = 1 ∨ j = 2 ∨ j = 3 ∨ j = 4 := by omega
    · exact h.quiet
    · exact honly₁ h.quiet
    · exact honly₂ (honly₁ h.quiet)
    · exact honly₃
    · exact honly₄
  · have hold : ∀ key, ((∃ m < k, key = dedupKeyOf (pairText m)) ∨ key = dedupKeyOf (pairText k)) →
        ∃ m < k + 1, key = dedupKeyOf (pairText m) := by
      rintro key (⟨m, hm, rfl⟩ | rfl)
      · exact ⟨m, by omega, rfl⟩
      · exact ⟨k, by omega, rfl⟩
    have ht₆' : Ticking (SimpleGraph.edge "a" "b") t
        (fun key => ∃ m < k + 1, key = dedupKeyOf (pairText m)) (net 6) :=
      ⟨ht₆.coherent, ht₆.links, ht₆.onTime, fun x key hkey => hold key (ht₆.seen x key hkey),
        fun x q hq => hold _ (ht₆.handled x q hq)⟩
    have hafter : t ≤ seconds (20 * (k + 1) + 5) := by
      rw [ht]
      exact Nat.mul_le_mul_right _ (by omega)
    refine ⟨ht₆'.mono hafter, by rw [OnlyUpdates, hchannel₆]; exact honly₄,
      ht ▸ .of_heard (pair_neighbor ht₆.links).1 (hheard "a" "b" fun view hview => ?_) ?_,
      ht ▸ .of_heard (pair_neighbor ht₆.links).2 (hheard "b" "a" fun view hview => ?_) ?_⟩
    · exact hviews₄ "b" view hview
    · rw [hlast₆, hlast₄, hother₃ "a" (by decide), hother₂ "a" (by decide), hlast₁]
    · rw [hother₄ "b" (by decide)] at hview
      exact hviews₃ "a" view hview
    · rw [hlast₆, hother₄ "b" (by decide), hlast₃, hlast₂]

/-- The round and the place in it of the `i`-th event. -/
lemma pair_index (k : ℕ) {j : ℕ} (hj : j < 6) :
    (6 * k + j) / 6 = k ∧ (6 * k + j) % 6 = j := by omega

lemma pairEvent_eq (k : ℕ) {j : ℕ} (hj : j < 6) :
    pairEvent (6 * k + j) = pairChoice k j (pairRun (6 * k + j)) := by
  rw [pairEvent, (pair_index k hj).1, (pair_index k hj).2]

lemma pairTime_eq (k : ℕ) {j : ℕ} (hj : j < 6) : pairTime (6 * k + j) = seconds (20 * (k + 1)) := by
  rw [pairTime, (pair_index k hj).1]

lemma pairRun_round {k : ℕ} (h : PairCycle k (pairRun (6 * k))) :
    PairRound k fun j => pairRun (6 * k + j) := by
  refine PairCycle.round h fun j hj => ?_
  rw [← pairTime_eq k hj, ← pairEvent_eq k hj]
  rfl

lemma pairRun_cycle (k : ℕ) : PairCycle k (pairRun (6 * k)) := by
  induction k with
  | zero => exact pairStart_cycle
  | succ k ih => exact (pairRun_round ih).next

lemma pairRun_steady :
    SteadyExecution (SimpleGraph.edge "a" "b") silent pairRun (fun i => plainEnv (pairTime i))
      pairEvent := by
  refine ⟨pairStart_links, fun i => ?_, fun i => rfl⟩
  have hj := Nat.mod_lt i (show 0 < 6 by decide)
  have hround := (pairRun_round (pairRun_cycle (i / 6))).keeps (i % 6) hj
  rw [← pairTime_eq _ hj, ← pairEvent_eq _ hj, Nat.div_add_mod] at hround
  exact hround

lemma pairRun_fair : FairExecution (SimpleGraph.edge "a" "b") pairRun
    (fun i => plainEnv (pairTime i)) pairEvent := by
  have hclock : ∀ {t k j : ℕ}, t ≤ k → j < 6 → t ≤ pairTime (6 * k + j) := by
    intro t k j htk hj
    rw [pairTime_eq k hj]
    change t ≤ 20 * (k + 1) * 1000000000
    omega
  constructor
  · intro a b hadj i t
    rcases pair_cases hadj with ⟨rfl, rfl⟩ | ⟨rfl, rfl⟩
    · exact ⟨6 * (i + t) + 0, by omega, pairEvent_eq _ (by decide),
        hclock (Nat.le_add_left t i) (by decide)⟩
    · exact ⟨6 * (i + t) + 1, by omega, pairEvent_eq _ (by decide),
        hclock (Nat.le_add_left t i) (by decide)⟩
  · intro a b hadj i _
    have hround := pairRun_round (pairRun_cycle i)
    obtain ⟨pkt, hpkt, htype⟩ := hround.first
    obtain ⟨pkt', hpkt', htype'⟩ := hround.second
    rcases pair_cases hadj with ⟨rfl, rfl⟩ | ⟨rfl, rfl⟩
    · exact ⟨6 * i + 2, 0, pkt, by omega, pairEvent_eq _ (by decide), hpkt, htype⟩
    · exact ⟨6 * i + 3, 0, pkt', by omega, pairEvent_eq _ (by decide), hpkt', htype'⟩

/-- The only data packets are the texts, and each is delivered at once. -/
lemma pairRun_dataFair : DataFair (SimpleGraph.edge "a" "b") pairRun pairEvent := by
  intro a b hadj i pkt hpkt hdata
  have hj := Nat.mod_lt i (show 0 < 6 by decide)
  have hround := pairRun_round (pairRun_cycle (i / 6))
  by_cases hlast : i % 6 = 5
  · have hi : i = 6 * (i / 6) + 5 := by omega
    rw [hi] at hpkt
    rw [hround.sent] at hpkt
    rcases List.mem_append.mp hpkt with hmem | hnew
    · exact absurd (hround.quiet 4 (by decide) a b pkt hmem).1 hdata
    · split_ifs at hnew with hab
      · obtain rfl := List.mem_singleton.mp hnew
        obtain ⟨rfl, rfl⟩ := hab
        refine ⟨6 * (i / 6) + 5, _, by omega, pairEvent_eq _ (by decide), ?_⟩
        have hsent := hround.sent "a" "b"
        rw [if_pos ⟨rfl, rfl⟩] at hsent
        rw [hsent, List.length_append]
        exact List.getElem?_concat_length
      · exact absurd hnew List.not_mem_nil
  · have hquiet := hround.quiet (i % 6) (by omega) a b
    rw [Nat.div_add_mod] at hquiet
    exact absurd (hquiet pkt hpkt).1 hdata

lemma pair_finite : {x : PeerId × PeerId | (SimpleGraph.edge "a" "b").Adj x.1 x.2}.Finite := by
  refine Set.Finite.subset (Set.toFinite {("a", "b"), ("b", "a")}) ?_
  rintro ⟨a, b⟩ hadj
  rcases pair_cases hadj with ⟨rfl, rfl⟩ | ⟨rfl, rfl⟩
  · exact Set.mem_insert _ _
  · exact Set.mem_insert_of_mem _ (Set.mem_singleton _)

/-- Only the `k`-th round sends the `k`-th text. -/
lemma pairChoice_sendsOther {k k' j : ℕ} (t : ℕ) (net : Network Unit) (h : ¬(k' = k ∧ j = 4)) :
    SendsOther (dedupKeyOf (pairText k)) silent net (plainEnv t) (pairChoice k' j net) := by
  have htick : ∀ x, SendsOther (dedupKeyOf (pairText k)) silent net (plainEnv t)
      (.router x .maintenance) := by
    intro x next p hp
    apply pairText_key_ne
    rw [tick_ids hp]
    exact (Nat.succ_ne_zero k).symm
  have hdeliver : ∀ src x index, SendsOther (dedupKeyOf (pairText k)) silent net (plainEnv t)
      (.deliver src x index) := by
    intro src x index pkt _ q hq
    unfold ownerSends at hq
    split_ifs at hq
    · exact absurd hq List.not_mem_nil
    · exact absurd hq List.not_mem_nil
    · exact absurd hq List.not_mem_nil
  unfold pairChoice
  split
  · exact htick "a"
  · exact htick "b"
  · exact hdeliver _ _ _
  · exact hdeliver _ _ _
  · refine ⟨pairText_key_ne ?_, fun p hp => absurd hp List.not_mem_nil⟩
    rw [show (pairText k').id.length = k' + 1 from List.length_replicate]
    exact fun heq => h ⟨Nat.succ_injective heq, rfl⟩
  · exact hdeliver _ _ _

/-! ## Convergence and delivery -/

/-- Whatever admitted events have happened before, once the links stay the forwarding tables become
exact for good. -/
theorem fairExecution_exactTables (G : SimpleGraph PeerId)
    (hlinks : {x : PeerId × PeerId | G.Adj x.1 x.2}.Finite) (cb : PeerId → OnPacketForMe ν)
    (hcb : ∀ b, SendsData (cb b)) (now : PeerId → Time) (owners : PeerId → ν) (σ : ℕ → Network ν)
    (env : ℕ → StepEnv) (event : ℕ → NetworkEvent)
    (hhistory : Relation.ReflTransGen (Network.Moves cb Admitted) (Network.create now owners) (σ 0))
    (hrun : SteadyExecution G cb σ env event) (hfair : FairExecution G σ env event) :
    ∃ n, ∀ i, n ≤ i → ExactTables G (σ i).routers :=
  hrun.eventually_exact hlinks hcb (history_coherent hcb hhistory) hfair

/-- Two nodes, of which one has a route to a third that is gone. -/
theorem fairExecution_exactTables_pair :
    ((pairRun 0).routers "a").forwardingTable.lookup "c" = some ⟨"b", 2, true, seconds 1⟩ ∧
      ∃ n, ∀ i, n ≤ i → ExactTables (SimpleGraph.edge "a" "b") (pairRun i).routers :=
  ⟨by decide, fairExecution_exactTables (SimpleGraph.edge "a" "b") pair_finite silent
    silent_sendsData
    (fun _ => 0) (fun _ => ()) pairRun (fun i => plainEnv (pairTime i)) pairEvent pairStart_history
    pairRun_steady
    pairRun_fair⟩

/-- Once the links stay, every packet that is sent late enough reaches the owner of its destination,
if the destination is within reach of its TTL. -/
theorem fairExecution_delivers (G : SimpleGraph PeerId)
    (hlinks : {x : PeerId × PeerId | G.Adj x.1 x.2}.Finite) (cb : PeerId → OnPacketForMe ν)
    (hcb : ∀ b, SendsData (cb b)) (hheader : ∀ b, KeepsHeader (cb b)) (now : PeerId → Time)
    (owners : PeerId → ν) (σ : ℕ → Network ν) (env : ℕ → StepEnv) (event : ℕ → NetworkEvent)
    (hhistory : Relation.ReflTransGen (Network.Moves cb Admitted) (Network.create now owners) (σ 0))
    (hrun : SteadyExecution G cb σ env event) (hfair : FairExecution G σ env event)
    (hdata : DataFair G σ event) :
    ∃ n, ∀ i, n ≤ i → ∀ p₀, event i = .router p₀.fromPeerId (.sendPacket p₀) → p₀.toPeerId ≠ "" →
      p₀.toPeerId ≠ p₀.fromPeerId → (p₀.transport = .tcp ∨ p₀.transport = .udp) →
      G.Reachable p₀.fromPeerId p₀.toPeerId → G.dist p₀.fromPeerId p₀.toPeerId < 16 →
      G.dist p₀.fromPeerId p₀.toPeerId < p₀.ttl.toNat → FreshId (dedupKeyOf p₀) (σ i) →
      (∀ q ∈ (σ i).handled p₀.toPeerId, ¬IsCopy p₀ q) →
      (∀ j, i < j → SendsOther (dedupKeyOf p₀) cb (σ j) (env j) (event j)) →
      ∃ k, i < k ∧ ∃ q ∈ (σ k).handled p₀.toPeerId, IsCopy p₀ q := by
  obtain ⟨n, htables⟩ := hrun.eventually_exact hlinks hcb (history_coherent hcb hhistory) hfair
  refine ⟨n,
    fun i hi p₀ hevent hnamed hne htransport hreach hnear hshort hfresh hunhandled hother => ?_⟩
  have hkeeps := hrun.keeps i
  have hstep := hrun.step i
  rw [hevent] at hkeeps hstep
  cases hkeeps with
  | send _ _ htime htype =>
    have hpos : 0 < G.dist p₀.fromPeerId p₀.toPeerId := hreach.pos_dist_of_ne hne.symm
    have hunicast : Unicast G p₀ := ⟨hnamed, htype, htransport, hnear⟩
    obtain ⟨hop, hflying, -⟩ :=
      send_flies cb (env i) hunicast (htables i hi) hfresh hunhandled hne hreach (by omega)
    rw [← hstep] at hflying
    obtain ⟨k, hk, harrived⟩ := hrun.arrives hheader hdata hunicast hshort
      (fun j hj => htables j (by omega))
      (fun j hj => hother j (by omega)) hflying
    exact ⟨k, by omega, harrived⟩

/-- All but finitely many of the texts arrive. -/
theorem fairExecution_delivers_pair :
    ∃ n, ∀ k, n ≤ k → ∃ i, ∃ q ∈ (pairRun i).handled "b", IsCopy (pairText k) q := by
  obtain ⟨n, hn⟩ := fairExecution_delivers (SimpleGraph.edge "a" "b") pair_finite silent
    silent_sendsData
    silent_keepsHeader (fun _ => 0) (fun _ => ()) pairRun (fun i => plainEnv (pairTime i)) pairEvent
    pairStart_history
    pairRun_steady pairRun_fair pairRun_dataFair
  refine ⟨n, fun k hk => ?_⟩
  have hround := pairRun_round (pairRun_cycle k)
  have hdist : (SimpleGraph.edge "a" "b").dist "a" "b" = 1 :=
    SimpleGraph.dist_eq_one_iff_adj.mpr pair_adj
  have hnew : ∀ {key}, (∃ m < k, key = dedupKeyOf (pairText m)) →
      key ≠ dedupKeyOf (pairText k) := by
    rintro key ⟨m, hm, rfl⟩
    apply pairText_key_ne
    rw [show (pairText m).id.length = m + 1 from List.length_replicate]
    omega
  obtain ⟨i, -, harrived⟩ := hn (6 * k + 4) (by omega) (pairText k) (pairEvent_eq k (by decide))
    (show "b" ≠ "" by decide) (show "b" ≠ "a" by decide) (.inl rfl) pair_adj.reachable
    (hdist.trans_lt (by decide)) (hdist.trans_lt (show 1 < 10 by decide))
    ⟨fun x hx => hnew (hround.ready.seen x _ hx) rfl, fun x y p hp => pairText_key_ne (by
      rw [(hround.quiet 4 (by decide) x y p hp).2]
      exact (Nat.succ_ne_zero k).symm)⟩
    (fun q hq hcopy => hnew (hround.ready.handled "b" q hq) hcopy.key) fun j hj =>
      pairChoice_sendsOther _ _ (by omega)
  exact ⟨i, harrived⟩

end MeshNetwork.Proofs
