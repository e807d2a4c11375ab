import MeshNetwork.Library.AsyncConvergence
import MeshNetwork.Proofs.Advertisements
import MeshNetwork.Proofs.LoopFreedom
import MeshNetwork.Proofs.UnicastJourney

/-!
# What neighbours know of each other's routes

Routing updates stay in order on a link while data packets pass them, links come and go, and dead
routes are collected. What a neighbour will know once it has taken in all updates under way is an
entry of the sender's table, and nothing if the sender has withdrawn the destination.
-/

namespace MeshNetwork.Proofs

open DistanceVector

variable {ν : Type}

/-! ## Updates under way -/

/-- What a packet says about routes. -/
def said (pkt : RoutedPacket) : Option (PeerId → Option Signal) :=
  if pkt.type = .routingUpdate then some (advertised pkt) else none

/-- The routing updates that `n` has sent to `b`, oldest first. -/
def updatesOn (net : Network ν) (n b : PeerId) : List (PeerId → Option Signal) :=
  (net.channel n b).filterMap said

/-- The protocol that a network runs beside its data traffic. -/
def routingState (net : Network ν) : AsyncState PeerId :=
  { asyncState net with channel := updatesOn net }

/-- What `b` will know of the route of `a` to `d` when it has taken in all that is under way. -/
def believed (net : Network ν) (a b d : PeerId) : Option ℕ :=
  drain ((routingState net).view b a) (updatesOn net a b) d

section Channels

variable {net : Network ν} {src dst : PeerId} {index : Nat} {pkt : RoutedPacket}

lemma updatesOn_apply (net : Network ν) (x : PeerId) (r : List RouterOutput × ν × RouterState)
    (a b : PeerId) :
    updatesOn (net.apply x r) a b =
      updatesOn net a b ++ if a = x then (r.1.filterMap (packetTo b)).filterMap said else [] := by
  unfold updatesOn
  rw [apply_eq]
  dsimp only
  rw [List.filterMap_append]
  split_ifs <;> rfl

/-- Data packets do not touch the updates. -/
lemma updatesOn_apply_data (x : PeerId) {r : List RouterOutput × ν × RouterState}
    (h : ∀ next p, .transmit next p ∈ r.1 → p.type ≠ .routingUpdate) :
    updatesOn (net.apply x r) = updatesOn net := by
  funext a b
  rw [updatesOn_apply]
  split_ifs
  · have hnone : (r.1.filterMap (packetTo b)).filterMap said = [] := by
      rw [List.filterMap_eq_nil_iff]
      intro p hp
      exact if_neg (h b p (mem_filterMap_packetTo.mp hp))
    rw [hnone, List.append_nil]
  · exact List.append_nil _

lemma updatesOn_take_data (hpkt : (net.channel src dst)[index]? = some pkt)
    (htype : pkt.type ≠ .routingUpdate) :
    updatesOn (net.take src dst index) = updatesOn net := by
  funext a b
  unfold updatesOn Network.take
  dsimp only
  split_ifs with hlink
  · obtain ⟨rfl, rfl⟩ := hlink
    obtain ⟨before, after, hl, herase⟩ := List.eraseIdx_split hpkt
    have hsaid : said pkt = none := if_neg htype
    rw [herase, hl, List.filterMap_append, List.filterMap_append, List.filterMap_cons, hsaid]
  · rfl

/-- The packet at `index` is the oldest update on its link. -/
structure OldestUpdate (net : Network ν) (src dst : PeerId) (index : Nat)
    (pkt : RoutedPacket) : Prop where
  packet : (net.channel src dst)[index]? = some pkt
  type : pkt.type = .routingUpdate
  first : ∀ j < index, ∀ p, (net.channel src dst)[j]? = some p → p.type ≠ .routingUpdate

lemma OldestUpdate.take (h : OldestUpdate net src dst index pkt) :
    updatesOn net src dst = advertised pkt :: updatesOn (net.take src dst index) src dst := by
  have hlt := (List.getElem?_eq_some_iff.mp h.packet).1
  have hbefore : ((net.channel src dst).take index).filterMap said = [] := by
    rw [List.filterMap_eq_nil_iff]
    intro p hp
    obtain ⟨j, hj, rfl⟩ := List.getElem_of_mem hp
    rw [List.length_take] at hj
    refine if_neg (h.first j (by omega) _ ?_)
    rw [List.getElem_take, List.getElem?_eq_getElem]
  have hsaid : said pkt = some (advertised pkt) := if_pos h.type
  have hsplit : net.channel src dst =
      (net.channel src dst).take index ++ pkt :: (net.channel src dst).drop (index + 1) := by
    rw [← (List.getElem?_eq_some_iff.mp h.packet).2, ← List.drop_eq_getElem_cons hlt,
      List.take_append_drop]
  unfold updatesOn Network.take
  dsimp only
  rw [if_pos ⟨rfl, rfl⟩, List.eraseIdx_eq_take_drop_succ, List.filterMap_append, hbefore,
    List.nil_append]
  nth_rewrite 1 [hsplit]
  rw [List.filterMap_append, hbefore, List.nil_append, List.filterMap_cons, hsaid]

lemma updatesOn_take_of_ne {a b : PeerId} (hne : ¬(a = src ∧ b = dst)) :
    updatesOn (net.take src dst index) a b = updatesOn net a b := by
  unfold updatesOn Network.take
  dsimp only
  rw [if_neg hne]

end Channels

/-! ## Views -/

/-- What a router was told by `n` about `d`. -/
def viewOf (s : RouterState) (n d : PeerId) : Option ℕ :=
  (((s.neighborViews.lookup n).getD {}).advertisedRoutes.lookup d).map UInt32.toNat

lemma viewOf_eq_some {s : RouterState} {n d : PeerId} {v : ℕ} :
    viewOf s n d = some v ↔ ∃ c, Stored s.neighborViews n d c ∧ c.toNat = v := by
  unfold viewOf
  rw [Option.map_eq_some_iff]
  simp only [stored_iff_getD]

lemma SameRoutes.viewOf_eq {s s' : RouterState} (h : SameRoutes s s') (n d : PeerId) :
    viewOf s' n d = viewOf s n d := by
  apply Option.ext
  intro v
  rw [viewOf_eq_some, viewOf_eq_some]
  simp only [h.stored]

/-- A router that forgets neighbours. -/
lemma viewOf_forgets {s s' : RouterState} {n d : PeerId}
    (hstored : ∀ c, Stored s'.neighborViews n d c → Stored s.neighborViews n d c) :
    viewOf s' n d = viewOf s n d ∨ viewOf s' n d = none := by
  cases hview : viewOf s' n d with
  | none => exact .inr rfl
  | some v =>
    obtain ⟨c, hc, hv⟩ := viewOf_eq_some.mp hview
    exact .inl (viewOf_eq_some.mpr ⟨c, hstored c hc, hv⟩).symm

/-- What a router tells `b` about `d`: routes through `b` are withdrawn. -/
def toldBy (s : RouterState) (b d : PeerId) : Signal :=
  match liveRoute s d with
  | some (c, h) => if h = b then none else some c
  | none => none

lemma toldBy_of_none {s : RouterState} {d : PeerId} (b : PeerId) (h : liveRoute s d = none) :
    toldBy s b d = none := by
  unfold toldBy
  rw [h]

lemma liveRoute_none_of_dead {s : RouterState} {d : PeerId}
    (h : ∀ e, s.forwardingTable.lookup d = some e → e.cost ≥ infCost) : liveRoute s d = none := by
  rw [Option.eq_none_iff_forall_ne_some]
  rintro ⟨c, hop⟩ hlive
  obtain ⟨e, he, hlt, -⟩ := liveRoute_eq_some.mp hlive
  have hdead := ge_infCost_iff.mp (h e he)
  omega

lemma toldBy_some_mem {s : RouterState} {b d : PeerId} {c : ℕ} (h : toldBy s b d = some c) :
    ∃ hop, liveRoute s d = some (c, hop) := by
  unfold toldBy at h
  cases hlive : liveRoute s d with
  | none =>
    rw [hlive] at h
    cases h
  | some route =>
    rw [hlive] at h
    dsimp only at h
    split_ifs at h
    cases h
    exact ⟨route.2, rfl⟩

lemma SameRoutes.toldBy_eq {s s' : RouterState} (h : SameRoutes s s') (b d : PeerId) :
    toldBy s' b d = toldBy s b d := by
  unfold toldBy
  rw [h.liveRoute_eq]

lemma told_eq_toldBy (net : Network ν) (a b d : PeerId) :
    (asyncState net).told a b d = toldBy (net.routers a) b d := by
  cases hlive : liveRoute (net.routers a) d with
  | none => rw [AsyncState.told_of_none hlive, toldBy_of_none b hlive]
  | some route =>
    rw [AsyncState.told_of_some hlive]
    unfold toldBy
    rw [hlive]

lemma Truthful.toldBy_eq {s : RouterState} {b : PeerId} {pkt : RoutedPacket}
    (h : Truthful s b pkt.routeTable) {d : PeerId} {sig : Signal}
    (hsig : advertised pkt d = some sig) : sig = toldBy s b d := by
  let net : Network Unit := { routers := fun _ => s, owners := fun _ => () }
  rw [Truthful.signal (n := b) (show Truthful (net.routers b) b pkt.routeTable from h) hsig]
  exact told_eq_toldBy net b b d

/-! ## Outputs of a tick -/

section Tick

variable (self : PeerId) (env : StepEnv) {s : RouterState}

lemma Truthful.of_same {s s' : RouterState} {b : PeerId} {table : RouteTable}
    (h : Truthful s' b table) (hsame : SameRoutes s s') : Truthful s b table := by
  intro d c hc
  obtain ⟨e', he', rfl⟩ := h d c hc
  obtain ⟨e, he, hcost, hhop⟩ := hsame.entry d e' he'
  exact ⟨e, he, by rw [hcost, hhop]⟩

lemma fireTrigger_carries (now : Time) :
    ∀ o ∈ (s.fireTrigger self env now).1, CarriesRoutes s self o := by
  unfold RouterState.fireTrigger
  split_ifs
  · refine routingPackets_carry self env 0 defaultTtl fun u hu => ?_
    obtain ⟨hmem, htruth⟩ := sendTriggeredUpdates_truthful env.order s u hu
    exact ⟨hmem, htruth.of_same (sendTriggeredUpdates_same env.order s)⟩
  · exact fun o ho => absurd ho List.not_mem_nil

lemma firePeriodic_carries (now : Time) (first : Nat) :
    ∀ o ∈ (s.firePeriodic self env now first).1, CarriesRoutes s self o := by
  unfold RouterState.firePeriodic
  split_ifs
  · exact routingPackets_carry self env first 15 (broadcastFullTable_truthful env.order s)
  · exact fun o ho => absurd ho List.not_mem_nil

lemma CarriesRoutes.of_same {s s' : RouterState} {o : RouterOutput} (h : CarriesRoutes s' self o)
    (hsame : SameRoutes s s') : CarriesRoutes s self o := by
  obtain ⟨p, pkt, ho, htype, hfrom, hp, htruth⟩ := h
  exact ⟨p, pkt, ho, htype, hfrom, (hsame.mem p).mp hp, htruth.of_same hsame⟩

/-- A tick sends routing updates that its table backs once silent neighbours are removed. -/
lemma tick_carries (s : RouterState) :
    ∀ o ∈ (s.runPeriodicMaintenance self env).1,
      CarriesRoutes (s.expireNeighbors self env (env.clock 0)) self o := by
  intro o ho
  rcases List.mem_append.mp ho with ho | ho
  · exact fireTrigger_carries self env _ o ho
  · exact (firePeriodic_carries self env _ _ o ho).of_same self (fireTrigger_same ..)

/-- An update for `b` that mentions `d` is among the outputs. -/
def Mentions (outs : List RouterOutput) (b d : PeerId) : Prop :=
  ∃ pkt, .transmit b pkt ∈ outs ∧ pkt.type = .routingUpdate ∧ d ∈ pkt.routeTable

lemma firePeriodic_mentions {now : Time} (hfires : now - s.lastPeriodicUpdate > updateInterval)
    (first : Nat) {b d : PeerId} (hb : b ∈ s.neighborViews) (hd : d ∈ s.forwardingTable) :
    Mentions (s.firePeriodic self env now first).1 b d := by
  obtain ⟨nvi, hnvi, rfl⟩ := exists_zipIdx hb env.order 0
  unfold RouterState.firePeriodic
  rw [if_pos hfires]
  have hmem : (nvi.1.1, fullUpdate env.order (4 + nvi.2) s.forwardingTable nvi.1.1) ∈
      s.broadcastFullTable env.order :=
    List.mem_map.mpr ⟨nvi, hnvi, rfl⟩
  obtain ⟨id, hpkt⟩ := mem_routingPackets self env first 15 hmem
  obtain ⟨e, he⟩ := (UMap.mem_iff_lookup _ _).mp hd
  have hlookup := lookup_fullUpdate env.order (4 + nvi.2) s.forwardingTable nvi.1.1 d
  rw [he] at hlookup
  exact ⟨_, hpkt, rfl, (UMap.mem_iff_lookup _ _).mpr ⟨_, hlookup⟩⟩

lemma Advertised.mentions {outs : List RouterOutput} {d : PeerId} {e : RouteEntry}
    (h : Advertised outs s d e) {b : PeerId} (hb : b ∈ s.neighborViews) : Mentions outs b d := by
  obtain ⟨o, ho, htells⟩ := h b (AList.mem_keys.mp hb)
  cases o with
  | packetForMe _ => cases htells
  | transmit next pkt =>
    obtain ⟨rfl, htype, -, hcost⟩ := of_decide_eq_true htells
    exact ⟨pkt, ho, htype, (UMap.mem_iff_lookup _ _).mpr ⟨_, hcost⟩⟩

end Tick

end MeshNetwork.Proofs
