import MeshNetwork.Library.DistanceVector
import MeshNetwork.Library.Lists
import MeshNetwork.Model.Network
import MeshNetwork.Proofs.RoutingUpdate
import Mathlib.Combinatorics.SimpleGraph.Operations

/-!
# Convergence of synchronous exchange rounds

One round of full updates is an exchange of distance vectors, so from any tables that agree with
their views fifteen rounds leave exact hop distances.
-/

namespace MeshNetwork.Proofs

open DistanceVector

/-! ## The updates of a round -/

lemma broadcastFullTable_lookup (ord : IterOrder PeerId) {s : RouterState} {n : PeerId}
    (hn : n ∈ s.neighborViews) :
    ∃ loop, (s.broadcastFullTable ord).lookup n =
      some (fullUpdate ord loop s.forwardingTable n) := by
  obtain ⟨view, hview⟩ := (UMap.mem_iff_lookup _ _).mp hn
  have hmem := (UMap.mem_items ord 0 s.neighborViews n view).mpr hview
  obtain ⟨i, hi, heq⟩ := List.getElem_of_mem hmem
  have hentry : (n, fullUpdate ord (4 + i) s.forwardingTable n) ∈ s.broadcastFullTable ord := by
    refine List.mem_map.mpr ⟨((n, view), i), List.mem_zipIdx_iff_getElem?.mpr ?_, rfl⟩
    rw [List.getElem?_eq_getElem hi, heq]
  obtain ⟨table, hl, htable⟩ := List.exists_lookup hentry
  obtain ⟨x, -, hx⟩ := List.mem_map.mp htable
  cases hx
  exact ⟨4 + x.2, hl⟩

/-! ## The state of one node after a round -/

/-- The nodes know their neighbours, agree with their views and remember what they advertised. -/
structure Synced (G : SimpleGraph PeerId) (net : PeerId → RouterState) : Prop where
  keys : ∀ a b, b ∈ (net a).neighborViews ↔ G.Adj a b
  agrees : ∀ a, TableAgrees a (net a)
  known : ∀ a b d c, Stored (net b).neighborViews a d c → d ∈ (net a).forwardingTable

/-- Every node hears each of its neighbours once. -/
def ValidChoice (G : SimpleGraph PeerId) (choice : RoundChoice) : Prop :=
  ∀ b, ((choice.receive b).map Prod.fst).Nodup ∧
    ∀ a, a ∈ (choice.receive b).map Prod.fst ↔ G.Adj b a

/-- Neighbour `n` has a live route to `d` of cost `c` that does not go through `b`. -/
def Advertises (net : PeerId → RouterState) (b n d : PeerId) (c : UInt32) : Prop :=
  ∃ e, (net n).forwardingTable.lookup d = some e ∧ e.nextHop ≠ b ∧ e.cost = c ∧ c.toNat < 16

/-- The state of node `b` when it has applied the updates of `heard`. -/
structure Heard (net : PeerId → RouterState) (b : PeerId) (heard : List PeerId)
    (s : RouterState) : Prop where
  agrees : TableAgrees b s
  keys : ∀ n, n ∈ s.neighborViews ↔ n ∈ (net b).neighborViews
  fresh : ∀ n ∈ heard, ∀ d c, Stored s.neighborViews n d c ↔ Advertises net b n d c
  stale : ∀ n, n ∉ heard → ∀ d c, Stored s.neighborViews n d c ↔ Stored (net b).neighborViews n d c
  known : ∀ d, d ∈ (net b).forwardingTable → d ∈ s.forwardingTable

/-- A full update replaces the view of its sender by what the sender advertises. -/
lemma updated_iff_advertises {net : PeerId → RouterState} {b n : PeerId} (env : StepEnv)
    {view : NeighborView} (hknown : ∀ d c, view.advertisedRoutes.lookup d = some c →
      d ∈ (net n).forwardingTable) (ord : IterOrder PeerId) (loop : Nat) (d : PeerId) (c : UInt32) :
    (updatedView env view (fullUpdate ord loop (net n).forwardingTable b)).advertisedRoutes.lookup
      d = some c ↔ Advertises net b n d c := by
  rw [lookup_updatedView, lookup_fullUpdate]
  unfold Advertises
  cases htable : (net n).forwardingTable.lookup d with
  | none =>
    have hnone : ¬view.advertisedRoutes.lookup d = some c := by
      intro hc
      obtain ⟨e, he⟩ := (UMap.mem_iff_lookup _ _).mp (hknown d c hc)
      rw [htable] at he
      cases he
    simp [hnone]
  | some e =>
    simp only [Option.map_some, Option.elim_some, Option.some.injEq, exists_eq_left']
    by_cases hhop : e.nextHop = b
    · simp [hhop]
    · rw [if_neg hhop]
      by_cases hinf : e.cost ≥ infCost
      · rw [if_pos hinf]
        rw [ge_infCost_iff] at hinf
        simp only [reduceCtorEq, false_iff]
        rintro ⟨-, rfl, hlt⟩
        omega
      · rw [if_neg hinf, Option.some.injEq]
        rw [ge_infCost_iff, not_le] at hinf
        constructor
        · rintro rfl
          exact ⟨hhop, rfl, hinf⟩
        · exact fun h => h.2.1

lemma Heard.step {G : SimpleGraph PeerId} {net : PeerId → RouterState} (hsync : Synced G net)
    (choice : RoundChoice) {b : PeerId} {heard : List PeerId} {s : RouterState}
    (h : Heard net b heard s) {x : PeerId × StepEnv} (hadj : G.Adj b x.1) (hx : x.1 ∉ heard) :
    Heard net b (heard ++ [x.1]) (applyFullUpdate choice net b s x) := by
  obtain ⟨loop, hl⟩ :=
    broadcastFullTable_lookup (choice.emit x.1) ((hsync.keys x.1 b).mpr hadj.symm)
  have hstep : applyFullUpdate choice net b s x = s.processRoutingUpdate b x.2 x.1
      (fullUpdate (choice.emit x.1) loop (net x.1).forwardingTable b) := by
    unfold applyFullUpdate
    rw [hl]
  have hknown : ∀ d c, ((s.neighborViews.lookup x.1).getD {}).advertisedRoutes.lookup d = some c →
      d ∈ (net x.1).forwardingTable := by
    intro d c hc
    exact hsync.known x.1 b d c ((h.stale x.1 hx d c).mp (stored_iff_getD.mpr hc))
  rw [hstep]
  constructor
  · exact processRoutingUpdate_agrees b x.2 h.agrees x.1 _
  · intro n
    rw [processRoutingUpdate_views, AList.mem_insert, h.keys]
    constructor
    · rintro (rfl | hmem)
      · exact (hsync.keys b x.1).mpr hadj
      · exact hmem
    · exact .inr
  · intro n hn d c
    rw [processRoutingUpdate_views, stored_insert]
    by_cases hnx : n = x.1
    · subst hnx
      rw [if_pos rfl]
      exact updated_iff_advertises x.2 hknown _ loop d c
    · rw [if_neg hnx]
      apply h.fresh
      rcases List.mem_append.mp hn with hn | hn
      · exact hn
      · exact absurd (List.mem_singleton.mp hn) hnx
  · intro n hn d c
    rw [List.mem_append, List.mem_singleton, not_or] at hn
    rw [processRoutingUpdate_views, stored_insert, if_neg hn.2]
    exact h.stale n hn.1 d c
  · intro d hd
    exact recalculate_keys b x.2 _ (h.known d hd)

lemma Heard.fold {G : SimpleGraph PeerId} {net : PeerId → RouterState} (hsync : Synced G net)
    (choice : RoundChoice) {b : PeerId} (l : List (PeerId × StepEnv)) {heard : List PeerId}
    {s : RouterState} (h : Heard net b heard s) (hadj : ∀ x ∈ l, G.Adj b x.1)
    (hnodup : (heard ++ l.map Prod.fst).Nodup) :
    Heard net b (heard ++ l.map Prod.fst) (l.foldl (applyFullUpdate choice net b) s) := by
  induction l generalizing heard s with
  | nil =>
    rw [List.map_nil, List.append_nil]
    exact h
  | cons x l ih =>
    rw [List.map_cons, List.append_cons] at hnodup ⊢
    have hx : x.1 ∉ heard := by
      intro hmem
      have hdis := (List.nodup_append.mp (List.nodup_append.mp hnodup).1).2.2
      exact hdis x.1 hmem x.1 (List.mem_singleton_self _) rfl
    exact ih (h.step hsync choice (hadj x (List.mem_cons_self ..)) hx)
      (fun y hy => hadj y (List.mem_cons_of_mem _ hy)) hnodup

lemma exchangeRound_heard {G : SimpleGraph PeerId} {net : PeerId → RouterState}
    (hsync : Synced G net) {choice : RoundChoice} (hvalid : ValidChoice G choice) (b : PeerId) :
    Heard net b ((choice.receive b).map Prod.fst) (exchangeRound choice net b) := by
  have hinit : Heard net b [] (net b) :=
    ⟨hsync.agrees b, fun n => Iff.rfl, fun n hn => absurd hn List.not_mem_nil,
      fun n _ d c => Iff.rfl, fun d hd => hd⟩
  have hfold := hinit.fold hsync choice (choice.receive b)
    (fun x hx => ((hvalid b).2 x.1).mp (List.mem_map_of_mem hx))
    (by rw [List.nil_append]; exact (hvalid b).1)
  rw [List.nil_append] at hfold
  exact hfold

/-- After a round the views of `b` are what its neighbours advertised before it. -/
lemma exchangeRound_stored {G : SimpleGraph PeerId} {net : PeerId → RouterState}
    (hsync : Synced G net) {choice : RoundChoice} (hvalid : ValidChoice G choice) (b n d : PeerId)
    (c : UInt32) :
    Stored (exchangeRound choice net b).neighborViews n d c ↔ G.Adj b n ∧
      Advertises net b n d c := by
  have hheard := exchangeRound_heard hsync hvalid b
  by_cases hadj : G.Adj b n
  · rw [hheard.fresh n (((hvalid b).2 n).mpr hadj) d c]
    simp only [hadj, true_and]
  · simp only [hadj, false_and, iff_false]
    rintro ⟨view, hview, -⟩
    apply hadj
    rw [← hsync.keys b n, ← hheard.keys n]
    exact (UMap.mem_iff_lookup _ _).mpr ⟨view, hview⟩

lemma exchangeRound_synced {G : SimpleGraph PeerId} {net : PeerId → RouterState}
    (hsync : Synced G net) {choice : RoundChoice} (hvalid : ValidChoice G choice) :
    Synced G (exchangeRound choice net) := by
  constructor
  · intro a b
    rw [(exchangeRound_heard hsync hvalid a).keys b]
    exact hsync.keys a b
  · intro a
    exact (exchangeRound_heard hsync hvalid a).agrees
  · intro a b d c hc
    obtain ⟨e, he, -⟩ := ((exchangeRound_stored hsync hvalid b a d c).mp hc).2
    exact (exchangeRound_heard hsync hvalid a).known d ((UMap.mem_iff_lookup _ _).mpr ⟨e, he⟩)

/-! ## The exchange of distance vectors -/

lemma candidate_iff_offered {G : SimpleGraph PeerId} {net : PeerId → RouterState}
    (hsync : Synced G net) {choice : RoundChoice} (hvalid : ValidChoice G choice) (b d n : PeerId)
    (c : Nat) :
    Candidate (exchangeRound choice net b).neighborViews d n c ↔
      Offered G (fun a d => liveRoute (net a) d) b d n c := by
  unfold Candidate Offered
  simp only [exchangeRound_stored hsync hvalid, (exchangeRound_synced hsync hvalid).keys]
  constructor
  · rintro (⟨rfl, hadj, rfl⟩ | ⟨r, ⟨hadj, e, he, hhop, rfl, hlt⟩, rfl⟩)
    · exact ⟨hadj, .inl ⟨rfl, rfl⟩⟩
    · exact ⟨hadj, .inr ⟨e.cost.toNat, e.nextHop, liveRoute_eq_some.mpr ⟨e, he, hlt, rfl, rfl⟩,
        hhop, rfl⟩⟩
  · rintro ⟨hadj, ⟨rfl, rfl⟩ | ⟨c₀, h, hlive, hhop, rfl⟩⟩
    · exact .inl ⟨rfl, hadj, rfl⟩
    · obtain ⟨e, he, hlt, rfl, rfl⟩ := liveRoute_eq_some.mp hlive
      exact .inr ⟨e.cost, ⟨hadj, e, he, hhop, rfl, hlt⟩, rfl⟩

/-- A round of full updates is an exchange of distance vectors with bound 16. -/
theorem exchangeRound_exchange {G : SimpleGraph PeerId} {net : PeerId → RouterState}
    (hsync : Synced G net) {choice : RoundChoice} (hvalid : ValidChoice G choice) :
    Exchange G 16 (fun b d => liveRoute (net b) d)
      (fun b d => liveRoute (exchangeRound choice net b) d) := by
  have hagrees := (exchangeRound_synced hsync hvalid).agrees
  have hkeys := (exchangeRound_synced hsync hvalid).keys
  constructor
  · intro b d hd c h hlive
    obtain ⟨e, he, hlt, rfl, rfl⟩ := liveRoute_eq_some.mp hlive
    have hbest := (hagrees b).live d hd e he hlt
    constructor
    · exact (candidate_iff_offered hsync hvalid b d _ _).mp hbest.candidate
    · intro a c' hoffer
      exact hbest.least a c' ((candidate_iff_offered hsync hvalid b d a c').mpr hoffer)
  · intro b d hd c h hlive hadj
    obtain ⟨e, he, hlt, rfl, rfl⟩ := liveRoute_eq_some.mp hlive
    exact ((hagrees b).live d hd e he hlt).direct ((hkeys b d).mpr hadj)
  · intro b d hd a c hoffer hlt
    obtain ⟨e, he, hlive⟩ := (hagrees b).complete d hd a c
      ((candidate_iff_offered hsync hvalid b d a c).mpr hoffer) hlt
    exact ⟨e.cost.toNat, e.nextHop, liveRoute_eq_some.mpr ⟨e, he, hlive, rfl, rfl⟩⟩

lemma synced_exact_zero {G : SimpleGraph PeerId} {net : PeerId → RouterState}
    (hsync : Synced G net) :
    ExactUpTo G 0 fun b d => liveRoute (net b) d := by
  intro b d hd
  constructor
  · intro hle
    rw [Nat.cast_zero, nonpos_iff_eq_zero, SimpleGraph.edist_eq_zero_iff] at hle
    exact absurd hle.symm hd
  · intro _ c h hlive
    obtain ⟨e, he, hlt, rfl, rfl⟩ := liveRoute_eq_some.mp hlive
    rcases ((hsync.agrees b).live d hd e he hlt).candidate with ⟨-, -, hone⟩ | ⟨r, -, hcost⟩
    · omega
    · omega

lemma runRounds_exact {G : SimpleGraph PeerId} {net : PeerId → RouterState} (hsync : Synced G net)
    {choices : Nat → RoundChoice} (hvalid : ∀ r, ValidChoice G (choices r)) (r : Nat)
    (hr : r ≤ 15) :
    Synced G (runRounds choices net r) ∧ ExactUpTo G r fun b d =>
      liveRoute (runRounds choices net r b) d := by
  induction r with
  | zero => exact ⟨hsync, synced_exact_zero hsync⟩
  | succ r ih =>
    obtain ⟨hsync', hexact⟩ := ih (by omega)
    exact ⟨exchangeRound_synced hsync' (hvalid r),
      (exchangeRound_exchange hsync' (hvalid r)).exactUpTo (by omega) hexact⟩

/-- After `r ≤ 15` rounds routes within `r` hops are shortest and no wrong route costs `r` or
less; after 15 rounds every live cost is the hop distance. -/
theorem runRounds_converges (G : SimpleGraph PeerId) (net : PeerId → RouterState)
    (hkeys : ∀ a b, b ∈ (net a).neighborViews ↔ G.Adj a b) (hagrees : ∀ a, TableAgrees a (net a))
    (hknown : ∀ a b d c, Stored (net b).neighborViews a d c → d ∈ (net a).forwardingTable)
    (choices : Nat → RoundChoice) (hvalid : ∀ r, ValidChoice G (choices r)) :
    (∀ r : Nat, r ≤ 15 → ∀ b d, d ≠ b →
      (G.edist b d ≤ r → ∃ e, (runRounds choices net r b).forwardingTable.lookup d = some e ∧
        (e.cost.toNat : ℕ∞) = G.edist b d ∧ G.Adj b e.nextHop ∧
          G.edist e.nextHop d + 1 = G.edist b d) ∧
      (¬G.edist b d ≤ r → ∀ e, (runRounds choices net r b).forwardingTable.lookup d = some e →
        e.cost < infCost → r < e.cost.toNat)) ∧
    (∀ b d, d ≠ b → ∀ e, (runRounds choices net 15 b).forwardingTable.lookup d = some e →
      e.cost < infCost → (e.cost.toNat : ℕ∞) = G.edist b d ∧ G.Reachable b d) := by
  have hsync : Synced G net := ⟨hkeys, hagrees, hknown⟩
  constructor
  · intro r hr b d hd
    obtain ⟨hnear, hfar⟩ := (runRounds_exact hsync hvalid r hr).2 b d hd
    constructor
    · intro hle
      obtain ⟨c, h, hlive, hcost, hadj, hcloser⟩ := hnear hle
      obtain ⟨e, he, -, rfl, rfl⟩ := liveRoute_eq_some.mp hlive
      exact ⟨e, he, hcost, hadj, hcloser⟩
    · intro hgt e he hlt
      exact hfar hgt _ _ (liveRoute_eq_some.mpr ⟨e, he, lt_infCost_iff.mp hlt, rfl, rfl⟩)
  · intro b d hd e he hlt
    rw [lt_infCost_iff] at hlt
    have hlive := liveRoute_eq_some.mpr ⟨e, he, hlt, rfl, rfl⟩
    obtain ⟨hnear, hfar⟩ := (runRounds_exact hsync hvalid 15 le_rfl).2 b d hd
    have hle : G.edist b d ≤ (15 : ℕ) := by
      by_contra hgt
      have := hfar hgt _ _ hlive
      omega
    obtain ⟨c, h, hlive', hcost, -⟩ := hnear hle
    cases hlive.symm.trans hlive'
    exact ⟨hcost, SimpleGraph.reachable_of_edist_ne_top
      (ne_top_of_le_ne_top (ENat.natCast_ne_top 15) hle)⟩

/-- A router whose only neighbour still advertises the vanished node "z". -/
def staleRouter (self other : PeerId) : RouterState :=
  (RouterState.create self 0).processRoutingUpdate self (plainEnv 0) other (AList.singleton "z" 3)

/-- Two neighbours that route to "z" through each other. -/
def staleNet (x : PeerId) : RouterState :=
  if x = "a" then staleRouter "a" "b" else if x = "b" then staleRouter "b" "a"
    else RouterState.create x 0

def staleChoice : RoundChoice where
  emit _ := IterOrder.stored PeerId
  receive x := if x = "a" then [("b", plainEnv 0)] else if x = "b" then [("a", plainEnv 0)] else []

lemma staleRouter_stored {self other n d : PeerId} {c : UInt32}
    (h : Stored (staleRouter self other).neighborViews n d c) : n = other ∧ d = "z" := by
  rw [staleRouter, processRoutingUpdate_views, stored_insert] at h
  split_ifs at h with hn
  · refine ⟨hn, ?_⟩
    by_contra hd
    rw [lookup_updatedView, UMap.lookup_singleton_eq, if_neg hd] at h
    cases h
  · obtain ⟨view, hview, -⟩ := h
    cases hview

lemma staleRouter_keys (self other n : PeerId) :
    n ∈ (staleRouter self other).neighborViews ↔ n = other := by
  rw [staleRouter, processRoutingUpdate_views, AList.mem_insert]
  exact or_iff_left List.not_mem_nil

lemma staleNet_keys (a b : PeerId) :
    b ∈ (staleNet a).neighborViews ↔ (SimpleGraph.edge "a" "b").Adj a b := by
  rw [SimpleGraph.edge_adj]
  unfold staleNet
  split_ifs with ha hb
  · subst ha
    rw [staleRouter_keys]
    simp +contextual
  · subst hb
    rw [staleRouter_keys]
    simp +contextual
  · simp only [ha, hb, false_and, or_self, iff_false]
    exact List.not_mem_nil

lemma staleNet_agrees (a : PeerId) : TableAgrees a (staleNet a) := by
  unfold staleNet
  split_ifs with ha hb
  · subst ha
    exact processRoutingUpdate_agrees _ _ (create_agrees _ _) _ _
  · subst hb
    exact processRoutingUpdate_agrees _ _ (create_agrees _ _) _ _
  · exact create_agrees a 0

lemma staleNet_known {a b d : PeerId} {c : UInt32} (h : Stored (staleNet b).neighborViews a d c) :
    d ∈ (staleNet a).forwardingTable := by
  unfold staleNet at h
  split_ifs at h with hb hb'
  · obtain ⟨rfl, rfl⟩ := staleRouter_stored h
    decide
  · obtain ⟨rfl, rfl⟩ := staleRouter_stored h
    decide
  · obtain ⟨view, hview, -⟩ := h
    cases hview

lemma staleChoice_valid : ValidChoice (SimpleGraph.edge "a" "b") staleChoice := by
  intro b
  simp only [SimpleGraph.edge_adj, staleChoice]
  split_ifs with ha hb
  · subst ha
    simp +contextual
  · subst hb
    simp +contextual
  · simp [ha, hb]

theorem runRounds_converges_stale :
    liveRoute (runRounds (fun _ => staleChoice) staleNet 15 "a") "z" = none := by
  rw [Option.eq_none_iff_forall_ne_some]
  rintro ⟨c, h⟩ hlive
  obtain ⟨e, he, hlt, -, -⟩ := liveRoute_eq_some.mp hlive
  obtain ⟨-, ⟨walk⟩⟩ := (runRounds_converges (SimpleGraph.edge "a" "b") staleNet staleNet_keys
    staleNet_agrees
    (fun _ _ _ _ => staleNet_known) (fun _ => staleChoice) (fun _ => staleChoice_valid)).2 "a" "z"
    (by decide) e he
    (lt_infCost_iff.mpr hlt)
  have hadj := walk.reverse.adj_snd (SimpleGraph.Walk.not_nil_of_ne (by decide))
  rw [SimpleGraph.edge_adj] at hadj
  simp at hadj

end MeshNetwork.Proofs
