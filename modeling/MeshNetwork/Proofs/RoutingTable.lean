import MeshNetwork.Model.Router
import Mathlib.Tactic

/-!
# What recalculation computes

The forwarding table computed from the neighbour views, entry by entry: which costs compete for a
destination, which of them wins, and how the result is merged with the previous table.
-/

namespace MeshNetwork.Proofs

/-! ## Costs -/

lemma lt_infCost_iff {c : UInt32} : c < infCost ↔ c.toNat < 16 := UInt32.lt_iff_toNat_lt

lemma ge_infCost_iff {c : UInt32} : c ≥ infCost ↔ 16 ≤ c.toNat := UInt32.le_iff_toNat_le

lemma succ_toNat {c : UInt32} (h : c.toNat < 16) : (c + 1).toNat = c.toNat + 1 := by
  rw [UInt32.toNat_add, UInt32.toNat_one, Nat.mod_eq_of_lt (by omega)]

/-! ## Routes on offer -/

/-- The view of neighbour `n` stores the cost `c` for `d`. -/
def Stored (views : UMap PeerId NeighborView) (n d : PeerId) (c : UInt32) : Prop :=
  ∃ view, views.lookup n = some view ∧ view.advertisedRoutes.lookup d = some c

/-- The costs in the views are finite. -/
def StoredFinite (views : UMap PeerId NeighborView) : Prop :=
  ∀ n d c, Stored views n d c → c.toNat < 16

/-- Neighbour `n` gives a way to `d` of cost `c`. -/
def Candidate (views : UMap PeerId NeighborView) (d n : PeerId) (c : Nat) : Prop :=
  n = d ∧ d ∈ views ∧ c = 1 ∨ ∃ r : UInt32, Stored views n d r ∧ c = r.toNat + 1

/-- The routes that the nested loops of the recalculation run through. -/
def routeList (ord : IterOrder PeerId) (views : UMap PeerId NeighborView) :
    List (PeerId × PeerId × UInt32) :=
  (views.items ord 0).zipIdx.flatMap fun nvi =>
    (nvi.1.2.advertisedRoutes.items ord (4 + nvi.2)).map fun route => (nvi.1.1, route)

lemma mem_routeList (ord : IterOrder PeerId) (views : UMap PeerId NeighborView) (n d : PeerId)
    (c : UInt32) :
    (n, d, c) ∈ routeList ord views ↔ Stored views n d c := by
  unfold routeList Stored
  rw [List.mem_flatMap]
  constructor
  · rintro ⟨⟨⟨n', view⟩, i⟩, hi, hroute⟩
    obtain ⟨⟨d', c'⟩, hmem, heq⟩ := List.mem_map.mp hroute
    obtain ⟨rfl, rfl, rfl⟩ : n' = n ∧ d' = d ∧ c' = c := by simpa using heq
    have hview : (n', view) ∈ views.items ord 0 := by
      rw [List.mem_zipIdx_iff_getElem?] at hi
      exact List.mem_of_getElem? hi
    exact ⟨view, (UMap.mem_items ord 0 views n' view).mp hview, (UMap.mem_items _ _ _ _ _).mp hmem⟩
  · rintro ⟨view, hview, hroute⟩
    have hmem := (UMap.mem_items ord 0 views n view).mpr hview
    obtain ⟨i, hi, heq⟩ := List.getElem_of_mem hmem
    refine ⟨((n, view), i), List.mem_zipIdx_iff_getElem?.mpr ?_, ?_⟩
    · rw [List.getElem?_eq_getElem hi, heq]
    · exact List.mem_map.mpr ⟨(d, c), (UMap.mem_items _ _ _ _ _).mpr hroute, rfl⟩

lemma computeTable_eq (self : PeerId) (ord : IterOrder PeerId) (now : Time)
    (views : UMap PeerId NeighborView) :
    computeTable self ord now views = (routeList ord views).foldl
      (fun t o => offerRoute self now o.1 t o.2) (neighborTable self ord now views) := by
  unfold computeTable routeList
  rw [List.foldl_flatMap]
  congr 1
  funext t nvi
  rw [List.foldl_map]

lemma lookup_neighborTable (self : PeerId) (ord : IterOrder PeerId) (now : Time)
    (views : UMap PeerId NeighborView) (d : PeerId) :
    (neighborTable self ord now views).lookup d =
      if d ∈ views then some ⟨d, 1, true, now⟩
      else if d = self then some ⟨self, 0, false, now⟩ else none := by
  unfold neighborTable
  rw [UMap.get_foldl_items (enterNeighbor now) (fun t d => t.lookup d)
    (fun a _ _ => some ⟨a, 1, true, now⟩) (fun t a _ => AList.lookup_insert t)
    (fun t a _ a' h => AList.lookup_insert_ne h)]
  cases hv : views.lookup d with
  | none =>
    have hmem : d ∉ views := by
      rw [UMap.mem_iff_lookup, hv]
      simp
    rw [if_neg hmem, Option.elim_none, UMap.lookup_singleton_eq]
  | some v =>
    have hmem : d ∈ views := (UMap.mem_iff_lookup views d).mpr ⟨v, hv⟩
    rw [if_pos hmem, Option.elim_some]

/-! ## The best route -/

lemma lookup_offerRoute_of_ne (self : PeerId) (now : Time) (n : PeerId) (t : UMap PeerId RouteEntry)
    (route : PeerId × UInt32) {d : PeerId} (hd : d ≠ route.1) :
    (offerRoute self now n t route).lookup d = t.lookup d := by
  unfold offerRoute
  dsimp only
  split_ifs
  · rfl
  · rfl
  · cases t.lookup route.1 with
    | none => exact AList.lookup_insert_ne hd
    | some e =>
      dsimp only
      split_ifs
      · exact AList.lookup_insert_ne hd
      · rfl

lemma lookup_offerRoute_self (self : PeerId) (now : Time) (n : PeerId) (t : UMap PeerId RouteEntry)
    {d : PeerId} (hd : d ≠ self) {c : UInt32} (hc : c.toNat < 16) :
    (offerRoute self now n t (d, c)).lookup d =
      if c.toNat < 15 ∧ ∀ e, t.lookup d = some e → c.toNat + 1 < e.cost.toNat then
        some ⟨n, c + 1, true, now⟩
      else t.lookup d := by
  have hsucc := succ_toNat hc
  have hge : c + 1 ≥ infCost ↔ ¬c.toNat < 15 := by
    rw [ge_infCost_iff, hsucc]
    omega
  unfold offerRoute
  rw [if_neg hd]
  dsimp only
  by_cases hinf : c + 1 ≥ infCost
  · rw [if_pos hinf, if_neg (fun h => hge.mp hinf h.1)]
  · have hsmall : c.toNat < 15 := by rwa [hge, not_not] at hinf
    rw [if_neg hinf]
    cases hl : t.lookup d with
    | none =>
      rw [if_pos ⟨hsmall, fun e he => by cases he⟩]
      exact AList.lookup_insert _
    | some e =>
      dsimp only
      by_cases hlt : c.toNat + 1 < e.cost.toNat
      · rw [if_pos (by rw [UInt32.lt_iff_toNat_lt, hsucc]; exact hlt),
          if_pos ⟨hsmall, fun e' he' => Option.some.inj he' ▸ hlt⟩]
        exact AList.lookup_insert _
      · rw [if_neg (by rw [UInt32.lt_iff_toNat_lt, hsucc]; exact hlt),
          if_neg (fun h => hlt (h.2 e rfl)), hl]

/-- The entry of `d` after the routes of `l` have been offered to a table with entry `old`. -/
inductive OfferOutcome (now : Time) (d : PeerId) (l : List (PeerId × PeerId × UInt32))
    (old : Option RouteEntry) :
    Option RouteEntry → Prop
  | kept : (∀ n c, (n, d, c) ∈ l → 15 ≤ c.toNat ∨ ∃ e, old = some e ∧ e.cost.toNat ≤ c.toNat + 1) →
      OfferOutcome now d l old old
  | replaced (n : PeerId) (c : UInt32) : (n, d, c) ∈ l → c.toNat < 15 →
      (∀ e, old = some e → c.toNat + 1 < e.cost.toNat) →
        (∀ n' c', (n', d, c') ∈ l → c.toNat ≤ c'.toNat) →
      OfferOutcome now d l old (some ⟨n, c + 1, true, now⟩)

lemma mem_snoc {d n n' : PeerId} {c c' : UInt32} {l : List (PeerId × PeerId × UInt32)}
    (h : (n', d, c') ∈ l ++ [(n, d, c)]) : (n', d, c') ∈ l ∨ c' = c := by
  rcases List.mem_append.mp h with h | h
  · exact .inl h
  · right
    rw [List.mem_singleton] at h
    cases h
    rfl

/-- A cheaper route takes the place of the entry. -/
lemma OfferOutcome.better {now : Time} {d : PeerId} {l : List (PeerId × PeerId × UInt32)}
    {old new : Option RouteEntry} (h : OfferOutcome now d l old new) (n : PeerId) {c : UInt32}
    (hc : c.toNat < 15) (hlt : ∀ e, new = some e → c.toNat + 1 < e.cost.toNat) :
    OfferOutcome now d (l ++ [(n, d, c)]) old (some ⟨n, c + 1, true, now⟩) := by
  cases h with
  | kept hall =>
    refine .replaced n c (List.mem_append_right _ (List.mem_singleton_self _)) hc hlt
      fun n' c' hmem => ?_
    rcases mem_snoc hmem with hmem | rfl
    · rcases hall n' c' hmem with hbig | ⟨e, he, hle⟩
      · omega
      · have := hlt e he
        omega
    · exact le_rfl
  | replaced n₀ c₀ _ hc₀ hold hmin =>
    have hnew := hlt _ rfl
    rw [succ_toNat (by omega)] at hnew
    refine .replaced n c (List.mem_append_right _ (List.mem_singleton_self _)) hc ?_
      fun n' c' hmem => ?_
    · intro e he
      exact lt_trans hnew (hold e he)
    · rcases mem_snoc hmem with hmem | rfl
      · have := hmin n' c' hmem
        omega
      · exact le_rfl

/-- Any other route leaves the entry as it is. -/
lemma OfferOutcome.worse {now : Time} {d : PeerId} {l : List (PeerId × PeerId × UInt32)}
    {old new : Option RouteEntry} (h : OfferOutcome now d l old new) (n : PeerId) {c : UInt32}
    (hle : ¬(c.toNat < 15 ∧ ∀ e, new = some e → c.toNat + 1 < e.cost.toNat)) :
    OfferOutcome now d (l ++ [(n, d, c)]) old new := by
  have hcases : 15 ≤ c.toNat ∨ ∃ e, new = some e ∧ e.cost.toNat ≤ c.toNat + 1 := by
    by_contra! hno
    exact hle ⟨hno.1, hno.2⟩
  cases h with
  | kept hall =>
    refine .kept fun n' c' hmem => ?_
    rcases mem_snoc hmem with hmem | rfl
    · exact hall n' c' hmem
    · exact hcases
  | replaced n₀ c₀ hmem₀ hc₀ hold hmin =>
    refine .replaced n₀ c₀ (List.mem_append_left _ hmem₀) hc₀ hold fun n' c' hmem => ?_
    rcases mem_snoc hmem with hmem | rfl
    · exact hmin n' c' hmem
    · rcases hcases with hbig | ⟨e, he, hcost⟩
      · omega
      · cases he
        rw [succ_toNat (by omega)] at hcost
        omega

lemma OfferOutcome.other {now : Time} {d d' : PeerId} (hd : d ≠ d')
    {l : List (PeerId × PeerId × UInt32)} {old new : Option RouteEntry}
    (h : OfferOutcome now d l old new) (n : PeerId) (c : UInt32) :
    OfferOutcome now d (l ++ [(n, d', c)]) old new := by
  have hsame : ∀ n' c', (n', d, c') ∈ l ++ [(n, d', c)] → (n', d, c') ∈ l := by
    intro n' c' hmem
    rcases List.mem_append.mp hmem with hmem | hmem
    · exact hmem
    · rw [List.mem_singleton] at hmem
      cases hmem
      exact absurd rfl hd
  cases h with
  | kept hall => exact .kept fun n' c' hmem => hall n' c' (hsame n' c' hmem)
  | replaced n₀ c₀ hmem hc hold hmin =>
    exact .replaced n₀ c₀ (List.mem_append_left _ hmem) hc hold fun n' c' h =>
      hmin n' c' (hsame n' c' h)

/-- Offering routes one after the other keeps the first of the cheapest. -/
lemma offer_fold (self : PeerId) (now : Time) {d : PeerId} (hd : d ≠ self)
    (l : List (PeerId × PeerId × UInt32)) (t : UMap PeerId RouteEntry)
    (hl : ∀ o ∈ l, o.2.2.toNat < 16) :
    OfferOutcome now d l (t.lookup d) ((l.foldl (fun t o => offerRoute self now o.1 t o.2)
      t).lookup d) := by
  induction l using List.reverseRecOn with
  | nil => exact .kept fun n c hmem => absurd hmem List.not_mem_nil
  | append_singleton l o ih =>
    have hprev := ih fun o' ho' => hl o' (List.mem_append_left _ ho')
    have hlt := hl o (List.mem_append_right _ (List.mem_singleton_self o))
    rw [List.foldl_append, List.foldl_cons, List.foldl_nil]
    generalize l.foldl (fun t o => offerRoute self now o.1 t o.2) t = t' at hprev ⊢
    obtain ⟨n, d', c⟩ := o
    by_cases hdd : d = d'
    · subst hdd
      rw [lookup_offerRoute_self self now n t' hd hlt]
      split_ifs with hbetter
      · exact hprev.better n hbetter.1 hbetter.2
      · exact hprev.worse n hbetter
    · rw [lookup_offerRoute_of_ne self now n t' (d', c) hdd]
      exact hprev.other hdd n c

/-- The entry that recalculation finds for a destination other than `self`. -/
inductive Best (now : Time) (views : UMap PeerId NeighborView) (d : PeerId) :
    Option RouteEntry → Prop
  | neighbor : d ∈ views → Best now views d (some ⟨d, 1, true, now⟩)
  | learned (n : PeerId) (c : UInt32) : d ∉ views → Stored views n d c → c.toNat < 15 →
      (∀ n' c', Stored views n' d c' → c.toNat ≤ c'.toNat) →
        Best now views d (some ⟨n, c + 1, true, now⟩)
  | unreachable : d ∉ views → (∀ n c, Stored views n d c → 15 ≤ c.toNat) → Best now views d none

theorem computeTable_best (self : PeerId) (ord : IterOrder PeerId) (now : Time)
    {views : UMap PeerId NeighborView} (hfin : StoredFinite views) {d : PeerId} (hd : d ≠ self) :
    Best now views d ((computeTable self ord now views).lookup d) := by
  have hlist : ∀ o ∈ routeList ord views, o.2.2.toNat < 16 :=
    fun o ho => hfin o.1 o.2.1 o.2.2 ((mem_routeList ord views o.1 o.2.1 o.2.2).mp ho)
  have hout := offer_fold self now hd (routeList ord views) (neighborTable self ord now views) hlist
  rw [← computeTable_eq, lookup_neighborTable] at hout
  by_cases hmem : d ∈ views
  · rw [if_pos hmem] at hout
    generalize (computeTable self ord now views).lookup d = new at hout ⊢
    cases hout with
    | kept _ => exact .neighbor hmem
    | replaced n c _ _ hold _ => exact absurd (hold _ rfl) (by simp)
  · rw [if_neg hmem, if_neg hd] at hout
    generalize (computeTable self ord now views).lookup d = new at hout ⊢
    cases hout with
    | kept hall =>
      refine .unreachable hmem fun n c hc => ?_
      rcases hall n c ((mem_routeList ord views n d c).mpr hc) with hbig | ⟨e, he, -⟩
      · exact hbig
      · cases he
    | replaced n c hin hc _ hmin =>
      exact .learned n c hmem ((mem_routeList ord views n d c).mp hin) hc
        fun n' c' hc' => hmin n' c' ((mem_routeList ord views n' d c').mpr hc')

/-- The entry of the router itself is not open to offers. -/
lemma lookup_computeTable_self (self : PeerId) (ord : IterOrder PeerId) (now : Time)
    (views : UMap PeerId NeighborView) :
    (computeTable self ord now views).lookup self =
      some (if self ∈ views then ⟨self, 1, true, now⟩ else ⟨self, 0, false, now⟩) := by
  have hfold : ∀ (l : List (PeerId × PeerId × UInt32)) (t : UMap PeerId RouteEntry),
      (l.foldl (fun t o => offerRoute self now o.1 t o.2) t).lookup self = t.lookup self := by
    intro l
    induction l with
    | nil => exact fun t => rfl
    | cons o l ih =>
      intro t
      rw [List.foldl_cons, ih]
      by_cases hd : self = o.2.1
      · unfold offerRoute
        rw [if_pos hd.symm]
      · exact lookup_offerRoute_of_ne self now o.1 t o.2 hd
  rw [computeTable_eq, hfold, lookup_neighborTable, if_pos rfl]
  split_ifs <;> rfl

/-! ## Merging with the previous table -/

/-- What becomes of an entry when the computed table is merged into the forwarding table. -/
def mergedEntry (now : Time) : Option RouteEntry → Option RouteEntry → Option RouteEntry
  | some new, none => some { new with dirty := true, lastUpdated := now }
  | some new, some old =>
    if old.cost ≠ new.cost ∨ old.nextHop ≠ new.nextHop then
      some { old with cost := new.cost, nextHop := new.nextHop, lastUpdated := now, dirty := true }
    else some old
  | none, none => none
  | none, some old =>
    if old.cost < infCost then some { old with cost := infCost, dirty := true, lastUpdated := now }
    else some old

lemma lookup_merge (ord : IterOrder PeerId) (now : Time) (newTable table : UMap PeerId RouteEntry)
    (d : PeerId) :
    ((newTable.items ord 1).foldl (mergeRoute now) (table, false)).1.lookup d =
      (newTable.lookup d).elim (table.lookup d) fun new => mergedEntry now (some new)
        (table.lookup d) := by
  refine UMap.get_foldl_items (mergeRoute now) (fun acc d => acc.1.lookup d)
    (fun _ old new => mergedEntry now (some new) old) ?_ ?_ ord 1 newTable (table, false) d
  · intro acc a new
    dsimp only [mergeRoute]
    cases hold : acc.1.lookup a with
    | none => exact AList.lookup_insert _
    | some old =>
      dsimp only [mergedEntry]
      split_ifs
      · exact AList.lookup_insert _
      · exact hold
  · intro acc a new a' ha
    dsimp only [mergeRoute]
    cases acc.1.lookup a with
    | none => exact AList.lookup_insert_ne ha
    | some old =>
      dsimp only
      split_ifs
      · exact AList.lookup_insert_ne ha
      · rfl

lemma lookup_markLost (ord : IterOrder PeerId) (now : Time) (newTable : UMap PeerId RouteEntry)
    (merged : UMap PeerId RouteEntry × Bool) (d : PeerId) :
    ((merged.1.items ord 2).foldl (markLost newTable now) merged).1.lookup d =
      (merged.1.lookup d).elim (merged.1.lookup d) fun e =>
        if d ∉ newTable ∧ e.cost < infCost then
          some { e with cost := infCost, dirty := true, lastUpdated := now }
        else merged.1.lookup d := by
  refine UMap.get_foldl_items (markLost newTable now) (fun acc d => acc.1.lookup d)
    (fun a cur e => if a ∉ newTable ∧ e.cost < infCost then
      some { e with cost := infCost, dirty := true, lastUpdated := now } else cur) ?_ ?_ ord 2
        merged.1 merged d
  · intro acc a e
    dsimp only [markLost]
    split_ifs
    · exact AList.lookup_insert _
    · rfl
  · intro acc a e a' ha
    dsimp only [markLost]
    split_ifs
    · exact AList.lookup_insert_ne ha
    · rfl

lemma recalculate_views (self : PeerId) (env : StepEnv) (now : Time) (s : RouterState) :
    (s.recalculateForwardingTable self env now).neighborViews = s.neighborViews := by
  unfold RouterState.recalculateForwardingTable
  dsimp only
  split_ifs <;> rfl

/-- The forwarding table after a recalculation, entry by entry. -/
theorem lookup_recalculate (self : PeerId) (env : StepEnv) (now : Time) (s : RouterState)
    (d : PeerId) :
    (s.recalculateForwardingTable self env now).forwardingTable.lookup d =
      mergedEntry now ((computeTable self env.order now s.neighborViews).lookup d)
        (s.forwardingTable.lookup d) := by
  have htable : (s.recalculateForwardingTable self env now).forwardingTable =
      (((((computeTable self env.order now s.neighborViews).items env.order 1).foldl
        (mergeRoute now) (s.forwardingTable, false)).1.items env.order 2).foldl
          (markLost (computeTable self env.order now s.neighborViews) now)
          (((computeTable self env.order now s.neighborViews).items env.order 1).foldl
            (mergeRoute now) (s.forwardingTable, false))).1 := by
    unfold RouterState.recalculateForwardingTable
    dsimp only
    split_ifs <;> rfl
  rw [htable, lookup_markLost, lookup_merge]
  generalize computeTable self env.order now s.neighborViews = newTable
  cases hnew : newTable.lookup d with
  | none =>
    have hmem : d ∉ newTable := by
      rw [UMap.mem_iff_lookup, hnew]
      simp
    cases hold : s.forwardingTable.lookup d with
    | none => rfl
    | some old =>
      dsimp only [Option.elim, mergedEntry]
      by_cases hlive : old.cost < infCost
      · rw [if_pos ⟨hmem, hlive⟩, if_pos hlive]
      · rw [if_neg (fun h => hlive h.2), if_neg hlive]
  | some new =>
    have hmem : d ∈ newTable := (UMap.mem_iff_lookup newTable d).mpr ⟨new, hnew⟩
    dsimp only [Option.elim]
    cases hentry : mergedEntry now (some new) (s.forwardingTable.lookup d) with
    | none => rfl
    | some e => exact if_neg fun h => h.1 hmem

end MeshNetwork.Proofs
