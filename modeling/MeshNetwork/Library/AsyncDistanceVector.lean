import MeshNetwork.Library.DistanceVector
import Mathlib.Logic.Relation

/-!
# Distance vectors over FIFO channels

Updates travel from node to node in order while links are added. Costs only drop, and every cost
that a node has been told, or is about to be told, is still met by the node that told it.
-/

namespace DistanceVector

variable {V : Type*}

/-- What an update says of a destination: a cost, or `none` if the route is withdrawn. -/
abbrev Signal := Option ℕ

/-- Nodes with the neighbours they know, what they were told, their tables and the updates in
flight; `channel n b` holds the updates from `n` to `b`, oldest first. -/
structure AsyncState (V : Type*) where
  linked : V → V → Prop
  view : V → V → V → Option ℕ
  table : Table V
  channel : V → V → List (V → Option Signal)

namespace AsyncState

variable {bound : ℕ} {st st' : AsyncState V}

/-- Neighbour `n` of `b` gives a way to `d` of cost `c`. -/
def Offers (st : AsyncState V) (b d n : V) (c : ℕ) : Prop :=
  n = d ∧ st.linked b d ∧ c = 1 ∨ ∃ v, st.view b n d = some v ∧ c = v + 1

/-- The table of `b` holds the best offers below `bound`. -/
structure Settled (bound : ℕ) (st : AsyncState V) (b : V) : Prop where
  own : st.table b b = some (0, b)
  best : ∀ d, d ≠ b → ∀ c h, st.table b d = some (c, h) →
    st.Offers b d h c ∧ (∀ n c', st.Offers b d n c' → c ≤ c') ∧ c < bound
  found : ∀ d, d ≠ b → ∀ n c, st.Offers b d n c → c < bound → ∃ c' h, st.table b d = some (c', h)

/-- Node `b` has a route to `d` of cost at most `u`. -/
def CostLe (st : AsyncState V) (b d : V) (u : ℕ) : Prop :=
  ∃ c h, st.table b d = some (c, h) ∧ c ≤ u

/-! ## The invariant -/

/-- All that `b` holds or will be told by `n` about `d`, oldest first. -/
def signals (st : AsyncState V) (b n d : V) : List Signal :=
  ((st.view b n d).map some).toList ++ (st.channel n b).filterMap fun msg => msg d

/-- A later signal never raises the cost, and withdraws only a cost that `b` has reached without
it. -/
def Follows (st : AsyncState V) (b d : V) : Signal → Signal → Prop
  | none, _ => True
  | some u, some v => v ≤ u
  | some u, none => st.CostLe b d u

structure Consistent (bound : ℕ) (st : AsyncState V) : Prop where
  settled : ∀ b, st.Settled bound b
  backed : ∀ b n d v, some v ∈ st.signals b n d → st.CostLe n d v
  ordered : ∀ b n d, (st.signals b n d).Pairwise (st.Follows b d)

/-- No cost rises. -/
def Improves (st st' : AsyncState V) : Prop :=
  ∀ b d u, st.CostLe b d u → st'.CostLe b d u

lemma Follows.mono (h : Improves st st') {b d : V} {x y : Signal} (hf : st.Follows b d x y) :
    st'.Follows b d x y := by
  cases x with
  | none => trivial
  | some u =>
    cases y with
    | none => exact h b d u hf
    | some v => exact hf

lemma view_mem_signals {b n d : V} {v : ℕ} (h : st.view b n d = some v) :
    some v ∈ st.signals b n d := by
  unfold signals
  rw [h]
  exact List.mem_append_left _ (List.mem_singleton_self _)

/-- Better offers give a better table. -/
lemma Settled.costLe {b d : V} {n : V} {c u : ℕ} (h : st.Settled bound b) (hd : d ≠ b)
    (hoffer : st.Offers b d n c) (hc : c ≤ u) (hu : u < bound) : st.CostLe b d u := by
  obtain ⟨c', hop, htable⟩ := h.found d hd n c hoffer (by omega)
  exact ⟨c', hop, htable, ((h.best d hd c' hop htable).2.1 n c hoffer).trans hc⟩

/-- What is in flight or stored after a step was so before it. -/
lemma Consistent.of_sublist (h : Consistent bound st) (himp : Improves st st')
    (hset : ∀ b, st'.Settled bound b)
    (hsub : ∀ b n d, (st'.signals b n d).Sublist (st.signals b n d)) : Consistent bound st' where
  settled := hset
  backed b n d v hv := himp n d v (h.backed b n d v ((hsub b n d).subset hv))
  ordered b n d := ((h.ordered b n d).sublist (hsub b n d)).imp (Follows.mono himp)

/-- The next hop is closer to the destination. -/
theorem Consistent.closer (h : Consistent bound st) {b d n : V} {c : ℕ} (hd : d ≠ b)
    (htable : st.table b d = some (c, n)) : ∃ c' h', st.table n d = some (c', h') ∧ c' + 1 ≤ c := by
  rcases ((h.settled b).best d hd c n htable).1 with ⟨rfl, -, rfl⟩ | ⟨v, hview, rfl⟩
  · exact ⟨0, n, (h.settled n).own, le_rfl⟩
  · obtain ⟨c', h', htable', hle⟩ := h.backed b n d v (view_mem_signals hview)
    exact ⟨c', h', htable', by omega⟩

/-! ## Steps -/

section Steps

variable [DecidableEq V]

/-- What `n` tells `b` about `d`: routes through `b` are withdrawn. -/
def told (st : AsyncState V) (n b d : V) : Signal :=
  match st.table n d with
  | some (c, h) => if h = b then none else some c
  | none => none

lemma told_of_some {n b d h : V} {c : ℕ} (htable : st.table n d = some (c, h)) :
    st.told n b d = if h = b then none else some c := by
  unfold told
  rw [htable]

lemma told_of_none {n b d : V} (htable : st.table n d = none) : st.told n b d = none := by
  unfold told
  rw [htable]

/-- What `b` holds of `n` about one destination once it was told `sig`. -/
def heard (old : Option ℕ) : Option Signal → Option ℕ
  | none => old
  | some sig => sig

/-- Node `b` learns of its neighbour `n` and of the routes in `msg`. -/
structure Hears (bound : ℕ) (st st' : AsyncState V) (b n : V) (msg : V → Option Signal) : Prop where
  linked : ∀ x y, st'.linked x y ↔ st.linked x y ∨ x = b ∧ y = n
  view : ∀ x y d, st'.view x y d = if x = b ∧ y = n then heard (st.view b n d) (msg d)
    else st.view x y d
  table : ∀ x, x ≠ b → st'.table x = st.table x
  settled : st'.Settled bound b

inductive Step (bound : ℕ) : AsyncState V → AsyncState V → Prop
  | link {st st' : AsyncState V} (b n : V) (hears : Hears bound st st' b n fun _ => none)
      (channel : st'.channel = st.channel) : Step bound st st'
  | send {st : AsyncState V} (n b : V) (msg : V → Option Signal)
      (told : ∀ d sig, msg d = some sig → sig = st.told n b d) :
      Step bound st
        { st with
          channel := fun x y => if x = n ∧ y = b then st.channel x y ++ [msg] else st.channel x y }
  | deliver {st st' : AsyncState V} (n b : V) (msg : V → Option Signal)
      (rest : List (V → Option Signal))
      (head : st.channel n b = msg :: rest) (hears : Hears bound st st' b n msg)
      (channel : ∀ x y, st'.channel x y = if x = n ∧ y = b then rest else st.channel x y) :
      Step bound st st'

/-- The best route of `b` is offered again, or a better one is, after `b` has heard `n`. -/
lemma Hears.offers {b n d : V} {msg : V → Option Signal} (hx : Hears bound st st' b n msg)
    (hset : st.Settled bound b) (hd : d ≠ b)
    (hmsg : ∀ u sig, st.view b n d = some u → msg d = some sig → st.Follows b d (some u) sig)
    {c : ℕ} {h : V} (htable : st.table b d = some (c, h)) : ∃ c', st'.Offers b d h c' ∧ c' ≤ c := by
  rcases (hset.best d hd c h htable).1 with ⟨rfl, hlink, rfl⟩ | ⟨v, hview, rfl⟩
  · exact ⟨1, .inl ⟨rfl, (hx.linked b h).mpr (.inl hlink), rfl⟩, le_rfl⟩
  · have hnew := hx.view b h d
    by_cases hn : h = n
    · subst hn
      rw [if_pos ⟨rfl, rfl⟩] at hnew
      cases hm : msg d with
      | none =>
        rw [hm] at hnew
        exact ⟨v + 1, .inr ⟨v, hnew.trans hview, rfl⟩, le_rfl⟩
      | some sig =>
        have hfollows := hmsg v sig hview hm
        rw [hm] at hnew
        cases sig with
        | none =>
          -- the withdrawn route is not the best one
          obtain ⟨c', h', htable', hle⟩ := hfollows
          rw [htable] at htable'
          cases htable'
          omega
        | some w =>
          have hle : w ≤ v := hfollows
          exact ⟨w + 1, .inr ⟨w, hnew, rfl⟩, by omega⟩
    · rw [if_neg fun hand => hn hand.2] at hnew
      exact ⟨v + 1, .inr ⟨v, hnew.trans hview, rfl⟩, le_rfl⟩

lemma Hears.improves {b n : V} {msg : V → Option Signal} (hx : Hears bound st st' b n msg)
    (hset : st.Settled bound b)
    (hmsg : ∀ d u sig, st.view b n d = some u → msg d = some sig → st.Follows b d (some u) sig) :
    Improves st st' := by
  rintro x d u ⟨c, h, htable, hle⟩
  by_cases hxb : x = b
  · subst hxb
    by_cases hd : d = x
    · subst hd
      exact ⟨0, d, hx.settled.own, Nat.zero_le u⟩
    · obtain ⟨c', hoffer, hc'⟩ := hx.offers hset hd (hmsg d) htable
      obtain ⟨c₁, h₁, htable₁, hle₁⟩ :=
        hx.settled.costLe hd hoffer hc' (hset.best d hd c h htable).2.2
      exact ⟨c₁, h₁, htable₁, hle₁.trans hle⟩
  · refine ⟨c, h, ?_, hle⟩
    rw [hx.table x hxb]
    exact htable

lemma Hears.settled_all {b n : V} {msg : V → Option Signal} (hx : Hears bound st st' b n msg)
    (hset : ∀ x, st.Settled bound x) (x : V) : st'.Settled bound x := by
  by_cases hxb : x = b
  · rw [hxb]
    exact hx.settled
  · have hoffers : ∀ d m c, st'.Offers x d m c ↔ st.Offers x d m c := by
      intro d m c
      unfold Offers
      rw [hx.view x m d, if_neg fun hand => hxb hand.1, hx.linked x d]
      simp only [hxb, false_and, or_false]
    constructor
    · rw [hx.table x hxb]
      exact (hset x).own
    · simp only [hx.table x hxb, hoffers]
      exact (hset x).best
    · simp only [hx.table x hxb, hoffers]
      exact (hset x).found

lemma signals_deliver {b n : V} {msg : V → Option Signal} {rest : List (V → Option Signal)}
    (head : st.channel n b = msg :: rest) (hx : Hears bound st st' b n msg)
    (channel : ∀ x y, st'.channel x y = if x = n ∧ y = b then rest else st.channel x y)
    (x y d : V) :
    (st'.signals x y d).Sublist (st.signals x y d) := by
  unfold signals
  rw [hx.view, channel]
  by_cases hxy : x = b ∧ y = n
  · obtain ⟨rfl, rfl⟩ := hxy
    rw [if_pos ⟨rfl, rfl⟩, if_pos ⟨rfl, rfl⟩, head, List.filterMap_cons]
    cases msg d with
    | none => exact List.Sublist.refl _
    | some sig =>
      refine List.Sublist.trans ?_ (List.sublist_append_right ..)
      cases sig with
      | none => exact List.sublist_cons_self ..
      | some v => exact List.Sublist.refl _
  · rw [if_neg hxy, if_neg fun hand => hxy hand.symm]

/-- What `n` tells `b` follows all that it has told `b` before. -/
lemma Consistent.told_follows (h : Consistent bound st) {n b d : V} {x : Signal}
    (hx : x ∈ st.signals b n d) : st.Follows b d x (st.told n b d) := by
  cases x with
  | none => trivial
  | some u =>
    obtain ⟨c, hop, htable, hle⟩ := h.backed b n d u hx
    rw [told_of_some htable]
    split_ifs with hhop
    · subst hhop
      change st.CostLe hop d u
      by_cases hdb : d = hop
      · subst hdb
        exact ⟨0, d, (h.settled d).own, Nat.zero_le u⟩
      by_cases hdn : d = n
      · subst hdn
        rw [(h.settled d).own] at htable
        cases htable
        exact absurd rfl hdb
      rcases ((h.settled n).best d hdn c hop htable).1 with ⟨rfl, -, -⟩ | ⟨v, hview, rfl⟩
      · exact absurd rfl hdb
      · obtain ⟨c', h', htable', hle'⟩ := h.backed n hop d v (view_mem_signals hview)
        exact ⟨c', h', htable', by omega⟩
    · exact hle

lemma signals_send {n b : V} {msg : V → Option Signal} (x y d : V) :
    { st with
      channel := fun x y =>
        if x = n ∧ y = b then st.channel x y ++ [msg] else st.channel x y }.signals
        x y d = st.signals x y d ++ if y = n ∧ x = b then (msg d).toList else [] := by
  unfold signals
  dsimp only
  split_ifs with h
  · rw [List.filterMap_append, ← List.append_assoc]
    congr 1
  · rw [List.append_nil]

lemma Consistent.send (h : Consistent bound st) {n b : V} {msg : V → Option Signal}
    (htold : ∀ d sig, msg d = some sig → sig = st.told n b d) :
    Consistent bound
      { st with
        channel := fun x y =>
          if x = n ∧ y = b then st.channel x y ++ [msg] else st.channel x y } := by
  constructor
  · intro x
    exact ⟨(h.settled x).own, (h.settled x).best, (h.settled x).found⟩
  · intro x y d v hv
    rw [signals_send] at hv
    rcases List.mem_append.mp hv with hold | hnew
    · exact h.backed x y d v hold
    · split_ifs at hnew with hxy
      · obtain ⟨rfl, rfl⟩ := hxy
        have hsig := htold d _ (Option.mem_toList.mp hnew)
        cases htable : st.table y d with
        | none =>
          rw [told_of_none htable] at hsig
          cases hsig
        | some route =>
          obtain ⟨c, hop⟩ := route
          rw [told_of_some htable] at hsig
          split_ifs at hsig
          cases hsig
          exact ⟨v, hop, htable, le_rfl⟩
      · exact absurd hnew List.not_mem_nil
  · intro x y d
    rw [signals_send, List.pairwise_append]
    refine ⟨h.ordered x y d, ?_, ?_⟩
    · split_ifs
      · cases msg d with
        | none => exact List.Pairwise.nil
        | some sig => exact List.pairwise_singleton ..
      · exact List.Pairwise.nil
    · intro u hu sig hsig
      split_ifs at hsig with hxy
      · obtain ⟨rfl, rfl⟩ := hxy
        rw [htold d sig (Option.mem_toList.mp hsig)]
        exact h.told_follows hu
      · exact absurd hsig List.not_mem_nil

/-- One step keeps the invariant and raises no cost. -/
theorem Step.consistent (hstep : Step bound st st') (h : Consistent bound st) :
    Consistent bound st' ∧ Improves st st' := by
  cases hstep with
  | link b n hears channel =>
    have himp : Improves st st' := hears.improves (h.settled b) fun d u sig _ hsig => by cases hsig
    refine ⟨h.of_sublist himp (hears.settled_all h.settled) fun x y d => ?_, himp⟩
    unfold signals
    rw [hears.view, channel]
    split_ifs with hxy
    · obtain ⟨rfl, rfl⟩ := hxy
      exact List.Sublist.refl _
    · exact List.Sublist.refl _
  | send n b msg told => exact ⟨h.send told, fun _ _ _ hcost => hcost⟩
  | deliver n b msg rest head hears channel =>
    have himp : Improves st st' := by
      refine hears.improves (h.settled b) fun d u sig hview hsig => ?_
      have hord := h.ordered b n d
      unfold signals at hord
      rw [List.pairwise_append] at hord
      refine hord.2.2 (some u) ?_ sig ?_
      · rw [hview]
        exact List.mem_singleton_self _
      · rw [head, List.filterMap_cons, hsig]
        exact List.mem_cons_self
    exact ⟨h.of_sublist himp (hears.settled_all h.settled)
      (signals_deliver head hears channel), himp⟩

theorem steps_consistent (hsteps : Relation.ReflTransGen (Step bound) st st')
    (h : Consistent bound st) :
    Consistent bound st' ∧ Improves st st' := by
  induction hsteps with
  | refl => exact ⟨h, fun _ _ _ hcost => hcost⟩
  | tail _ hstep ih =>
    obtain ⟨hcons, himp⟩ := ih
    obtain ⟨hcons', himp'⟩ := hstep.consistent hcons
    exact ⟨hcons', fun b d u hcost => himp' b d u (himp b d u hcost)⟩

end Steps

end AsyncState

/-! ## Chains of next hops -/

section Chains

variable {T : Table V} {d : V}

/-- Node `b` sends packets for `d` to `n`. -/
def Hop (T : Table V) (d b n : V) : Prop :=
  d ≠ b ∧ ∃ c, T b d = some (c, n)

/-- Each hop towards `d` lowers the cost. -/
def Descends (T : Table V) (d : V) : Prop :=
  ∀ b c n, d ≠ b → T b d = some (c, n) → ∃ c' h', T n d = some (c', h') ∧ c' + 1 ≤ c

/-- Following the hops from `b` leads to `d` in `k` steps. -/
inductive Reaches (T : Table V) (d : V) : ℕ → V → Prop
  | arrived : Reaches T d 0 d
  | hop {k : ℕ} {b n : V} (h : Hop T d b n) (rest : Reaches T d k n) : Reaches T d (k + 1) b

lemma Descends.transGen (hT : Descends T d) {b n : V} (h : Relation.TransGen (Hop T d) b n) :
    ∀ c h', T b d = some (c, h') → ∃ c' h'', T n d = some (c', h'') ∧ c' < c := by
  induction h with
  | single hop =>
    obtain ⟨hd, c₀, htable⟩ := hop
    intro c h' hb
    rw [htable] at hb
    cases hb
    obtain ⟨c', h'', hn, hlt⟩ := hT _ _ _ hd htable
    exact ⟨c', h'', hn, by omega⟩
  | tail _ hop ih =>
    intro c h' hb
    obtain ⟨c', h'', hmid, hlt⟩ := ih c h' hb
    obtain ⟨hd, c₀, htable⟩ := hop
    rw [hmid] at htable
    cases htable
    obtain ⟨c₁, h₁, hn, hlt₁⟩ := hT _ _ _ hd hmid
    exact ⟨c₁, h₁, hn, by omega⟩

/-- The next hops contain no cycle. -/
theorem Descends.acyclic (hT : Descends T d) (b : V) : ¬Relation.TransGen (Hop T d) b b := by
  intro h
  obtain ⟨n, ⟨-, c, htable⟩, -⟩ := Relation.TransGen.head'_iff.mp h
  obtain ⟨c', h', htable', hlt⟩ := hT.transGen h c n htable
  rw [htable] at htable'
  cases htable'
  exact absurd hlt (lt_irrefl c)

theorem Descends.reaches (hT : Descends T d) {b : V} {c : ℕ} {h : V}
    (htable : T b d = some (c, h)) :
    ∃ k, k ≤ c ∧ Reaches T d k b := by
  induction c using Nat.strong_induction_on generalizing b h with
  | _ c ih =>
    by_cases hd : d = b
    · subst hd
      exact ⟨0, Nat.zero_le c, .arrived⟩
    · obtain ⟨c', h', hn, hlt⟩ := hT b c h hd htable
      obtain ⟨k, hk, hreach⟩ := ih c' (by omega) hn
      exact ⟨k + 1, by omega, .hop ⟨hd, c, htable⟩ hreach⟩

end Chains

end DistanceVector
