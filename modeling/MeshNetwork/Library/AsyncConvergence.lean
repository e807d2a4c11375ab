import MeshNetwork.Library.AsyncDistanceVector

/-!
# Convergence of distance vectors over FIFO channels

The links do not change, but nodes tell their tables at any time and updates are under way for any
time. Once routes within `r` hops are exact, everything that is told from then on is exact up to
`r`; when it has replaced what was told before on every link, routes within `r + 1` hops are exact.
-/

namespace DistanceVector

variable {V : Type*}

/-! ## What is under way on a link -/

section Pipes

/-- What the receiver knows of `d` when it has taken in the updates `msgs`. -/
def drain (view : V → Option ℕ) (msgs : List (V → Option Signal)) (d : V) : Option ℕ :=
  msgs.foldl (fun old msg => AsyncState.heard old (msg d)) (view d)

variable {view : V → Option ℕ} {channel msgs : List (V → Option Signal)} {d : V}

@[simp] lemma drain_nil : drain view [] d = view d := rfl

lemma drain_cons (msg : V → Option Signal) :
    drain view (msg :: msgs) d = drain (fun d => AsyncState.heard (view d) (msg d)) msgs d := rfl

lemma drain_append : drain view (channel ++ msgs) d = drain (drain view channel) msgs d := by
  unfold drain
  rw [List.foldl_append]

/-- Updates that all say the same of `d`. -/
lemma drain_same {sig : Signal} (h : ∀ msg ∈ msgs, ∀ sig', msg d = some sig' → sig' = sig) :
    drain view msgs d = view d ∧ (∀ msg ∈ msgs, msg d = none) ∨ drain view msgs d = sig := by
  induction msgs generalizing view with
  | nil => exact .inl ⟨rfl, fun _ hmsg => absurd hmsg List.not_mem_nil⟩
  | cons msg msgs ih =>
    rw [drain_cons]
    have hrest :=
      @ih (fun d => AsyncState.heard (view d) (msg d)) fun m hm => h m (List.mem_cons_of_mem _ hm)
    rcases hrest with ⟨hdrain, hnone⟩ | hdrain
    · cases hmsg : msg d with
      | none =>
        refine .inl ⟨?_, fun m hm => ?_⟩
        · rw [hdrain, hmsg]
          rfl
        · rcases List.mem_cons.mp hm with rfl | hm
          · exact hmsg
          · exact hnone m hm
      | some sig' =>
        right
        rw [hdrain, hmsg]
        exact h msg List.mem_cons_self sig' hmsg
    · exact .inr hdrain

/-- A receiver that has forgotten what it knew of `d`. -/
lemma drain_forgotten {view' : V → Option ℕ} (h : view' d = view d ∨ view' d = none) :
    drain view' channel d = drain view channel d ∨ drain view' channel d = none := by
  induction channel generalizing view view' with
  | nil => exact h
  | cons msg channel ih =>
    rw [drain_cons, drain_cons]
    apply ih
    cases hmsg : msg d with
    | none => simpa only [hmsg, AsyncState.heard] using h
    | some sig => exact .inl rfl

/-- After at most `k` deliveries all that the receiver knows, and all that is under way, satisfies
`P`. -/
def Due (P : V → Signal → Prop) (k : ℕ) (view : V → Option ℕ)
    (channel : List (V → Option Signal)) : Prop :=
  ∃ pre new, channel = pre ++ new ∧ pre.length ≤ k ∧ (∀ d, P d (drain view pre d)) ∧
    ∀ msg ∈ new, ∀ d sig, msg d = some sig → P d sig

variable {P : V → Signal → Prop} {k : ℕ}

lemma due_zero : Due P 0 view channel ↔
    (∀ d, P d (view d)) ∧ ∀ msg ∈ channel, ∀ d sig, msg d = some sig → P d sig := by
  constructor
  · rintro ⟨pre, new, rfl, hlen, hview, hnew⟩
    obtain rfl := List.length_eq_zero_iff.mp (Nat.le_zero.mp hlen)
    exact ⟨hview, hnew⟩
  · rintro ⟨hview, hnew⟩
    exact ⟨[], channel, rfl, le_rfl, hview, hnew⟩

/-- The last update covers all that the receiver knows. -/
lemma due_length (h : ∀ d, P d (drain view channel d)) : Due P channel.length view channel :=
  ⟨channel, [], (List.append_nil _).symm, le_rfl, h, fun _ hmsg => absurd hmsg List.not_mem_nil⟩

lemma Due.send (h : Due P k view channel)
    (hmsgs : ∀ msg ∈ msgs, ∀ d sig, msg d = some sig → P d sig) :
    Due P k view (channel ++ msgs) := by
  obtain ⟨pre, new, rfl, hlen, hview, hnew⟩ := h
  refine ⟨pre, new ++ msgs, List.append_assoc .., hlen, hview, fun msg hmsg => ?_⟩
  rcases List.mem_append.mp hmsg with hmsg | hmsg
  · exact hnew msg hmsg
  · exact hmsgs msg hmsg

lemma Due.deliver {msg : V → Option Signal} (h : Due P k view (msg :: channel)) :
    Due P (k - 1) (fun d => AsyncState.heard (view d) (msg d)) channel := by
  obtain ⟨pre, new, hchannel, hlen, hview, hnew⟩ := h
  cases pre with
  | nil =>
    rw [List.nil_append] at hchannel
    subst hchannel
    refine ⟨[], channel, rfl, Nat.zero_le _, fun d => ?_,
      fun m hm => hnew m (List.mem_cons_of_mem _ hm)⟩
    cases hmsg : msg d with
    | none => simpa only [drain_nil, hmsg, AsyncState.heard] using hview d
    | some sig =>
      have hsig := hnew msg List.mem_cons_self d sig hmsg
      simpa only [drain_nil, hmsg, AsyncState.heard] using hsig
  | cons m pre =>
    rw [List.cons_append, List.cons.injEq] at hchannel
    obtain ⟨rfl, rfl⟩ := hchannel
    rw [List.length_cons] at hlen
    exact ⟨pre, new, rfl, by omega, hview, hnew⟩

lemma Due.of_empty (h : Due P k view []) : Due P 0 view [] := by
  obtain ⟨pre, new, hchannel, -, hview, hnew⟩ := h
  obtain ⟨rfl, rfl⟩ := List.append_eq_nil_iff.mp hchannel.symm
  exact ⟨[], [], rfl, le_rfl, hview, hnew⟩

end Pipes

/-! ## Exact updates -/

section Exact

variable {G : SimpleGraph V} {r : ℕ}

/-- What `a` tells `b` about `d` when its routes within `r` hops are exact. A route that does not go
through `b` is not withheld. -/
def Sound (G : SimpleGraph V) (r : ℕ) (a b d : V) (sig : Signal) : Prop :=
  d ≠ a →
    (∀ c, sig = some c → (G.edist a d ≤ r → (c : ℕ∞) = G.edist a d) ∧ (¬G.edist a d ≤ r → r < c)) ∧
    (G.edist a d ≤ r → G.edist a d ≤ G.edist b d → sig ≠ none)

lemma Sound.pred {a b d : V} {sig : Signal} (h : Sound G (r + 1) a b d sig) :
    Sound G r a b d sig := by
  intro hd
  obtain ⟨hcost, hoffered⟩ := h hd
  have hmono : ∀ {n : ℕ∞}, n ≤ r → n ≤ (r + 1 : ℕ) :=
    fun hn => hn.trans (by exact_mod_cast Nat.le_succ r)
  refine ⟨fun c hc => ⟨fun hle => (hcost c hc).1 (hmono hle), fun hgt => ?_⟩,
    fun hle => hoffered (hmono hle)⟩
  by_cases hnext : G.edist a d ≤ (r + 1 : ℕ)
  · have hc' := (hcost c hc).1 hnext
    rw [← hc'] at hgt
    exact not_le.mp fun hle => hgt (by exact_mod_cast hle)
  · exact Nat.lt_of_succ_lt ((hcost c hc).2 hnext)

namespace AsyncState

variable {bound : ℕ} {st st' : AsyncState V}

/-- The table of `b` holds the best of the offers below `bound`; a neighbour is reached directly. -/
structure Best (bound : ℕ) (st : AsyncState V) (b : V) : Prop where
  least : ∀ d, d ≠ b → ∀ c h, st.table b d = some (c, h) →
    st.Offers b d h c ∧ ∀ n c', st.Offers b d n c' → c ≤ c'
  direct : ∀ d, d ≠ b → ∀ c h, st.table b d = some (c, h) → st.linked b d → h = d
  found : ∀ d, d ≠ b → ∀ n c, st.Offers b d n c → c < bound → ∃ c' h, st.table b d = some (c', h)

/-- The nodes know the links of `G`, and their tables are computed from what they were told over
them. -/
structure Linked (G : SimpleGraph V) (bound : ℕ) (st : AsyncState V) : Prop where
  linked : ∀ b n, st.linked b n ↔ G.Adj b n
  viewed : ∀ b n d v, st.view b n d = some v → G.Adj b n
  best : ∀ b, st.Best bound b

/-- All that was told on the links, or is under way, is exact up to `r`. -/
def Fresh (G : SimpleGraph V) (r : ℕ) (st : AsyncState V) : Prop :=
  ∀ a b, G.Adj a b → Due (Sound G r a b) 0 (st.view b a) (st.channel a b)

lemma offers_pos {b d n : V} {c : ℕ} (h : st.Offers b d n c) : 1 ≤ c := by
  rcases h with ⟨-, -, rfl⟩ | ⟨v, -, rfl⟩
  · exact le_rfl
  · exact Nat.le_add_left 1 v

lemma Linked.exact_zero (h : st.Linked G bound) : ExactUpTo G 0 st.table := by
  intro b d hd
  refine ⟨fun hle => ?_, fun _ c n htable => offers_pos ((h.best b).least d hd c n htable).1⟩
  rw [Nat.cast_zero, nonpos_iff_eq_zero, SimpleGraph.edist_eq_zero_iff] at hle
  exact absurd hle.symm hd

lemma Linked.offers_adj (h : st.Linked G bound) {b d n : V} {c : ℕ}
    (ho : st.Offers b d n c) : G.Adj b n := by
  rcases ho with ⟨rfl, hlinked, -⟩ | ⟨v, hview, -⟩
  · exact (h.linked b n).mp hlinked
  · exact h.viewed b n d v hview

/-- A cheap offer comes from a node whose route is exact. -/
lemma Fresh.offer_ge (hf : st.Fresh G r) (h : st.Linked G bound) {b d n : V} {c : ℕ}
    (hd : ¬G.Adj b d) (ho : st.Offers b d n c) (hc : c ≤ r + 1) :
    (c : ℕ∞) = G.edist n d + 1 ∧ G.edist b d ≤ c := by
  have hadj := h.offers_adj ho
  rcases ho with ⟨rfl, -, -⟩ | ⟨v, hview, rfl⟩
  · exact absurd hadj hd
  · have hdn : d ≠ n := by
      rintro rfl
      exact hd hadj
    obtain ⟨hnear, hfar⟩ := ((due_zero.mp (hf n b hadj.symm)).1 d hdn).1 v hview
    have hv : (v : ℕ∞) = G.edist n d := by
      by_cases hle : G.edist n d ≤ r
      · exact hnear hle
      · have := hfar hle
        omega
    rw [Nat.cast_add, Nat.cast_one, hv]
    exact ⟨rfl, edist_le_succ hadj⟩

/-- The neighbour on a shortest route offers it. -/
lemma Fresh.offered (hf : st.Fresh G r) {b d : V} {n : ℕ} (hdist : G.edist b d = (n + 2 : ℕ))
    (hn : n + 1 ≤ r) :
    ∃ a, st.Offers b d a (n + 2) := by
  obtain ⟨a, hadj, ha⟩ := exists_closer hdist
  have hda : d ≠ a := by
    rintro rfl
    rw [SimpleGraph.edist_self] at ha
    exact absurd ha (by exact_mod_cast (Nat.succ_ne_zero n).symm)
  have hle : G.edist a d ≤ r := by
    rw [ha]
    exact_mod_cast hn
  obtain ⟨hcost, hoffered⟩ := (due_zero.mp (hf a b hadj.symm)).1 d hda
  obtain ⟨v, hv⟩ :=
    Option.ne_none_iff_exists'.mp (hoffered hle (by rw [ha, hdist]; exact_mod_cast Nat.le_succ _))
  have hvn := (hcost v hv).1 hle
  rw [ha] at hvn
  obtain rfl : v = n + 1 := by exact_mod_cast hvn
  exact ⟨a, .inr ⟨n + 1, hv, rfl⟩⟩

/-- What was told up to `r` gives routes up to `r + 1`. -/
theorem Fresh.exactUpTo (hf : st.Fresh G r) (h : st.Linked G bound) (hr : r + 1 < bound) :
    ExactUpTo G (r + 1) st.table := by
  intro b d hd
  have hbest := h.best b
  by_cases hadj : G.Adj b d
  · have hone : G.edist b d = 1 := SimpleGraph.edist_eq_one_iff_adj.mpr hadj
    have hoffer : st.Offers b d d 1 := .inl ⟨rfl, (h.linked b d).mpr hadj, rfl⟩
    refine ⟨fun _ => ?_, fun hfar => ?_⟩
    · obtain ⟨c, hop, htable⟩ := hbest.found d hd d 1 hoffer (by omega)
      obtain ⟨hleast, hmin⟩ := hbest.least d hd c hop htable
      obtain rfl := hbest.direct d hd c hop htable ((h.linked b d).mpr hadj)
      obtain rfl : c = 1 := le_antisymm (hmin hop 1 hoffer) (offers_pos hleast)
      refine ⟨1, hop, htable, by rw [hone, Nat.cast_one], hadj, ?_⟩
      rw [SimpleGraph.edist_self, hone, zero_add]
    · rw [hone] at hfar
      exact absurd (by exact_mod_cast Nat.le_add_left 1 r) hfar
  · refine ⟨fun hnear => ?_, fun hfar c hop htable => ?_⟩
    · obtain ⟨k, hk⟩ :=
        ENat.ne_top_iff_exists.mp (ne_top_of_le_ne_top (ENat.natCast_ne_top _) hnear)
      have hkr : k ≤ r + 1 := by
        rw [← hk] at hnear
        exact_mod_cast hnear
      obtain ⟨n, rfl⟩ : ∃ n, k = n + 2 := by
        refine ⟨k - 2, ?_⟩
        have hzero : k ≠ 0 := by
          rintro rfl
          exact hd (SimpleGraph.edist_eq_zero_iff.mp hk.symm).symm
        have hone : k ≠ 1 := by
          rintro rfl
          exact hadj (SimpleGraph.edist_eq_one_iff_adj.mp hk.symm)
        omega
      obtain ⟨a, hoffer⟩ := hf.offered hk.symm (by omega)
      obtain ⟨c, hop, htable⟩ := hbest.found d hd a _ hoffer (by omega)
      obtain ⟨hleast, hmin⟩ := hbest.least d hd c hop htable
      have hle := hmin a _ hoffer
      obtain ⟨hcost, hge⟩ := hf.offer_ge h hadj hleast (by omega)
      have hc : (c : ℕ∞) = G.edist b d := by
        rw [← hk] at hge ⊢
        exact le_antisymm (by exact_mod_cast hle) hge
      exact ⟨c, hop, htable, hc, h.offers_adj hleast, by rw [← hcost, hc]⟩
    · by_contra hle
      rw [not_lt] at hle
      have hge := (hf.offer_ge h hadj (hbest.least d hd c hop htable).1 hle).2
      exact hfar (le_trans hge (by exact_mod_cast hle))

/-! ## Executions -/

variable [DecidableEq V]

/-- A table that is exact up to `r` tells exact routes. -/
lemma told_sound (h : ExactUpTo G r st.table) (a b d : V) : Sound G r a b d (st.told a b d) := by
  intro hd
  obtain ⟨hnear, hfar⟩ := h a d hd
  constructor
  · intro c hc
    unfold told at hc
    cases htable : st.table a d with
    | none =>
      rw [htable] at hc
      cases hc
    | some route =>
      obtain ⟨c₀, hop⟩ := route
      rw [htable] at hc
      dsimp only at hc
      split_ifs at hc with hhop
      cases hc
      refine ⟨fun hle => ?_, fun hgt => hfar hgt c hop htable⟩
      obtain ⟨c', h', htable', hcost, -⟩ := hnear hle
      cases htable.symm.trans htable'
      exact hcost
  · intro hle hback
    obtain ⟨c, hop, htable, hcost, -, hcloser⟩ := hnear hle
    rw [told_of_some htable, if_neg]
    · exact Option.some_ne_none c
    · rintro rfl
      -- the next hop is one link closer, so that it is not `b`
      rw [← hcloser] at hback
      have hfinite : G.edist hop d ≠ ⊤ := by
        intro htop
        rw [htop, top_add] at hcloser
        rw [← hcloser] at hcost
        exact ENat.natCast_ne_top c hcost
      exact absurd hback (not_le.mpr ((ENat.lt_add_one_iff hfinite).mpr le_rfl))

/-- The oldest update on the link from `a` to `b` is delivered. -/
def Delivers (st st' : AsyncState V) (a b : V) : Prop :=
  ∃ msg, st.channel a b = msg :: st'.channel a b ∧
    st'.view b a = fun d => heard (st.view b a d) (msg d)

/-- A step tells parts of the table of `a` to `b`, or delivers an update. -/
def LinkStep (st st' : AsyncState V) (a b : V) : Prop :=
  (st'.view b a = st.view b a ∧ ∃ msgs, st'.channel a b = st.channel a b ++ msgs ∧
    ∀ msg ∈ msgs, ∀ d sig, msg d = some sig → sig = st.told a b d) ∨
  Delivers st st' a b

/-- All that `a` has told `b` comes down to its present table. -/
def Refreshes (st : AsyncState V) (a b : V) : Prop :=
  ∀ d, drain (st.view b a) (st.channel a b) d = st.told a b d

lemma LinkStep.due {P : V → Signal → Prop} {a b : V} {k : ℕ} (hstep : LinkStep st st' a b)
    (htold : ∀ d, P d (st.told a b d)) (h : Due P k (st.view b a) (st.channel a b)) :
    Due P k (st'.view b a) (st'.channel a b) := by
  rcases hstep with ⟨hview, msgs, hchannel, hmsgs⟩ | ⟨msg, hchannel, hview⟩
  · rw [hview, hchannel]
    refine h.send fun msg hmsg d sig hsig => ?_
    rw [hmsgs msg hmsg d sig hsig]
    exact htold d
  · rw [hchannel] at h
    rw [hview]
    obtain ⟨pre, new, heq, hlen, hrest⟩ := h.deliver
    exact ⟨pre, new, heq, hlen.trans (Nat.sub_le k 1), hrest⟩

/-- The states of a network with the links `G`, one after the other. -/
structure Execution (G : SimpleGraph V) (bound : ℕ) (σ : ℕ → AsyncState V) : Prop where
  linked : ∀ i, (σ i).Linked G bound
  step : ∀ i a b, G.Adj a b → LinkStep (σ i) (σ (i + 1)) a b

namespace Execution

variable {σ : ℕ → AsyncState V}

/-- Routes within `r` hops are exact from time `i` on. -/
def ExactFrom (G : SimpleGraph V) (r : ℕ) (σ : ℕ → AsyncState V) (i : ℕ) : Prop :=
  ∀ j, i ≤ j → ExactUpTo G r (σ j).table

/-- What is due on a link stays due while routes are exact. -/
lemma due_persists (h : Execution G bound σ) {i : ℕ} (hexact : ExactFrom G r σ i) {a b : V}
    (hadj : G.Adj a b) {k : ℕ} (hdue : Due (Sound G r a b) k ((σ i).view b a) ((σ i).channel a b))
    {j : ℕ} (hij : i ≤ j) :
    Due (Sound G r a b) k ((σ j).view b a) ((σ j).channel a b) := by
  induction j, hij using Nat.le_induction with
  | base => exact hdue
  | succ j hij ih => exact (h.step j a b hadj).due (told_sound (hexact j hij) a b) ih

lemma fresh_exactFrom (h : Execution G bound σ) (hr : r + 1 < bound) {i : ℕ}
    (hf : (σ i).Fresh G r) :
    ExactFrom G (r + 1) σ i := by
  have hfresh : ∀ j, i ≤ j → (σ j).Fresh G r := by
    intro j hij
    induction j, hij using Nat.le_induction with
    | base => exact hf
    | succ j hij ih =>
      intro a b hadj
      have hexact := ih.exactUpTo (h.linked j) hr
      exact (h.step j a b hadj).due (fun d => (told_sound hexact a b d).pred) (ih a b hadj)
  exact fun j hij => (hfresh j hij).exactUpTo (h.linked j) hr

/-- Every link delivers what is under way, and every node comes back to tell its whole table. -/
structure Fair (G : SimpleGraph V) (σ : ℕ → AsyncState V) : Prop where
  refreshes : ∀ a b, G.Adj a b → ∀ i, ∃ j, i ≤ j ∧ (σ j).Refreshes a b
  delivers : ∀ a b, G.Adj a b → ∀ i, (σ i).channel a b ≠ [] →
    ∃ j, i ≤ j ∧ Delivers (σ j) (σ (j + 1)) a b

/-- What is due is done after finitely many deliveries. -/
lemma due_done (h : Execution G bound σ) (hfair : Fair G σ) {a b : V} (hadj : G.Adj a b) (k : ℕ)
    {i : ℕ} (hexact : ExactFrom G r σ i)
    (hdue : Due (Sound G r a b) k ((σ i).view b a) ((σ i).channel a b)) :
    ∃ j, i ≤ j ∧ Due (Sound G r a b) 0 ((σ j).view b a) ((σ j).channel a b) := by
  induction k generalizing i with
  | zero => exact ⟨i, le_rfl, hdue⟩
  | succ k ih =>
    by_cases hempty : (σ i).channel a b = []
    · rw [hempty] at hdue
      refine ⟨i, le_rfl, ?_⟩
      rw [hempty]
      exact hdue.of_empty
    · obtain ⟨m, him, msg, hchannel, hview⟩ := hfair.delivers a b hadj i hempty
      have hm := h.due_persists hexact hadj hdue him
      rw [hchannel] at hm
      have hnext : Due (Sound G r a b) k ((σ (m + 1)).view b a) ((σ (m + 1)).channel a b) := by
        rw [hview]
        exact hm.deliver
      obtain ⟨j, hj, hdone⟩ := ih (fun j hj => hexact j (by omega)) hnext
      exact ⟨j, by omega, hdone⟩

/-- One more hop: when every node has told its table once more and the updates have arrived. -/
lemma fresh_of_exactFrom (h : Execution G bound σ) (hfair : Fair G σ)
    (hlinks : {x : V × V | G.Adj x.1 x.2}.Finite) {i : ℕ} (hexact : ExactFrom G r σ i) :
    ∃ j, i ≤ j ∧ (σ j).Fresh G r := by
  -- the times at which the single links are done
  have hlink : ∀ x : V × V, ∃ j, i ≤ j ∧ (G.Adj x.1 x.2 →
      Due (Sound G r x.1 x.2) 0 ((σ j).view x.2 x.1) ((σ j).channel x.1 x.2)) := by
    rintro ⟨a, b⟩
    by_cases hadj : G.Adj a b
    · obtain ⟨m, him, hrefresh⟩ := hfair.refreshes a b hadj i
      have hdue : Due (Sound G r a b) _ ((σ m).view b a) ((σ m).channel a b) :=
        due_length fun d => by
        rw [hrefresh d]
        exact told_sound (hexact m him) a b d
      obtain ⟨j, hj, hdone⟩ := h.due_done hfair hadj _ (fun j hj => hexact j (him.trans hj)) hdue
      exact ⟨j, him.trans hj, fun _ => hdone⟩
    · exact ⟨i, le_rfl, fun habs => absurd habs hadj⟩
  choose time htime hdone using hlink
  obtain ⟨last, hlast⟩ := (hlinks.image time).bddAbove
  refine ⟨max i last, le_max_left .., fun a b hadj => ?_⟩
  have hle : time (a, b) ≤ max i last :=
    (hlast (Set.mem_image_of_mem time hadj)).trans (le_max_right ..)
  exact h.due_persists (fun j hj => hexact j ((htime (a, b)).trans hj)) hadj (hdone (a, b) hadj) hle

/-- In a fair execution over finitely many links the routes below `bound` become exact for good. -/
theorem eventually_exact (h : Execution G bound σ) (hfair : Fair G σ)
    (hlinks : {x : V × V | G.Adj x.1 x.2}.Finite) (i : ℕ) (hr : r < bound) :
    ∃ j, i ≤ j ∧ ExactFrom G r σ j := by
  induction r with
  | zero => exact ⟨i, le_rfl, fun j _ => (h.linked j).exact_zero⟩
  | succ r ih =>
    obtain ⟨m, him, hexact⟩ := ih (by omega)
    obtain ⟨j, hmj, hfresh⟩ := h.fresh_of_exactFrom hfair hlinks hexact
    exact ⟨j, him.trans hmj, h.fresh_exactFrom hr hfresh⟩

end Execution

end AsyncState

end Exact

end DistanceVector
