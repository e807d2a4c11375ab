import Mathlib.Combinatorics.SimpleGraph.Metric
import Mathlib.Tactic

/-!
# Flooding

A message spreads over the links of a graph: each node that it reaches for the first time passes it
on to its neighbours. A copy has come along a path of reached nodes, and as long as each neighbour
of a reached node is reached or has a copy on its way, nothing is left out in the end.
-/

namespace Flooding

variable {V : Type*} {G : SimpleGraph V} {S S' : Set V} {o x y : V} {n : ℕ}

/-! ## Paths of copies -/

/-- A path of `n` links from `o` to `x` through nodes of `S`. -/
def Trail (G : SimpleGraph V) (S : Set V) (o x : V) (n : ℕ) : Prop :=
  ∃ p : G.Walk o x, p.IsPath ∧ p.length = n ∧ ∀ z ∈ p.support, z ∈ S

/-- No path from `o` has more than `bound` links. -/
def PathsWithin (G : SimpleGraph V) (o : V) (bound : ℕ) : Prop :=
  ∀ v (p : G.Walk o v), p.IsPath → p.length ≤ bound

lemma Trail.nil (h : o ∈ S) : Trail G S o o 0 := by
  refine ⟨.nil, .nil, rfl, fun z hz => ?_⟩
  rw [SimpleGraph.Walk.support_nil, List.mem_singleton] at hz
  rw [hz]
  exact h

lemma Trail.mono (h : Trail G S o x n) (hsub : S ⊆ S') : Trail G S' o x n := by
  obtain ⟨p, hpath, hlen, hmem⟩ := h
  exact ⟨p, hpath, hlen, fun z hz => hsub (hmem z hz)⟩

lemma Trail.mem (h : Trail G S o x n) : x ∈ S := by
  obtain ⟨p, -, -, hmem⟩ := h
  exact hmem x p.end_mem_support

lemma Trail.reachable (h : Trail G S o x n) : G.Reachable o x := by
  obtain ⟨p, -⟩ := h
  exact ⟨p⟩

/-- A copy goes on to a node that is not reached yet. -/
lemma Trail.concat (h : Trail G S o x n) (hadj : G.Adj x y) (hy : y ∉ S) :
    Trail G (insert y S) o y (n + 1) := by
  obtain ⟨p, hpath, hlen, hmem⟩ := h
  refine ⟨p.concat hadj, hpath.concat (fun hp => hy (hmem y hp)) hadj, ?_, fun z hz => ?_⟩
  · rw [SimpleGraph.Walk.length_concat, hlen]
  · rw [SimpleGraph.Walk.support_concat, List.mem_append, List.mem_singleton] at hz
    rcases hz with hz | rfl
    · exact Set.mem_insert_of_mem y (hmem z hz)
    · exact Set.mem_insert z S

lemma Trail.lt_bound {bound : ℕ} (h : Trail G S o x n) (hadj : G.Adj x y) (hy : y ∉ S)
    (hbound : PathsWithin G o bound) : n < bound := by
  obtain ⟨p, hpath, hlen, -⟩ := h.concat hadj hy
  have hle := hbound y p hpath
  omega

/-! ## Coverage -/

/-- Each neighbour of a reached node is reached or has a copy on its way. -/
def Covers (G : SimpleGraph V) (S : Set V) (copy : V → V → Prop) : Prop :=
  ∀ x ∈ S, ∀ y, G.Adj x y → y ∈ S ∨ copy x y

/-- No copy is lost, and none is needed for a new node. -/
lemma Covers.mono {copy copy' : V → V → Prop} (h : Covers G S copy)
    (hkeep : ∀ x y, copy x y → y ∈ S ∨ copy' x y) : Covers G S copy' := by
  intro x hx y hadj
  rcases h x hx y hadj with hy | hcopy
  · exact .inl hy
  · exact hkeep x y hcopy

/-- A copy arrives at `b`, which passes it on if it was not reached before. -/
lemma Covers.arrive {copy copy' : V → V → Prop} {a b : V} (h : Covers G S copy)
    (hkeep : ∀ x y, copy x y → ¬(x = a ∧ y = b) → copy' x y)
    (hpass : b ∉ S → ∀ y, G.Adj b y → y ∉ S → copy' b y) : Covers G (insert b S) copy' := by
  intro x hx y hadj
  by_cases hy : y ∈ insert b S
  · exact .inl hy
  · rw [Set.mem_insert_iff, not_or] at hy
    by_cases hxS : x ∈ S
    · rcases h x hxS y hadj with hyS | hcopy
      · exact absurd hyS hy.2
      · exact .inr (hkeep x y hcopy fun hab => hy.1 hab.2)
    · obtain rfl : x = b := hx.resolve_right hxS
      exact .inr (hpass hxS y hadj hy.2)

/-- With no copy on its way, every node that can be reached is. -/
lemma Covers.reachable_mem {copy : V → V → Prop} (h : Covers G S copy) (hnone : ∀ x y, ¬copy x y)
    (ho : o ∈ S) {v : V} (hv : G.Reachable o v) : v ∈ S := by
  obtain ⟨p⟩ := hv
  induction p with
  | nil => exact ho
  | cons hadj p ih => exact ih ((h _ ho _ hadj).resolve_right (hnone _ _))

/-- A set that is closed under links holds everything that can be reached. -/
lemma mem_of_closed (hclosed : ∀ x ∈ S, ∀ y, G.Adj x y → y ∈ S) (ho : o ∈ S) {v : V}
    (hv : G.Reachable o v) : v ∈ S := by
  have hcovers : Covers G S fun _ _ => False := fun x hx y hadj => .inl (hclosed x hx y hadj)
  exact hcovers.reachable_mem (fun _ _ => id) ho hv

lemma pathsWithin_of_closed {T : Finset V} (hclosed : ∀ x ∈ T, ∀ y, G.Adj x y → y ∈ T) (ho : o ∈ T)
    {bound : ℕ} (hbound : T.card ≤ bound + 1) : PathsWithin G o bound := by
  classical
  intro v p hpath
  have hsub : p.support.toFinset ⊆ T := by
    intro z hz
    rw [List.mem_toFinset] at hz
    have hmem : z ∈ (T : Set V) :=
      mem_of_closed (fun x hx y hadj => hclosed x hx y hadj) ho ⟨p.takeUntil z hz⟩
    exact hmem
  have hcard := Finset.card_le_card hsub
  rw [List.toFinset_card_of_nodup hpath.support_nodup, SimpleGraph.Walk.length_support] at hcard
  omega

end Flooding
