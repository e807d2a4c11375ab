import Mathlib.Combinatorics.SimpleGraph.Metric
import Mathlib.Tactic

/-!
# Distance-vector routing

Nodes of a graph keep, for each destination, a cost and a next hop, and exchange them with their
neighbours; a route is not offered to the neighbour it goes through. The results are about one
synchronous exchange from arbitrary tables, and about chains of next hops along which costs drop.
-/

namespace DistanceVector

variable {V : Type*}

/-- The live route of each node to each destination: its cost and its next hop. -/
abbrev Table (V : Type*) := V → V → Option (ℕ × V)

section Exchange

variable {G : SimpleGraph V}

/-- Neighbour `a` of `b` gives a way to `d` of cost `c`. -/
def Offered (G : SimpleGraph V) (T : Table V) (b d a : V) (c : ℕ) : Prop :=
  G.Adj b a ∧ (d = a ∧ c = 1 ∨ ∃ c₀ h, T a d = some (c₀, h) ∧ h ≠ b ∧ c = c₀ + 1)

/-- `T'` holds the best of the routes offered from `T`; routes of cost `bound` or more are
dropped. -/
structure Exchange (G : SimpleGraph V) (bound : ℕ) (T T' : Table V) : Prop where
  best : ∀ b d, d ≠ b → ∀ c h, T' b d = some (c, h) →
    Offered G T b d h c ∧ ∀ a c', Offered G T b d a c' → c ≤ c'
  direct : ∀ b d, d ≠ b → ∀ c h, T' b d = some (c, h) → G.Adj b d → h = d
  found : ∀ b d, d ≠ b → ∀ a c, Offered G T b d a c → c < bound → ∃ c' h, T' b d = some (c', h)

/-- Routes to destinations within `r` hops are shortest ones, and the others cost more than `r`. -/
def ExactUpTo (G : SimpleGraph V) (r : ℕ) (T : Table V) : Prop :=
  ∀ b d, d ≠ b →
    (G.edist b d ≤ r → ∃ c h, T b d = some (c, h) ∧ (c : ℕ∞) = G.edist b d ∧ G.Adj b h ∧
      G.edist h d + 1 = G.edist b d) ∧
    (¬G.edist b d ≤ r → ∀ c h, T b d = some (c, h) → r < c)

lemma Offered.pos {T : Table V} {b d a : V} {c : ℕ} (h : Offered G T b d a c) : 1 ≤ c := by
  obtain ⟨-, ⟨-, rfl⟩ | ⟨c₀, hop, -, -, rfl⟩⟩ := h
  · exact le_rfl
  · exact Nat.le_add_left 1 c₀

lemma edist_le_succ {b a d : V} (h : G.Adj b a) : G.edist b d ≤ G.edist a d + 1 := by
  have htri := G.edist_triangle (u := b) (v := a) (w := d)
  rw [SimpleGraph.edist_eq_one_iff_adj.mpr h, add_comm] at htri
  exact htri

/-- A shortest walk starts with a step to a node that is one hop closer. -/
lemma exists_closer {b d : V} {n : ℕ} (h : G.edist b d = (n + 1 : ℕ)) :
    ∃ a, G.Adj b a ∧ G.edist a d = n := by
  obtain ⟨p, hp⟩ := SimpleGraph.exists_walk_of_edist_eq_coe h
  cases p with
  | nil => cases hp
  | @cons _ a _ hadj q =>
    refine ⟨a, hadj, le_antisymm ?_ ?_⟩
    · rw [SimpleGraph.Walk.length_cons, Nat.add_right_cancel_iff] at hp
      rw [← hp]
      exact SimpleGraph.edist_le q
    · have hle := edist_le_succ hadj (d := d)
      rw [h, Nat.cast_add, Nat.cast_one] at hle
      exact (ENat.add_le_add_iff_right ENat.one_ne_top).mp hle

/-- A cheap offer comes from a node whose route is exact. -/
lemma ExactUpTo.offer_ge {r : ℕ} {T : Table V} (h : ExactUpTo G r T) {b d a : V} {c : ℕ}
    (hd : ¬G.Adj b d) (ho : Offered G T b d a c) (hc : c ≤ r + 1) :
    (c : ℕ∞) = G.edist a d + 1 ∧ G.edist b d ≤ c := by
  obtain ⟨hadj, hcase⟩ := ho
  rcases hcase with ⟨rfl, -⟩ | ⟨c₀, hop, hT, -, rfl⟩
  · exact absurd hadj hd
  · have hda : d ≠ a := by
      rintro rfl
      exact hd hadj
    obtain ⟨hnear, hfar⟩ := h a d hda
    have hle : G.edist a d ≤ r := by
      by_contra hgt
      have := hfar hgt c₀ hop hT
      omega
    obtain ⟨c₁, h₁, hT₁, hc₁, -⟩ := hnear hle
    rw [hT] at hT₁
    cases hT₁
    rw [Nat.cast_add, Nat.cast_one, hc₁]
    exact ⟨rfl, edist_le_succ hadj⟩

/-- The neighbour on a shortest route offers it, although routes through `b` are withheld. -/
lemma ExactUpTo.offered {r : ℕ} {T : Table V} (h : ExactUpTo G r T) {b d : V} {n : ℕ}
    (hdist : G.edist b d = (n + 2 : ℕ)) (hn : n + 1 ≤ r) : ∃ a, Offered G T b d a (n + 2) := by
  obtain ⟨a, hadj, ha⟩ := exists_closer hdist
  have hda : d ≠ a := by
    rintro rfl
    rw [SimpleGraph.edist_self] at ha
    exact absurd ha (by exact_mod_cast (Nat.succ_ne_zero n).symm)
  have hle : G.edist a d ≤ r := by
    rw [ha]
    exact_mod_cast hn
  obtain ⟨c, hop, hT, hc, -, hcloser⟩ := (h a d hda).1 hle
  have hcn : c = n + 1 := by
    rw [ha] at hc
    exact_mod_cast hc
  refine ⟨a, hadj, .inr ⟨c, hop, hT, ?_, by rw [hcn]⟩⟩
  rintro rfl
  rw [hdist, ha] at hcloser
  have : n + 2 + 1 = n + 1 := by exact_mod_cast hcloser
  omega

/-- One exchange makes the routes exact one hop further out. -/
theorem Exchange.exactUpTo {r bound : ℕ} {T T' : Table V} (hx : Exchange G bound T T')
    (hr : r + 1 < bound) (h : ExactUpTo G r T) : ExactUpTo G (r + 1) T' := by
  intro b d hd
  by_cases hadj : G.Adj b d
  · have hone : G.edist b d = 1 := SimpleGraph.edist_eq_one_iff_adj.mpr hadj
    have hoffer : Offered G T b d d 1 := ⟨hadj, .inl ⟨rfl, rfl⟩⟩
    refine ⟨fun _ => ?_, fun hfar => ?_⟩
    · obtain ⟨c, hop, hT'⟩ := hx.found b d hd d 1 hoffer (by omega)
      obtain ⟨hbest, hmin⟩ := hx.best b d hd c hop hT'
      obtain rfl := hx.direct b d hd c hop hT' hadj
      obtain rfl : c = 1 := le_antisymm (hmin hop 1 hoffer) hbest.pos
      refine ⟨1, hop, hT', by rw [hone, Nat.cast_one], hadj, ?_⟩
      rw [SimpleGraph.edist_self, hone, zero_add]
    · rw [hone] at hfar
      exact absurd (by exact_mod_cast Nat.le_add_left 1 r) hfar
  · refine ⟨fun hnear => ?_, fun hfar c hop hT' => ?_⟩
    · obtain ⟨k, hk⟩ :=
        ENat.ne_top_iff_exists.mp (ne_top_of_le_ne_top (ENat.natCast_ne_top _) hnear)
      have hkr : k ≤ r + 1 := by
        rw [← hk] at hnear
        exact_mod_cast hnear
      obtain ⟨n, rfl⟩ : ∃ n, k = n + 2 := by
        refine ⟨k - 2, ?_⟩
        have hzero : k ≠ 0 := by
          rintro rfl
          exact hd (SimpleGraph.edist_eq_zero_iff.mp hk.symm).symm
        have hone : k ≠ 1 := by
          rintro rfl
          exact hadj (SimpleGraph.edist_eq_one_iff_adj.mp hk.symm)
        omega
      obtain ⟨a, hoffer⟩ := h.offered hk.symm (by omega)
      obtain ⟨c, hop, hT'⟩ := hx.found b d hd a _ hoffer (by omega)
      obtain ⟨hbest, hmin⟩ := hx.best b d hd c hop hT'
      have hle := hmin a _ hoffer
      obtain ⟨hcost, hge⟩ := h.offer_ge hadj hbest (by omega)
      have hc : (c : ℕ∞) = G.edist b d := by
        rw [← hk] at hge ⊢
        exact le_antisymm (by exact_mod_cast hle) hge
      exact ⟨c, hop, hT', hc, hbest.1, by rw [← hcost, hc]⟩
    · by_contra hle
      rw [not_lt] at hle
      have hge := (h.offer_ge hadj (hx.best b d hd c hop hT').1 hle).2
      exact hfar (le_trans hge (by exact_mod_cast hle))

end Exchange

end DistanceVector
