import Mathlib.Algebra.BigOperators.Finprod
import Mathlib.Algebra.Order.Group.Multiset
import Mathlib.Logic.Hydra

/-!
# Work that dies out

Items of work lie at places, and each has a rank. If every step takes an item away and puts finitely
many items of lower ranks in its place, then all but finitely many steps do nothing.
-/

namespace Quiescence

open Relation

/-! ## Items at places -/

section Places

variable {ι α : Type*}

/-- All items, wherever they lie. -/
noncomputable def total (f : ι → Multiset α) : Multiset α := ∑ᶠ i, f i

variable [DecidableEq ι] {f : ι → Multiset α}

lemma support_update_finite (hf : f.support.Finite) (i : ι) (m : Multiset α) :
    (Function.update f i m).support.Finite := by
  refine (hf.insert i).subset fun j hj => ?_
  by_cases hji : j = i
  · exact .inl hji
  · rw [Function.mem_support, Function.update_of_ne hji] at hj
    exact .inr hj

/-- The items of one place are exchanged. -/
lemma total_update (hf : f.support.Finite) (i : ι) (m : Multiset α) :
    total (Function.update f i m) + f i = total f + m := by
  -- the items of `i` are set apart
  have hsplit : ∀ g : ι → Multiset α, g.support.Finite →
      total g = g i + total (Function.update g i 0) := by
    intro g hg
    let single : ι → Multiset α := Pi.single i (g i)
    have hsum : ∀ j, g j = single j + Function.update g i 0 j := by
      intro j
      by_cases hji : j = i
      · subst hji
        simp [single]
      · simp [single, hji]
    have hsingle : single.support.Finite := (Set.finite_singleton i).subset Pi.support_single_subset
    calc total g = ∑ᶠ j, (single j + Function.update g i 0 j) := finsum_congr hsum
      _ = ∑ᶠ j, single j + ∑ᶠ j, Function.update g i 0 j :=
        finsum_add_distrib hsingle (support_update_finite hg i 0)
      _ = g i + total (Function.update g i 0) := by
        rw [finsum_eq_single single i fun j hj => Pi.single_eq_of_ne hj _]
        simp [single, total]
  rw [hsplit f hf, hsplit _ (support_update_finite hf i m), Function.update_self,
    Function.update_idem, add_comm m, add_comm (f i), add_right_comm]

end Places

/-! ## Descents -/

section Descents

variable {α : Type*} [Preorder α] {M M' X Y : Multiset α} {a : α}

/-- Items of `M` have been replaced by lower ones. -/
abbrev Below : Multiset α → Multiset α → Prop := ReflTransGen (CutExpand (· < ·))

/-- At least one item has been replaced. -/
abbrev StrictlyBelow : Multiset α → Multiset α → Prop := TransGen (CutExpand (· < ·))

lemma strictlyBelow_replace (h : ∀ y ∈ Y, y < a) : StrictlyBelow (M + Y) (M + {a}) :=
  .single ((cutExpand_add_left M).mpr (cutExpand_singleton h))

lemma below_replace (h : ∀ y ∈ Y, y < a) : Below (M + Y) (M + {a}) :=
  (strictlyBelow_replace h).to_reflTransGen

lemma Below.add_right (h : Below M' M) (X : Multiset α) : Below (M' + X) (M + X) :=
  ReflTransGen.lift (· + X) (fun _ _ hcut => (cutExpand_add_right X).mpr hcut) _ _ h

lemma Below.add_left (h : Below M' M) (X : Multiset α) : Below (X + M') (X + M) :=
  ReflTransGen.lift (X + ·) (fun _ _ hcut => (cutExpand_add_left X).mpr hcut) _ _ h

lemma StrictlyBelow.add_left (h : StrictlyBelow M' M) (X : Multiset α) :
    StrictlyBelow (X + M') (X + M) :=
  TransGen.lift (X + ·) (fun _ _ hcut => (cutExpand_add_left X).mpr hcut) _ _ h

lemma below_add (M X : Multiset α) : Below M (M + X) := by
  induction X using Multiset.induction_on with
  | empty => rw [add_zero]
  | cons a X ih =>
    have hdrop : Below (M + X + 0) (M + X + {a}) :=
      below_replace fun y hy => absurd hy (Multiset.notMem_zero y)
    rw [add_zero, add_assoc, add_comm X, Multiset.singleton_add] at hdrop
    exact ih.trans hdrop

variable [WellFoundedLT α]

lemma strictlyBelow_wellFounded : WellFounded (StrictlyBelow (α := α)) :=
  (WellFounded.cutExpand wellFounded_lt).transGen

/-- A sequence that descends from step to step comes to rest. -/
lemma eventually_rests {f : ℕ → Multiset α} (h : ∀ i, Below (f (i + 1)) (f i)) :
    ∃ n, ∀ i, n ≤ i → f i = f n := by
  obtain ⟨_, ⟨n, rfl⟩, hmin⟩ := strictlyBelow_wellFounded.has_min (Set.range f) ⟨f 0, 0, rfl⟩
  refine ⟨n, fun i hi => ?_⟩
  induction i, hi using Nat.le_induction with
  | base => rfl
  | succ i hi ih =>
    rcases reflTransGen_iff_eq_or_transGen.mp (h i) with heq | hlt
    · rw [← heq, ih]
    · rw [ih] at hlt
      exact absurd hlt (hmin _ ⟨i + 1, rfl⟩)

/-- From some step on nothing is replaced. -/
lemma eventually_idle {f : ℕ → Multiset α} (h : ∀ i, Below (f (i + 1)) (f i)) :
    ∃ n, ∀ i, n ≤ i → ¬StrictlyBelow (f (i + 1)) (f i) := by
  obtain ⟨n, hn⟩ := eventually_rests h
  refine ⟨n, fun i hi hlt => ?_⟩
  rw [hn i hi, hn (i + 1) (by omega)] at hlt
  exact strictlyBelow_wellFounded.irrefl.irrefl _ hlt

end Descents

end Quiescence
