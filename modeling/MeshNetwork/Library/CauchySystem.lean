import Mathlib.Algebra.Polynomial.BigOperators
import Mathlib.Algebra.Polynomial.Roots
import Mathlib.Tactic.FieldSimp

/-!
# Cauchy systems

The rows `1 / (x i - y j)` of a Cauchy matrix over a field, with pairwise distinct nodes, admit
no nontrivial solution of a square homogeneous system. Clearing denominators turns such a
solution into a polynomial with more roots than its degree.
-/

namespace CauchySystem
open Polynomial

variable {F ι : Type*} [Field F] [DecidableEq ι]

/-- The numerator of `∑ i ∈ I, v i / (x i - X)` over the common denominator. -/
noncomputable def numerator (x v : ι → F) (I : Finset ι) : F[X] :=
  ∑ i ∈ I, C (v i) * ∏ l ∈ I.erase i, (C (x l) - X)

lemma natDegree_numerator_lt (x v : ι → F) {I : Finset ι} (hI : I.Nonempty) :
    (numerator x v I).natDegree < I.card := by
  have hterm : ∀ i ∈ I, (C (v i) * ∏ l ∈ I.erase i, (C (x l) - X)).natDegree ≤ I.card - 1 := by
    intro i hi
    have hprod : (∏ l ∈ I.erase i, (C (x l) - X)).natDegree ≤ ∑ l ∈ I.erase i, 1 := by
      refine (natDegree_prod_le _ _).trans (Finset.sum_le_sum fun l _ => ?_)
      exact natDegree_sub_le_of_le ((natDegree_C (x l)).le.trans (Nat.zero_le 1)) natDegree_X_le
    rw [Finset.sum_const, smul_eq_mul, Nat.mul_one, Finset.card_erase_of_mem hi] at hprod
    exact (natDegree_C_mul_le _ _).trans hprod
  have hsum := natDegree_sum_le_of_forall_le I _ hterm
  have := hI.card_pos
  exact lt_of_le_of_lt hsum (by omega)

lemma eval_numerator (x v : ι → F) (I : Finset ι) (t : F) (ht : ∀ i ∈ I, x i - t ≠ 0) :
    (numerator x v I).eval t = (∏ l ∈ I, (x l - t)) * ∑ i ∈ I, v i * (x i - t)⁻¹ := by
  rw [numerator, eval_finsetSum, Finset.mul_sum]
  apply Finset.sum_congr rfl
  intro i hi
  have hne := ht i hi
  simp only [eval_mul, eval_C, eval_prod, eval_sub, eval_X]
  rw [← Finset.mul_prod_erase I _ hi]
  field_simp

lemma eval_numerator_node (x v : ι → F) {I : Finset ι} {i : ι} (hi : i ∈ I) :
    (numerator x v I).eval (x i) = v i * ∏ l ∈ I.erase i, (x l - x i) := by
  rw [numerator, eval_finsetSum, Finset.sum_eq_single_of_mem i hi]
  · simp only [eval_mul, eval_C, eval_prod, eval_sub, eval_X]
  · intro j _ hji
    have hmem : i ∈ I.erase j := Finset.mem_erase.mpr ⟨hji.symm, hi⟩
    simp only [eval_mul, eval_C, eval_prod, eval_sub, eval_X]
    rw [Finset.prod_eq_zero hmem (sub_self _), mul_zero]

/-- A homogeneous Cauchy system with at least as many equations as unknowns has only the zero
solution. -/
theorem eq_zero_of_forall_sum_eq_zero (x v : ι → F) (I : Finset ι) (hx : Set.InjOn x I)
    (Y : Finset F) (hcard : I.card ≤ Y.card) (hxy : ∀ i ∈ I, ∀ t ∈ Y, x i - t ≠ 0)
    (hsum : ∀ t ∈ Y, ∑ i ∈ I, v i * (x i - t)⁻¹ = 0) : ∀ i ∈ I, v i = 0 := by
  intro i hi
  have hroots : ∀ t ∈ Y, (numerator x v I).eval t = 0 := by
    intro t ht
    rw [eval_numerator x v I t (fun i hi => hxy i hi t ht), hsum t ht, mul_zero]
  have hdeg := (natDegree_numerator_lt x v ⟨i, hi⟩).trans_le hcard
  have hzero := eq_zero_of_natDegree_lt_card_of_eval_eq_zero' _ Y hroots hdeg
  have hnode := eval_numerator_node x v hi
  rw [hzero, eval_zero] at hnode
  have hprod : ∏ l ∈ I.erase i, (x l - x i) ≠ 0 := by
    refine Finset.prod_ne_zero_iff.mpr fun l hl => ?_
    obtain ⟨hli, hlI⟩ := Finset.mem_erase.mp hl
    exact sub_ne_zero.mpr fun h => hli (hx hlI hi h)
  exact (mul_eq_zero.mp hnode.symm).resolve_right hprod

end CauchySystem
