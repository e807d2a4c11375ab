import Mathlib.Algebra.BigOperators.Fin
import Mathlib.Algebra.BigOperators.Field
import Mathlib.LinearAlgebra.Matrix.NonsingularInverse
import Mathlib.Logic.Equiv.Basic
import Mathlib.Tactic.Ring

/-!
# Gauss–Jordan elimination, one pivot at a time

The pivot step of Gauss–Jordan elimination on a square system over a field: what it preserves
(the solutions, the triviality of the kernel), what it establishes (one more unit column) and
why a pivot is always found when the kernel is trivial.
-/

namespace Elimination

variable {F : Type*} [Field F] {k : ℕ} {β : Type*}

/-- `X` solves the system with coefficients `M` and right-hand side `B`. -/
def Solves (M : Fin k → Fin k → F) (B X : Fin k → β → F) : Prop :=
  ∀ r b, ∑ c, M r c * X c b = B r b

/-- Only the zero vector is annihilated by every row of `M`. -/
def TrivialKernel (M : Fin k → Fin k → F) : Prop :=
  ∀ v : Fin k → F, (∀ r, ∑ c, M r c * v c = 0) → v = 0

/-- The first `n` columns of `M` are those of the identity. -/
def UnitColumns (M : Fin k → Fin k → F) (n : ℕ) : Prop :=
  ∀ c : Fin k, c.val < n → ∀ r, M r c = if r = c then 1 else 0

/-- Swaps row `s` into row `col`, scales it so that the pivot `M s col` becomes one, and clears
column `col` of the other rows; `A` is the coefficient matrix itself or the right-hand side. -/
def pivotStep (M : Fin k → Fin k → F) (col s : Fin k) (A : Fin k → β → F) : Fin k → β → F :=
  fun r b => if r = col then (M s col)⁻¹ * A s b
    else A (Equiv.swap col s r) b - M (Equiv.swap col s r) col * ((M s col)⁻¹ * A s b)

lemma sum_pivotStep (M : Fin k → Fin k → F) (col s r : Fin k) (v : Fin k → F) :
    ∑ c, pivotStep M col s M r c * v c = if r = col then (M s col)⁻¹ * ∑ c, M s c * v c
      else ∑ c, M (Equiv.swap col s r) c * v c -
        M (Equiv.swap col s r) col * ((M s col)⁻¹ * ∑ c, M s c * v c) := by
  by_cases h : r = col
  · simp only [pivotStep, if_pos h, Finset.mul_sum, mul_assoc]
  · simp only [pivotStep, if_neg h, Finset.mul_sum, ← Finset.sum_sub_distrib]
    exact Finset.sum_congr rfl fun c _ => by ring

theorem solves_pivotStep {M : Fin k → Fin k → F} {B X : Fin k → β → F} (h : Solves M B X)
    (col s : Fin k) : Solves (pivotStep M col s M) (pivotStep M col s B) X := by
  intro r b
  rw [sum_pivotStep M col s r (fun c => X c b), h s b, h (Equiv.swap col s r) b, pivotStep]

theorem trivialKernel_pivotStep {M : Fin k → Fin k → F} (h : TrivialKernel M) {col s : Fin k}
    (hs : M s col ≠ 0) : TrivialKernel (pivotStep M col s M) := by
  intro v hv
  apply h
  have hpivot : ∑ c, M s c * v c = 0 := by
    have := hv col
    rw [sum_pivotStep, if_pos rfl] at this
    exact (mul_eq_zero.mp this).resolve_left (inv_ne_zero hs)
  intro i
  by_cases hi : Equiv.swap col s i = col
  · have : i = s := by
      rw [← Equiv.swap_apply_self col s i, hi, Equiv.swap_apply_left]
    rw [this, hpivot]
  · have hr := hv (Equiv.swap col s i)
    rw [sum_pivotStep, if_neg hi, Equiv.swap_apply_self, hpivot] at hr
    simpa using hr

theorem unitColumns_pivotStep {M : Fin k → Fin k → F} {col s : Fin k}
    (h : UnitColumns M col) (hle : col ≤ s) (hs : M s col ≠ 0) :
    UnitColumns (pivotStep M col s M) (col + 1) := by
  intro c hc r
  rcases Nat.lt_succ_iff_lt_or_eq.mp hc with hlt | heq
  · -- an already cleared column: both swapped rows are zero there
    have hsc : M s c = 0 := by
      rw [h c hlt, if_neg]
      intro he
      rw [he] at hle
      exact absurd hle (not_le.mpr hlt)
    have hcol : c ≠ col := fun he => absurd hlt (by rw [he]; exact lt_irrefl _)
    have hcs : c ≠ s := fun he => absurd (lt_of_lt_of_le hlt hle) (by rw [he]; exact lt_irrefl _)
    rw [pivotStep, hsc, mul_zero, mul_zero, sub_zero]
    by_cases hr : r = col
    · rw [if_pos hr, if_neg (fun he => hcol (he.symm.trans hr))]
    · rw [if_neg hr, h c hlt]
      by_cases hrs : r = s
      · rw [hrs, Equiv.swap_apply_right, if_neg hcol.symm, if_neg hcs.symm]
      · rw [Equiv.swap_apply_of_ne_of_ne hr hrs]
  · have hc' : c = col := Fin.ext heq
    subst hc'
    by_cases hr : r = c
    · rw [pivotStep, if_pos hr, if_pos hr, inv_mul_cancel₀ hs]
    · rw [pivotStep, if_neg hr, if_neg hr, inv_mul_cancel₀ hs, mul_one, sub_self]

/-- Below the completed unit columns a matrix with trivial kernel has a pivot: otherwise the
next column would be a combination of the unit columns. -/
theorem exists_pivot {M : Fin k → Fin k → F} (h : TrivialKernel M) {col : Fin k}
    (hu : UnitColumns M col) : ∃ s, col ≤ s ∧ M s col ≠ 0 := by
  by_contra! hno
  let v : Fin k → F := fun c => if c = col then 1 else if c < col then -M c col else 0
  have hv : ∀ r, ∑ c, M r c * v c = 0 := by
    intro r
    have hterm : ∀ c, M r c * v c = (if c = col then M r col else 0) +
        (if c = r then (if c < col then -M c col else 0) else 0) := by
      intro c
      by_cases hc : c = col
      · subst hc
        simp [v]
      · by_cases hlt : c < col
        · by_cases hcr : c = r
          · subst hcr
            simp [v, hc, hlt, hu c hlt c]
          · simp [v, hc, hlt, hcr, hu c hlt r, Ne.symm hcr]
        · simp [v, hc, hlt]
    rw [Finset.sum_congr rfl (fun c _ => hterm c), Finset.sum_add_distrib,
      Finset.sum_ite_eq' Finset.univ col, Finset.sum_ite_eq' Finset.univ r]
    simp only [Finset.mem_univ, if_true]
    by_cases hr : r < col
    · rw [if_pos hr, add_neg_cancel]
    · rw [if_neg hr, hno r (not_lt.mp hr), add_zero]
  have hcol := congrFun (h v hv) col
  simp [v] at hcol

/-- A square system with trivial kernel can be solved for every right-hand side. -/
theorem exists_solves {M : Fin k → Fin k → F} (h : TrivialKernel M) (B : Fin k → β → F) :
    ∃ X, Solves M B X := by
  have hinj : Function.Injective (Matrix.of M).mulVec := by
    intro v w hvw
    have hdiff := h (v - w) fun r => by
      have hr := congrFun hvw r
      simp only [Matrix.mulVec, dotProduct, Matrix.of_apply] at hr
      simp only [Pi.sub_apply, mul_sub, Finset.sum_sub_distrib, hr, sub_self]
    exact sub_eq_zero.mp hdiff
  have hsurj := Matrix.mulVec_surjective_iff_isUnit.mpr (Matrix.mulVec_injective_iff_isUnit.mp hinj)
  choose v hv using fun b => hsurj fun r => B r b
  exact ⟨fun c b => v b c, fun r b => congrFun (hv b) r⟩

theorem solves_unique {M : Fin k → Fin k → F} (h : TrivialKernel M) {B X Y : Fin k → β → F}
    (hX : Solves M B X) (hY : Solves M B Y) : X = Y := by
  funext c b
  have hdiff := h (fun c => X c b - Y c b) fun r => by
    simp only [mul_sub, Finset.sum_sub_distrib, hX r b, hY r b, sub_self]
  exact sub_eq_zero.mp (congrFun hdiff c)

theorem eq_of_unitColumns {M : Fin k → Fin k → F} {B X : Fin k → β → F} (hu : UnitColumns M k)
    (h : Solves M B X) : B = X := by
  funext r b
  rw [← h r b, Finset.sum_congr rfl (fun c _ => by rw [hu c c.isLt r])]
  simp

end Elimination
