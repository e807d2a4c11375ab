import Mathlib.Algebra.Field.Basic
import Mathlib.Algebra.Group.Hom.Basic
import Mathlib.Logic.Function.Iterate

/-!
# Fields presented by a generator

A finite field is often implemented by two tables: the powers of one generator and the
discrete logarithms to that base. This file proves the multiplicative laws from the little
such tables have to satisfy: multiplication by the generator is additive, it returns after
`order` steps, and every nonzero element is a power of the generator.
-/

namespace GeneratorField

/-- An additive group whose nonzero elements are the iterates of the additive map `step` on
`one`; `log` finds the iterate. -/
structure Generator (V : Type*) [AddCommGroup V] where
  step : V →+ V
  one : V
  order : ℕ
  log : V → ℕ
  one_ne_zero : one ≠ 0
  log_lt : ∀ v, log v < order
  step_order : ∀ v, step^[order] v = v
  step_log : ∀ v, v ≠ 0 → step^[log v] one = v

variable {V : Type*} [AddCommGroup V] [DecidableEq V] (g : Generator V)

/-- The product: multiplying by the power `log a` of the generator. -/
def Generator.mul (a b : V) : V := if a = 0 then 0 else g.step^[g.log a] b

/-- The inverse: the power of the generator that completes `log a` to the order. -/
def Generator.inv (a : V) : V := if a = 0 then 0 else g.step^[g.order - g.log a] g.one

omit [DecidableEq V] in
lemma iterate_step_add (n : ℕ) (a b : V) :
    g.step^[n] (a + b) = g.step^[n] a + g.step^[n] b := by
  induction n generalizing a b with
  | zero => rfl
  | succ n ih =>
    rw [Function.iterate_succ_apply, Function.iterate_succ_apply, Function.iterate_succ_apply,
      map_add, ih]

omit [DecidableEq V] in
lemma iterate_step_zero (n : ℕ) : g.step^[n] 0 = 0 := by
  induction n with
  | zero => rfl
  | succ n ih => rw [Function.iterate_succ_apply, map_zero, ih]

omit [DecidableEq V] in
lemma iterate_step_one_ne_zero (n : ℕ) : g.step^[n] g.one ≠ 0 := by
  intro h
  have hret : g.step^[g.order * n] g.one = g.one := by
    rw [Function.iterate_mul]
    exact Function.iterate_fixed (g.step_order g.one) n
  have hsplit : g.order * n = (g.order * n - n) + n := by
    have hpos : 0 < g.order := (Nat.zero_le _).trans_lt (g.log_lt 0)
    have := Nat.le_mul_of_pos_left n hpos
    omega
  rw [hsplit, Function.iterate_add_apply, h, iterate_step_zero] at hret
  exact g.one_ne_zero hret.symm

omit [DecidableEq V] in
/-- An iterate of `step` is determined by its value at `one`: every nonzero element is itself
an iterate of `step` on `one`, and iterates commute. -/
lemma iterate_step_eq_of_one {m n : ℕ} (h : g.step^[m] g.one = g.step^[n] g.one) (v : V) :
    g.step^[m] v = g.step^[n] v := by
  by_cases hv : v = 0
  · rw [hv, iterate_step_zero, iterate_step_zero]
  · rw [← g.step_log v hv, ← Function.iterate_add_apply, ← Function.iterate_add_apply,
      Nat.add_comm m, Nat.add_comm n, Function.iterate_add_apply, Function.iterate_add_apply, h]

lemma mul_iterate_one (n : ℕ) (b : V) : g.mul (g.step^[n] g.one) b = g.step^[n] b := by
  have hne := iterate_step_one_ne_zero g n
  rw [Generator.mul, if_neg hne]
  apply iterate_step_eq_of_one
  exact g.step_log _ hne

lemma zero_mul (b : V) : g.mul 0 b = 0 := by simp [Generator.mul]

/-- Every element is zero or a power of the generator. -/
lemma eq_zero_or_iterate (a : V) : a = 0 ∨ ∃ n, a = g.step^[n] g.one := by
  by_cases ha : a = 0
  · exact Or.inl ha
  · exact Or.inr ⟨g.log a, (g.step_log a ha).symm⟩

lemma mul_zero (a : V) : g.mul a 0 = 0 := by
  rcases eq_zero_or_iterate g a with rfl | ⟨n, rfl⟩
  · exact zero_mul g 0
  · rw [mul_iterate_one, iterate_step_zero]

theorem mul_comm (a b : V) : g.mul a b = g.mul b a := by
  rcases eq_zero_or_iterate g a with rfl | ⟨m, rfl⟩
  · rw [zero_mul, mul_zero]
  · rcases eq_zero_or_iterate g b with rfl | ⟨n, rfl⟩
    · rw [zero_mul, mul_zero]
    · rw [mul_iterate_one, mul_iterate_one, ← Function.iterate_add_apply,
        ← Function.iterate_add_apply, Nat.add_comm]

theorem mul_assoc (a b c : V) : g.mul (g.mul a b) c = g.mul a (g.mul b c) := by
  rcases eq_zero_or_iterate g a with rfl | ⟨m, rfl⟩
  · simp only [zero_mul]
  · rcases eq_zero_or_iterate g b with rfl | ⟨n, rfl⟩
    · simp only [zero_mul, mul_zero]
    · rw [mul_iterate_one, mul_iterate_one, ← Function.iterate_add_apply, mul_iterate_one,
        mul_iterate_one, ← Function.iterate_add_apply]

theorem one_mul (b : V) : g.mul g.one b = b := mul_iterate_one g 0 b

theorem mul_add (a b c : V) : g.mul a (b + c) = g.mul a b + g.mul a c := by
  rcases eq_zero_or_iterate g a with rfl | ⟨n, rfl⟩
  · simp only [zero_mul, add_zero]
  · simp only [mul_iterate_one, iterate_step_add]

theorem mul_inv_cancel {a : V} (ha : a ≠ 0) : g.mul a (g.inv a) = g.one := by
  have hlt := g.log_lt a
  rw [Generator.inv, if_neg ha, Generator.mul, if_neg ha, ← Function.iterate_add_apply,
    show g.log a + (g.order - g.log a) = g.order by omega, g.step_order]

end GeneratorField
