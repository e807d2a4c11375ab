import Mathlib.Tactic.Common

/-!
# Machines whose state is split by keys

A machine that answers each input from the part of its state under the key of the input, and changes
only that part. The answers to the inputs of some keys are then those that the machine gives if it
gets these inputs alone.
-/

namespace KeyedMachine

variable {σ ι ο κ β : Type*} (step : σ → ι → ο × σ)

/-- The inputs of a run, each with the output it causes. -/
def outputs : σ → List ι → List (ι × ο)
  | _, [] => []
  | s, i :: is => (i, (step s i).1) :: outputs (step s i).2 is

/-- `view s k` is the part of the state under the key `k`. -/
structure Keyed (key : ι → κ) (view : σ → κ → β) : Prop where
  local_output : ∀ s s' i, view s (key i) = view s' (key i) → (step s i).1 = (step s' i).1
  local_step : ∀ s s' i, view s (key i) = view s' (key i) →
    view (step s i).2 (key i) = view (step s' i).2 (key i)
  frame : ∀ s i k, k ≠ key i → view (step s i).2 k = view s k

variable {step} {key : ι → κ} {view : σ → κ → β}

/-- Two runs from states that agree under the selected keys. -/
lemma Keyed.outputs_filter_of_agree (h : Keyed step key view) (p : κ → Bool) {s s' : σ}
    (hagree : ∀ k, p k → view s k = view s' k) (is : List ι) :
    (outputs step s is).filter (fun io => p (key io.1)) =
      outputs step s' (is.filter fun i => p (key i)) := by
  induction is generalizing s s' with
  | nil => rfl
  | cons i is ih =>
    cases hi : p (key i) with
    | true =>
      have hkey := hagree (key i) hi
      have hnext : ∀ k, p k → view (step s i).2 k = view (step s' i).2 k := by
        intro k hk
        by_cases heq : k = key i
        · rw [heq]
          exact h.local_step s s' i hkey
        · rw [h.frame s i k heq, h.frame s' i k heq, hagree k hk]
      simp only [outputs, List.filter_cons, hi, if_true]
      rw [ih hnext, h.local_output s s' i hkey]
    | false =>
      have hnext : ∀ k, p k → view (step s i).2 k = view s' k := by
        intro k hk
        rw [h.frame s i k, hagree k hk]
        rintro rfl
        rw [hi] at hk
        cases hk
      simp only [outputs, List.filter_cons, hi, Bool.false_eq_true, if_false]
      exact ih hnext

/-- The inputs under other keys do not show in the outputs. -/
theorem Keyed.outputs_filter (h : Keyed step key view) (p : κ → Bool) (s : σ) (is : List ι) :
    (outputs step s is).filter (fun io => p (key io.1)) =
      outputs step s (is.filter fun i => p (key i)) :=
  h.outputs_filter_of_agree p (fun _ _ => rfl) is

end KeyedMachine
