import Mathlib.Order.WellFounded

/-!
# Progress under fair schedules

A rank that no step raises and that some later step lowers reaches its goal.
-/

namespace FairProgress

variable {β : Type*} [LinearOrder β]

/-- The rank stays or falls as long as the goal has not been reached. -/
lemma rank_le {goal : ℕ → Prop} {rank : ℕ → β} {m : ℕ}
    (hstep : ∀ i, m ≤ i → ¬goal i → goal (i + 1) ∨ rank (i + 1) ≤ rank i) {j : ℕ} (hj : m ≤ j)
    (hnot : ∀ i, m ≤ i → i ≤ j → ¬goal i) : rank j ≤ rank m := by
  induction j, hj using Nat.le_induction with
  | base => exact le_rfl
  | succ j hj ih =>
    rcases hstep j hj (hnot j hj (Nat.le_succ j)) with hgoal | hle
    · exact absurd hgoal (hnot (j + 1) (Nat.le_succ_of_le hj) le_rfl)
    · exact hle.trans (ih fun i hi hij => hnot i hi (Nat.le_succ_of_le hij))

/-- From every step on, some step lowers the rank unless it has been lowered before. -/
lemma eventually_of_rank [WellFoundedLT β] {goal : ℕ → Prop} {rank : ℕ → β} {m : ℕ}
    (hstep : ∀ i, m ≤ i → ¬goal i → goal (i + 1) ∨ rank (i + 1) ≤ rank i)
    (hfair : ∀ i, m ≤ i → ¬goal i → ∃ j, i ≤ j ∧
      (¬goal j → rank j = rank i → goal (j + 1) ∨ rank (j + 1) < rank j)) : ∃ j, m ≤ j ∧
        goal j := by
  suffices hall : ∀ b i, m ≤ i → rank i = b → ∃ j, m ≤ j ∧ goal j from hall _ m le_rfl rfl
  intro b
  induction b using WellFoundedLT.induction with
  | ind b ih =>
    intro i hi hb
    by_contra hnone
    have hnot : ∀ j, m ≤ j → ¬goal j := fun j hj hgoal => hnone ⟨j, hj, hgoal⟩
    obtain ⟨j, hij, hlower⟩ := hfair i hi (hnot i hi)
    have hle : rank j ≤ rank i :=
      rank_le (fun k hk => hstep k (hi.trans hk)) hij fun k hk _ => hnot k (hi.trans hk)
    rcases hle.lt_or_eq with hlt | heq
    · exact hnone (ih (rank j) (hb ▸ hlt) j (hi.trans hij) rfl)
    · rcases hlower (hnot j (hi.trans hij)) heq with hgoal | hlt
      · exact hnot (j + 1) (by omega) hgoal
      · rw [heq, hb] at hlt
        exact hnone (ih (rank (j + 1)) hlt (j + 1) (by omega) rfl)

end FairProgress
