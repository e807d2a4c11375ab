import Mathlib.Data.Set.Card
import MeshNetwork.Library.EventRuns

/-!
# Sets whose values expire

A set of values, each with the time of its insertion, from which a cleanup removes those that do not
live any longer. A value is in the set because of one insertion: the one that found it absent.
-/

namespace TimedSet

inductive Call (α : Type*) where
  | insert (value : α)
  | contains (value : α)
  | cleanup
  | clear
  | size

inductive Answer where
  | flag (b : Bool)
  | count (n : ℕ)
  | done
  deriving DecidableEq

variable {α T : Type*}

/-- The values of the set with the times at which they were inserted. -/
abbrev State (α T : Type*) := α → Option T

variable [DecidableEq α] (lives : T → T → Prop) [DecidableRel lives]

/-- The state after a call at a given time; `lives t now` is that a value inserted at `t` survives a
cleanup at `now`. -/
def step (s : State α T) : T × Call α → State α T
  | (now, .insert v) => if (s v).isSome then s else Function.update s v (some now)
  | (now, .cleanup) => fun v => (s v).filter fun t => lives t now
  | (_, .clear) => fun _ => none
  | (_, .contains _) => s
  | (_, .size) => s

noncomputable def answer (s : State α T) : Call α → Answer
  | .insert v => .flag (s v).isNone
  | .contains v => .flag (s v).isSome
  | .cleanup => .done
  | .clear => .done
  | .size => .count {v | (s v).isSome}.ncard

noncomputable def call (s : State α T) (c : T × Call α) : Answer × State α T :=
  (answer s c.2, step lives s c)

/-- The call leaves a value that was inserted at `t` in the set. -/
def Spares (t : T) (c : T × Call α) : Prop := c.2 ≠ .clear ∧ (c.2 = .cleanup → lives t c.1)

variable {lives} {s : State α T} {v : α} {t : T}

/-- An entry is there after a call if the call made it, or if it was there and has been spared. -/
lemma step_eq_some_iff (c : T × Call α) :
    step lives s c v = some t ↔ (s v = none ∧ c = (t, .insert v)) ∨
      (s v = some t ∧ Spares lives t c) := by
  obtain ⟨now, call⟩ := c
  cases call with
  | insert w =>
    by_cases hw : w = v
    · subst hw
      cases hs : s w with
      | none => simp [step, Spares, hs]
      | some t' => simp [step, Spares, hs]
    · have hkeep : step lives s (now, .insert w) v = s v := by
        unfold step
        dsimp only
        split_ifs
        · rfl
        · rw [Function.update_of_ne (Ne.symm hw)]
      simp [hkeep, Spares, hw]
  | contains w => simp [step, Spares]
  | cleanup => simp [step, Spares, Option.filter_eq_some_iff]
  | clear => simp [step, Spares]
  | size => simp [step, Spares]

/-- A value is in the set because of one call that inserted it while it was absent, and that all
later calls spare. -/
theorem run_eq_some_iff (calls : List (T × Call α)) :
    EventRun.run (step lives) (fun _ => none) calls v = some t ↔
      ∃ before after, calls = before ++ (t, .insert v) :: after ∧
        EventRun.run (step lives) (fun _ => none) before v = none ∧
          ∀ c ∈ after, Spares lives t c := by
  induction calls using List.reverseRecOn with
  | nil => simp
  | append_singleton calls c ih =>
    rw [EventRun.run_concat, step_eq_some_iff, ih]
    constructor
    · rintro (⟨habsent, rfl⟩ | ⟨⟨before, after, rfl, habsent, hspared⟩, hc⟩)
      · exact ⟨calls, [], rfl, habsent, fun c hc => absurd hc List.not_mem_nil⟩
      · refine ⟨before, after ++ [c], by simp, habsent, fun c' hc' => ?_⟩
        rcases List.mem_append.mp hc' with hold | hlast
        · exact hspared c' hold
        · rw [List.mem_singleton.mp hlast]
          exact hc
    · rintro ⟨before, after, heq, habsent, hspared⟩
      rcases List.eq_nil_or_concat' after with rfl | ⟨after, c', rfl⟩
      · obtain ⟨rfl, hlast⟩ := List.append_inj' heq rfl
        exact .inl ⟨habsent, (List.cons.inj hlast).1⟩
      · rw [← List.cons_append, ← List.append_assoc] at heq
        obtain ⟨hcalls, hlast⟩ := List.append_inj' heq rfl
        obtain rfl : c = c' := (List.cons.inj hlast).1
        refine .inr ⟨⟨before, after, hcalls, habsent, fun c' hc' => ?_⟩, ?_⟩
        · exact hspared c' (List.mem_append_left _ hc')
        · exact hspared c (List.mem_append_right _ (List.mem_singleton_self c))

end TimedSet
