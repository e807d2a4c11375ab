import Mathlib.Data.List.Basic
import Mathlib.Logic.Relation

/-!
# Runs of machines that take one event at a time

Properties of every state of a run, and the events that a run has to admit for them.
-/

namespace EventRun

variable {σ ε : Type*} (step : σ → ε → σ)

/-- The state after `events`. -/
def run (s : σ) (events : List ε) : σ := events.foldl step s

@[simp] lemma run_nil (s : σ) : run step s [] = s := rfl

@[simp] lemma run_cons (s : σ) (e : ε) (events : List ε) :
    run step s (e :: events) = run step (step s e) events := rfl

lemma run_append (s : σ) (before after : List ε) :
    run step s (before ++ after) = run step (run step s before) after :=
  List.foldl_append

lemma run_concat (s : σ) (events : List ε) (e : ε) :
    run step s (events ++ [e]) = step (run step s events) e := by
  simp [run_append]

/-- The property holds in every state of the run. -/
def Always (inv : σ → Prop) (s : σ) (events : List ε) : Prop :=
  ∀ pre, pre <+: events → inv (run step s pre)

/-- Each event of the run is admitted by the state that takes it. -/
def Guarded (guard : σ → ε → Prop) : σ → List ε → Prop
  | _, [] => True
  | s, e :: events => guard s e ∧ Guarded guard (step s e) events

instance Guarded.decidable {guard : σ → ε → Prop} [∀ s e, Decidable (guard s e)] :
    ∀ s events, Decidable (Guarded step guard s events)
  | _, [] => inferInstanceAs (Decidable True)
  | s, e :: events =>
    have : Decidable (Guarded step guard (step s e) events) := Guarded.decidable (step s e) events
    inferInstanceAs (Decidable (guard s e ∧ Guarded step guard (step s e) events))

variable {step}

lemma Guarded.mono {guard guard' : σ → ε → Prop} (himp : ∀ s e, guard s e → guard' s e) {s : σ}
    {events : List ε} (h : Guarded step guard s events) : Guarded step guard' s events := by
  induction events generalizing s with
  | nil => trivial
  | cons e events ih => exact ⟨himp s e h.1, ih h.2⟩

/-- A guarded run takes the steps that the guard admits. -/
lemma Guarded.reflTransGen {guard : σ → ε → Prop} {r : σ → σ → Prop}
    (hstep : ∀ s e, guard s e → r s (step s e)) {s : σ} {events : List ε}
    (h : Guarded step guard s events) : Relation.ReflTransGen r s (run step s events) := by
  induction events generalizing s with
  | nil => exact .refl
  | cons e events ih => exact .head (hstep s e h.1) (ih h.2)

lemma always_nil {inv : σ → Prop} {s : σ} : Always step inv s [] ↔ inv s := by
  simp [Always]

lemma always_cons {inv : σ → Prop} {s : σ} {e : ε} {events : List ε} :
    Always step inv s (e :: events) ↔ inv s ∧ Always step inv (step s e) events := by
  constructor
  · intro h
    exact ⟨h [] (List.nil_prefix), fun pre hpre => h (e :: pre) ((List.prefix_cons_inj e).mpr hpre)⟩
  · rintro ⟨hs, hrest⟩ pre hpre
    rcases List.prefix_cons_iff.mp hpre with rfl | ⟨pre', rfl, hpre'⟩
    · exact hs
    · exact hrest pre' hpre'

lemma guarded_append {guard : σ → ε → Prop} {s : σ} {before after : List ε} :
    Guarded step guard s (before ++ after) ↔
      Guarded step guard s before ∧ Guarded step guard (run step s before) after := by
  induction before generalizing s with
  | nil => simp [Guarded]
  | cons e before ih => simp [Guarded, ih, and_assoc]

/-- The rule for properties that the admitted steps keep. -/
lemma always_of_guarded {inv : σ → Prop} {guard : σ → ε → Prop}
    (hstep : ∀ s e, inv s → guard s e → inv (step s e)) {s : σ} (hs : inv s) {events : List ε}
    (h : Guarded step guard s events) : Always step inv s events := by
  induction events generalizing s with
  | nil => exact always_nil.mpr hs
  | cons e events ih => exact always_cons.mpr ⟨hs, ih (hstep s e hs h.1) h.2⟩

/-- A property that a step keeps exactly if it admits the event holds along a run exactly if all its
events are admitted. -/
theorem always_iff_guarded {aux inv : σ → Prop} {guard : σ → ε → Prop}
    (haux : ∀ s e, aux s → aux (step s e))
    (hstep : ∀ s e, aux s → inv s → (inv (step s e) ↔ guard s e)) {s : σ} (hs : aux s)
    (hinit : inv s) (events : List ε) :
    Always step inv s events ↔ Guarded step guard s events := by
  induction events generalizing s with
  | nil => simp [always_nil, Guarded, hinit]
  | cons e events ih =>
    rw [always_cons, Guarded]
    constructor
    · rintro ⟨-, hrest⟩
      have hnext : inv (step s e) := hrest [] List.nil_prefix
      exact ⟨(hstep s e hs hinit).mp hnext, (ih (haux s e hs) hnext).mp hrest⟩
    · rintro ⟨hguard, hrest⟩
      have hnext : inv (step s e) := (hstep s e hs hinit).mpr hguard
      exact ⟨hinit, (ih (haux s e hs) hnext).mpr hrest⟩

/-- The same without an auxiliary invariant. -/
theorem always_iff_guarded_of_step {inv : σ → Prop} {guard : σ → ε → Prop}
    (hstep : ∀ s e, inv s → (inv (step s e) ↔ guard s e)) {s : σ} (hinit : inv s)
    (events : List ε) :
    Always step inv s events ↔ Guarded step guard s events := by
  have haux : ∀ s e, (fun _ : σ => True) s → (fun _ : σ => True) (step s e) := fun _ _ => id
  exact always_iff_guarded haux (fun s e _ => hstep s e) trivial hinit events

end EventRun
