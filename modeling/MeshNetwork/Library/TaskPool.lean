import Mathlib.Data.List.Induction
import MeshNetwork.Library.EventRuns

/-!
# Interleavings of runs

A run of a program is a stack of tasks over a state that all runs share. One step executes the first
task of a stack and puts the tasks that it calls in its place; the steps of different runs come in
any order.
-/

namespace TaskPool

structure Program (σ τ ι ε : Type*) where
  /-- The tasks of a new run. -/
  entry : ι → List τ
  /-- The shared state after a task, and the tasks that it calls. -/
  exec : ε → σ → τ → σ × List τ

structure Pool (σ τ : Type*) where
  shared : σ
  threads : List (List τ) := []

inductive Event (ι ε : Type*) where
  | start (input : ι)
  | advance (thread : Nat) (env : ε)

variable {σ τ ι ε : Type*}

namespace Pool

/-- No run is in progress. -/
def Idle (pool : Pool σ τ) : Prop := ∀ stack ∈ pool.threads, stack = []

instance (pool : Pool σ τ) : Decidable pool.Idle :=
  decidable_of_iff (pool.threads.all List.isEmpty = true) (by simp [Idle])

/-- Some run still has to execute `t`. -/
def Pending (pool : Pool σ τ) (t : τ) : Prop := ∃ stack ∈ pool.threads, t ∈ stack

/-- The task that a thread executes next. -/
def next (pool : Pool σ τ) (thread : Nat) : Option τ := (pool.threads.getD thread []).head?

lemma Idle.not_pending {pool : Pool σ τ} (h : pool.Idle) (t : τ) : ¬pool.Pending t := by
  rintro ⟨stack, hstack, ht⟩
  rw [h stack hstack] at ht
  exact List.not_mem_nil ht

end Pool

section Steps

variable (prog : Program σ τ ι ε)

def step (pool : Pool σ τ) : Event ι ε → Pool σ τ
  | .start input => { pool with threads := pool.threads ++ [prog.entry input] }
  | .advance thread env =>
    match pool.threads.getD thread [] with
    | [] => pool
    | t :: rest =>
      let r := prog.exec env pool.shared t
      ⟨r.1, pool.threads.set thread (r.2 ++ rest)⟩

/-- What a step can do. -/
inductive Move (pool : Pool σ τ) : Event ι ε → Pool σ τ → Prop
  | start (input : ι) : Move pool (.start input)
      { pool with threads := pool.threads ++ [prog.entry input] }
  | idle {thread : Nat} (env : ε) : pool.next thread = none → Move pool (.advance thread env) pool
  | exec {thread : Nat} (env : ε) {t : τ} {rest : List τ} :
      pool.next thread = some t → pool.threads[thread]? = some (t :: rest) →
      Move pool (.advance thread env)
        ⟨(prog.exec env pool.shared t).1, pool.threads.set thread
          ((prog.exec env pool.shared t).2 ++ rest)⟩

lemma step_advance {pool : Pool σ τ} {thread : Nat} {t : τ} {rest : List τ} (env : ε)
    (hstack : pool.threads[thread]? = some (t :: rest)) :
    step prog pool (.advance thread env) =
      ⟨(prog.exec env pool.shared t).1, pool.threads.set thread
        ((prog.exec env pool.shared t).2 ++ rest)⟩ := by
  simp [step, hstack]

lemma step_move (pool : Pool σ τ) (event : Event ι ε) :
    Move prog pool event (step prog pool event) := by
  cases event with
  | start input => exact .start input
  | advance thread env =>
    cases hstack : pool.threads[thread]? with
    | none =>
      have hstep : step prog pool (.advance thread env) = pool := by simp [step, hstack]
      rw [hstep]
      exact .idle env (by simp [Pool.next, hstack])
    | some stack =>
      cases stack with
      | nil =>
        have hstep : step prog pool (.advance thread env) = pool := by simp [step, hstack]
        rw [hstep]
        exact .idle env (by simp [Pool.next, hstack])
      | cons t rest =>
        rw [step_advance prog env hstack]
        exact .exec env (by simp [Pool.next, hstack]) hstack

end Steps

/-! ## Pending tasks -/

section Pending

variable {pool : Pool σ τ} {thread : Nat} {t u : τ} {rest called : List τ}

lemma pending_start {tasks : List τ} :
    Pool.Pending { pool with threads := pool.threads ++ [tasks] } u ↔ pool.Pending u ∨
      u ∈ tasks := by
  simp [Pool.Pending, or_and_right, exists_or]

/-- Whatever is pending stays so, the executed task apart. -/
lemma Pool.Pending.exec {s : σ} (h : pool.Pending u)
    (hstack : pool.threads[thread]? = some (t :: rest)) (hne : u ≠ t) :
    Pool.Pending ⟨s, pool.threads.set thread (called ++ rest)⟩ u := by
  obtain ⟨stack, hmem, hu⟩ := h
  obtain ⟨i, hi⟩ := List.mem_iff_getElem?.mp hmem
  by_cases hthread : thread = i
  · subst hthread
    obtain rfl := Option.some.inj (hstack.symm.trans hi)
    have hrest : u ∈ rest := (List.mem_cons.mp hu).resolve_left hne
    exact ⟨_, List.mem_set (List.getElem?_eq_some_iff.mp hstack).1 _, List.mem_append_right _ hrest⟩
  · refine ⟨stack, List.mem_iff_getElem?.mpr ⟨i, ?_⟩, hu⟩
    rw [List.getElem?_set_ne hthread]
    exact hi

lemma pending_called {s : σ} (hstack : pool.threads[thread]? = some (t :: rest)) (hu : u ∈ called) :
    Pool.Pending ⟨s, pool.threads.set thread (called ++ rest)⟩ u :=
  ⟨_, List.mem_set (List.getElem?_eq_some_iff.mp hstack).1 _, List.mem_append_left _ hu⟩

/-- A pending task was so before, or has been called. -/
lemma Pool.Pending.of_exec {s : σ}
    (h : Pool.Pending ⟨s, pool.threads.set thread (called ++ rest)⟩ u)
    (hstack : pool.threads[thread]? = some (t :: rest)) : pool.Pending u ∨ u ∈ called := by
  obtain ⟨stack, hmem, hu⟩ := h
  rcases List.mem_or_eq_of_mem_set hmem with hmem | rfl
  · exact .inl ⟨stack, hmem, hu⟩
  · rcases List.mem_append.mp hu with hu | hu
    · exact .inr hu
    · exact .inl ⟨_, List.mem_of_getElem? hstack, List.mem_cons_of_mem _ hu⟩

lemma pending_next (hstack : pool.threads[thread]? = some (t :: rest)) : pool.Pending t :=
  ⟨_, List.mem_of_getElem? hstack, List.mem_cons_self⟩

/-- The rule for what all tasks of a run have in common; it may speak about the run so far. -/
theorem pending_of_run (prog : Program σ τ ι ε) {P : List (Event ι ε) → τ → Prop} {pool : Pool σ τ}
    (hmono : ∀ events event t, P events t → P (events ++ [event]) t)
    (hinit : ∀ t, pool.Pending t → P [] t)
    (hentry : ∀ events input, ∀ t ∈ prog.entry input, P (events ++ [.start input]) t)
    (hexec : ∀ events thread env t, P events t →
      ∀ u ∈ (prog.exec env (EventRun.run (step prog) pool events).shared t).2,
        P (events ++ [.advance thread env]) u)
    (events : List (Event ι ε)) (ht : (EventRun.run (step prog) pool events).Pending t) :
    P events t := by
  induction events using List.reverseRecOn generalizing t with
  | nil => exact hinit t ht
  | append_singleton events event ih =>
    rw [EventRun.run_concat] at ht
    generalize hnow : EventRun.run (step prog) pool events = now at ht ih
    generalize hlater : step prog now event = later at ht
    cases hlater ▸ step_move prog now event with
    | start input =>
      rcases pending_start.mp ht with ht | ht
      · exact hmono _ _ _ (ih ht)
      · exact hentry events input t ht
    | idle env hidle => exact hmono _ _ _ (ih ht)
    | exec env hnext hstack =>
      rcases ht.of_exec hstack with ht | ht
      · exact hmono _ _ _ (ih ht)
      · exact hexec events _ env _ (ih (pending_next hstack)) t (hnow ▸ ht)

end Pending

/-! ## One run alone -/

section Completes

variable (prog : Program σ τ ι ε) (env : ε)

/-- The tasks, executed one after the other, lead from one shared state to another. -/
inductive Completes : σ → List τ → σ → Prop
  | done (s : σ) : Completes s [] s
  | task {s s' : σ} {t : τ} {rest : List τ} :
      Completes (prog.exec env s t).1 ((prog.exec env s t).2 ++ rest) s' →
        Completes s (t :: rest) s'

variable {prog env}

lemma Completes.append {s s' s'' : σ} {tasks tasks' : List τ} (h : Completes prog env s tasks s')
    (h' : Completes prog env s' tasks' s'') : Completes prog env s (tasks ++ tasks') s'' := by
  induction h with
  | done s => exact h'
  | task _ ih =>
    have hnext := ih h'
    rw [List.append_assoc] at hnext
    exact .task hnext

/-- A run that completes alone does so in every pool that lets it. -/
theorem Completes.run {pool : Pool σ τ} {s : σ} {tasks : List τ} {thread : Nat}
    (h : Completes prog env pool.shared tasks s) (hstack : pool.threads[thread]? = some tasks) :
    ∃ n, EventRun.run (step prog) pool (List.replicate n (.advance thread env)) =
      ⟨s, pool.threads.set thread []⟩ := by
  generalize hshared : pool.shared = s₀ at h
  induction h generalizing pool with
  | done s =>
    refine ⟨0, ?_⟩
    subst hshared
    obtain ⟨hlt, hnil⟩ := List.getElem?_eq_some_iff.mp hstack
    rw [List.replicate_zero, EventRun.run_nil, ← hnil, List.set_getElem_self]
  | @task s s' t rest _ ih =>
    subst hshared
    obtain ⟨hlt, -⟩ := List.getElem?_eq_some_iff.mp hstack
    have hstep := step_advance prog env hstack
    have hstack' : (step prog pool (.advance thread env)).threads[thread]? =
        some ((prog.exec env pool.shared t).2 ++ rest) := by
      rw [hstep, List.getElem?_set_self hlt]
    obtain ⟨n, hn⟩ := ih hstack' (by rw [hstep])
    refine ⟨n + 1, ?_⟩
    rw [List.replicate_succ, EventRun.run_cons, hn, hstep, List.set_set]

end Completes

end TaskPool
