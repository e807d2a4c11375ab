import MeshNetwork.Library.KeyedMachine
import MeshNetwork.Model.DedupSet

/-!
# The set and the queue of `TimedDedupSet`

Through all operations the values in the queue are those of the set, and each occurs there once. If
the clock does not go back, the queue is in the order of its times, and the whole is a timed set:
`cleanup`, which stops at the first young entry, removes all that are old.
-/

namespace MeshNetwork.Proofs

variable {α : Type} [DecidableEq α] {s : TimedDedupSet α}

structure InStep (s : TimedDedupSet α) : Prop where
  mem : ∀ v, v ∈ s.set ↔ v ∈ s.timeQueue.map Prod.snd
  nodup : (s.timeQueue.map Prod.snd).Nodup

omit [DecidableEq α] in
lemma inStep_empty (maxAge : Time) : InStep ({ maxAge } : TimedDedupSet α) :=
  ⟨fun v => by simp, List.nodup_nil⟩

lemma InStep.insert (h : InStep s) (value : α) (now : Time) : InStep (s.insert value now).2 := by
  unfold TimedDedupSet.insert
  split_ifs with hmem
  · exact h
  · have hnew : value ∉ s.timeQueue.map Prod.snd := fun hq => hmem ((h.mem value).mpr hq)
    constructor
    · intro v
      simp [h.mem v, or_comm]
    · dsimp only
      rw [List.map_append, List.map_singleton, List.nodup_append]
      refine ⟨h.nodup, List.nodup_singleton value, ?_⟩
      intro v hv w hw heq
      rw [List.mem_singleton] at hw
      rw [heq, hw] at hv
      exact hnew hv

/-- The loop of `cleanup` takes entries from the front of the queue and their values from the
set. -/
lemma dropExpired_inStep (now maxAge : Time) (queue : List (Time × α)) (set : Finset α)
    (hmem : ∀ v, v ∈ set ↔ v ∈ queue.map Prod.snd) (hnodup : (queue.map Prod.snd).Nodup) :
    let r := TimedDedupSet.dropExpired now maxAge queue set
    (∀ v, v ∈ r.2 ↔ v ∈ r.1.map Prod.snd) ∧ (r.1.map Prod.snd).Nodup := by
  induction queue generalizing set with
  | nil => exact ⟨hmem, hnodup⟩
  | cons entry rest ih =>
    obtain ⟨timestamp, value⟩ := entry
    rw [List.map_cons, List.nodup_cons] at hnodup
    unfold TimedDedupSet.dropExpired
    split_ifs
    · refine ih (set.erase value) (fun v => ?_) hnodup.2
      rw [Finset.mem_erase, hmem v, List.map_cons, List.mem_cons]
      constructor
      · rintro ⟨hne, heq | hrest⟩
        · exact absurd heq hne
        · exact hrest
      · intro hrest
        exact ⟨fun heq => hnodup.1 (heq ▸ hrest), .inr hrest⟩
    · exact ⟨hmem, List.nodup_cons.mpr hnodup⟩

lemma InStep.cleanup (h : InStep s) (now : Time) : InStep (s.cleanup now) := by
  obtain ⟨hmem, hnodup⟩ := dropExpired_inStep now s.maxAge s.timeQueue s.set h.mem h.nodup
  exact ⟨hmem, hnodup⟩

omit [DecidableEq α] in
lemma InStep.clear (s : TimedDedupSet α) : InStep s.clear :=
  ⟨fun v => by simp [TimedDedupSet.clear], List.nodup_nil⟩

/-! ## Refinement of a timed set -/

/-- An entry made at `t` survives a cleanup at `now`. -/
abbrev Lives (maxAge t now : Time) : Prop := now ≤ t + maxAge

/-- The timed set `a` that the queue stands for; no reading of the clock so far is later than
`now`. -/
structure Refines (now : Time) (s : TimedDedupSet α) (a : TimedSet.State α Time) : Prop where
  inStep : InStep s
  ordered : (s.timeQueue.map Prod.fst).Pairwise (· ≤ ·)
  past : ∀ e ∈ s.timeQueue, e.1 ≤ now
  entries : ∀ t v, (t, v) ∈ s.timeQueue ↔ a v = some t

variable {now now' : Time} {a : TimedSet.State α Time}

omit [DecidableEq α] in
lemma refines_create (now maxAge : Time) :
    Refines now ({ maxAge } : TimedDedupSet α) fun _ => none :=
  ⟨inStep_empty maxAge, List.Pairwise.nil, by simp, by simp⟩

omit [DecidableEq α] in
lemma Refines.later (h : Refines now s a) (hle : now ≤ now') : Refines now' s a :=
  ⟨h.inStep, h.ordered, fun e he => (h.past e he).trans hle, h.entries⟩

omit [DecidableEq α] in
lemma Refines.mem_iff (h : Refines now s a) (v : α) : v ∈ s.set ↔ (a v).isSome := by
  rw [h.inStep.mem, Option.isSome_iff_exists, List.mem_map]
  constructor
  · rintro ⟨⟨t, w⟩, he, rfl⟩
    exact ⟨t, (h.entries t w).mp he⟩
  · rintro ⟨t, ht⟩
    exact ⟨(t, v), (h.entries t v).mpr ht, rfl⟩

/-- In a queue that is ordered by its times the loop of `cleanup` keeps exactly the young
entries. -/
lemma dropExpired_eq_filter (now maxAge : Time) (queue : List (Time × α)) (set : Finset α)
    (hordered : (queue.map Prod.fst).Pairwise (· ≤ ·)) :
    (TimedDedupSet.dropExpired now maxAge queue set).1 = queue.filter fun e =>
      Lives maxAge e.1 now := by
  induction queue generalizing set with
  | nil => rfl
  | cons entry rest ih =>
    obtain ⟨timestamp, value⟩ := entry
    rw [List.map_cons, List.pairwise_cons] at hordered
    unfold TimedDedupSet.dropExpired
    by_cases hold : now - timestamp > maxAge
    · have hdead : ¬Lives maxAge timestamp now := by
        unfold Lives Time at *
        omega
      rw [if_pos hold, ih _ hordered.2, List.filter_cons_of_neg (by simpa using hdead)]
    · -- the entries behind a young one are younger
      have hyoung : ∀ e ∈ (timestamp, value) :: rest, Lives maxAge e.1 now := by
        intro e he
        have hle : timestamp ≤ e.1 := by
          rcases List.mem_cons.mp he with rfl | he
          · exact le_rfl
          · exact hordered.1 e.1 (List.mem_map_of_mem he)
        unfold Lives Time at *
        omega
      rw [if_neg hold, List.filter_eq_self.mpr (by simpa using hyoung)]

lemma Refines.cleanup_queue (h : Refines now s a) (now' : Time) :
    (s.cleanup now').timeQueue = s.timeQueue.filter fun e => Lives s.maxAge e.1 now' :=
  dropExpired_eq_filter now' s.maxAge s.timeQueue s.set h.ordered

lemma Refines.cleanup (h : Refines now s a) (now' : Time) :
    Refines now (s.cleanup now') (TimedSet.step (Lives s.maxAge) a (now', .cleanup)) := by
  have hqueue := h.cleanup_queue now'
  refine ⟨h.inStep.cleanup now', ?_, fun e he => ?_, fun t v => ?_⟩
  · rw [hqueue]
    exact h.ordered.sublist (List.filter_sublist.map Prod.fst)
  · rw [hqueue] at he
    exact h.past e (List.mem_of_mem_filter he)
  · rw [hqueue, List.mem_filter, h.entries, TimedSet.step, Option.filter_eq_some_iff]

omit [DecidableEq α] in
lemma refines_clear (s : TimedDedupSet α) (now : Time) : Refines now s.clear fun _ => none :=
  ⟨InStep.clear s, List.Pairwise.nil, by simp [TimedDedupSet.clear], by simp [TimedDedupSet.clear]⟩

lemma Refines.insert (h : Refines now s a) (value : α) (hle : now ≤ now') :
    Refines now' (s.insert value now').2 (TimedSet.step (Lives s.maxAge) a
      (now', .insert value)) := by
  have hin := h.inStep.insert value now'
  have hmem := h.mem_iff value
  unfold TimedDedupSet.insert at hin ⊢
  unfold TimedSet.step
  dsimp only
  by_cases hv : value ∈ s.set
  · rw [if_pos hv, if_pos (hmem.mp hv)]
    exact h.later hle
  · have habsent : a value = none := by
      rw [← Option.not_isSome_iff_eq_none, ← hmem]
      exact hv
    rw [if_neg hv] at hin
    rw [if_neg hv, if_neg (fun hsome => hv (hmem.mpr hsome))]
    refine ⟨hin, ?_, fun e he => ?_, fun t v => ?_⟩
    · -- the new entry is the youngest
      dsimp only
      rw [List.map_append, List.map_singleton, List.pairwise_append]
      refine ⟨h.ordered, List.pairwise_singleton _ _, fun t ht t' ht' => ?_⟩
      obtain ⟨e, he, rfl⟩ := List.mem_map.mp ht
      rw [List.mem_singleton.mp ht']
      exact (h.past e he).trans hle
    · rcases List.mem_append.mp he with hold | hnew
      · exact (h.past e hold).trans hle
      · rw [List.mem_singleton.mp hnew]
    · dsimp only
      rw [List.mem_append, List.mem_singleton, h.entries]
      by_cases heq : v = value
      · subst heq
        rw [Function.update_self, habsent]
        simp [eq_comm]
      · rw [Function.update_of_ne heq]
        simp [heq]

omit [DecidableEq α] in
lemma Refines.card_eq (h : Refines now s a) : s.set.card = {v | (a v).isSome}.ncard := by
  have hset : {v | (a v).isSome} = (s.set : Set α) := by
    ext v
    exact (h.mem_iff v).symm
  rw [hset, Set.ncard_coe_finset]

/-- One call: the same answer, and the timed set after it. -/
lemma Refines.call (h : Refines now s a) (c : Time × TimedSet.Call α) (hle : now ≤ c.1) :
    (s.call c).1 = TimedSet.answer a c.2 ∧ Refines c.1 (s.step c) (TimedSet.step (Lives s.maxAge)
      a c) := by
  obtain ⟨now', call⟩ := c
  cases call with
  | insert v =>
    refine ⟨?_, h.insert v hle⟩
    have hmem := h.mem_iff v
    unfold TimedDedupSet.call TimedDedupSet.insert TimedSet.answer
    cases hav : a v with
    | none => simp [hmem, hav]
    | some t => simp [hmem, hav]
  | contains v =>
    refine ⟨?_, h.later hle⟩
    unfold TimedDedupSet.call TimedDedupSet.contains TimedSet.answer
    simp [h.mem_iff v]
  | cleanup => exact ⟨rfl, (h.cleanup now').later hle⟩
  | clear => exact ⟨rfl, refines_clear s now'⟩
  | size =>
    refine ⟨?_, h.later hle⟩
    unfold TimedDedupSet.call TimedDedupSet.size TimedSet.answer
    rw [h.card_eq]

lemma step_maxAge (s : TimedDedupSet α) (c : Time × TimedSet.Call α) :
    (s.step c).maxAge = s.maxAge := by
  obtain ⟨now, call⟩ := c
  cases call with
  | insert v =>
    unfold TimedDedupSet.step TimedDedupSet.call TimedDedupSet.insert
    dsimp only
    split_ifs <;> rfl
  | _ => rfl

/-- A run of calls under a clock that does not go back. -/
lemma Refines.run (h : Refines now s a) (calls : List (Time × TimedSet.Call α))
    (hclock : calls.Pairwise fun c c' => c.1 ≤ c'.1) (hnow : ∀ c ∈ calls, now ≤ c.1) :
    KeyedMachine.outputs TimedDedupSet.call s calls =
      KeyedMachine.outputs (TimedSet.call (Lives s.maxAge)) a calls ∧
      ∃ now', Refines now' (EventRun.run TimedDedupSet.step s calls)
        (EventRun.run (TimedSet.step (Lives s.maxAge)) a calls) := by
  induction calls generalizing now s a with
  | nil => exact ⟨rfl, now, h⟩
  | cons c calls ih =>
    rw [List.pairwise_cons] at hclock
    obtain ⟨hanswer, hnext⟩ := h.call c (hnow c List.mem_cons_self)
    obtain ⟨houtputs, hlast⟩ := ih hnext hclock.2 hclock.1
    rw [step_maxAge] at houtputs hlast
    refine ⟨?_, hlast⟩
    have hfirst : (s.call c).1 = (TimedSet.call (Lives s.maxAge) a c).1 := hanswer
    simp only [KeyedMachine.outputs]
    rw [hfirst]
    exact congrArg _ houtputs

/-- A set created with `max_age`, after some calls. -/
def afterCalls (maxAge : Time) (calls : List (Time × TimedSet.Call α)) : TimedDedupSet α :=
  EventRun.run TimedDedupSet.step { maxAge } calls

lemma afterCalls_maxAge (maxAge : Time) (calls : List (Time × TimedSet.Call α)) :
    (afterCalls maxAge calls).maxAge = maxAge := by
  unfold afterCalls
  induction calls using List.reverseRecOn with
  | nil => rfl
  | append_singleton calls c ih => rw [EventRun.run_concat, step_maxAge, ih]

section Calls

variable (maxAge : Time) {calls : List (Time × TimedSet.Call α)}
  (hclock : calls.Pairwise fun c c' => c.1 ≤ c'.1)
include hclock

lemma afterCalls_refines :
    ∃ now, Refines now (afterCalls maxAge calls)
      (EventRun.run (TimedSet.step (Lives maxAge)) (fun _ => none) calls) :=
  ((refines_create 0 maxAge).run calls hclock fun _ _ => Nat.zero_le _).2

lemma contains_iff_isSome (v : α) : (afterCalls maxAge calls).contains v = true ↔
    (EventRun.run (TimedSet.step (Lives maxAge)) (fun _ => none) calls v).isSome := by
  obtain ⟨now, h⟩ := afterCalls_refines maxAge hclock
  rw [TimedDedupSet.contains, decide_eq_true_iff, h.mem_iff]

/-- The insertion that a value is in the set for. -/
lemma contains_iff_inserted (v : α) : (afterCalls maxAge calls).contains v = true ↔
    ∃ before t after, calls = before ++ (t, .insert v) :: after ∧
      (afterCalls maxAge before).contains v = false ∧
      ∀ c ∈ after, c.2 ≠ .clear ∧ (c.2 = .cleanup → c.1 ≤ t + maxAge) := by
  have habsent : ∀ before rest, calls = before ++ rest →
      ((afterCalls maxAge before).contains v = false ↔
      EventRun.run (TimedSet.step (Lives maxAge)) (fun _ => none) before v = none) := by
    intro before rest heq
    have hprefix := hclock.sublist (heq ▸ List.sublist_append_left before rest)
    rw [← Bool.not_eq_true, contains_iff_isSome maxAge hprefix, Option.not_isSome_iff_eq_none]
  rw [contains_iff_isSome maxAge hclock, Option.isSome_iff_exists]
  constructor
  · rintro ⟨t, ht⟩
    obtain ⟨before, after, heq, hnone, hspared⟩ := (TimedSet.run_eq_some_iff calls).mp ht
    exact ⟨before, t, after, heq, (habsent before _ heq).mpr hnone, hspared⟩
  · rintro ⟨before, t, after, heq, hfalse, hspared⟩
    exact ⟨t, (TimedSet.run_eq_some_iff calls).mpr
      ⟨before, after, heq, (habsent before _ heq).mp hfalse, hspared⟩⟩

end Calls

/-- An insertion of a value that is in the set changes nothing. -/
lemma step_insert_present {v : α} (h : s.contains v = true) (t : Time) :
    s.step (t, .insert v) = s := by
  unfold TimedDedupSet.step TimedDedupSet.call TimedDedupSet.insert
  dsimp only
  rw [if_pos (decide_eq_true_iff.mp h)]

/-- `TimedDedupSet` is a timed set: its set and its queue agree and the queue is ordered, its calls
answer as those of the timed set, a value is contained from an insertion that found it absent up to
a `clear` or a late `cleanup`, further insertions change nothing, and a `cleanup` leaves exactly the
young entries. -/
theorem dedupSet_refines_timedSet (maxAge : Time) (calls : List (Time × TimedSet.Call α))
    (hclock : calls.Pairwise fun c c' => c.1 ≤ c'.1) :
    let s := afterCalls maxAge calls
    (∀ v, v ∈ s.set ↔ v ∈ s.timeQueue.map Prod.snd) ∧ (s.timeQueue.map Prod.snd).Nodup ∧
    (s.timeQueue.map Prod.fst).Pairwise (· ≤ ·) ∧
    KeyedMachine.outputs TimedDedupSet.call { maxAge } calls =
      KeyedMachine.outputs (TimedSet.call fun t now => now ≤ t + maxAge) (fun _ => none) calls ∧
    (∀ v, s.contains v = true ↔
      ∃ before t after, calls = before ++ (t, .insert v) :: after ∧
        (afterCalls maxAge before).contains v = false ∧
        ∀ c ∈ after, c.2 ≠ .clear ∧ (c.2 = .cleanup → c.1 ≤ t + maxAge)) ∧
    (∀ before t v after, calls = before ++ (t, .insert v) :: after →
      (afterCalls maxAge before).contains v = true → s = afterCalls maxAge (before ++ after)) ∧
    ∀ now, (s.cleanup now).timeQueue = s.timeQueue.filter (fun e => now ≤ e.1 + maxAge) ∧
      ∀ v, (s.cleanup now).contains v = true ↔ ∃ t, (t, v) ∈ s.timeQueue ∧ now ≤ t + maxAge := by
  intro s
  obtain ⟨last, h⟩ := afterCalls_refines maxAge hclock
  refine ⟨h.inStep.mem, h.inStep.nodup, h.ordered, ?_, contains_iff_inserted maxAge hclock, ?_,
    fun now => ?_⟩
  · exact ((refines_create 0 maxAge).run calls hclock fun _ _ => Nat.zero_le _).1
  · intro before t v after heq hpresent
    unfold afterCalls at hpresent
    change afterCalls maxAge calls = _
    unfold afterCalls
    rw [heq, EventRun.run_append, EventRun.run_append, EventRun.run_cons,
      step_insert_present hpresent]
  · have hqueue := h.cleanup_queue now
    rw [afterCalls_maxAge] at hqueue
    refine ⟨hqueue, fun v => ?_⟩
    rw [TimedDedupSet.contains, decide_eq_true_iff, (h.cleanup now).inStep.mem, hqueue]
    simp [s]

/-- The second insertion of 7 does not keep it beyond 30, the insertion of 8 is young enough. -/
theorem dedupSet_refines_seven :
    (afterCalls 30 [(0, .insert 7), (20, .insert 7), (25, .insert 8), (31, .cleanup)] :
      TimedDedupSet Nat).contains 7 =
      false ∧
    (afterCalls 30 [(0, .insert 7), (20, .insert 7), (25, .insert 8)] : TimedDedupSet Nat) =
      afterCalls 30 ([(0, .insert 7)] ++ [(25, .insert 8)]) := by
  have h :=
    dedupSet_refines_timedSet (α := Nat) 30 [(0, .insert 7), (20, .insert 7), (25, .insert 8)]
      (by decide)
  exact ⟨by decide, h.2.2.2.2.2.1 [(0, .insert 7)] 20 7 [(25, .insert 8)] rfl (by decide)⟩

end MeshNetwork.Proofs
