import MeshNetwork.Proofs.EventLoop

/-!
# Progress of the routing thread

Under a fair schedule every event that is pushed is handled, the maintenance runs again and again,
and the thread ends after `stop()`.
-/

namespace MeshNetwork.Proofs

open FairProgress

variable {ν : Type}

/-- An execution of the threads. -/
structure LoopExecution (decode : Bytes → Option RoutedPacket) (cb : OnPacketForMe ν)
    (node : PeerId) (owner₀ : ν) (now : Time) (σ : ℕ → LoopState ν) (env : ℕ → StepEnv)
    (event : ℕ → LoopEvent) : Prop where
  start : σ 0 = LoopState.start node owner₀ now
  step : ∀ i, σ (i + 1) = (σ i).step decode cb node (env i, event i)
  /-- The routing thread is scheduled. -/
  scheduled : ∀ i, ∃ j, i ≤ j ∧ event j = .advance

section Execution

variable {decode : Bytes → Option RoutedPacket} {cb : OnPacketForMe ν} {self : PeerId} {owner₀ : ν}
  {now : Time}
  {σ : ℕ → LoopState ν} {env : ℕ → StepEnv} {event : ℕ → LoopEvent}

/-- The events of the first `i` steps. -/
def eventsUpTo (env : ℕ → StepEnv) (event : ℕ → LoopEvent) (i : ℕ) : List (StepEnv × LoopEvent) :=
  (List.range i).map fun j => (env j, event j)

lemma eventsUpTo_succ (env : ℕ → StepEnv) (event : ℕ → LoopEvent) (i : ℕ) :
    eventsUpTo env event (i + 1) = eventsUpTo env event i ++ [(env i, event i)] := by
  unfold eventsUpTo
  rw [List.range_succ, List.map_append]
  rfl

lemma pushedEvents_grow (decode : Bytes → Option RoutedPacket) (env : ℕ → StepEnv)
    (event : ℕ → LoopEvent) {i j : ℕ} (h : i ≤ j) :
    pushedEvents decode (eventsUpTo env event i) <+: pushedEvents decode
      (eventsUpTo env event j) := by
  induction j, h using Nat.le_induction with
  | base => exact List.prefix_rfl
  | succ j _ ih =>
    rw [eventsUpTo_succ, pushedEvents_concat]
    exact ih.trans (List.prefix_append _ _)

lemma LoopExecution.inStep (h : LoopExecution decode cb self owner₀ now σ env event) (i : ℕ) :
    LoopInStep cb self owner₀ (pushedEvents decode (eventsUpTo env event i)) (σ i) := by
  induction i with
  | zero =>
    rw [h.start]
    exact start_inStep cb self owner₀ now
  | succ i ih =>
    rw [h.step i, eventsUpTo_succ, pushedEvents_concat]
    exact ih.step (env i) (event i)

lemma LoopExecution.move (h : LoopExecution decode cb self owner₀ now σ env event) (i : ℕ) :
    LoopMove decode cb self (σ i) (env i) (event i) (σ (i + 1)) := by
  rw [h.step i]
  exact loop_move decode cb self (env i) (h.inStep i).active (event i)

/-- As long as `stop()` has not been called, the thread runs. -/
lemma LoopExecution.running (h : LoopExecution decode cb self owner₀ now σ env event)
    (hstop : ∀ i, event i ≠ .stop) (i : ℕ) : (σ i).running = true ∧ (σ i).stage ≠ .ended := by
  induction i with
  | zero =>
    rw [h.start]
    exact ⟨rfl, fun hstage => LoopStage.noConfusion hstage⟩
  | succ i ih =>
    have hmove := h.move i
    have hno := hstop i
    generalize σ (i + 1) = s', event i = e at hmove hno ⊢
    cases hmove with
    | push => exact ih
    | unchanged => exact ih
    | missed => exact ih
    | woken =>
      refine ⟨ih.1, ?_⟩
      dsimp only
      split_ifs <;> exact fun hstage => LoopStage.noConfusion hstage
    | leave _ hrunning =>
      rw [ih.1] at hrunning
      cases hrunning
    | send => exact ih
    | stop => exact absurd rfl hno
    | _ => exact ⟨ih.1, fun hstage => LoopStage.noConfusion hstage⟩

end Execution

/-! ## Events -/

/-- How far the thread is from handling an event, if one is waiting. -/
def stageRank : LoopStage → ℕ
  | .popped (some _) => 2
  | .check _ => 3
  | .timedOut => 3
  | .asleep _ => 4
  | .head => 5
  | .tail => 6
  | .created => 7
  | .popped none => 7
  | .ended => 0

def loopRank (k : ℕ) (s : LoopState ν) : ℕ := (k - (handled s.log).length) * 8 + stageRank s.stage

section Rank

variable {decode : Bytes → Option RoutedPacket} {cb : OnPacketForMe ν} {self : PeerId} {owner₀ : ν}
  {pushed : List QueuedEvent} {s s' : LoopState ν} {env : StepEnv} {event : LoopEvent} {k : ℕ}

/-- The steps that bring the thread closer to the event. -/
def Helps (s : LoopState ν) (event : LoopEvent) : Prop :=
  event = .advance ∧ (∀ d, s.stage ≠ .asleep d) ∨ event = .notifyOne ∧ ∃ d, s.stage = .asleep d

lemma stageRank_le (stage : LoopStage) : stageRank stage ≤ 7 := by
  unfold stageRank
  split <;> decide

lemma stageRank_eq_four {stage : LoopStage} : stageRank stage = 4 ↔ ∃ d, stage = .asleep d := by
  constructor
  · intro h
    unfold stageRank at h
    split at h <;> first | exact ⟨_, rfl⟩ | cases h
  · rintro ⟨d, rfl⟩
    rfl

/-- Two states at the same distance are in similar stages. -/
lemma stageRank_of_loopRank (h : loopRank k s' = loopRank k s) :
    stageRank s'.stage = stageRank s.stage := by
  have hle := stageRank_le s.stage
  have hle' := stageRank_le s'.stage
  unfold loopRank at h
  omega

lemma LoopInStep.queue_ne_nil (h : LoopInStep cb self owner₀ pushed s) (hk : k < pushed.length)
    (hwaits : (handled s.log).length ≤ k) (hhand : inHand s.stage = []) :
    s.eventQueue.queue ≠ [] := by
  intro hnil
  have horder := congrArg List.length h.order
  rw [hhand, hnil, List.append_nil, List.append_nil] at horder
  omega

lemma loopRank_lt_of_stage (hlog : handled s'.log = handled s.log)
    (h : stageRank s'.stage < stageRank s.stage) :
    loopRank k s' < loopRank k s := by
  unfold loopRank
  rw [hlog]
  exact Nat.add_lt_add_left h _

lemma loopRank_of_eq (hlog : handled s'.log = handled s.log) (h : s'.stage = s.stage) :
    loopRank k s' = loopRank k s := by
  unfold loopRank
  rw [hlog, h]

/-- The sends of other threads do not help. -/
lemma not_helps_of_send
    (hsend : (∃ packet, event = .sendPacket packet) ∨ ∃ i, event = .forwardNext i) :
    ¬Helps s event := by
  rintro (⟨rfl, -⟩ | ⟨rfl, -⟩) <;> rcases hsend with ⟨packet, h⟩ | ⟨i, h⟩ <;> cases h

/-- While event `k` waits, no step takes the thread away from it, and the helpful ones bring it
closer. -/
lemma move_loopRank (h : LoopInStep cb self owner₀ pushed s)
    (hmove : LoopMove decode cb self s env event s') (hrunning : s.running = true)
    (hended : s.stage ≠ .ended) (hk : k < pushed.length) (hwaits : (handled s.log).length ≤ k)
    (hwaits' : (handled s'.log).length ≤ k) :
    loopRank k s' ≤ loopRank k s ∧ (Helps s event → loopRank k s' < loopRank k s) := by
  have hqueue : inHand s.stage = [] → s.eventQueue.queue ≠ [] := h.queue_ne_nil hk hwaits
  have hlower : handled s'.log = handled s.log → stageRank s'.stage < stageRank s.stage →
      loopRank k s' ≤ loopRank k s ∧ (Helps s event → loopRank k s' < loopRank k s) :=
        fun hlog hlt =>
    ⟨(loopRank_lt_of_stage hlog hlt).le, fun _ => loopRank_lt_of_stage hlog hlt⟩
  have hstays : handled s'.log = handled s.log → s'.stage = s.stage → ¬Helps s event →
      loopRank k s' ≤ loopRank k s ∧ (Helps s event → loopRank k s' < loopRank k s) :=
        fun hlog hstage hnot =>
    ⟨(loopRank_of_eq hlog hstage).le, fun hhelps => absurd hhelps hnot⟩
  cases hmove with
  | push hqueued =>
    refine hstays rfl rfl ?_
    rintro (⟨rfl, -⟩ | ⟨rfl, -⟩) <;> cases hqueued
  | unchanged _ hnotify _ hadvance =>
    refine hstays rfl rfl ?_
    rintro (⟨hevent, hawake⟩ | ⟨hevent, d, hasleep⟩)
    · rcases hadvance hevent with hstage | ⟨d, hstage⟩
      · exact hended hstage
      · exact hawake d hstage
    · have hpos := h.wakes d hasleep (hqueue (by rw [hasleep]; rfl))
      rw [hnotify hevent] at hpos
      exact absurd hpos (Nat.lt_irrefl 0)
  | missed hawake =>
    refine hstays rfl rfl ?_
    rintro (⟨hevent, -⟩ | ⟨-, d, hasleep⟩)
    · cases hevent
    · exact hawake d hasleep
  | woken _ _ hstage =>
    refine hlower rfl ?_
    rw [hstage]
    dsimp only
    split_ifs <;> exact Nat.lt_succ_self 3
  | begin hstage => exact hlower rfl (by rw [hstage]; exact (by decide : 5 < 7))
  | enter hstage => exact hlower rfl (by rw [hstage]; exact (by decide : 3 < 5))
  | leave _ hstopped =>
    rw [hrunning] at hstopped
    cases hstopped
  | sleep hstage hnil => exact absurd hnil (hqueue (by rw [hstage]; rfl))
  | miss hstage hnil => exact absurd hnil (hqueue (by rw [hstage]; rfl))
  | pop hstage =>
    refine hlower rfl ?_
    rcases hstage with hstage | ⟨d, hstage⟩ <;> rw [hstage] <;> exact Nat.lt_succ_self 2
  | skip hstage => exact hlower rfl (by rw [hstage]; exact Nat.lt_succ_self 6)
  | @handle e hstage =>
    -- the event is one closer, and the thread is at the end of its round
    have hlonger : (handled (s.call cb self env e.routerEvent).log).length =
        (handled s.log).length + 1 := by
      unfold LoopState.call
      dsimp only
      rw [handled_append, queuedPart_routerEvent]
      exact List.length_append
    dsimp only at hwaits'
    have hcloser : loopRank k { s.call cb self env e.routerEvent with stage := .tail } <
        loopRank k s := by
      unfold loopRank
      dsimp only
      rw [hlonger] at hwaits' ⊢
      rw [hstage]
      dsimp only [stageRank]
      omega
    exact ⟨hcloser.le, fun _ => hcloser⟩
  | tick hstage =>
    refine hlower ?_ (by rw [hstage]; exact Nat.lt_succ_self 5)
    dsimp only [LoopState.call]
    rw [handled_append]
    exact List.append_nil _
  | early hstage => exact hlower rfl (by rw [hstage]; exact Nat.lt_succ_self 5)
  | send _ _ _ hsend => exact hstays rfl rfl (not_helps_of_send hsend)
  | stop =>
    refine hstays rfl rfl ?_
    rintro (⟨hevent, -⟩ | ⟨hevent, -⟩) <;> cases hevent

end Rank

/-- Without the timers: as long as the thread runs, the calls of `notify_one` are enough to have
every event handled. -/
theorem pushed_events_handled (decode : Bytes → Option RoutedPacket) (cb : OnPacketForMe ν)
    (self : PeerId) (owner₀ : ν) (now : Time) (σ : ℕ → LoopState ν) (env : ℕ → StepEnv)
    (event : ℕ → LoopEvent) (hrun : LoopExecution decode cb self owner₀ now σ env event)
    (hnotify : ∀ i, 0 < (σ i).notifies → ∃ j, i ≤ j ∧ event j = .notifyOne)
    (hstop : ∀ i, event i ≠ .stop) (i k : ℕ) (e : QueuedEvent)
    (hpushed : (pushedEvents decode (eventsUpTo env event i))[k]? = some e) :
    ∃ j, i ≤ j ∧ (handled (σ j).log)[k]? = some e := by
  have hk : ∀ j, i ≤ j → k < (pushedEvents decode (eventsUpTo env event j)).length := by
    intro j hij
    obtain ⟨hlt, -⟩ := List.getElem?_eq_some_iff.mp hpushed
    exact hlt.trans_le (pushedEvents_grow decode env event hij).length_le
  have hmove : ∀ j, i ≤ j → ¬k < (handled (σ j).log).length →
      ¬k < (handled (σ (j + 1)).log).length →
      loopRank k (σ (j + 1)) ≤ loopRank k (σ j) ∧
        (Helps (σ j) (event j) → loopRank k (σ (j + 1)) < loopRank k (σ j)) :=
          fun j hij hnot hnot' =>
    move_loopRank (hrun.inStep j) (hrun.move j) (hrun.running hstop j).1 (hrun.running hstop j).2
      (hk j hij)
      (Nat.le_of_not_lt hnot) (Nat.le_of_not_lt hnot')
  have hreached : ∃ j, i ≤ j ∧ k < (handled (σ j).log).length := by
    refine @eventually_of_rank ℕ _ _ (fun j => k < (handled (σ j).log).length)
      (fun j => loopRank k (σ j)) i
      (fun j hij hnot => ?_) fun j hij hnot => ?_
    · by_cases hnext : k < (handled (σ (j + 1)).log).length
      · exact .inl hnext
      · exact .inr (hmove j hij hnot hnext).1
    · have hhelps : ∃ j', j ≤ j' ∧ (loopRank k (σ j') = loopRank k (σ j) →
          Helps (σ j') (event j')) := by
        by_cases hasleep : ∃ d, (σ j).stage = .asleep d
        · obtain ⟨d, hd⟩ := hasleep
          have hqueue :=
            (hrun.inStep j).queue_ne_nil (hk j hij) (Nat.le_of_not_lt hnot) (by rw [hd]; rfl)
          obtain ⟨j', hjj', hevent⟩ := hnotify j ((hrun.inStep j).wakes d hd hqueue)
          refine ⟨j', hjj', fun hrank => .inr ⟨hevent, stageRank_eq_four.mp ?_⟩⟩
          rw [stageRank_of_loopRank hrank]
          exact stageRank_eq_four.mpr ⟨d, hd⟩
        · obtain ⟨j', hjj', hevent⟩ := hrun.scheduled j
          refine ⟨j', hjj', fun hrank => .inl ⟨hevent,
            fun d hd => hasleep (stageRank_eq_four.mp ?_)⟩⟩
          rw [← stageRank_of_loopRank hrank]
          exact stageRank_eq_four.mpr ⟨d, hd⟩
      obtain ⟨j', hjj', hhelps⟩ := hhelps
      refine ⟨j', hjj', fun hnot' hrank => ?_⟩
      by_cases hnext : k < (handled (σ (j' + 1)).log).length
      · exact .inl hnext
      · exact .inr ((hmove j' (hij.trans hjj') hnot' hnext).2 (hhelps hrank))
  obtain ⟨j, hij, hj⟩ := hreached
  refine ⟨j, hij, ?_⟩
  have hhandled : handled (σ j).log <+: pushedEvents decode (eventsUpTo env event j) := by
    rw [← (hrun.inStep j).order, List.append_assoc]
    exact List.prefix_append _ _
  obtain ⟨rest, hrest⟩ := hhandled
  obtain ⟨more, hmore⟩ := pushedEvents_grow decode env event hij
  calc (handled (σ j).log)[k]? = (pushedEvents decode (eventsUpTo env event j))[k]? := by
        rw [← hrest, List.getElem?_append_left hj]
    _ = (pushedEvents decode (eventsUpTo env event i))[k]? := by
        rw [← hmore, List.getElem?_append_left (hk i le_rfl)]
    _ = some e := hpushed

/-- The thread falls asleep and a neighbour connects; then `notify_one` and the thread take
turns. -/
def greetEvent (i : ℕ) : LoopEvent :=
  if i < 3 then .advance else if i = 3 then .onPeerConnected "b" else if i % 2 = 0 then .notifyOne
    else .advance

def greetRun : ℕ → LoopState Unit
  | 0 => LoopState.start "a" () 0
  | i + 1 => (greetRun i).step (fun _ => none) silentOwner "a" (plainEnv 0, greetEvent i)

/-- The thread is asleep when the connection is pushed, and hands it to the router. -/
theorem pushed_events_handled_greet : (greetRun 3).stage = .asleep (milliseconds 100) ∧
    greetEvent 3 = .onPeerConnected "b" ∧ ∃ j, (handled (greetRun j).log)[0]? =
      some (.peerConnected "b") := by
  have hrun : LoopExecution (fun _ => none) silentOwner "a" () 0 greetRun (fun _ => plainEnv 0)
      greetEvent := by
    refine ⟨rfl, fun _ => rfl, fun i => ⟨2 * i + 5, by omega, ?_⟩⟩
    unfold greetEvent
    rw [if_neg (by omega), if_neg (by omega), if_neg (by omega)]
  have hnotify : ∀ i, 0 < (greetRun i).notifies → ∃ j, i ≤ j ∧ greetEvent j = .notifyOne := by
    refine fun i _ => ⟨2 * i + 4, by omega, ?_⟩
    unfold greetEvent
    rw [if_neg (by omega), if_neg (by omega), if_pos (by omega)]
  have hstop : ∀ i, greetEvent i ≠ .stop := by
    intro i
    unfold greetEvent
    split_ifs <;> exact fun h => LoopEvent.noConfusion h
  obtain ⟨j, -, hj⟩ :=
    pushed_events_handled _ _ _ _ _ _ _ _ hrun hnotify hstop 4 0 (.peerConnected "b") rfl
  exact ⟨rfl, rfl, j, hj⟩

/-! ## Rounds -/

/-- The clock goes on, and no wait outlasts it. -/
structure TimedLoop (σ : ℕ → LoopState ν) (env : ℕ → StepEnv) (event : ℕ → LoopEvent) : Prop where
  timer : ∀ i d, (σ i).stage = .asleep d → ∃ j, i ≤ j ∧ event j = .wakeup
  ordered : ∀ i j, i < j → ∀ a b, (env i).clock a ≤ (env j).clock b
  unbounded : ∀ t, ∃ i, t ≤ (env i).clock 0

def stageDeadline : LoopStage → Option Time
  | .check d => some d
  | .asleep d => some d
  | _ => none

/-- How far the thread is from the end of its round, once the deadline has passed. -/
def roundRank : LoopStage → ℕ
  | .check _ => 6
  | .asleep _ => 5
  | .timedOut => 4
  | .popped _ => 3
  | .tail => 2
  | .created => 1
  | .head => 0
  | .ended => 0

section Rounds

variable {decode : Bytes → Option RoutedPacket} {cb : OnPacketForMe ν} {self : PeerId}
  {s s' : LoopState ν}
  {env : StepEnv} {event : LoopEvent}

/-- Within a round the deadline stays. -/
lemma move_round (hmove : LoopMove decode cb self s env event s') (hhead : s.stage ≠ .head) :
    (s.stage ≠ .ended → s'.stage ≠ .ended) ∧
      ∀ d, stageDeadline s'.stage = some d → stageDeadline s.stage = some d := by
  cases hmove with
  | push => exact ⟨id, fun _ => id⟩
  | unchanged => exact ⟨id, fun _ => id⟩
  | missed => exact ⟨id, fun _ => id⟩
  | woken _ _ hstage =>
    rw [hstage]
    dsimp only
    split_ifs
    · exact ⟨fun _ h => LoopStage.noConfusion h, fun d h => (Option.some_ne_none d h.symm).elim⟩
    · exact ⟨fun _ h => LoopStage.noConfusion h, fun _ => id⟩
  | enter hstage => exact absurd hstage hhead
  | leave hstage => exact absurd hstage hhead
  | sleep hstage =>
    rw [hstage]
    exact ⟨fun _ h => LoopStage.noConfusion h, fun _ => id⟩
  | send => exact ⟨id, fun _ => id⟩
  | stop => exact ⟨id, fun _ => id⟩
  | _ => exact ⟨fun _ h => LoopStage.noConfusion h, fun d h => (Option.some_ne_none d h.symm).elim⟩

/-- After the deadline every step of the thread, and every end of its wait, brings it closer to the
end of the round. -/
lemma move_roundRank (hmove : LoopMove decode cb self s env event s') (hhead : s.stage ≠ .head)
    (hended : s.stage ≠ .ended) (hlate : ∀ d, stageDeadline s.stage = some d → d ≤ env.clock 0) :
    roundRank s'.stage ≤ roundRank s.stage ∧
      ((event = .advance ∧ (∀ d, s.stage ≠ .asleep d) ∨ event = .wakeup ∧
        ∃ d, s.stage = .asleep d) → roundRank s'.stage < roundRank s.stage) := by
  cases hmove with
  | push hqueued =>
    refine ⟨le_rfl, ?_⟩
    rintro (⟨rfl, -⟩ | ⟨rfl, -⟩) <;> cases hqueued
  | unchanged _ _ hwakeup hadvance =>
    refine ⟨le_rfl, ?_⟩
    rintro (⟨hevent, hawake⟩ | ⟨hevent, d, hasleep⟩)
    · rcases hadvance hevent with hstage | ⟨d, hstage⟩
      · exact absurd hstage hended
      · exact absurd hstage (hawake d)
    · exact absurd hasleep (hwakeup hevent d)
  | missed hawake =>
    refine ⟨le_rfl, ?_⟩
    rintro (⟨hevent, -⟩ | ⟨-, d, hasleep⟩)
    · cases hevent
    · exact absurd hasleep (hawake d)
  | woken _ _ hstage =>
    have hpast := hlate _ (by rw [hstage]; rfl)
    dsimp only
    rw [if_pos hpast, hstage]
    exact ⟨(by decide : 4 ≤ 5), fun _ => (by decide : 4 < 5)⟩
  | begin hstage =>
    rw [hstage]
    exact ⟨Nat.zero_le 1, fun _ => Nat.zero_lt_one⟩
  | enter hstage => exact absurd hstage hhead
  | leave hstage => exact absurd hstage hhead
  | sleep hstage =>
    rw [hstage]
    exact ⟨(by decide : 5 ≤ 6), fun _ => (by decide : 5 < 6)⟩
  | miss hstage =>
    rw [hstage]
    exact ⟨(by decide : 3 ≤ 4), fun _ => (by decide : 3 < 4)⟩
  | pop hstage =>
    rcases hstage with hstage | ⟨d, hstage⟩ <;> rw [hstage]
    · exact ⟨(by decide : 3 ≤ 4), fun _ => (by decide : 3 < 4)⟩
    · exact ⟨(by decide : 3 ≤ 6), fun _ => (by decide : 3 < 6)⟩
  | skip hstage =>
    rw [hstage]
    exact ⟨(by decide : 2 ≤ 3), fun _ => (by decide : 2 < 3)⟩
  | handle hstage =>
    rw [hstage]
    exact ⟨(by decide : 2 ≤ 3), fun _ => (by decide : 2 < 3)⟩
  | tick hstage =>
    rw [hstage]
    exact ⟨(by decide : 0 ≤ 2), fun _ => (by decide : 0 < 2)⟩
  | early hstage =>
    rw [hstage]
    exact ⟨(by decide : 0 ≤ 2), fun _ => (by decide : 0 < 2)⟩
  | send _ _ _ hsend =>
    refine ⟨le_rfl, ?_⟩
    rcases hsend with ⟨packet, rfl⟩ | ⟨i, rfl⟩ <;> rintro (⟨hevent, -⟩ | ⟨hevent, -⟩) <;>
      cases hevent
  | stop =>
    refine ⟨le_rfl, ?_⟩
    rintro (⟨hevent, -⟩ | ⟨hevent, -⟩) <;> cases hevent

/-- At the head of the loop only the thread itself changes its stage. -/
lemma move_head (hmove : LoopMove decode cb self s env event s') (hhead : s.stage = .head)
    (hevent : event ≠ .advance) :
    s'.stage = .head := by
  cases hmove with
  | push => exact hhead
  | unchanged => exact hhead
  | missed => exact hhead
  | woken _ _ hstage =>
    rw [hhead] at hstage
    cases hstage
  | send => exact hhead
  | stop => exact hhead
  | _ => exact absurd rfl hevent

/-- How a round ends. -/
lemma move_to_head (hmove : LoopMove decode cb self s env event s') (hhead : s.stage ≠ .head)
    (hcreated : s.stage ≠ .created) (hhead' : s'.stage = .head) :
    Ticks s (env, event) ∨ env.clock 0 < s.nextMaintenanceTime := by
  cases hmove with
  | push => exact absurd hhead' hhead
  | unchanged => exact absurd hhead' hhead
  | missed => exact absurd hhead' hhead
  | woken =>
    dsimp only at hhead'
    split_ifs at hhead'
  | begin hstage => exact absurd hstage hcreated
  | tick hstage hdue => exact .inl ⟨rfl, hstage, hdue⟩
  | early _ hclock => exact .inr hclock
  | send => exact absurd hhead' hhead
  | stop => exact absurd hhead' hhead
  | _ => cases hhead'

lemma move_next (hmove : LoopMove decode cb self s env event s') (hcreated : s.stage ≠ .created)
    (hnot : ¬Ticks s (env, event)) :
    s'.stage ≠ .created ∧ s'.nextMaintenanceTime = s.nextMaintenanceTime := by
  cases hmove with
  | push => exact ⟨hcreated, rfl⟩
  | unchanged => exact ⟨hcreated, rfl⟩
  | missed => exact ⟨hcreated, rfl⟩
  | woken =>
    refine ⟨?_, rfl⟩
    dsimp only
    split_ifs <;> exact fun h => LoopStage.noConfusion h
  | begin hstage => exact absurd hstage hcreated
  | tick hstage hdue => exact absurd ⟨rfl, hstage, hdue⟩ hnot
  | send => exact ⟨hcreated, rfl⟩
  | stop => exact ⟨hcreated, rfl⟩
  | _ => exact ⟨fun h => LoopStage.noConfusion h, rfl⟩

lemma move_stopped (hmove : LoopMove decode cb self s env event s') (h : s.running = false) :
    s'.running = false := by
  cases hmove with
  | stop => rfl
  | _ => exact h

end Rounds

section Recurrence

variable {decode : Bytes → Option RoutedPacket} {cb : OnPacketForMe ν} {self : PeerId} {owner₀ : ν}
  {now : Time}
  {σ : ℕ → LoopState ν} {env : ℕ → StepEnv} {event : ℕ → LoopEvent}
  (hrun : LoopExecution decode cb self owner₀ now σ env event) (htimed : TimedLoop σ env event)
include hrun

/-- The thread leaves the head of the loop. -/
lemma leaves_head {i : ℕ} (hi : (σ i).stage = .head) :
    ∃ j, i ≤ j ∧ (σ j).stage = .head ∧ event j = .advance := by
  obtain ⟨n, hn, hadvance⟩ := hrun.scheduled i
  by_contra hnone
  have hstays : ∀ j, i ≤ j → (σ j).stage = .head := by
    intro j hij
    induction j, hij using Nat.le_induction with
    | base => exact hi
    | succ j hij ih => exact move_head (hrun.move j) ih fun hevent => hnone ⟨j, hij, ih, hevent⟩
  exact hnone ⟨n, hn, hstays n hn, hadvance⟩

include htimed

/-- Every round ends. -/
lemma reaches_head {i : ℕ} (hended : (σ i).stage ≠ .ended) : ∃ j, i ≤ j ∧ (σ j).stage = .head := by
  by_contra hnone
  have hnot : ∀ j, i ≤ j → (σ j).stage ≠ .head := fun j hij hhead => hnone ⟨j, hij, hhead⟩
  have hround : ∀ j, i ≤ j → (σ j).stage ≠ .ended ∧
      ∀ d, stageDeadline (σ j).stage = some d → stageDeadline (σ i).stage = some d := by
    intro j hij
    induction j, hij using Nat.le_induction with
    | base => exact ⟨hended, fun _ => id⟩
    | succ j hij ih =>
      obtain ⟨hkeeps, hdeadline⟩ := move_round (hrun.move j) (hnot j hij)
      exact ⟨hkeeps ih.1, fun d hd => ih.2 d (hdeadline d hd)⟩
  have hlate : ∃ n, i ≤ n ∧ ∀ j, n ≤ j → ∀ d, stageDeadline (σ j).stage = some d →
      d ≤ (env j).clock 0 := by
    cases hdeadline : stageDeadline (σ i).stage with
    | none =>
      refine ⟨i, le_rfl, fun j hij d hd => ?_⟩
      have hsame := (hround j hij).2 d hd
      rw [hdeadline] at hsame
      cases hsame
    | some d =>
      obtain ⟨n, hn⟩ := htimed.unbounded d
      refine ⟨max i (n + 1), le_max_left _ _, fun j hj d' hd' => ?_⟩
      have hsame := (hround j ((le_max_left _ _).trans hj)).2 d' hd'
      rw [hdeadline] at hsame
      cases hsame
      exact hn.trans (htimed.ordered n j ((le_max_right _ _).trans hj) 0 0)
  obtain ⟨n, hin, hlate⟩ := hlate
  have hmove := fun j (hj : n ≤ j) => move_roundRank (hrun.move j) (hnot j (hin.trans hj))
    (hround j (hin.trans hj)).1
    (hlate j hj)
  obtain ⟨j, hj, hfalse⟩ := @eventually_of_rank ℕ _ _ (fun _ => False)
    (fun j => roundRank (σ j).stage) n
    (fun j hj _ => .inr (hmove j hj).1) fun j hj _ => by
      have hasleep_iff : ∀ {stage}, roundRank stage = 5 ↔ ∃ d, stage = .asleep d := by
        intro stage
        cases stage <;> simp [roundRank]
      by_cases hasleep : ∃ d, (σ j).stage = .asleep d
      · obtain ⟨d, hd⟩ := hasleep
        obtain ⟨j', hjj', hevent⟩ := htimed.timer j d hd
        refine ⟨j', hjj', fun _ hrank => .inr
          ((hmove j' (hj.trans hjj')).2 (.inr ⟨hevent, hasleep_iff.mp ?_⟩))⟩
        rw [hrank]
        exact hasleep_iff.mpr ⟨d, hd⟩
      · obtain ⟨j', hjj', hevent⟩ := hrun.scheduled j
        refine ⟨j', hjj', fun _ hrank => .inr ((hmove j' (hj.trans hjj')).2
          (.inl ⟨hevent, fun d hd => hasleep (hasleep_iff.mp ?_)⟩))⟩
        rw [← hrank]
        exact hasleep_iff.mpr ⟨d, hd⟩
  exact hfalse

end Recurrence

/-- The maintenance runs again and again, whatever arrives meanwhile; and the thread ends after
`stop()`, so that the call that waits for it returns. -/
theorem maintenance_recurs (decode : Bytes → Option RoutedPacket) (cb : OnPacketForMe ν)
    (self : PeerId) (owner₀ : ν) (now : Time) (σ : ℕ → LoopState ν) (env : ℕ → StepEnv)
    (event : ℕ → LoopEvent) (hrun : LoopExecution decode cb self owner₀ now σ env event)
    (htimed : TimedLoop σ env event) :
    ((∀ i, event i ≠ .stop) → ∀ i, ∃ j, i ≤ j ∧ Ticks (σ j) (env j, event j)) ∧
      ((∃ i, event i = .stop) → ∃ j, (σ j).stage = .ended) := by
  constructor
  · intro hstop i
    have hended := fun j => (hrun.running hstop j).2
    by_contra hnone
    have hnot : ∀ j, i ≤ j → ¬Ticks (σ j) (env j, event j) :=
      fun j hij hticks => hnone ⟨j, hij, hticks⟩
    obtain ⟨m, him, hm⟩ := reaches_head hrun htimed (hended i)
    -- the time of the next maintenance does not change any more
    have hnext : ∀ j, m ≤ j → (σ j).stage ≠ .created ∧
        (σ j).nextMaintenanceTime = (σ m).nextMaintenanceTime := by
      intro j hmj
      induction j, hmj using Nat.le_induction with
      | base => exact ⟨by rw [hm]; exact fun h => LoopStage.noConfusion h, rfl⟩
      | succ j hmj ih =>
        obtain ⟨hcreated, hsame⟩ := move_next (hrun.move j) ih.1 (hnot j (him.trans hmj))
        exact ⟨hcreated, hsame.trans ih.2⟩
    obtain ⟨n, hn⟩ := htimed.unbounded (σ m).nextMaintenanceTime
    obtain ⟨p, hp, hhead⟩ := reaches_head hrun htimed (hended (max m (n + 1)))
    obtain ⟨q, hpq, hq, hadvance⟩ := leaves_head hrun hhead
    have hin : (σ (q + 1)).stage ≠ .head := by
      rw [hrun.step q]
      unfold LoopState.step LoopState.advance
      rw [hadvance]
      dsimp only
      rw [hq]
      dsimp only
      rw [(hrun.running hstop q).1]
      exact fun h => LoopStage.noConfusion h
    -- no round can end
    have hinside : ∀ j, q + 1 ≤ j → (σ j).stage ≠ .head := by
      intro j hqj
      induction j, hqj using Nat.le_induction with
      | base => exact hin
      | succ j hqj ih =>
        intro hhead'
        have hmj : m ≤ j := by omega
        rcases move_to_head (hrun.move j) ih (hnext j hmj).1 hhead' with hticks | hearly
        · exact hnot j (him.trans hmj) hticks
        · rw [(hnext j hmj).2] at hearly
          exact absurd (hn.trans (htimed.ordered n j (by omega) 0 0)) (Nat.not_le_of_lt hearly)
    obtain ⟨r, hr, hhead'⟩ := reaches_head hrun htimed (hended (q + 1))
    exact hinside r hr hhead'
  · rintro ⟨i, hi⟩
    by_contra hnone
    have hended : ∀ j, (σ j).stage ≠ .ended := fun j hj => hnone ⟨j, hj⟩
    have hstopped : ∀ j, i + 1 ≤ j → (σ j).running = false := by
      intro j hij
      induction j, hij using Nat.le_induction with
      | base =>
        rw [hrun.step i]
        unfold LoopState.step
        rw [hi]
      | succ j _ ih => exact move_stopped (hrun.move j) ih
    obtain ⟨p, hp, hhead⟩ := reaches_head hrun htimed (hended (i + 1))
    obtain ⟨q, hpq, hq, hadvance⟩ := leaves_head hrun hhead
    refine hended (q + 1) ?_
    rw [hrun.step q]
    unfold LoopState.step LoopState.advance
    rw [hadvance]
    dsimp only
    rw [hq]
    dsimp only
    rw [hstopped q (hp.trans hpq)]
    rfl

/-- The routing thread and its timer take turns, a millisecond each; `stop()` may be called in
between. -/
def tickEvent (stops : Bool) (i : ℕ) : LoopEvent :=
  if i % 2 = 0 then .advance else if stops ∧ i = 7 then .stop else .wakeup

def tickRun (stops : Bool) : ℕ → LoopState Unit
  | 0 => LoopState.start "a" () 0
  | i + 1 =>
    (tickRun stops i).step (fun _ => none) silentOwner "a"
      (plainEnv (milliseconds i), tickEvent stops i)

/-- A thread without events, and one that is stopped. -/
theorem maintenance_recurs_idle :
    (∀ i, ∃ j, i ≤ j ∧ Ticks (tickRun false j) (plainEnv (milliseconds j), tickEvent false j)) ∧
      ∃ j, (tickRun true j).stage = .ended := by
  have hrun : ∀ stops, LoopExecution (fun _ => none) silentOwner "a" () 0 (tickRun stops)
      (fun i => plainEnv (milliseconds i)) (tickEvent stops) := by
    refine fun stops => ⟨rfl, fun _ => rfl, fun i => ⟨2 * i, by omega, ?_⟩⟩
    unfold tickEvent
    rw [if_pos (by omega)]
  have htimed : ∀ stops, TimedLoop (tickRun stops) (fun i => plainEnv (milliseconds i))
      (tickEvent stops) := by
    refine fun stops => ⟨fun i _ _ => ⟨2 * i + 9, by omega, ?_⟩, fun i j hij _ _ => ?_,
      fun t => ⟨t, ?_⟩⟩
    · unfold tickEvent
      rw [if_neg (by omega), if_neg (by omega)]
    · exact Nat.mul_le_mul_right _ hij.le
    · exact Nat.le_mul_of_pos_right t (by decide)
  have hstop : ∀ i, tickEvent false i ≠ .stop := by
    intro i
    unfold tickEvent
    split_ifs with heven hstops
    · exact fun h => LoopEvent.noConfusion h
    · cases hstops.1
    · exact fun h => LoopEvent.noConfusion h
  exact ⟨(maintenance_recurs _ _ _ _ _ _ _ _ (hrun false) (htimed false)).1 hstop,
    (maintenance_recurs _ _ _ _ _ _ _ _ (hrun true) (htimed true)).2 ⟨7, rfl⟩⟩

end MeshNetwork.Proofs
