import MeshNetwork.Library.FairProgress
import MeshNetwork.Model.EventLoop
import MeshNetwork.Proofs.RouterInvariant

/-!
# The routing thread

Every event that is pushed reaches the router once and in order, the thread does not sleep through
it, and the maintenance keeps its rhythm under any load.
-/

namespace MeshNetwork.Proofs

variable {ν : Type}

/-! ## Steps -/

section Queue

variable {α : Type} {q : ThreadSafeQueue α} (hactive : q.stopRequested = false)
include hactive

lemma finishPop_nil (hqueue : q.queue = []) : q.ready = false ∧ q.finishPop false = (none, q) := by
  simp [ThreadSafeQueue.ready, ThreadSafeQueue.finishPop, hactive, hqueue]

lemma finishPop_cons {e : α} {rest : List α} (hqueue : q.queue = e :: rest) :
    q.ready = true ∧ q.finishPop true = (some e, { q with queue := rest }) := by
  simp [ThreadSafeQueue.ready, ThreadSafeQueue.finishPop, hactive, hqueue]

end Queue

/-- What one step can do while `stop()` of the queue has not been called. -/
inductive LoopMove (decode : Bytes → Option RoutedPacket) (cb : OnPacketForMe ν) (self : PeerId)
    (s : LoopState ν) (env : StepEnv) : LoopEvent → LoopState ν → Prop
  | push {event : LoopEvent} {e : QueuedEvent} : event.queued decode = some e →
      LoopMove decode cb self s env event { s with
        eventQueue := { s.eventQueue with queue := s.eventQueue.queue ++ [e] },
        notifies := s.notifies + 1 }
  | unchanged {event : LoopEvent} : event.queued decode = none →
      (event = .notifyOne → s.notifies = 0) → (event = .wakeup → ∀ d, s.stage ≠ .asleep d) →
      (event = .advance → s.stage = .ended ∨ ∃ d, s.stage = .asleep d) →
        LoopMove decode cb self s env event s
  | missed : (∀ d, s.stage ≠ .asleep d) → LoopMove decode cb self s env .notifyOne
      { s with notifies := s.notifies - 1 }
  | woken {event : LoopEvent} {d notifies : Nat} : event.queued decode = none → event ≠ .advance →
      s.stage = .asleep d → LoopMove decode cb self s env event
        { s with stage := if d ≤ env.clock 0 then .timedOut else .check d, notifies := notifies }
  | begin : s.stage = .created → LoopMove decode cb self s env .advance
      { s with stage := .head, nextMaintenanceTime := env.clock 0 + maintenanceTickRate }
  | enter : s.stage = .head → s.running = true → LoopMove decode cb self s env .advance
      { s with stage := .check (env.clock 1 + waitDuration s.nextMaintenanceTime (env.clock 0)) }
  | leave : s.stage = .head → s.running = false →
      LoopMove decode cb self s env .advance { s with stage := .ended }
  | sleep {d : Time} : s.stage = .check d → s.eventQueue.queue = [] →
      LoopMove decode cb self s env .advance { s with stage := .asleep d }
  | miss : s.stage = .timedOut → s.eventQueue.queue = [] →
      LoopMove decode cb self s env .advance { s with stage := .popped none }
  | pop {e : QueuedEvent} {rest : List QueuedEvent} : s.stage = .timedOut ∨
      (∃ d, s.stage = .check d) →
      s.eventQueue.queue = e :: rest → LoopMove decode cb self s env .advance
        { s with eventQueue := { s.eventQueue with queue := rest }, stage := .popped (some e) }
  | skip : s.stage = .popped none → LoopMove decode cb self s env .advance { s with stage := .tail }
  | handle {e : QueuedEvent} : s.stage = .popped (some e) → LoopMove decode cb self s env .advance
      { s.call cb self env e.routerEvent with stage := .tail }
  | tick : s.stage = .tail → s.nextMaintenanceTime ≤ env.clock 0 →
      LoopMove decode cb self s env .advance
      { s.call cb self env.later .maintenance with
        stage := .head, nextMaintenanceTime := env.clock 0 + maintenanceTickRate }
  | early : s.stage = .tail → env.clock 0 < s.nextMaintenanceTime →
      LoopMove decode cb self s env .advance { s with stage := .head }
  | send {event : LoopEvent} (seen : TimedDedupSet DedupKey) (sending : List RoutedPacket)
      (sent : List RouterOutput) :
      (∃ packet, event = .sendPacket packet) ∨ (∃ i, event = .forwardNext i) →
        LoopMove decode cb self s env event
        { s with
          router := { s.router with seenPacketIds := seen }, sending := sending, sent := sent }
  | stop : LoopMove decode cb self s env .stop { s with running := false }

section Moves

variable (decode : Bytes → Option RoutedPacket) (cb : OnPacketForMe ν) (self : PeerId)
  {s : LoopState ν}
  (env : StepEnv)

lemma wake_move (event : LoopEvent) (hqueued : event.queued decode = none) (hne : event ≠ .advance)
    (notifies : Nat) :
    (∀ d, s.stage ≠ .asleep d) ∧ s.wake env = s ∨
      LoopMove decode cb self s env event { s.wake env with notifies } := by
  unfold LoopState.wake
  cases hstage : s.stage with
  | asleep d => exact .inr (.woken hqueued hne hstage)
  | _ => exact .inl ⟨fun d hd => LoopStage.noConfusion hd, rfl⟩

lemma advance_move (hactive : s.eventQueue.stopRequested = false) :
    LoopMove decode cb self s env .advance (s.advance cb self env) := by
  unfold LoopState.advance
  cases hstage : s.stage with
  | created => exact .begin hstage
  | head =>
    dsimp only
    split_ifs with hrun
    · exact .enter hstage hrun
    · exact .leave hstage (Bool.not_eq_true _ ▸ hrun)
  | check d =>
    dsimp only
    cases hqueue : s.eventQueue.queue with
    | nil =>
      rw [(finishPop_nil hactive hqueue).1]
      exact .sleep hstage hqueue
    | cons e rest =>
      obtain ⟨hready, hpop⟩ := finishPop_cons hactive hqueue
      rw [hready, if_pos rfl]
      unfold LoopState.finishPop
      rw [hpop]
      exact .pop (.inr ⟨d, hstage⟩) hqueue
  | asleep d =>
    exact .unchanged rfl (fun h => LoopEvent.noConfusion h) (fun h => LoopEvent.noConfusion h)
      fun _ => .inr ⟨d, hstage⟩
  | timedOut =>
    dsimp only [LoopState.finishPop]
    cases hqueue : s.eventQueue.queue with
    | nil =>
      obtain ⟨hready, hpop⟩ := finishPop_nil hactive hqueue
      rw [hready, hpop]
      exact .miss hstage hqueue
    | cons e rest =>
      obtain ⟨hready, hpop⟩ := finishPop_cons hactive hqueue
      rw [hready, hpop]
      exact .pop (.inl hstage) hqueue
  | popped event =>
    cases event with
    | none => exact .skip hstage
    | some e => exact .handle hstage
  | tail =>
    dsimp only
    split_ifs with hdue
    · exact .tick hstage hdue
    · exact .early hstage (Nat.lt_of_not_le hdue)
  | ended =>
    exact .unchanged rfl (fun h => LoopEvent.noConfusion h) (fun h => LoopEvent.noConfusion h)
      fun _ => .inl hstage

lemma enterId_move (packet : RoutedPacket) :
    LoopMove decode cb self s env (.sendPacket packet) (s.enterId self env packet) := by
  unfold LoopState.enterId
  split_ifs
  · exact .send s.router.seenPacketIds s.sending s.sent (.inl ⟨packet, rfl⟩)
  · exact .send _ _ s.sent (.inl ⟨packet, rfl⟩)

lemma forwardNext_move (i : Nat) :
    LoopMove decode cb self s env (.forwardNext i) (s.forwardNext self env i) := by
  unfold LoopState.forwardNext
  cases s.sending[i]? with
  | none => exact .send s.router.seenPacketIds s.sending s.sent (.inr ⟨i, rfl⟩)
  | some packet => exact .send s.router.seenPacketIds _ _ (.inr ⟨i, rfl⟩)

lemma loop_move (hactive : s.eventQueue.stopRequested = false) (event : LoopEvent) :
    LoopMove decode cb self s env event (s.step decode cb self (env, event)) := by
  have hpush : (∀ e, event.queued decode = some e →
      LoopMove decode cb self s env event (s.push (some e))) := by
    intro e he
    exact .push he
  unfold LoopState.step
  cases event with
  | notifyOne =>
    dsimp only
    split_ifs with hzero
    · exact .unchanged rfl (fun _ => hzero) (fun h => LoopEvent.noConfusion h)
        (fun h => LoopEvent.noConfusion h)
    · have hwake := wake_move decode cb self env (s := s) .notifyOne rfl
        (fun h => LoopEvent.noConfusion h)
        (s.notifies - 1)
      rcases hwake with ⟨hstage, heq⟩ | hmove
      · rw [heq]
        exact .missed hstage
      · exact hmove
  | wakeup =>
    dsimp only
    have hwake := wake_move decode cb self env (s := s) .wakeup rfl
      (fun h => LoopEvent.noConfusion h)
      (s.wake env).notifies
    rcases hwake with ⟨hstage, heq⟩ | hmove
    · rw [heq]
      exact .unchanged rfl (fun h => LoopEvent.noConfusion h) (fun _ => hstage)
        (fun h => LoopEvent.noConfusion h)
    · exact hmove
  | advance => exact advance_move decode cb self env hactive
  | sendPacket packet => exact enterId_move decode cb self env packet
  | forwardNext i => exact forwardNext_move decode cb self env i
  | stop => exact .stop
  | pushDataBytes fromPeer payloadBytes =>
    dsimp only
    cases hqueued : (LoopEvent.pushDataBytes fromPeer payloadBytes).queued decode with
    | none =>
      exact .unchanged hqueued (fun h => LoopEvent.noConfusion h) (fun h => LoopEvent.noConfusion h)
        fun h => LoopEvent.noConfusion h
    | some e => exact hpush e hqueued
  | onPeerConnected peerId => exact hpush _ rfl
  | onPeerDisconnected peerId => exact hpush _ rfl

end Moves

/-! ## Tables

The handling of an event reads and writes the tables and the timers of the router without a look at
the ids that it has seen, so the sends of other threads cannot disturb it.
-/

section Tables

variable (self : PeerId) (env : StepEnv) (s : RouterState) (seen : TimedDedupSet DedupKey)

lemma recalculate_withSeen (views : UMap PeerId NeighborView) (now : Time) :
    { s with neighborViews := views, seenPacketIds := seen }.recalculateForwardingTable
      self env now =
      { { s with neighborViews := views }.recalculateForwardingTable self env now with
        seenPacketIds := seen } := by
  unfold RouterState.recalculateForwardingTable
  dsimp only
  split_ifs <;> rfl

lemma heardFrom_withSeen (src : PeerId) (now : Time) :
    { s with seenPacketIds := seen }.heardFrom src now =
      { s.heardFrom src now with seenPacketIds := seen } := by
  unfold RouterState.heardFrom
  dsimp only
  cases s.neighborViews.lookup src <;> rfl

lemma processRoutingUpdate_withSeen (n : PeerId) (table : RouteTable) :
    { s with seenPacketIds := seen }.processRoutingUpdate self env n table =
      { s.processRoutingUpdate self env n table with seenPacketIds := seen } :=
  recalculate_withSeen self env s seen _ (env.clock 2)

lemma expireNeighbors_withSeen (now : Time) :
    { s with seenPacketIds := seen }.expireNeighbors self env now =
      { s.expireNeighbors self env now with seenPacketIds := seen } := by
  unfold RouterState.expireNeighbors
  dsimp only
  split_ifs
  · exact recalculate_withSeen self env s seen _ (env.clock 1)
  · rfl

lemma fireTrigger_withSeen (now : Time) :
    ({ s with seenPacketIds := seen }.fireTrigger self env now).2 =
      { (s.fireTrigger self env now).2 with seenPacketIds := seen } := by
  unfold RouterState.fireTrigger RouterState.sendTriggeredUpdates
  dsimp only
  split_ifs <;> rfl

lemma firePeriodic_withSeen (now : Time) (first first' : Nat) :
    ({ s with seenPacketIds := seen }.firePeriodic self env now first).2 =
      { (s.firePeriodic self env now first').2 with seenPacketIds := seen } := by
  unfold RouterState.firePeriodic
  dsimp only
  split_ifs <;> rfl

lemma runPeriodicMaintenance_withSeen :
    ∃ seen', ({ s with seenPacketIds := seen }.runPeriodicMaintenance self env).2 =
      { (s.runPeriodicMaintenance self env).2 with seenPacketIds := seen' } := by
  unfold RouterState.runPeriodicMaintenance
  dsimp only
  rw [expireNeighbors_withSeen, fireTrigger_withSeen, firePeriodic_withSeen]
  exact ⟨_, rfl⟩

/-- What an event does to the tables and the timers does not depend on the ids seen or on the
owner. -/
lemma step_withSeen (cb : OnPacketForMe ν) (owner owner' : ν) (event : RouterEvent) :
    ∃ seen', ({ s with seenPacketIds := seen }.step cb self env owner event).2.2 =
      { (s.step cb self env owner' event).2.2 with seenPacketIds := seen' } := by
  cases event with
  | packetReceived src pkt =>
    unfold RouterState.step RouterState.handlePacket
    dsimp only
    split_ifs
    · exact ⟨seen, rfl⟩
    · rw [heardFrom_withSeen, processRoutingUpdate_withSeen]
      exact ⟨seen, rfl⟩
    · rw [heardFrom_withSeen]
      obtain ⟨seen₁, h₁⟩ := routeDataPacket_frame cb self env owner
        { s.heardFrom src (env.clock 0) with seenPacketIds := seen } src pkt.toPeerId
        (toHex pkt.id) pkt
      obtain ⟨_, h₂⟩ := routeDataPacket_frame cb self env owner' (s.heardFrom src (env.clock 0)) src
        pkt.toPeerId
        (toHex pkt.id) pkt
      rw [h₁, h₂]
      exact ⟨seen₁, rfl⟩
  | peerConnected p => exact ⟨seen, recalculate_withSeen self env s seen _ (env.clock 1)⟩
  | peerDisconnected p => exact ⟨seen, recalculate_withSeen self env s seen _ (env.clock 1)⟩
  | maintenance => exact runPeriodicMaintenance_withSeen self env s seen
  | sendPacket pkt =>
    unfold RouterState.step
    dsimp only
    obtain ⟨seen₁, h₁⟩ := routeDataPacket_frame cb self env owner { s with seenPacketIds := seen }
      self pkt.toPeerId
      (toHex pkt.id) pkt
    obtain ⟨_, h₂⟩ :=
      routeDataPacket_frame cb self env owner' s self pkt.toPeerId (toHex pkt.id) pkt
    rw [h₁, h₂]
    exact ⟨seen₁, rfl⟩

end Tables

/-- A call of `send_packet` that nothing comes between is `sendOwnPacket`. -/
lemma enterId_forwardNext (self : PeerId) (env : StepEnv) (s : LoopState ν) {packet : RoutedPacket}
    (hto : packet.toPeerId ≠ self) :
    (s.enterId self env packet).forwardNext self env s.sending.length =
      { s with
        router := (s.router.sendOwnPacket self env.order (env.clock 0) packet).2
        sent := s.sent ++ (s.router.sendOwnPacket self env.order (env.clock 0) packet).1 } := by
  unfold LoopState.enterId RouterState.sendOwnPacket RouterState.forwardPacket
  rw [if_neg hto, if_neg hto, if_neg fun h => h.1 rfl]
  unfold LoopState.forwardNext
  dsimp only
  rw [List.getElem?_concat_length, List.eraseIdx_append_of_length_le le_rfl, Nat.sub_self,
    List.eraseIdx_cons_zero, List.append_nil]

/-! ## Order -/

def queuedPart : RouterEvent → Option QueuedEvent
  | .packetReceived peerId packet => some (.packetReceived peerId packet)
  | .peerConnected peerId => some (.peerConnected peerId)
  | .peerDisconnected peerId => some (.peerDisconnected peerId)
  | .maintenance => none
  | .sendPacket _ => none

@[simp] lemma queuedPart_routerEvent (e : QueuedEvent) : queuedPart e.routerEvent = some e := by
  cases e <;> rfl

/-- The events from the queue that the router has handled. -/
def handled (log : List (StepEnv × RouterEvent)) : List QueuedEvent :=
  log.filterMap fun ee => queuedPart ee.2

lemma handled_append (log : List (StepEnv × RouterEvent)) (env : StepEnv) (event : RouterEvent) :
    handled (log ++ [(env, event)]) = handled log ++ (queuedPart event).toList := by
  unfold handled
  rw [List.filterMap_append, List.append_cancel_left_eq]
  cases hpart : queuedPart event <;> simp [hpart]

/-- The event that the routing thread has taken from the queue and not handled yet. -/
def inHand : LoopStage → List QueuedEvent
  | .popped (some e) => [e]
  | _ => []

/-- The events that `events` push into the queue. -/
def pushedEvents (decode : Bytes → Option RoutedPacket) (events : List (StepEnv × LoopEvent)) :
    List QueuedEvent :=
  events.filterMap fun ee => ee.2.queued decode

lemma pushedEvents_concat (decode : Bytes → Option RoutedPacket)
    (events : List (StepEnv × LoopEvent)) (ee : StepEnv × LoopEvent) :
    pushedEvents decode (events ++ [ee]) = pushedEvents decode events ++
      (ee.2.queued decode).toList := by
  unfold pushedEvents
  rw [List.filterMap_append, List.append_cancel_left_eq]
  cases hqueued : ee.2.queued decode <;> simp [hqueued]

/-- The routing thread in step with the router, after `pushed` has been pushed. The sends of other
threads change nothing but the ids that the router has seen. -/
structure LoopInStep (cb : OnPacketForMe ν) (node : PeerId) (owner₀ : ν) (pushed : List QueuedEvent)
    (s : LoopState ν) :
    Prop where
  active : s.eventQueue.stopRequested = false
  tables : ∃ owner router seen, RouterRun cb node owner₀ s.log owner router ∧
    s.router = { router with seenPacketIds := seen }
  order : handled s.log ++ inHand s.stage ++ s.eventQueue.queue = pushed
  wakes : ∀ d, s.stage = .asleep d → s.eventQueue.queue ≠ [] → 0 < s.notifies

section InStep

variable {decode : Bytes → Option RoutedPacket} {cb : OnPacketForMe ν} {self : PeerId} {owner₀ : ν}
  {pushed : List QueuedEvent} {s : LoopState ν}

lemma start_inStep (cb : OnPacketForMe ν) (self : PeerId) (owner₀ : ν) (now : Time) :
    LoopInStep cb self owner₀ [] (LoopState.start self owner₀ now) :=
  ⟨rfl, ⟨owner₀, _, _, .create now, rfl⟩, rfl, fun _ hstage => LoopStage.noConfusion hstage⟩

/-- The thread moves on without a step of the router. -/
lemma LoopInStep.restage (h : LoopInStep cb self owner₀ pushed s) {stage : LoopStage}
    (running : Bool) (notifies : Nat) (next : Time) (hhand : inHand stage = inHand s.stage)
    (hwakes : ∀ d, stage = .asleep d → s.eventQueue.queue ≠ [] → 0 < notifies) :
    LoopInStep cb self owner₀ pushed
      { s with
        stage := stage, running := running, notifies := notifies, nextMaintenanceTime := next } :=
  ⟨h.active, h.tables, by dsimp only; rw [hhand]; exact h.order, hwakes⟩

/-- The router takes a step. -/
lemma LoopInStep.call (h : LoopInStep cb self owner₀ pushed s) (env : StepEnv) (event : RouterEvent)
    {stage : LoopStage} (next : Time)
    (hhand : (queuedPart event).toList ++ inHand stage = inHand s.stage)
    (hwakes : ∀ d, stage = .asleep d → s.stage = .asleep d) : LoopInStep cb self owner₀ pushed
      { s.call cb self env event with stage := stage, nextMaintenanceTime := next } := by
  refine ⟨h.active, ?_, ?_, fun d hd => h.wakes d (hwakes d hd)⟩
  · obtain ⟨owner, router, seen, hrun, hrouter⟩ := h.tables
    obtain ⟨seen', hstep⟩ := step_withSeen self env router seen cb s.owner owner event
    refine ⟨_, _, seen', .step env event hrun, ?_⟩
    dsimp only [LoopState.call]
    rw [hrouter, hstep]
  · dsimp only [LoopState.call]
    rw [handled_append, List.append_assoc (handled s.log), hhand]
    exact h.order

/-- Every step keeps the thread in step. -/
lemma LoopInStep.step (h : LoopInStep cb self owner₀ pushed s) (env : StepEnv) (event : LoopEvent) :
    LoopInStep cb self owner₀ (pushed ++ (event.queued decode).toList)
      (s.step decode cb self (env, event)) := by
  have hnone : ∀ {event : LoopEvent} {s'}, event.queued decode = none →
      LoopInStep cb self owner₀ pushed s' →
      LoopInStep cb self owner₀ (pushed ++ (event.queued decode).toList) s' := by
    intro event s' hqueued h'
    rw [hqueued, Option.toList_none, List.append_nil]
    exact h'
  have hawake : ∀ {stage : LoopStage}, (∀ d, stage ≠ .asleep d) → ∀ d, stage = .asleep d →
      s.eventQueue.queue ≠ [] → 0 < s.notifies := fun hne d hd => absurd hd (hne d)
  have hmove := loop_move decode cb self env h.active event
  generalize s.step decode cb self (env, event) = s' at hmove
  cases hmove with
  | push hqueued =>
    rw [hqueued]
    refine ⟨h.active, h.tables, ?_, fun _ _ _ => Nat.succ_pos _⟩
    dsimp only
    rw [← h.order, List.append_assoc _ s.eventQueue.queue]
    rfl
  | unchanged hqueued => exact hnone hqueued h
  | missed hstage => exact hnone rfl (h.restage _ _ _ rfl fun d hd => absurd hd (hstage d))
  | woken hqueued _ hstage =>
    refine hnone hqueued (h.restage _ _ _ ?_ fun d hd => ?_)
    · rw [hstage]
      split_ifs <;> rfl
    · split_ifs at hd
  | begin hstage =>
    exact hnone rfl (h.restage _ _ _ (by rw [hstage]; rfl)
      (hawake fun d hd => LoopStage.noConfusion hd))
  | enter hstage =>
    exact hnone rfl (h.restage _ _ _ (by rw [hstage]; rfl)
      (hawake fun d hd => LoopStage.noConfusion hd))
  | leave hstage =>
    exact hnone rfl (h.restage _ _ _ (by rw [hstage]; rfl)
      (hawake fun d hd => LoopStage.noConfusion hd))
  | sleep hstage hqueue =>
    exact hnone rfl (h.restage _ _ _ (by rw [hstage]; rfl) fun _ _ hne => absurd hqueue hne)
  | miss hstage =>
    exact hnone rfl (h.restage _ _ _ (by rw [hstage]; rfl)
      (hawake fun d hd => LoopStage.noConfusion hd))
  | pop hstage hqueue =>
    have hhand : inHand s.stage = [] := by
      rcases hstage with hstage | ⟨d, hstage⟩ <;> rw [hstage] <;> rfl
    refine hnone rfl ⟨h.active, h.tables, ?_, fun d hd => LoopStage.noConfusion hd⟩
    have horder := h.order
    rw [hhand, hqueue, List.append_nil] at horder
    dsimp only [inHand]
    rw [List.append_assoc]
    exact horder
  | skip hstage =>
    exact hnone rfl (h.restage _ _ _ (by rw [hstage]; rfl)
      (hawake fun d hd => LoopStage.noConfusion hd))
  | handle hstage =>
    refine hnone rfl (h.call env _ _ ?_ fun d hd => LoopStage.noConfusion hd)
    rw [queuedPart_routerEvent, hstage]
    rfl
  | tick hstage =>
    refine hnone rfl (h.call env.later .maintenance _ ?_ fun d hd => LoopStage.noConfusion hd)
    rw [hstage]
    rfl
  | early hstage =>
    exact hnone rfl (h.restage _ _ _ (by rw [hstage]; rfl)
      (hawake fun d hd => LoopStage.noConfusion hd))
  | send seen sending sent hsend =>
    obtain ⟨owner, router, _, hrun, hrouter⟩ := h.tables
    refine hnone ?_ ⟨h.active, ⟨owner, router, seen, hrun, by rw [hrouter]⟩, h.order, h.wakes⟩
    rcases hsend with ⟨packet, rfl⟩ | ⟨i, rfl⟩ <;> rfl
  | stop => exact hnone rfl (h.restage _ _ _ rfl h.wakes)

end InStep

/-- In every interleaving of the threads the events that are pushed are handled once each and in
order, the tables are those of a router that handles them alone, and the thread never sleeps through
one. -/
theorem processingLoop_inStep (decode : Bytes → Option RoutedPacket) (cb : OnPacketForMe ν)
    (self : PeerId) (owner₀ : ν) (now : Time) (events : List (StepEnv × LoopEvent)) :
    LoopInStep cb self owner₀ (pushedEvents decode events)
      (EventRun.run (LoopState.step decode cb self) (LoopState.start self owner₀ now) events) := by
  induction events using List.reverseRecOn with
  | nil => exact start_inStep cb self owner₀ now
  | append_singleton events ee ih =>
    rw [EventRun.run_concat, pushedEvents_concat]
    exact ih.step ee.1 ee.2

/-! ## Maintenance -/

/-- The step runs the maintenance. -/
def Ticks (s : LoopState ν) (ee : StepEnv × LoopEvent) : Prop :=
  ee.2 = .advance ∧ s.stage = .tail ∧ s.nextMaintenanceTime ≤ ee.1.clock 0

/-- The step hands an event of the queue to the router. -/
def Handles (s : LoopState ν) (ee : StepEnv × LoopEvent) : Prop :=
  ee.2 = .advance ∧ ∃ e, s.stage = .popped (some e)

section Rhythm

variable (decode : Bytes → Option RoutedPacket) (cb : OnPacketForMe ν) (self : PeerId)
  {s : LoopState ν}

/-- The time of the next maintenance is never set back. -/
lemma step_next (hactive : s.eventQueue.stopRequested = false) (hstage : s.stage ≠ .created)
    (ee : StepEnv × LoopEvent) : (s.step decode cb self ee).stage ≠ .created ∧
      s.nextMaintenanceTime ≤ (s.step decode cb self ee).nextMaintenanceTime := by
  obtain ⟨env, event⟩ := ee
  have hmove := loop_move decode cb self env hactive event
  generalize s.step decode cb self (env, event) = s' at hmove
  cases hmove with
  | woken =>
    refine ⟨?_, le_rfl⟩
    dsimp only
    split_ifs <;> exact fun h => LoopStage.noConfusion h
  | begin hcreated => exact absurd hcreated hstage
  | tick _ hdue => exact ⟨fun h => LoopStage.noConfusion h, hdue.trans (Nat.le_add_right _ _)⟩
  | push => exact ⟨hstage, le_rfl⟩
  | unchanged => exact ⟨hstage, le_rfl⟩
  | missed => exact ⟨hstage, le_rfl⟩
  | send => exact ⟨hstage, le_rfl⟩
  | stop => exact ⟨hstage, le_rfl⟩
  | _ => exact ⟨fun h => LoopStage.noConfusion h, le_rfl⟩

lemma Ticks.next {ee : StepEnv × LoopEvent} (h : Ticks s ee) :
    (s.step decode cb self ee).stage = .head ∧
      (s.step decode cb self ee).nextMaintenanceTime = ee.1.clock 0 + maintenanceTickRate := by
  obtain ⟨hevent, hstage, hdue⟩ := h
  unfold LoopState.step
  rw [hevent]
  dsimp only [LoopState.advance]
  rw [hstage]
  dsimp only
  rw [if_pos hdue]
  exact ⟨rfl, rfl⟩

/-- The thread stays before a maintenance that is due until it runs. -/
lemma step_tail (hactive : s.eventQueue.stopRequested = false) (hstage : s.stage = .tail)
    {ee : StepEnv × LoopEvent} (hdue : s.nextMaintenanceTime ≤ ee.1.clock 0) (hnot : ¬Ticks s ee) :
    (s.step decode cb self ee).stage = .tail ∧
      (s.step decode cb self ee).nextMaintenanceTime = s.nextMaintenanceTime := by
  obtain ⟨env, event⟩ := ee
  have hother : event ≠ .advance := fun hevent => hnot ⟨hevent, hstage, hdue⟩
  have hmove := loop_move decode cb self env hactive event
  generalize s.step decode cb self (env, event) = s' at hmove
  cases hmove with
  | push => exact ⟨hstage, rfl⟩
  | unchanged => exact ⟨hstage, rfl⟩
  | missed => exact ⟨hstage, rfl⟩
  | woken _ _ hasleep =>
    rw [hstage] at hasleep
    cases hasleep
  | send => exact ⟨hstage, rfl⟩
  | stop => exact ⟨hstage, rfl⟩
  | _ => exact absurd rfl hother

variable (owner₀ : ν) (now : Time)

/-- The state after `events`. -/
def loopAfter (events : List (StepEnv × LoopEvent)) : LoopState ν :=
  EventRun.run (LoopState.step decode cb self) (LoopState.start self owner₀ now) events

lemma loopAfter_concat (events : List (StepEnv × LoopEvent)) (ee : StepEnv × LoopEvent) :
    loopAfter decode cb self owner₀ now (events ++ [ee]) =
      (loopAfter decode cb self owner₀ now events).step decode cb self ee := EventRun.run_concat ..

lemma loopAfter_active (events : List (StepEnv × LoopEvent)) :
    (loopAfter decode cb self owner₀ now events).eventQueue.stopRequested = false :=
  (processingLoop_inStep decode cb self owner₀ now events).active

lemma next_le_next {before : List (StepEnv × LoopEvent)}
    (hstage : (loopAfter decode cb self owner₀ now before).stage ≠ .created)
    (later : List (StepEnv × LoopEvent)) :
    (loopAfter decode cb self owner₀ now (before ++ later)).stage ≠ .created ∧
      (loopAfter decode cb self owner₀ now before).nextMaintenanceTime ≤
        (loopAfter decode cb self owner₀ now (before ++ later)).nextMaintenanceTime := by
  induction later using List.reverseRecOn with
  | nil =>
    rw [List.append_nil]
    exact ⟨hstage, le_rfl⟩
  | append_singleton later ee ih =>
    rw [← List.append_assoc, loopAfter_concat]
    obtain ⟨hstage', hle⟩ := step_next decode cb self
      (loopAfter_active decode cb self owner₀ now (before ++ later)) ih.1 ee
    exact ⟨hstage', ih.2.trans hle⟩

/-- No maintenance in `later`. -/
lemma stays_tail {before : List (StepEnv × LoopEvent)}
    (hstage : (loopAfter decode cb self owner₀ now before).stage = .tail)
    (later : List (StepEnv × LoopEvent))
    (hdue : ∀ ee ∈ later, (loopAfter decode cb self owner₀ now before).nextMaintenanceTime ≤
      ee.1.clock 0)
    (hnot : ∀ pre ee post, later = pre ++ ee :: post →
      ¬Ticks (loopAfter decode cb self owner₀ now (before ++ pre)) ee) :
    (loopAfter decode cb self owner₀ now (before ++ later)).stage = .tail ∧
      (loopAfter decode cb self owner₀ now (before ++ later)).nextMaintenanceTime =
        (loopAfter decode cb self owner₀ now before).nextMaintenanceTime := by
  induction later using List.reverseRecOn with
  | nil =>
    rw [List.append_nil]
    exact ⟨hstage, rfl⟩
  | append_singleton later ee ih =>
    obtain ⟨htail, hnext⟩ :=
      ih (fun ee' hee' => hdue ee' (List.mem_append_left _ hee')) fun pre ee' post heq =>
      hnot pre ee' (post ++ [ee]) (by rw [heq]; simp)
    rw [← List.append_assoc, loopAfter_concat]
    have hlast := hdue ee (List.mem_append_right _ (List.mem_singleton_self ee))
    rw [← hnext] at hlast ⊢
    exact step_tail decode cb self (loopAfter_active decode cb self owner₀ now (before ++ later))
      htail hlast
      (hnot later ee [] rfl)

end Rhythm

/-- The readings of the clock at which two runs of the maintenance are found due are at least 100 ms
apart; the runs themselves take a reading of their own, later. And when the maintenance is due, the
thread handles at most one more event of the queue before it, however many are waiting. -/
theorem maintenance_rhythm (decode : Bytes → Option RoutedPacket) (cb : OnPacketForMe ν)
    (self : PeerId) (owner₀ : ν) (now : Time) (pre mid : List (StepEnv × LoopEvent))
    (a b : StepEnv × LoopEvent) :
    (Ticks (loopAfter decode cb self owner₀ now pre) a →
      Ticks (loopAfter decode cb self owner₀ now (pre ++ a :: mid)) b →
        a.1.clock 0 + maintenanceTickRate ≤ b.1.clock 0) ∧
    ((∀ ee ∈ mid, a.1.clock 0 ≤ ee.1.clock 0) →
      Handles (loopAfter decode cb self owner₀ now pre) a →
      (loopAfter decode cb self owner₀ now pre).nextMaintenanceTime ≤ a.1.clock 0 →
      Handles (loopAfter decode cb self owner₀ now (pre ++ a :: mid)) b →
        ∃ before ee after, mid = before ++ ee :: after ∧
          Ticks (loopAfter decode cb self owner₀ now (pre ++ a :: before)) ee) := by
  have hsplit : ∀ l, pre ++ a :: l = pre ++ [a] ++ l := fun l => (List.append_cons pre a l)
  constructor
  · intro ha hb
    obtain ⟨hstage, hnext⟩ := ha.next decode cb self
    rw [← loopAfter_concat] at hstage hnext
    have hle :=
      (next_le_next decode cb self owner₀ now
        (by rw [hstage]; exact fun h => LoopStage.noConfusion h) mid).2
    rw [hnext, ← hsplit] at hle
    exact hle.trans hb.2.2
  · rintro hclock ⟨hadvance, e, hstage⟩ hdue ⟨-, e', hstage'⟩
    by_contra hnone
    have htail : (loopAfter decode cb self owner₀ now (pre ++ [a])).stage = .tail ∧
        (loopAfter decode cb self owner₀ now (pre ++ [a])).nextMaintenanceTime =
          (loopAfter decode cb self owner₀ now pre).nextMaintenanceTime := by
      rw [loopAfter_concat]
      unfold LoopState.step
      rw [hadvance]
      dsimp only [LoopState.advance]
      rw [hstage]
      exact ⟨rfl, rfl⟩
    have hstays := (stays_tail decode cb self owner₀ now htail.1 mid
      (fun ee hee => by rw [htail.2]; exact hdue.trans (hclock ee hee))
      fun before ee after hmid hticks => hnone
      ⟨before, ee, after, hmid, by rw [hsplit]; exact hticks⟩).1
    rw [← hsplit, hstage'] at hstays
    cases hstays

/-- Two neighbours connect before the first maintenance is due, and the thread comes to them when it
is. -/
def lateLoop : List (StepEnv × LoopEvent) :=
  [(plainEnv 0, .advance), (plainEnv 0, .onPeerConnected "b"), (plainEnv 0, .onPeerConnected "c"),
    (plainEnv 0, .advance), (plainEnv (milliseconds 100), .advance)]

/-- The maintenance, and the next round up to the second event. -/
def lateRound : List (StepEnv × LoopEvent) :=
  List.replicate 3 (plainEnv (milliseconds 100), .advance)

/-- The state when the first maintenance is found due. -/
def firstTick : LoopState Unit :=
  loopAfter (fun _ => none) silentOwner "a" () 0
    (lateLoop ++ [(plainEnv (milliseconds 100), .advance)])

/-- And when the second one is. -/
def secondTick : LoopState Unit :=
  loopAfter (fun _ => none) silentOwner "a" () 0
    (lateLoop ++ [(plainEnv (milliseconds 100), .advance)] ++
      (plainEnv (milliseconds 100), .advance) :: lateRound)

/-- The maintenance runs between the two events, and again after the second, not before 200 ms. -/
theorem maintenance_rhythm_late :
    (∃ before ee after, lateRound = before ++ ee :: after ∧
      Ticks (loopAfter (fun _ => none) silentOwner "a" () 0
        (lateLoop ++ (plainEnv (milliseconds 100), .advance) :: before)) ee) ∧
    Ticks firstTick (plainEnv (milliseconds 100), .advance) ∧
    Ticks secondTick (plainEnv (milliseconds 205), .advance) ∧
    ∀ t, Ticks secondTick (plainEnv t, .advance) → milliseconds 200 ≤ t := by
  have hfirst : Handles (loopAfter (fun _ => none) silentOwner "a" () 0 lateLoop)
      (plainEnv (milliseconds 100), .advance) := ⟨rfl, _, rfl⟩
  have hsecond : Handles (loopAfter (fun _ => none) silentOwner "a" () 0
      (lateLoop ++ (plainEnv (milliseconds 100), .advance) :: lateRound))
      (plainEnv (milliseconds 100), .advance) := ⟨rfl, _, rfl⟩
  have htick : Ticks firstTick (plainEnv (milliseconds 100), .advance) := ⟨rfl, rfl, le_rfl⟩
  have hnext : Ticks secondTick (plainEnv (milliseconds 205), .advance) := ⟨rfl, rfl, by decide⟩
  exact ⟨(maintenance_rhythm (fun _ => none) silentOwner "a" () 0 lateLoop lateRound _ _).2
      (fun ee hee => (List.eq_of_mem_replicate hee) ▸ le_rfl) hfirst le_rfl hsecond, htick, hnext,
    fun t ht => (maintenance_rhythm (fun _ => none) silentOwner "a" () 0 _ _ _
      (plainEnv t, .advance)).1 htick ht⟩

end MeshNetwork.Proofs
