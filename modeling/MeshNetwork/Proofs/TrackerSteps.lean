import MeshNetwork.Library.OneShot
import MeshNetwork.Model.TrackerThreads

/-!
# The steps of a shared tracker

What an event does to the table of requests, which callbacks it takes out of the table, and which
callbacks it invokes.
-/

namespace MeshNetwork.Proofs

open OneShot

variable {s s' : SharedTracker}

/-! ## The table of requests -/

def callbackTable (s : SharedTracker) : Table String Nat :=
  ⟨fun reqId => s.pendingRequests.lookup reqId, s.requests.map fun r => (r.reqId, r.takenBy)⟩

def completionOps (c : Nat) (s : SharedTracker) : List (Op String Nat) :=
  match s.calls[c]? with
  | none => []
  | some call => if call.stage = .entered then [.settle call.reqId c] else []

/-- What an event does to the table. -/
def callbackOps (s : SharedTracker) : TrackerEvent → List (Op String Nat)
  | .trackRequestCallback reqId => [.enter reqId]
  | .completeRequest c => completionOps c s
  | _ => []

lemma callbackTable_modify (n : Nat) (f : TrackedRequest → TrackedRequest)
    (hf : ∀ r, ((f r).reqId, (f r).takenBy) = (r.reqId, r.takenBy)) :
    callbackTable { s with requests := s.requests.modify n f } = callbackTable s :=
  congrArg (Table.mk _) (map_modify_eq hf s.requests n)

lemma callbackTable_signalRequest (n : Nat) (signal : TimerSignal) :
    callbackTable (s.signalRequest n signal) = callbackTable s :=
  callbackTable_modify n _ fun _ => rfl

lemma callbackTable_enter (reqId : String) : callbackTable { s with
      pendingRequests := s.pendingRequests.insert reqId s.requests.length
      requests := s.requests ++ [{ reqId := reqId }] } =
        OneShot.apply (callbackTable s) (.enter reqId) := by
  simp [callbackTable, OneShot.apply, UMap.lookup_insert_update]

lemma callbackTable_trackRequestCallback (reqId : String) :
    callbackTable (s.trackRequestCallback reqId) =
      OneShot.apply (callbackTable s) (.enter reqId) := by
  unfold SharedTracker.trackRequestCallback
  cases s.pendingRequests.lookup reqId with
  | none => exact callbackTable_enter reqId
  | some n =>
    rw [← callbackTable_signalRequest (s := s) n .cancel]
    exact callbackTable_enter reqId

/-- A call that takes a callback is a result for the entry. -/
lemma entries_taken (requests : List TrackedRequest) (n c : Nat) :
    (requests.modify n fun r => { r with takenBy := r.takenBy ++ [c] }).map (fun r =>
      (r.reqId, r.takenBy)) =
      (requests.map fun r => (r.reqId, r.takenBy)).modify n (giveResult c) := by
  apply map_modify
  exact fun _ => rfl

lemma callbackTable_completeRequest (c : Nat) : callbackTable (s.completeRequest c) =
    EventRun.run OneShot.apply (callbackTable s) (completionOps c s) := by
  unfold SharedTracker.completeRequest completionOps
  cases s.calls[c]? with
  | none => rfl
  | some call =>
    dsimp only
    cases call.stage with
    | claimed _ | returned _ => rfl
    | entered =>
      rw [if_pos rfl, EventRun.run_cons, EventRun.run_nil]
      dsimp only
      cases hentry : s.pendingRequests.lookup call.reqId with
      | none => exact (apply_settle_none hentry).symm
      | some n =>
        rw [apply_settle_some (n := n) hentry]
        exact congrArg₂ Table.mk (UMap.lookup_erase_update s.pendingRequests call.reqId)
          (entries_taken s.requests n c)

lemma callbackTable_fulfillRequest (reqId : String) (sender : PeerId) (payload : Bytes) :
    callbackTable (s.fulfillRequest reqId sender payload) = callbackTable s := by
  unfold SharedTracker.fulfillRequest
  dsimp only
  split_ifs
  · rfl
  · cases s.broadcasts.lookup reqId <;> rfl

lemma callbackTable_runCallback (c : Nat) : callbackTable (s.runCallback c) = callbackTable s := by
  unfold SharedTracker.runCallback
  cases s.calls[c]? with
  | none => rfl
  | some call =>
    dsimp only
    cases call.stage with
    | entered | returned _ => rfl
    | claimed n => exact callbackTable_signalRequest (s := s) n .cancel

lemma callbackTable_requestHandler (n : Nat) :
    callbackTable (s.requestHandler n) = callbackTable s := by
  have hdone :
      callbackTable { s with requests := s.requests.modify n fun r => { r with timer := .done } } =
      callbackTable s := callbackTable_modify n (fun r => { r with timer := .done }) fun _ => rfl
  unfold SharedTracker.requestHandler
  cases s.requests[n]? with
  | none => rfl
  | some r =>
    dsimp only
    cases r.timer with
    | waiting | done => rfl
    | expired | aborted => exact hdone

lemma finishBroadcast_frame (n : Nat) (b : TrackedBroadcast) :
    callbackTable (s.finishBroadcast n b) = callbackTable s ∧
      (s.finishBroadcast n b).calls = s.calls := by
  unfold SharedTracker.finishBroadcast
  cases s.broadcasts.lookup b.reqId with
  | none => exact ⟨rfl, rfl⟩
  | some m => cases b.hasOnComplete <;> exact ⟨rfl, rfl⟩

lemma callbackTable_broadcastHandler (n : Nat) :
    callbackTable (s.broadcastHandler n) = callbackTable s := by
  unfold SharedTracker.broadcastHandler
  cases s.tracked[n]? with
  | none => rfl
  | some b =>
    dsimp only
    cases b.timer with
    | waiting | done => rfl
    | expired | aborted => exact (finishBroadcast_frame n b).1

/-- The tracker refines the table. -/
theorem callbackTable_step (event : TrackerEvent) : callbackTable (s.step event) =
    EventRun.run OneShot.apply (callbackTable s) (callbackOps s event) := by
  cases event with
  | trackRequestCallback reqId => exact callbackTable_trackRequestCallback reqId
  | trackBroadcast reqId hasOnComplete => rfl
  | fulfillRequest reqId sender payload => exact callbackTable_fulfillRequest reqId sender payload
  | completeRequest c => exact callbackTable_completeRequest c
  | runCallback c => exact callbackTable_runCallback c
  | requestTimer n signal => exact callbackTable_signalRequest n signal
  | requestHandler n => exact callbackTable_requestHandler n
  | broadcastTimer n signal => rfl
  | broadcastHandler n => exact callbackTable_broadcastHandler n

/-! ## What an event can do -/

/-- A call of `fulfill_request` has a payload; one of a timer is for the id of its request. -/
def OriginKnown (s : SharedTracker) (call : CompletionCall) : Prop :=
  match call.origin with
  | .fulfillRequest => call.payload ≠ none
  | .timer m =>
    call.payload = none ∧ ∃ takenBy, (callbackTable s).entries[m]? = some (call.reqId, takenBy)

/-- The call has taken the callback of the request. -/
def Holds (s : SharedTracker) (c : Nat) (call : CompletionCall) (n : Nat) : Prop :=
  ∃ takenBy, (callbackTable s).entries[n]? = some (call.reqId, takenBy) ∧ c ∈ takenBy

/-- Requests stay, and so do the calls that have taken their callbacks. -/
lemma request_kept (event : TrackerEvent) {n : Nat} {reqId : String} {takenBy : List Nat}
    (h : (callbackTable s).entries[n]? = some (reqId, takenBy)) :
    ∃ takenBy', (callbackTable (s.step event)).entries[n]? = some (reqId, takenBy') ∧
      takenBy ⊆ takenBy' := by
  rw [callbackTable_step]
  exact entry_run h (callbackOps s event)

lemma OriginKnown.step {call : CompletionCall} (h : OriginKnown s call) (event : TrackerEvent) :
    OriginKnown (s.step event) call := by
  unfold OriginKnown at h ⊢
  cases horigin : call.origin with
  | fulfillRequest =>
    rw [horigin] at h
    exact h
  | timer m =>
    rw [horigin] at h
    obtain ⟨hpayload, takenBy, hrow⟩ := h
    obtain ⟨takenBy', hrow', -⟩ := request_kept event hrow
    exact ⟨hpayload, takenBy', hrow'⟩

lemma Holds.step {c n : Nat} {call : CompletionCall} (h : Holds s c call n) (event : TrackerEvent) :
    Holds (s.step event) c call n := by
  obtain ⟨takenBy, hrow, hmem⟩ := h
  obtain ⟨takenBy', hrow', hsub⟩ := request_kept event hrow
  exact ⟨takenBy', hrow', hsub hmem⟩

def withStage (stage : CompletionStage) (call : CompletionCall) : CompletionCall :=
  { call with stage }

/-- What an event does to the calls and to the log. -/
inductive TrackerMove (s s' : SharedTracker) : Prop where
  | quiet (hcalls : s'.calls = s.calls) (hlog : s'.log = s.log)
  | enter (call : CompletionCall) (hstage : call.stage ≠ .returned true)
      (hfree : ∀ n, call.stage ≠ .claimed n)
      (horigin : OriginKnown s' call) (hcalls : s'.calls = s.calls ++ [call])
      (hlog : s'.log = s.log)
  | respond (call : CompletionCall) (reqId : String) (n : Nat) (payload : Bytes)
      (hstage : call.stage = .returned true)
      (horigin : OriginKnown s' call) (hentry : s.broadcasts.lookup reqId = some n)
      (hcalls : s'.calls = s.calls ++ [call])
      (hlog : s'.log = s.log ++ [.onResponse n call.sender payload s.calls.length])
  | refuse (c : Nat) (call : CompletionCall) (hcall : s.calls[c]? = some call)
      (hstage : call.stage = .entered)
      (hcalls : s'.calls = s.calls.modify c (withStage (.returned false))) (hlog : s'.log = s.log)
  | claim (c : Nat) (call : CompletionCall) (n : Nat) (hcall : s.calls[c]? = some call)
      (hstage : call.stage = .entered)
      (hholds : Holds s' c call n) (hcalls : s'.calls = s.calls.modify c (withStage (.claimed n)))
      (hlog : s'.log = s.log)
  | run (c : Nat) (call : CompletionCall) (n : Nat) (hcall : s.calls[c]? = some call)
      (hstage : call.stage = .claimed n)
      (hcalls : s'.calls = s.calls.modify c (withStage (.returned true)))
      (hlog : s'.log = s.log ++ [.request n call.sender call.payload c])
  | complete (n : Nat) (b b' : TrackedBroadcast) (hb : s.tracked[n]? = some b)
      (htimer : b.timer ≠ .done)
      (hb' : s'.tracked[n]? = some b') (hdone : b'.timer = .done) (hcalls : s'.calls = s.calls)
      (hlog : s'.log = s.log ++ [.onComplete n])

lemma trackRequestCallback_move (reqId : String) :
    TrackerMove s (s.trackRequestCallback reqId) := by
  unfold SharedTracker.trackRequestCallback
  cases s.pendingRequests.lookup reqId with
  | none => exact .quiet rfl rfl
  | some n => exact .quiet rfl rfl

lemma fulfillRequest_move (reqId : String) (sender : PeerId) (payload : Bytes) :
    TrackerMove s (s.fulfillRequest reqId sender payload) := by
  have horigin : ∀ (s' : SharedTracker) stage,
      OriginKnown s' ⟨.fulfillRequest, reqId, sender, some payload, stage⟩ :=
        fun _ _ => Option.some_ne_none payload
  unfold SharedTracker.fulfillRequest
  dsimp only
  split_ifs
  · exact .enter _ (by simp) (by simp) (horigin _ .entered) rfl rfl
  · cases hentry : s.broadcasts.lookup reqId with
    | none => exact .enter _ (by simp) (by simp) (horigin _ (.returned false)) rfl rfl
    | some n => exact .respond _ reqId n payload rfl (horigin _ (.returned true)) hentry rfl rfl

lemma completeRequest_move (hsound : (callbackTable s).Sound) (c : Nat) :
    TrackerMove s (s.completeRequest c) := by
  unfold SharedTracker.completeRequest
  cases hcall : s.calls[c]? with
  | none => exact .quiet rfl rfl
  | some call =>
    dsimp only
    cases hstage : call.stage with
    | claimed _ | returned _ => exact .quiet rfl rfl
    | entered =>
      dsimp only
      cases hentry : s.pendingRequests.lookup call.reqId with
      | none => exact .refuse c call hcall hstage rfl rfl
      | some n =>
        refine .claim c call n hcall hstage ?_ rfl rfl
        refine ⟨[c], ?_, List.mem_singleton_self c⟩
        have hrow := (getElem?_settle (r := c) hsound hentry n).trans (if_pos rfl)
        exact (congrArg (·[n]?) (entries_taken s.requests n c)).trans hrow

lemma runCallback_move (c : Nat) : TrackerMove s (s.runCallback c) := by
  unfold SharedTracker.runCallback
  cases hcall : s.calls[c]? with
  | none => exact .quiet rfl rfl
  | some call =>
    dsimp only
    cases hstage : call.stage with
    | entered | returned _ => exact .quiet rfl rfl
    | claimed n => exact .run c call n hcall hstage rfl rfl

lemma requestHandler_move (n : Nat) : TrackerMove s (s.requestHandler n) := by
  unfold SharedTracker.requestHandler
  cases hr : s.requests[n]? with
  | none => exact .quiet rfl rfl
  | some r =>
    dsimp only
    cases r.timer with
    | waiting | done | aborted => exact .quiet rfl rfl
    | expired =>
      refine .enter ⟨.timer n, r.reqId, "", none, .entered⟩ (by simp) (by simp) ?_ rfl rfl
      refine ⟨rfl, r.takenBy, ?_⟩
      simp [callbackTable, SharedTracker.enterCall, hr]

/-! ### The handler of a broadcast -/

lemma signal_done_iff (wait : TimerWait) (signal : TimerSignal) :
    wait.signal signal = .done ↔ wait = .done := by
  cases wait <;> cases signal <;> decide

lemma signalBroadcast_tracked (m : Nat) (signal : TimerSignal) {n : Nat} {b : TrackedBroadcast}
    (hb : s.tracked[n]? = some b) :
    ∃ b', (s.signalBroadcast m signal).tracked[n]? = some b' ∧ b'.reqId = b.reqId ∧
      (b'.timer = .done ↔ b.timer = .done) := by
  change ∃ b', (s.tracked.modify m _)[n]? = some b' ∧ _
  rw [List.getElem?_modify, hb]
  by_cases hm : m = n
  · exact ⟨{ b with timer := b.timer.signal signal }, by simp [hm], rfl,
      signal_done_iff b.timer signal⟩
  · exact ⟨b, by simp [hm], rfl, Iff.rfl⟩

/-- The entry of the id is erased, and no handler runs but the one that does this. -/
lemma finishBroadcast_spec (n : Nat) (b : TrackedBroadcast) (s : SharedTracker) :
    (∀ reqId m, (s.finishBroadcast n b).broadcasts.lookup reqId = some m →
      reqId ≠ b.reqId ∧ s.broadcasts.lookup reqId = some m) ∧
    ∀ (i : Nat) (c : TrackedBroadcast), s.tracked[i]? = some c →
      ∃ c', (s.finishBroadcast n b).tracked[i]? = some c' ∧ c'.reqId = c.reqId ∧
        (c'.timer = .done ↔ c.timer = .done) := by
  unfold SharedTracker.finishBroadcast
  cases hentry : s.broadcasts.lookup b.reqId with
  | none =>
    refine ⟨fun reqId m hm => ⟨?_, hm⟩, fun i c hc => ⟨c, hc, rfl, Iff.rfl⟩⟩
    rintro rfl
    rw [hentry] at hm
    cases hm
  | some entry =>
    constructor
    · intro reqId m hm
      cases hasOnComplete : b.hasOnComplete <;>
        rw [hasOnComplete] at hm <;> exact UMap.lookup_erase_eq_some.mp hm
    · intro i c hc
      cases b.hasOnComplete <;> exact signalBroadcast_tracked (s := s) entry .cancel hc

/-- The state in which the handler enters its critical section. -/
def handlerRan (n : Nat) (s : SharedTracker) : SharedTracker :=
  { s with tracked := s.tracked.modify n fun b => { b with timer := .done } }

lemma handlerRan_tracked {n : Nat} {b : TrackedBroadcast} (hb : s.tracked[n]? = some b) (i : Nat) :
    (handlerRan n s).tracked[i]? = if i = n then some { b with timer := .done }
    else s.tracked[i]? := by
  change (s.tracked.modify n _)[i]? = _
  split_ifs with hi
  · simp [hi, hb]
  · exact List.getElem?_modify_ne _ _ (Ne.symm hi)

/-- The handler does nothing, or it runs for the first time and has its critical section. -/
lemma broadcastHandler_cases (n : Nat) (s : SharedTracker) : s.broadcastHandler n = s ∨
    ∃ b, s.tracked[n]? = some b ∧ b.timer ≠ .done ∧
      s.broadcastHandler n = (handlerRan n s).finishBroadcast n b := by
  unfold SharedTracker.broadcastHandler
  cases s.tracked[n]? with
  | none => exact .inl rfl
  | some b =>
    dsimp only
    cases htimer : b.timer with
    | waiting | done => exact .inl rfl
    | expired | aborted => exact .inr ⟨b, rfl, by simp [htimer], rfl⟩

lemma finishBroadcast_log (n : Nat) (b : TrackedBroadcast) (s : SharedTracker) :
    (s.finishBroadcast n b).log = s.log ∨ (s.finishBroadcast n b).log = s.log ++
      [.onComplete n] := by
  unfold SharedTracker.finishBroadcast
  cases s.broadcasts.lookup b.reqId with
  | none => exact .inl rfl
  | some m =>
    cases b.hasOnComplete with
    | false => exact .inl rfl
    | true => exact .inr rfl

lemma broadcastHandler_move (n : Nat) : TrackerMove s (s.broadcastHandler n) := by
  rcases broadcastHandler_cases n s with hsame | ⟨b, hb, htimer, hran⟩
  · rw [hsame]
    exact .quiet rfl rfl
  · rw [hran]
    have hcalls : ((handlerRan n s).finishBroadcast n b).calls = s.calls :=
      (finishBroadcast_frame n b).2
    rcases finishBroadcast_log n b (handlerRan n s) with hlog | hlog
    · exact .quiet hcalls hlog
    · have hn : (handlerRan n s).tracked[n]? = some { b with timer := .done } := by
        rw [handlerRan_tracked hb, if_pos rfl]
      obtain ⟨b', hb', -, hdone⟩ := (finishBroadcast_spec n b (handlerRan n s)).2 n _ hn
      exact .complete n b b' hb htimer hb' (hdone.mpr rfl) hcalls hlog

lemma trackerStep_move (hsound : (callbackTable s).Sound) (event : TrackerEvent) :
    TrackerMove s (s.step event) := by
  cases event with
  | trackRequestCallback reqId => exact trackRequestCallback_move reqId
  | trackBroadcast reqId hasOnComplete => exact .quiet rfl rfl
  | fulfillRequest reqId sender payload => exact fulfillRequest_move reqId sender payload
  | completeRequest c => exact completeRequest_move hsound c
  | runCallback c => exact runCallback_move c
  | requestTimer n signal => exact .quiet rfl rfl
  | requestHandler n => exact requestHandler_move n
  | broadcastTimer n signal => exact .quiet rfl rfl
  | broadcastHandler n => exact broadcastHandler_move n

end MeshNetwork.Proofs
