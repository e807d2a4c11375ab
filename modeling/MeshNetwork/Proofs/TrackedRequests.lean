import MeshNetwork.Library.Lists
import MeshNetwork.Model.Node
import MeshNetwork.Proofs.TrackerSteps

/-!
# The callbacks of a tracker

Requests are entered into a table and taken from it once, whoever comes first; a call that has taken
a callback invokes it once. A broadcast is notified until the handler of its timer has run.
-/

namespace MeshNetwork.Proofs

open OneShot

variable {s s' : SharedTracker}

/-! ## Calls -/

def callers (log : List Invocation) : List Nat := log.filterMap Invocation.call

lemma callers_append (log log' : List Invocation) :
    callers (log ++ log') = callers log ++ callers log' :=
  List.filterMap_append

def stages (s : SharedTracker) : List CompletionStage := s.calls.map CompletionCall.stage

lemma getElem?_modify_stage {c : Nat} {call : CompletionCall} {stage : CompletionStage}
    (hcall : s.calls[c]? = some call) (h : s'.calls = s.calls.modify c (withStage stage))
    (i : Nat) :
    s'.calls[i]? = if i = c then some (withStage stage call) else s.calls[i]? := by
  rw [h]
  split_ifs with hi
  · rw [hi, List.getElem?_modify_eq, hcall]
    rfl
  · exact List.getElem?_modify_ne _ _ (Ne.symm hi)

lemma getElem?_append_call {call : CompletionCall} (h : s'.calls = s.calls ++ [call]) (i : Nat) :
    s'.calls[i]? = if i = s.calls.length then some call else s.calls[i]? := by
  rw [h, getElem?_enter]

/-- The calls that have returned true are those that have invoked a callback, each of them one. -/
structure CallersMatch (s : SharedTracker) : Prop where
  mem_iff : ∀ c, c ∈ callers s.log ↔ (stages s)[c]? = some (.returned true)
  nodup : (callers s.log).Nodup

/-- One call gets a new stage, and a callback is invoked if it returns true. -/
lemma CallersMatch.update {c : Nat} {call : CompletionCall} (h : CallersMatch s)
    (hold : (stages s)[c]? ≠ some (.returned true))
    (hcalls : ∀ i, s'.calls[i]? = if i = c then some call else s.calls[i]?)
    (hlog : callers s'.log = callers s.log ++ if call.stage = .returned true then [c] else []) :
    CallersMatch s' := by
  have hnew : c ∉ callers s.log := (h.mem_iff c).not.mpr hold
  have hstages (i : Nat) : (stages s')[i]? = if i = c then some call.stage else (stages s)[i]? := by
    rw [stages, stages, List.getElem?_map, List.getElem?_map, hcalls i]
    split_ifs <;> rfl
  refine ⟨fun i => ?_, ?_⟩
  · rw [hlog, hstages, List.mem_append, h.mem_iff]
    by_cases hi : i = c
    · rw [hi, if_pos rfl]
      by_cases hstage : call.stage = .returned true <;> simp [hstage, hold]
    · rw [if_neg hi]
      by_cases hstage : call.stage = .returned true <;> simp [hstage, hi]
  · rw [hlog, List.nodup_append]
    by_cases hstage : call.stage = .returned true
    · simp only [hstage, if_true]
      refine ⟨h.nodup, List.nodup_singleton c, ?_⟩
      rintro a ha b hb rfl
      exact hnew (List.mem_singleton.mp hb ▸ ha)
    · simp [hstage, h.nodup]

lemma CallersMatch.step (h : CallersMatch s) (hmove : TrackerMove s s') : CallersMatch s' := by
  have hlast : (stages s)[s.calls.length]? ≠ some (.returned true) := by simp [stages]
  have hstage {c : Nat} {call : CompletionCall} (hcall : s.calls[c]? = some call) :
      (stages s)[c]? = some call.stage := by simp [stages, hcall]
  cases hmove with
  | quiet hcalls hlog =>
    refine ⟨fun c => ?_, hlog ▸ h.nodup⟩
    rw [hlog, stages, hcalls]
    exact h.mem_iff c
  | complete n b b' hb htimer hb' hdone hcalls hlog =>
    have hcallers : callers s'.log = callers s.log := by
      rw [hlog, callers_append]
      exact List.append_nil _
    refine ⟨fun c => ?_, hcallers ▸ h.nodup⟩
    rw [hcallers, stages, hcalls]
    exact h.mem_iff c
  | enter call hne hfree horigin hcalls hlog =>
    refine h.update hlast (getElem?_append_call hcalls) ?_
    rw [hlog, if_neg hne, List.append_nil]
  | respond call reqId n payload hreturned horigin hentry hcalls hlog =>
    refine h.update hlast (getElem?_append_call hcalls) ?_
    rw [hlog, if_pos hreturned, callers_append]
    rfl
  | refuse c call hcall hentered hcalls hlog =>
    refine h.update ?_ (getElem?_modify_stage hcall hcalls) ?_
    · simp [hstage hcall, hentered]
    · simp [hlog, withStage]
  | claim c call n hcall hentered hholds hcalls hlog =>
    refine h.update ?_ (getElem?_modify_stage hcall hcalls) ?_
    · simp [hstage hcall, hentered]
    · simp [hlog, withStage]
  | run c call n hcall hclaimed hcalls hlog =>
    refine h.update ?_ (getElem?_modify_stage hcall hcalls) ?_
    · simp [hstage hcall, hclaimed]
    · rw [hlog, callers_append, if_pos (by rfl)]
      rfl

/-- A call stays what it is, up to its stage. -/
lemma TrackerMove.call_kept (h : TrackerMove s s') {c : Nat} {call : CompletionCall}
    (hc : s.calls[c]? = some call) :
    ∃ stage, s'.calls[c]? = some (withStage stage call) := by
  have hsame (hcalls : s'.calls = s.calls) : ∃ stage, s'.calls[c]? = some (withStage stage call) :=
    ⟨call.stage, hcalls ▸ hc⟩
  have happend {new : CompletionCall} (hcalls : s'.calls = s.calls ++ [new]) :
      ∃ stage, s'.calls[c]? = some (withStage stage call) := by
    refine ⟨call.stage, ?_⟩
    rw [getElem?_append_call hcalls, if_neg (Nat.ne_of_lt (List.getElem?_eq_some_iff.mp hc).1)]
    exact hc
  have hmodify {i : Nat} {old : CompletionCall} {stage : CompletionStage}
      (hold : s.calls[i]? = some old)
      (hcalls : s'.calls = s.calls.modify i (withStage stage)) :
      ∃ stage, s'.calls[c]? = some (withStage stage call) := by
    rw [getElem?_modify_stage hold hcalls]
    split_ifs with hi
    · obtain rfl : old = call := Option.some.inj (hold.symm.trans (hi ▸ hc))
      exact ⟨stage, rfl⟩
    · exact ⟨call.stage, hc⟩
  cases h with
  | quiet hcalls _ => exact hsame hcalls
  | complete n b b' hb htimer hb' hdone hcalls _ => exact hsame hcalls
  | enter new _ _ _ hcalls _ => exact happend hcalls
  | respond new _ _ _ _ _ _ hcalls _ => exact happend hcalls
  | refuse i old hold _ hcalls _ => exact hmodify hold hcalls
  | claim i old n hold _ _ hcalls _ => exact hmodify hold hcalls
  | run i old n hold _ hcalls _ => exact hmodify hold hcalls

/-- Where a call comes from, and how it got to hold a callback. -/
lemma TrackerMove.call_source (h : TrackerMove s s') {c : Nat} {call' : CompletionCall}
    (hc : s'.calls[c]? = some call') :
    (∃ call stage, s.calls[c]? = some call ∧ call' = withStage stage call ∧
      ∀ n, stage = .claimed n → call.stage = .claimed n ∨ Holds s' c call n) ∨
    (OriginKnown s' call' ∧ ∀ n, call'.stage ≠ .claimed n) := by
  have hsame (hold : s.calls[c]? = some call') : ∃ call stage, s.calls[c]? = some call ∧
      call' = withStage stage call ∧ ∀ n, stage = .claimed n → call.stage = .claimed n ∨
        Holds s' c call n :=
    ⟨call', call'.stage, hold, rfl, fun _ => .inl⟩
  have happend {new : CompletionCall} (hcalls : s'.calls = s.calls ++ [new]) :
      call' = new ∨ s.calls[c]? = some call' := by
    rw [getElem?_append_call hcalls] at hc
    split_ifs at hc
    · exact .inl (Option.some.inj hc).symm
    · exact .inr hc
  have hmodify {i : Nat} {old : CompletionCall} {stage : CompletionStage}
      (hold : s.calls[i]? = some old)
      (hcalls : s'.calls = s.calls.modify i (withStage stage))
      (hstage : ∀ n, stage = .claimed n → Holds s' i old n) :
      ∃ call stage, s.calls[c]? = some call ∧
      call' = withStage stage call ∧ ∀ n, stage = .claimed n → call.stage = .claimed n ∨
        Holds s' c call n := by
    rw [getElem?_modify_stage hold hcalls] at hc
    split_ifs at hc with hi
    · refine ⟨old, stage, hi ▸ hold, (Option.some.inj hc).symm, fun n hn => .inr ?_⟩
      exact hi ▸ hstage n hn
    · exact hsame hc
  cases h with
  | quiet hcalls _ => exact .inl (hsame (hcalls ▸ hc))
  | complete n b b' hb htimer hb' hdone hcalls _ => exact .inl (hsame (hcalls ▸ hc))
  | enter new _ hfree horigin hcalls _ =>
    rcases happend hcalls with rfl | hold
    · exact .inr ⟨horigin, hfree⟩
    · exact .inl (hsame hold)
  | respond new _ _ _ hstage horigin _ hcalls _ =>
    rcases happend hcalls with rfl | hold
    · exact .inr ⟨horigin, by simp [hstage]⟩
    · exact .inl (hsame hold)
  | refuse i old hold _ hcalls _ => exact .inl (hmodify hold hcalls (by simp))
  | claim i old n hold _ hholds hcalls _ =>
    refine .inl (hmodify hold hcalls fun m hm => ?_)
    cases hm
    exact hholds
  | run i old n hold _ hcalls _ => exact .inl (hmodify hold hcalls (by simp))

structure CallsTracked (s : SharedTracker) : Prop where
  origin : ∀ (c : Nat) (call : CompletionCall), s.calls[c]? = some call → OriginKnown s call
  claimed : ∀ (c : Nat) (call : CompletionCall) (n : Nat), s.calls[c]? = some call →
    call.stage = .claimed n → Holds s c call n
  invoked : ∀ n sender payload c, .request n sender payload c ∈ s.log →
    ∃ call, s.calls[c]? = some call ∧
    call.sender = sender ∧ call.payload = payload ∧ Holds s c call n

/-- The callback of a request is invoked by a call that holds it. -/
lemma TrackerMove.request_source (h : TrackerMove s s') {n c : Nat} {sender : PeerId}
    {payload : Option Bytes} (hmem : .request n sender payload c ∈ s'.log) :
    .request n sender payload c ∈ s.log ∨
      ∃ call, s.calls[c]? = some call ∧ call.sender = sender ∧ call.payload = payload ∧
        call.stage = .claimed n := by
  cases h with
  | quiet _ hlog | enter _ _ _ _ _ hlog | refuse _ _ _ _ _ hlog | claim _ _ _ _ _ _ _ hlog =>
    exact .inl (hlog ▸ hmem)
  | complete _ _ _ _ _ _ _ _ hlog | respond _ _ _ _ _ _ _ _ hlog =>
    rw [hlog] at hmem
    exact .inl (by simpa using hmem)
  | run i call m hcall hclaimed _ hlog =>
    rw [hlog, List.mem_append, List.mem_singleton] at hmem
    rcases hmem with hmem | hmem
    · exact .inl hmem
    · cases hmem
      exact .inr ⟨call, hcall, rfl, rfl, hclaimed⟩

lemma CallsTracked.step (h : CallsTracked s) (event : TrackerEvent)
    (hmove : TrackerMove s (s.step event)) :
    CallsTracked (s.step event) := by
  refine ⟨fun c call' hc => ?_, fun c call' n hc hn => ?_, fun n sender payload c hmem => ?_⟩
  · rcases hmove.call_source hc with ⟨call, stage, hold, rfl, -⟩ | ⟨horigin, -⟩
    · exact (h.origin c call hold).step event
    · exact horigin
  · rcases hmove.call_source hc with ⟨call, stage, hold, rfl, hstage⟩ | ⟨-, hfree⟩
    · rcases hstage n hn with hclaimed | hholds
      · exact (h.claimed c call n hold hclaimed).step event
      · exact hholds
    · exact absurd hn (hfree n)
  · have hholds : ∃ call, s.calls[c]? = some call ∧ call.sender = sender ∧ call.payload = payload ∧
        Holds s c call n := by
      rcases hmove.request_source hmem with hmem | ⟨call, hcall, hsender, hpayload, hclaimed⟩
      · exact h.invoked n sender payload c hmem
      · exact ⟨call, hcall, hsender, hpayload, h.claimed c call n hcall hclaimed⟩
    obtain ⟨call, hcall, hsender, hpayload, hholds⟩ := hholds
    obtain ⟨stage, hcall'⟩ := hmove.call_kept hcall
    exact ⟨_, hcall', hsender, hpayload, hholds.step event⟩

/-! ## Broadcasts -/

/-- The broadcasts in the map wait for the handlers of their timers. -/
def EntriesWait (s : SharedTracker) : Prop :=
  ∀ (reqId : String) (n : Nat), s.broadcasts.lookup reqId = some n →
    ∃ b, s.tracked[n]? = some b ∧ b.reqId = reqId ∧ b.timer ≠ .done

/-- A handler that has run does not run again. -/
def DoneKept (s s' : SharedTracker) : Prop :=
  ∀ (n : Nat) (b : TrackedBroadcast), s.tracked[n]? = some b → b.timer = .done →
    ∃ b', s'.tracked[n]? = some b' ∧ b'.timer = .done

lemma EntriesWait.trackBroadcast (h : EntriesWait s) (reqId : String) (hasOnComplete : Bool) :
    EntriesWait (s.trackBroadcast reqId hasOnComplete) := by
  intro id n hn
  simp only [SharedTracker.trackBroadcast, getElem?_enter] at hn ⊢
  rcases UMap.lookup_insertNew_eq_some.mp hn with hold | ⟨hnew, rfl, rfl⟩
  · obtain ⟨b, hb, hid, htimer⟩ := h id n hold
    have hlt : n < s.tracked.length := (List.getElem?_eq_some_iff.mp hb).1
    rw [if_neg (Nat.ne_of_lt hlt)]
    exact ⟨b, hb, hid, htimer⟩
  · rw [if_pos rfl]
    exact ⟨_, rfl, rfl, by simp [hnew]⟩

lemma EntriesWait.signalBroadcast (h : EntriesWait s) (m : Nat) (signal : TimerSignal) :
    EntriesWait (s.signalBroadcast m signal) := by
  intro reqId n hn
  obtain ⟨b, hb, hid, htimer⟩ := h reqId n hn
  obtain ⟨b', hb', hid', hdone⟩ := signalBroadcast_tracked m signal hb
  exact ⟨b', hb', hid'.trans hid, mt hdone.mp htimer⟩

lemma EntriesWait.broadcastHandler (h : EntriesWait s) (n : Nat) :
    EntriesWait (s.broadcastHandler n) := by
  rcases broadcastHandler_cases n s with hsame | ⟨b, hb, -, hran⟩
  · rw [hsame]
    exact h
  · rw [hran]
    intro reqId m hm
    obtain ⟨hentries, htracked⟩ := finishBroadcast_spec n b (handlerRan n s)
    obtain ⟨hne, hlookup⟩ := hentries reqId m hm
    obtain ⟨c, hc, hid, htimer⟩ := h reqId m hlookup
    have hother : m ≠ n := by
      rintro rfl
      rw [hb] at hc
      exact hne (hid.symm.trans (congrArg TrackedBroadcast.reqId (Option.some.inj hc).symm))
    have hran : (handlerRan n s).tracked[m]? = some c := by
      rw [handlerRan_tracked hb, if_neg hother, hc]
    obtain ⟨c', hc', hid', hdone⟩ := htracked m c hran
    exact ⟨c', hc', hid'.trans hid, mt hdone.mp htimer⟩

lemma doneKept_trackBroadcast (reqId : String) (hasOnComplete : Bool) :
    DoneKept s (s.trackBroadcast reqId hasOnComplete) := by
  intro n b hb hdone
  refine ⟨b, ?_, hdone⟩
  change (s.tracked ++ [_])[n]? = some b
  rw [List.getElem?_append_left (List.getElem?_eq_some_iff.mp hb).1]
  exact hb

lemma doneKept_broadcastHandler (n : Nat) : DoneKept s (s.broadcastHandler n) := by
  rcases broadcastHandler_cases n s with hsame | ⟨b, hb, htimer, hran⟩
  · rw [hsame]
    exact fun _ b hb hdone => ⟨b, hb, hdone⟩
  · rw [hran]
    intro m c hc hdone
    have hother : m ≠ n := by
      rintro rfl
      obtain rfl : b = c := Option.some.inj (hb.symm.trans hc)
      exact htimer hdone
    have hran : (handlerRan n s).tracked[m]? = some c := by
      rw [handlerRan_tracked hb, if_neg hother, hc]
    obtain ⟨c', hc', -, hdone'⟩ := (finishBroadcast_spec n b (handlerRan n s)).2 m c hran
    exact ⟨c', hc', hdone'.mpr hdone⟩

/-- The events that are not about broadcasts. -/
lemma broadcasts_frame {event : TrackerEvent}
    (htrack : ∀ reqId hasOnComplete, event ≠ .trackBroadcast reqId hasOnComplete)
    (htimer : ∀ n signal, event ≠ .broadcastTimer n signal)
    (hhandler : ∀ n, event ≠ .broadcastHandler n) :
    (s.step event).broadcasts = s.broadcasts ∧ (s.step event).tracked = s.tracked := by
  cases event with
  | trackBroadcast reqId hasOnComplete => exact absurd rfl (htrack reqId hasOnComplete)
  | broadcastTimer n signal => exact absurd rfl (htimer n signal)
  | broadcastHandler n => exact absurd rfl (hhandler n)
  | requestTimer n signal => exact ⟨rfl, rfl⟩
  | trackRequestCallback reqId =>
    unfold SharedTracker.step SharedTracker.trackRequestCallback
    dsimp only
    split <;> exact ⟨rfl, rfl⟩
  | fulfillRequest reqId sender payload =>
    unfold SharedTracker.step SharedTracker.fulfillRequest
    dsimp only
    split_ifs
    · exact ⟨rfl, rfl⟩
    · split <;> exact ⟨rfl, rfl⟩
  | completeRequest c =>
    unfold SharedTracker.step SharedTracker.completeRequest
    dsimp only
    split
    · exact ⟨rfl, rfl⟩
    · split
      · split <;> exact ⟨rfl, rfl⟩
      · exact ⟨rfl, rfl⟩
  | runCallback c =>
    unfold SharedTracker.step SharedTracker.runCallback
    dsimp only
    split
    · exact ⟨rfl, rfl⟩
    · split <;> exact ⟨rfl, rfl⟩
  | requestHandler n =>
    unfold SharedTracker.step SharedTracker.requestHandler
    dsimp only
    split
    · exact ⟨rfl, rfl⟩
    · split <;> exact ⟨rfl, rfl⟩

lemma EntriesWait.step (h : EntriesWait s) (event : TrackerEvent) :
    EntriesWait (s.step event) ∧ DoneKept s (s.step event) := by
  have hframe (hsame : (s.step event).broadcasts = s.broadcasts ∧
      (s.step event).tracked = s.tracked) :
      EntriesWait (s.step event) ∧ DoneKept s (s.step event) := by
    unfold EntriesWait DoneKept
    rw [hsame.1, hsame.2]
    exact ⟨h, fun _ b hb hdone => ⟨b, hb, hdone⟩⟩
  cases event with
  | trackBroadcast reqId hasOnComplete =>
    exact ⟨h.trackBroadcast reqId hasOnComplete, doneKept_trackBroadcast reqId hasOnComplete⟩
  | broadcastTimer n signal =>
    refine ⟨h.signalBroadcast n signal, fun m b hb hdone => ?_⟩
    obtain ⟨b', hb', -, hdone'⟩ := signalBroadcast_tracked n signal hb
    exact ⟨b', hb', hdone'.mpr hdone⟩
  | broadcastHandler n => exact ⟨h.broadcastHandler n, doneKept_broadcastHandler n⟩
  | _ => exact hframe (broadcasts_frame (by simp) (by simp) (by simp))

/-- `on_complete` is the last callback of a broadcast. -/
structure BroadcastsTracked (s : SharedTracker) : Prop where
  waiting : EntriesWait s
  completed : ∀ n, .onComplete n ∈ s.log → ∃ b, s.tracked[n]? = some b ∧ b.timer = .done
  ordered : s.log.Pairwise fun earlier later =>
    ∀ n, earlier = .onComplete n → later.broadcastNumber ≠ some n

/-- A broadcast whose timer's handler has not run has not been completed. -/
lemma BroadcastsTracked.not_completed (h : BroadcastsTracked s) {n : Nat} {b : TrackedBroadcast}
    (hb : s.tracked[n]? = some b) (htimer : b.timer ≠ .done) : .onComplete n ∉ s.log := by
  intro hmem
  obtain ⟨b', hb', hdone⟩ := h.completed n hmem
  obtain rfl : b = b' := Option.some.inj (hb.symm.trans hb')
  exact htimer hdone

/-- A callback that is invoked next to the others. -/
lemma ordered_append {log : List Invocation} {run : Invocation}
    (h : log.Pairwise fun earlier later => ∀ n, earlier = .onComplete n →
      later.broadcastNumber ≠ some n) (hrun :
      ∀ n, run.broadcastNumber = some n → .onComplete n ∉ log) :
    (log ++ [run]).Pairwise fun earlier later =>
      ∀ n, earlier = .onComplete n → later.broadcastNumber ≠ some n := by
  refine List.pairwise_append.mpr ⟨h, List.pairwise_singleton _ _, ?_⟩
  rintro earlier hmem later hlater n rfl hn
  obtain rfl := List.mem_singleton.mp hlater
  exact hrun n hn hmem

lemma BroadcastsTracked.step (h : BroadcastsTracked s) (hmove : TrackerMove s s')
    (hwait : EntriesWait s') (hkept : DoneKept s s') : BroadcastsTracked s' := by
  have hcompleted (n : Nat) (hmem : .onComplete n ∈ s.log) : ∃ b, s'.tracked[n]? = some b ∧
      b.timer = .done := by
    obtain ⟨b, hb, hdone⟩ := h.completed n hmem
    exact hkept n b hb hdone
  have hlogged (run : Invocation) (hlog : s'.log = s.log ++ [run])
      (hnew : ∀ n, run = .onComplete n → ∃ b, s'.tracked[n]? = some b ∧ b.timer = .done)
      (hrun : ∀ n, run.broadcastNumber = some n → .onComplete n ∉ s.log) :
      BroadcastsTracked s' := by
    refine ⟨hwait, fun m hm => ?_, hlog ▸ ordered_append h.ordered hrun⟩
    rw [hlog, List.mem_append, List.mem_singleton] at hm
    rcases hm with hm | hm
    · exact hcompleted m hm
    · exact hnew m hm.symm
  cases hmove with
  | quiet _ hlog | enter _ _ _ _ _ hlog | refuse _ _ _ _ _ hlog | claim _ _ _ _ _ _ _ hlog =>
    exact ⟨hwait, hlog ▸ hcompleted, hlog ▸ h.ordered⟩
  | respond call reqId n payload hstage horigin hentry hcalls hlog =>
    obtain ⟨b, hb, -, htimer⟩ := h.waiting reqId n hentry
    refine hlogged _ hlog (fun m hm => ?_) fun m hm => ?_
    · cases hm
    · cases hm
      exact h.not_completed hb htimer
  | run c call n hcall hstage hcalls hlog =>
    refine hlogged _ hlog (fun m hm => ?_) fun m hm => ?_
    · cases hm
    · cases hm
  | complete n b b' hb htimer hb' hdone hcalls hlog =>
    refine hlogged _ hlog (fun m hm => ?_) fun m hm => ?_
    · cases hm
      exact ⟨b', hb', hdone⟩
    · cases hm
      exact h.not_completed hb htimer

/-! ## Every run -/

structure TrackerInvariant (s : SharedTracker) : Prop where
  table : (callbackTable s).Sound
  callers : CallersMatch s
  calls : CallsTracked s
  broadcasts : BroadcastsTracked s

lemma trackerInvariant_empty : TrackerInvariant {} where
  table := ⟨by simp [callbackTable], by simp [callbackTable]⟩
  callers := ⟨by simp [Proofs.callers, stages], List.nodup_nil⟩
  calls := ⟨by simp, by simp, by simp⟩
  broadcasts := ⟨by simp [EntriesWait], by simp, List.Pairwise.nil⟩

lemma TrackerInvariant.step (h : TrackerInvariant s) (event : TrackerEvent) :
    TrackerInvariant (s.step event) := by
  have hmove : TrackerMove s (s.step event) := trackerStep_move h.table event
  obtain ⟨hwait, hkept⟩ := h.broadcasts.waiting.step event
  refine ⟨?_, h.callers.step hmove, h.calls.step event hmove, h.broadcasts.step hmove hwait hkept⟩
  rw [callbackTable_step]
  exact h.table.run _

theorem TrackerInvariant.run (h : TrackerInvariant s) (events : List TrackerEvent) :
    TrackerInvariant (EventRun.run SharedTracker.step s events) := by
  induction events generalizing s with
  | nil => exact h
  | cons event events ih => exact ih (h.step event)

/-! ## At most once -/

/-- Two calls that have invoked the callback of one request are the same call. -/
lemma TrackerInvariant.caller_unique (h : TrackerInvariant s) {n c c' : Nat}
    {sender sender' : PeerId} {payload payload' : Option Bytes}
    (hmem : .request n sender payload c ∈ s.log) (hmem' : .request n sender' payload' c' ∈ s.log) :
    c = c' := by
  obtain ⟨call, -, -, -, takenBy, hrow, hc⟩ := h.calls.invoked n sender payload c hmem
  obtain ⟨call', -, -, -, takenBy', hrow', hc'⟩ := h.calls.invoked n sender' payload' c' hmem'
  obtain ⟨-, rfl⟩ := Prod.ext_iff.mp (Option.some.inj (hrow.symm.trans hrow'))
  have honce : takenBy.length ≤ 1 := h.table.once _ (List.mem_of_getElem? hrow)
  match takenBy, honce with
  | [_], _ => exact (List.mem_singleton.mp hc).trans (List.mem_singleton.mp hc').symm

/-- What the callbacks of a tracker can rely on. -/
structure CallsBackOnce (s : SharedTracker) : Prop where
  once : ∀ n, s.log.countP (fun run => run.requestNumber = some n) ≤ 1
  supplied : ∀ n sender payload c, .request n sender (some payload) c ∈ s.log →
    ∃ r call, s.requests[n]? = some r ∧
    s.calls[c]? = some call ∧ call.origin = .fulfillRequest ∧ call.reqId = r.reqId ∧
      call.sender = sender ∧
    call.payload = some payload
  timedOut : ∀ n sender c, .request n sender none c ∈ s.log →
    ∃ r call m r', s.requests[n]? = some r ∧
    s.calls[c]? = some call ∧ call.origin = .timer m ∧ s.requests[m]? = some r' ∧ r'.reqId = r.reqId
  returns : ∀ (c : Nat) call result, s.calls[c]? = some call → call.origin = .fulfillRequest →
    call.stage = .returned result → (result = true ↔ ∃ run ∈ s.log, run.call = some c)
  completed : ∀ n, s.log.count (.onComplete n) ≤ 1
  silent : ∀ n before after, s.log = before ++ .onComplete n :: after →
    ∀ sender payload c, .onResponse n sender payload c ∉ after

lemma TrackerInvariant.request_once (h : TrackerInvariant s) (n : Nat) :
    s.log.countP (fun run => run.requestNumber = some n) ≤ 1 := by
  refine List.countP_le_one ?_
  have hnodup := List.pairwise_filterMap.mp h.callers.nodup
  refine hnodup.imp_of_mem fun {run run'} hrun hrun' hne hn hn' => ?_
  cases run with
  | request m sender payload c =>
    cases run' with
    | request m' sender' payload' c' =>
      obtain rfl : m = n := by simpa [Invocation.requestNumber] using hn
      obtain rfl : m' = m := by simpa [Invocation.requestNumber] using hn'
      exact hne c rfl c' rfl (h.caller_unique hrun hrun')
    | onResponse | onComplete => simp [Invocation.requestNumber] at hn'
  | onResponse | onComplete => simp [Invocation.requestNumber] at hn

lemma entry_request {n : Nat} {reqId : String} {takenBy : List Nat}
    (h : (callbackTable s).entries[n]? = some (reqId, takenBy)) :
    ∃ r, s.requests[n]? = some r ∧ r.reqId = reqId := by
  simp only [callbackTable, List.getElem?_map, Option.map_eq_some_iff] at h
  obtain ⟨r, hr, hpair⟩ := h
  exact ⟨r, hr, congrArg Prod.fst hpair⟩

/-- A payload comes from `fulfill_request`, and its absence from a timer. -/
lemma TrackerInvariant.request_origin (h : TrackerInvariant s) {n c : Nat} {sender : PeerId}
    {payload : Option Bytes} (hmem : .request n sender payload c ∈ s.log) :
    ∃ r call, s.requests[n]? = some r ∧ s.calls[c]? = some call ∧
      call.reqId = r.reqId ∧ call.sender = sender ∧ call.payload = payload ∧
        OriginKnown s call := by
  obtain ⟨call, hcall, hsender, hpayload, takenBy, hrow, -⟩ :=
    h.calls.invoked n sender payload c hmem
  obtain ⟨r, hr, hid⟩ := entry_request hrow
  exact ⟨r, call, hr, hcall, hid.symm, hsender, hpayload, h.calls.origin c call hcall⟩

theorem TrackerInvariant.callsBackOnce (h : TrackerInvariant s) : CallsBackOnce s where
  once := h.request_once
  supplied n sender payload c hmem := by
    obtain ⟨r, call, hr, hcall, hid, hsender, hpayload, horigin⟩ := h.request_origin hmem
    refine ⟨r, call, hr, hcall, ?_, hid, hsender, hpayload⟩
    unfold OriginKnown at horigin
    cases hfrom : call.origin with
    | fulfillRequest => rfl
    | timer m =>
      rw [hfrom, hpayload] at horigin
      cases horigin.1
  timedOut n sender c hmem := by
    obtain ⟨r, call, hr, hcall, hid, -, hpayload, horigin⟩ := h.request_origin hmem
    unfold OriginKnown at horigin
    cases hfrom : call.origin with
    | fulfillRequest =>
      rw [hfrom] at horigin
      exact absurd hpayload horigin
    | timer m =>
      rw [hfrom] at horigin
      obtain ⟨-, takenBy, hrow⟩ := horigin
      obtain ⟨r', hr', hid'⟩ := entry_request hrow
      exact ⟨r, call, m, r', hr, hcall, hfrom, hr', hid'.trans hid⟩
  returns c call result hcall _ hstage := by
    have hiff := h.callers.mem_iff c
    rw [stages, List.getElem?_map, hcall, Option.map_some, hstage] at hiff
    rw [Proofs.callers, List.mem_filterMap] at hiff
    simpa using hiff.symm
  completed n := by
    refine List.countP_le_one (h.broadcasts.ordered.imp fun {run run'} hnext hrun hrun' => ?_)
    obtain rfl : run = .onComplete n := by simpa using hrun
    obtain rfl : run' = .onComplete n := by simpa using hrun'
    exact hnext n rfl rfl
  silent n before after hlog sender payload c hmem := by
    have hordered := h.broadcasts.ordered
    rw [hlog] at hordered
    have hnext := (List.pairwise_cons.mp (List.pairwise_append.mp hordered).2.1).1 _ hmem
    exact hnext n rfl rfl

/-- Requests call back at most once, whatever the order of the critical sections and the timers. -/
theorem tracked_callbacks_once (events : List TrackerEvent) :
    CallsBackOnce (EventRun.run SharedTracker.step {} events) :=
  (trackerInvariant_empty.run events).callsBackOnce

-- The timer of a request has expired, and an answer overtakes its handler.
example :
    (EventRun.run SharedTracker.step {} [.trackRequestCallback "r", .fulfillRequest "r" "bob" [1],
    .requestTimer 0 .expire, .requestHandler 0, .completeRequest 0, .completeRequest 1,
    .runCallback 0]).log =
    [.request 0 "bob" (some [1]) 0] := by decide

/-! ## Calls that are not interrupted -/

/-- The tracker of a node, which has the number of a request as its callback. -/
structure Represents (s : SharedTracker) (t : AsyncRequestTracker) : Prop where
  requests : ∀ reqId, t.pendingRequests.lookup reqId =
    (s.pendingRequests.lookup reqId).map .application
  broadcasts : ∀ reqId, reqId ∈ t.broadcasts ↔ reqId ∈ s.broadcasts

def wasFulfilled : AsyncRequestTracker.Fulfilled → Bool
  | .request _ => true
  | .broadcast => true
  | .nothing => false

/-- `fulfill_request` without another thread in between. -/
def fulfillAlone (reqId : String) (sender : PeerId) (payload : Bytes) (s : SharedTracker) :
    SharedTracker :=
  ((s.fulfillRequest reqId sender payload).completeRequest s.calls.length).runCallback
    s.calls.length

/-- A call that has returned takes no further steps. -/
lemma returned_idle (call : CompletionCall) (result : Bool) {c : Nat}
    (hcall : s.calls[c]? = some call) (hstage : call.stage = .returned result) :
    (s.completeRequest c).runCallback c = s := by
  have hcomplete : s.completeRequest c = s := by simp [SharedTracker.completeRequest, hcall, hstage]
  rw [hcomplete]
  simp [SharedTracker.runCallback, hcall, hstage]

/-- The call finds a request. -/
lemma fulfillAlone_request {reqId : String} {n : Nat}
    (hentry : s.pendingRequests.lookup reqId = some n) (sender : PeerId) (payload : Bytes) :
    (fulfillAlone reqId sender payload s).pendingRequests = s.pendingRequests.erase reqId ∧
      (fulfillAlone reqId sender payload s).broadcasts = s.broadcasts ∧
      (fulfillAlone reqId sender payload s).log = s.log ++
        [.request n sender (some payload) s.calls.length] ∧
      (stages (fulfillAlone reqId sender payload s))[s.calls.length]? = some (.returned true) := by
  have hpending : reqId ∈ s.pendingRequests := (UMap.mem_iff_lookup _ _).mpr ⟨n, hentry⟩
  simp [fulfillAlone, SharedTracker.fulfillRequest, hpending, SharedTracker.completeRequest,
    SharedTracker.runCallback, SharedTracker.enterCall, SharedTracker.setStage,
    SharedTracker.invoke, SharedTracker.signalRequest, hentry, stages]

/-- The call finds no request. -/
lemma fulfillAlone_other {reqId : String} (hentry : s.pendingRequests.lookup reqId = none)
    (sender : PeerId) (payload : Bytes) :
    (fulfillAlone reqId sender payload s).pendingRequests = s.pendingRequests ∧
      (fulfillAlone reqId sender payload s).broadcasts = s.broadcasts ∧
      (stages (fulfillAlone reqId sender payload s))[s.calls.length]? =
        some (.returned (s.broadcasts.lookup reqId).isSome) := by
  have hpending : reqId ∉ s.pendingRequests := AList.lookup_eq_none.mp hentry
  unfold fulfillAlone SharedTracker.fulfillRequest
  rw [if_neg hpending]
  cases s.broadcasts.lookup reqId with
  | none =>
    rw [returned_idle ⟨.fulfillRequest, reqId, sender, some payload, .returned false⟩ false] <;>
      simp [SharedTracker.enterCall, stages]
  | some n =>
    rw [returned_idle ⟨.fulfillRequest, reqId, sender, some payload, .returned true⟩ true] <;>
      simp [SharedTracker.enterCall, SharedTracker.invoke, stages]

/-- A call that is not interrupted does what the tracker of a node does, and returns what it
returns. -/
theorem Represents.fulfillRequest {t : AsyncRequestTracker} (h : Represents s t) (reqId : String)
    (sender : PeerId) (payload : Bytes) :
    Represents (fulfillAlone reqId sender payload s) (t.fulfillRequest reqId).2 ∧
      (stages (fulfillAlone reqId sender payload s))[s.calls.length]? =
        some (.returned (wasFulfilled (t.fulfillRequest reqId).1)) := by
  have hlookup := h.requests reqId
  unfold AsyncRequestTracker.fulfillRequest AsyncRequestTracker.completeRequest
  cases hentry : s.pendingRequests.lookup reqId with
  | some n =>
    obtain ⟨hpending, hbroadcasts, -, hstage⟩ := fulfillAlone_request hentry sender payload
    rw [hentry, Option.map_some] at hlookup
    rw [hlookup]
    refine ⟨⟨fun id => ?_, fun id => ?_⟩, hstage⟩
    · rw [hpending, UMap.lookup_erase_eq, UMap.lookup_erase_eq]
      split_ifs
      · rfl
      · exact h.requests id
    · rw [hbroadcasts]
      exact h.broadcasts id
  | none =>
    obtain ⟨hpending, hbroadcasts, hstage⟩ := fulfillAlone_other hentry sender payload
    have hkept : Represents (fulfillAlone reqId sender payload s) t :=
      ⟨hpending ▸ h.requests, hbroadcasts ▸ h.broadcasts⟩
    rw [hentry, Option.map_none] at hlookup
    rw [hlookup, hstage]
    dsimp only
    by_cases hmem : reqId ∈ s.broadcasts
    · obtain ⟨n, hn⟩ := (UMap.mem_iff_lookup _ _).mp hmem
      rw [if_pos ((h.broadcasts reqId).mpr hmem), hn]
      exact ⟨hkept, rfl⟩
    · rw [if_neg (mt (h.broadcasts reqId).mp hmem), AList.lookup_eq_none.mpr hmem]
      exact ⟨hkept, rfl⟩

end MeshNetwork.Proofs
