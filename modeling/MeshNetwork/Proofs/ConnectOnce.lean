import MeshNetwork.Library.EventRuns
import MeshNetwork.Library.KeyLocks
import MeshNetwork.Model.ConnectThreads
import MeshNetwork.Proofs.ManagerSteps

/-!
# Connect attempts complete once

Of the calls of `complete` for one attempt, one wins the exchange; it alone erases the key and runs
the callback. Until then the attempt holds its key, and no other attempt is admitted with it.
-/

namespace MeshNetwork.Proofs

open KeyLocks

/-! ## The calls of one attempt -/

/-- The calls of `complete` that have come to a phase. -/
def phaseCount (phase : CompletePhase) (a : ConnectCall) : Nat :=
  a.completes.countP fun k => k.phase = phase

variable {a a' : ConnectCall} {c : Nat} {k : CompleteCall} {phase : CompletePhase}

lemma phaseCount_enter {result : Except String PeerId}
    (h : a'.completes = a.completes ++ [{ result := result }]) :
    phaseCount phase a' = phaseCount phase a + if phase = .entered then 1 else 0 := by
  rw [phaseCount, h, List.countP_append, List.countP_singleton]
  cases phase <;> rfl

lemma phaseCount_set (phase : CompletePhase) {next : CompletePhase} (hk : a.completes[c]? = some k)
    (h : a'.completes = a.completes.set c { k with phase := next }) :
    phaseCount phase a' + (if k.phase = phase then 1 else 0) = phaseCount phase a + if next =
      phase then 1 else 0 := by
  obtain ⟨before, after, hl, hset⟩ := split_at hk { k with phase := next }
  rw [phaseCount, phaseCount, h, hset, hl]
  simp only [List.countP_append, List.countP_cons, decide_eq_true_eq]
  omega

lemma holdsKey_iff : a.holdsKey = true ↔ a.admitted = true ∧ phaseCount .erased a = 0 ∧
    phaseCount .returned a = 0 := by
  simp only [ConnectCall.holdsKey, phaseCount, Bool.and_eq_true, List.all_eq_true,
    List.countP_eq_zero, bne_iff_ne, decide_eq_true_eq, forall_and]

/-- An admitted attempt: one call of `complete` has won as soon as `completed` is set, and what the
callback got comes from calls that have returned. -/
structure AdmittedSound (a : ConnectCall) : Prop where
  admitted : a.admitted = true
  winner : phaseCount .won a + phaseCount .erased a + phaseCount .returned a =
    if a.completed then 1 else 0
  results : a.results.length ≤ phaseCount .returned a

/-- What a step of an attempt can do to its calls of `complete`, the critical section apart. -/
inductive CallMove (a a' : ConnectCall) : Prop where
  | idle (hwon : phaseCount .won a' = phaseCount .won a)
      (herased : phaseCount .erased a' = phaseCount .erased a)
      (hreturned : phaseCount .returned a' = phaseCount .returned a)
      (hcompleted : a'.completed = a.completed)
      (hresults : a'.results = a.results)
  | won (hopen : a.completed = false) (hwon : phaseCount .won a' = phaseCount .won a + 1)
      (herased : phaseCount .erased a' = phaseCount .erased a)
      (hreturned : phaseCount .returned a' = phaseCount .returned a)
      (hcompleted : a'.completed = true)
      (hresults : a'.results = a.results)
  | ran (hwon : phaseCount .won a' = phaseCount .won a)
      (herased : phaseCount .erased a' + 1 = phaseCount .erased a)
      (hreturned : phaseCount .returned a' = phaseCount .returned a + 1)
      (hcompleted : a'.completed = a.completed)
      (hresults : a'.results.length ≤ a.results.length + 1)

lemma callMove_quiet (hcompletes : a'.completes = a.completes)
    (hcompleted : a'.completed = a.completed) (hresults : a'.results = a.results) :
    CallMove a a' := by
  have hcount (phase : CompletePhase) : phaseCount phase a' = phaseCount phase a := by
    rw [phaseCount, phaseCount, hcompletes]
  exact .idle (hcount _) (hcount _) (hcount _) hcompleted hresults

lemma callMove_enter {result : Except String PeerId}
    (hcompletes : a'.completes = a.completes ++ [{ result := result }])
    (hcompleted : a'.completed = a.completed) (hresults : a'.results = a.results) : CallMove a a' :=
  .idle (phaseCount_enter hcompletes) (phaseCount_enter hcompletes) (phaseCount_enter hcompletes)
    hcompleted hresults

lemma AdmittedSound.move (hsound : AdmittedSound a) (h : CallMove a a')
    (hadmitted : a'.admitted = a.admitted) :
    AdmittedSound a' := by
  obtain ⟨hadm, hwinner, hlength⟩ := hsound
  cases h with
  | idle hwon herased hreturned hcompleted hresults =>
    refine ⟨hadmitted.trans hadm, ?_, ?_⟩
    · rw [hwon, herased, hreturned, hcompleted, hwinner]
    · rw [hreturned, hresults]
      exact hlength
  | won hopen hwon herased hreturned hcompleted hresults =>
    refine ⟨hadmitted.trans hadm, ?_, ?_⟩
    · simp only [hopen, Bool.false_eq_true, if_false] at hwinner
      rw [hwon, herased, hreturned, hcompleted, if_pos rfl]
      omega
    · rw [hreturned, hresults]
      exact hlength
  | ran hwon herased hreturned hcompleted hresults =>
    refine ⟨hadmitted.trans hadm, ?_, ?_⟩
    · rw [hwon, hreturned, hcompleted, ← hwinner]
      omega
    · omega

/-- The key stays held or free. -/
lemma CallMove.holdsKey_eq (h : CallMove a a') (hadmitted : a'.admitted = a.admitted) :
    a'.holdsKey = a.holdsKey := by
  rw [Bool.eq_iff_iff, holdsKey_iff, holdsKey_iff, hadmitted]
  cases h with
  | idle _ herased hreturned _ _ => rw [herased, hreturned]
  | won _ _ herased hreturned _ _ => rw [herased, hreturned]
  | ran _ herased hreturned _ _ => omega

/-- A step of an attempt. -/
structure CallStep (a a' : ConnectCall) : Prop where
  key : a'.key = a.key
  admitted : a'.admitted = a.admitted
  move : CallMove a a'

lemma exchange_callStep (c : Nat) (a : ConnectCall) : CallStep a (a.exchange c) := by
  unfold ConnectCall.exchange
  cases hk : a.completes[c]? with
  | none => exact ⟨rfl, rfl, callMove_quiet rfl rfl rfl⟩
  | some k =>
    dsimp only
    cases hphase : k.phase with
    | won | erased | returned | lost => exact ⟨rfl, rfl, callMove_quiet rfl rfl rfl⟩
    | entered =>
      dsimp only
      split_ifs with hcompleted
      · have hcompletes : (a.setPhase c k .lost).completes = _ := rfl
        have hcount (phase : CompletePhase) := phaseCount_set phase hk hcompletes
        simp only [hphase] at hcount
        exact ⟨rfl, rfl, .idle (hcount .won) (hcount .erased) (hcount .returned) rfl rfl⟩
      · have hcompletes : { a.setPhase c k .won with completed := true }.completes = _ := rfl
        have hcount (phase : CompletePhase) := phaseCount_set phase hk hcompletes
        simp only [hphase] at hcount
        have hopen : a.completed = false := by simpa using hcompleted
        exact ⟨rfl, rfl, .won hopen (hcount .won) (hcount .erased) (hcount .returned) rfl rfl⟩

lemma runCallback_callStep (c : Nat) (a : ConnectCall) : CallStep a (a.runCallback c) := by
  unfold ConnectCall.runCallback
  cases hk : a.completes[c]? with
  | none => exact ⟨rfl, rfl, callMove_quiet rfl rfl rfl⟩
  | some k =>
    dsimp only
    cases hphase : k.phase with
    | entered | won | returned | lost => exact ⟨rfl, rfl, callMove_quiet rfl rfl rfl⟩
    | erased =>
      have hcompletes : { a.setPhase c k .returned with
        results := a.results ++ if a.hasCallback then [k.result] else [] }.completes = _ := rfl
      have hcount (phase : CompletePhase) := phaseCount_set phase hk hcompletes
      simp only [hphase] at hcount
      refine ⟨rfl, rfl, .ran (hcount .won) (hcount .erased) (hcount .returned) rfl ?_⟩
      cases a.hasCallback <;> simp

lemma timerHandler_callStep (a : ConnectCall) : CallStep a a.timerHandler := by
  unfold ConnectCall.timerHandler
  cases a.timer with
  | waiting | done | aborted => exact ⟨rfl, rfl, callMove_quiet rfl rfl rfl⟩
  | expired => exact ⟨rfl, rfl, callMove_enter rfl rfl rfl⟩

lemma resolved_callStep (ec : Option String) (a : ConnectCall) : CallStep a (a.resolved ec) := by
  unfold ConnectCall.resolved
  cases a.stage with
  | resolving =>
    dsimp only
    split_ifs
    · exact ⟨rfl, rfl, callMove_quiet rfl rfl rfl⟩
    · cases ec with
      | none => exact ⟨rfl, rfl, callMove_quiet rfl rfl rfl⟩
      | some message => exact ⟨rfl, rfl, callMove_enter rfl rfl rfl⟩
  | _ => exact ⟨rfl, rfl, callMove_quiet rfl rfl rfl⟩

lemma tcpConnected_callStep (id : Nat) (result : Except String String) (a : ConnectCall) :
    CallStep a (a.tcpConnected id result) := by
  unfold ConnectCall.tcpConnected
  cases a.stage with
  | connecting =>
    dsimp only
    split_ifs
    · exact ⟨rfl, rfl, callMove_quiet rfl rfl rfl⟩
    · cases result with
      | ok remoteIp => exact ⟨rfl, rfl, callMove_quiet rfl rfl rfl⟩
      | error message => exact ⟨rfl, rfl, callMove_enter rfl rfl rfl⟩
  | _ => exact ⟨rfl, rfl, callMove_quiet rfl rfl rfl⟩

lemma completionRun_callStep (a : ConnectCall) : CallStep a a.completionRun := by
  unfold ConnectCall.completionRun
  cases a.stage with
  | posted res => exact ⟨rfl, rfl, callMove_enter rfl rfl rfl⟩
  | _ => exact ⟨rfl, rfl, callMove_quiet rfl rfl rfl⟩

/-- The critical section of the call that has won. -/
lemma AdmittedSound.erase (h : AdmittedSound a) (hk : a.completes[c]? = some k)
    (hphase : k.phase = .won) :
    AdmittedSound (a.erase c k) ∧ a.holdsKey = true ∧ (a.erase c k).holdsKey = false := by
  have hcompletes : (a.erase c k).completes = _ := rfl
  have hcount (phase : CompletePhase) := phaseCount_set phase hk hcompletes
  simp only [hphase] at hcount
  have hwon : phaseCount .won (a.erase c k) + 1 = phaseCount .won a := hcount .won
  have herased : phaseCount .erased (a.erase c k) = phaseCount .erased a + 1 := hcount .erased
  have hreturned : phaseCount .returned (a.erase c k) = phaseCount .returned a := hcount .returned
  have hwinner := h.winner
  refine ⟨⟨h.admitted, ?_, ?_⟩, ?_, ?_⟩
  · change _ = if a.completed then 1 else 0
    omega
  · rw [hreturned]
    exact h.results
  · refine holdsKey_iff.mpr ⟨h.admitted, ?_⟩
    split_ifs at hwinner <;> omega
  · rw [Bool.eq_false_iff, Ne, holdsKey_iff]
    omega

/-! ## Attempts and their keys -/

/-- A call that was refused, or an admitted one. -/
def CallSound (a : ConnectCall) : Prop :=
  (∃ key hasCallback, a = .refused key hasCallback) ∨ AdmittedSound a

lemma CallSound.results_le (h : CallSound a) : a.results.length ≤ 1 := by
  rcases h with ⟨key, hasCallback, rfl⟩ | h
  · cases hasCallback <;> simp [ConnectCall.refused]
  · have hwinner := h.winner
    have hresults := h.results
    split_ifs at hwinner <;> omega

lemma begun_sound (key : String) (hasCallback : Bool) : AdmittedSound (.begun key hasCallback) :=
  ⟨rfl, rfl, Nat.le_refl 0⟩

structure ConnectInvariant (s : ConnectThreads) : Prop where
  calls : ∀ a ∈ s.attempts, CallSound a
  exclusive : Exclusive (fun a : ConnectCall => a.key) ConnectCall.holdsKey
    s.manager.pendingConnections s.attempts

variable {s s' : ConnectThreads} {i : Nat}

/-- One attempt changes. -/
lemma ConnectInvariant.set (h : ConnectInvariant s) (hattempts : s'.attempts = s.attempts.set i a')
    (ha' : CallSound a') (hexclusive : Exclusive (fun a : ConnectCall => a.key) ConnectCall.holdsKey
      s'.manager.pendingConnections (s.attempts.set i a')) : ConnectInvariant s' := by
  refine ⟨fun b hb => ?_, hattempts ▸ hexclusive⟩
  rw [hattempts] at hb
  rcases List.mem_or_eq_of_mem_set hb with hb | rfl
  · exact h.calls b hb
  · exact ha'

/-- A step of one attempt, which leaves a refused call as it is. -/
lemma ConnectInvariant.callStep (h : ConnectInvariant s) (hi : s.attempts[i]? = some a)
    (hstep : CallStep a a') (hrefused : ∀ key hasCallback, a = .refused key hasCallback → a' = a)
    (hattempts : s'.attempts = s.attempts.set i a')
    (hpending : s'.manager.pendingConnections = s.manager.pendingConnections) :
    ConnectInvariant s' := by
  have hsound : CallSound a' := by
    rcases h.calls a (List.mem_of_getElem? hi) with ⟨key, hasCallback, ha⟩ | ha
    · exact .inl ⟨key, hasCallback, (hrefused key hasCallback ha).trans ha⟩
    · exact .inr (ha.move hstep.move hstep.admitted)
  refine h.set hattempts hsound ?_
  rw [hpending]
  exact h.exclusive.set hi (hstep.move.holdsKey_eq hstep.admitted) hstep.key

lemma ConnectInvariant.update (h : ConnectInvariant s) {f : ConnectCall → ConnectCall}
    (hf : ∀ a, CallStep a (f a))
    (hrefused : ∀ key hasCallback, f (.refused key hasCallback) = .refused key hasCallback) :
    ConnectInvariant (s.update i f) := by
  unfold ConnectThreads.update
  cases hi : s.attempts[i]? with
  | none => exact h
  | some a =>
    refine h.callStep hi (hf a) ?_ rfl rfl
    rintro key hasCallback rfl
    exact hrefused key hasCallback

lemma ConnectInvariant.of_eq (h : ConnectInvariant s) (hattempts : s'.attempts = s.attempts)
    (hpending : s'.manager.pendingConnections = s.manager.pendingConnections) :
    ConnectInvariant s' :=
  ⟨hattempts ▸ h.calls, hattempts ▸ hpending ▸ h.exclusive⟩

lemma ConnectInvariant.connectAsync (h : ConnectInvariant s) (host : String) (port : Int)
    (hasCallback : Bool) :
    ConnectInvariant (s.connectAsync host port hasCallback) := by
  have hadd {b : ConnectCall} (hb : CallSound b) : ∀ a ∈ s.attempts ++ [b], CallSound a := by
    intro a ha
    rcases List.mem_append.mp ha with ha | ha
    · exact h.calls a ha
    · exact List.mem_singleton.mp ha ▸ hb
  unfold ConnectThreads.connectAsync
  dsimp only
  split_ifs with hrefuses
  · exact ⟨hadd (.inl ⟨_, hasCallback, rfl⟩), h.exclusive.idle rfl⟩
  · refine ⟨hadd (.inr (begun_sound _ hasCallback)), ?_⟩
    exact h.exclusive.acquire (a := .begun (ConnectThreads.portKey host port) hasCallback) rfl
      (not_or.mp hrefuses).1

lemma ConnectInvariant.startupFinished (h : ConnectInvariant s) (i : Nat)
    (res : Except String PeerId) :
    ConnectInvariant (s.startupFinished i res) := by
  unfold ConnectThreads.startupFinished
  cases hi : s.attempts[i]? with
  | none => exact h
  | some a =>
    dsimp only
    cases hstage : a.stage with
    | starting =>
      cases hconn : a.conn with
      | none => exact h
      | some conn =>
        have hstep : CallStep a { a with stage := .posted res } :=
          ⟨rfl, rfl, callMove_quiet rfl rfl rfl⟩
        refine h.callStep hi hstep ?_ ?_ ?_
        · rintro key hasCallback rfl
          cases hstage
        · rw [hconn]
        · cases res <;> rfl
    | _ => exact h

lemma ConnectInvariant.eraseKey (h : ConnectInvariant s) (i c : Nat) :
    ConnectInvariant (s.eraseKey i c) := by
  unfold ConnectThreads.eraseKey
  cases hi : s.attempts[i]? with
  | none => exact h
  | some a =>
    dsimp only
    cases hk : a.completes[c]? with
    | none => exact h
    | some k =>
      dsimp only
      cases hphase : k.phase with
      | won =>
        rcases h.calls a (List.mem_of_getElem? hi) with ⟨key, hasCallback, rfl⟩ | ha
        · cases hk
        · obtain ⟨hsound, hheld, hfree⟩ := ha.erase hk hphase
          exact h.set rfl (.inr hsound) (h.exclusive.release hi hheld hfree)
      | entered | erased | returned | lost => exact h

/-- Whatever else the manager does leaves the pending connections alone. -/
lemma manager_pending (m : RpcManager) {event : RpcEvent} (h : event.isConnect = false) :
    (m.step event).pendingConnections = m.pendingConnections := by
  cases event with
  | connectAsync | timerExpired | resolved | tcpConnected | startupFinished | completionRun |
      maintenance => cases h
  | incoming remoteIp remotePeerId => rfl
  | removeConnection peerId =>
    change (m.removeConnection peerId).2.pendingConnections = _
    unfold RpcManager.removeConnection
    split <;> rfl
  | notifyRemoved peerId =>
    change (m.notifyRemoved peerId).pendingConnections = _
    unfold RpcManager.notifyRemoved
    split_ifs <;> rfl
  | beginHeartbeats | sendHeartbeat | awaitHeartbeat =>
    exact round_preserves RpcManager.pendingConnections (fun _ _ _ _ => rfl) m rfl
  | heartbeatResult success =>
    change (m.heartbeatResult success).pendingConnections = _
    unfold RpcManager.heartbeatResult
    split
    · rfl
    · dsimp only
      split_ifs <;> rfl
  | addAutoConnection record =>
    obtain ⟨_, hframe⟩ := addAutoConnection_frame m record
    change (m.addAutoConnection record).pendingConnections = _
    rw [hframe]
  | removeAutoConnection record => rfl
  | shutdown =>
    change m.shutdown.pendingConnections = _
    unfold RpcManager.shutdown
    split_ifs <;> rfl

theorem ConnectInvariant.step (h : ConnectInvariant s) (event : ConnectEvent) :
    ConnectInvariant (s.step event) := by
  cases event with
  | connectAsync host port hasCallback => exact h.connectAsync host port hasCallback
  | connect host port => exact h.connectAsync host port true
  | timer i signal =>
    refine h.update (fun _ => ⟨rfl, rfl, callMove_quiet rfl rfl rfl⟩) fun _ _ => ?_
    cases signal <;> rfl
  | timerHandler i => exact h.update timerHandler_callStep fun _ _ => rfl
  | resolved i ec => exact h.update (resolved_callStep ec) fun _ _ => rfl
  | tcpConnected i result =>
    have hupdate :=
      h.update (i := i) (tcpConnected_callStep s.manager.nextConnection result) fun _ _ => rfl
    refine hupdate.of_eq rfl ?_
    unfold ConnectThreads.update
    cases s.attempts[i]? <;> rfl
  | startupFinished i res => exact h.startupFinished i res
  | completionRun i => exact h.update completionRun_callStep fun _ _ => rfl
  | exchange i c => exact h.update (exchange_callStep c) fun _ _ => rfl
  | eraseKey i c => exact h.eraseKey i c
  | runCallback i c => exact h.update (runCallback_callStep c) fun _ _ => rfl
  | manager event =>
    cases hconnect : event.isConnect with
    | true =>
      change ConnectInvariant (if event.isConnect then s else _)
      rw [if_pos hconnect]
      exact h
    | false =>
      change ConnectInvariant (if event.isConnect then s else _)
      rw [if_neg (by simp [hconnect])]
      exact h.of_eq rfl (manager_pending s.manager hconnect)

theorem ConnectInvariant.run (h : ConnectInvariant s) (events : List ConnectEvent) :
    ConnectInvariant (EventRun.run ConnectThreads.step s events) := by
  induction events generalizing s with
  | nil => exact h
  | cons event events ih => exact ih (h.step event)

lemma connectInvariant_empty : ConnectInvariant {} where
  calls := by simp
  exclusive := ⟨by simp [heldKeys], List.nodup_nil⟩

/-! ## Every run -/

/-- Callbacks run at most once, and an attempt has its key alone from its admission to its
completion. -/
structure AttemptsExclusive (s : ConnectThreads) : Prop where
  once : ∀ a ∈ s.attempts, a.results.length ≤ 1
  pending_iff : ∀ key, key ∈ s.manager.pendingConnections ↔
    ∃ a ∈ s.attempts, a.holdsKey = true ∧ a.key = key
  unique : ∀ (i j : Nat) (a b : ConnectCall), s.attempts[i]? = some a → s.attempts[j]? = some b →
    a.holdsKey = true → b.holdsKey = true → a.key = b.key → i = j
  uncompleted : ∀ a ∈ s.attempts, a.admitted = true → a.completed = false → a.holdsKey = true
  refused : ∀ host port hasCallback, s.Refuses host port →
    (s.connectAsync host port hasCallback).manager.pendingConnections = s.manager.pendingConnections

lemma CallSound.holdsKey_of_open (h : CallSound a) (hadmitted : a.admitted = true)
    (hopen : a.completed = false) :
    a.holdsKey = true := by
  rcases h with ⟨key, hasCallback, rfl⟩ | h
  · cases hadmitted
  · have hwinner := h.winner
    simp only [hopen, Bool.false_eq_true, if_false] at hwinner
    exact holdsKey_iff.mpr ⟨hadmitted, by omega⟩

theorem ConnectInvariant.attemptsExclusive (h : ConnectInvariant s) : AttemptsExclusive s where
  once a ha := (h.calls a ha).results_le
  pending_iff key := (h.exclusive.mem_iff key).trans mem_heldKeys
  unique _ _ _ _ hi hj ha hb hkey := h.exclusive.unique hi hj ha hb hkey
  uncompleted a ha := (h.calls a ha).holdsKey_of_open
  refused host port hasCallback hrefuses := by
    unfold ConnectThreads.connectAsync
    rw [if_pos hrefuses]

/-- Whatever the order of the calls, the timers, the handlers and the steps of `complete`. -/
theorem attempts_complete_once (events : List ConnectEvent) :
    AttemptsExclusive (EventRun.run ConnectThreads.step {} events) :=
  (connectInvariant_empty.run events).attemptsExclusive

-- The first attempt times out, a second one is admitted, and a late failure of the first leaves its
-- key alone.
example : (EventRun.run ConnectThreads.step {} [.connect "h" 1, .timer 0 .expire, .timerHandler 0,
    .resolved 0 (some ""),
    .exchange 0 0, .eraseKey 0 0, .connect "h" 1, .exchange 0 1, .eraseKey 0 1,
    .runCallback 0 0]).attempts.map
      (fun a => (a.results.length, a.holdsKey)) = [(1, false), (0, true)] := by decide

/-! ## Completions that are not interrupted -/

/-- A handler calls `complete`, and no other thread comes in between. -/
def completeAlone (i : Nat) (a : ConnectCall) (result : Except String PeerId) (s : ConnectThreads) :
    ConnectThreads :=
  (((s.update i (.enterComplete result)).update i (.exchange a.completes.length)).eraseKey i
    a.completes.length).update i (.runCallback a.completes.length)

lemma update_attempt (hi : s.attempts[i]? = some a) (f : ConnectCall → ConnectCall) :
    (s.update i f).attempts[i]? = some (f a) ∧ (s.update i f).manager = s.manager := by
  have hlt : i < s.attempts.length := (List.getElem?_eq_some_iff.mp hi).1
  unfold ConnectThreads.update
  rw [hi]
  exact ⟨List.getElem?_set_self hlt, rfl⟩

lemma eraseKey_won (hi : s.attempts[i]? = some a) (hk : a.completes[c]? = some k)
    (hphase : k.phase = .won) :
    (s.eraseKey i c).attempts[i]? = some (a.erase c k) ∧
      (s.eraseKey i c).manager.pendingConnections = s.manager.pendingConnections.erase a.key := by
  have hlt : i < s.attempts.length := (List.getElem?_eq_some_iff.mp hi).1
  unfold ConnectThreads.eraseKey
  rw [hi]
  dsimp only
  rw [hk]
  dsimp only
  rw [hphase]
  exact ⟨List.getElem?_set_self hlt, rfl⟩

lemma eraseKey_lost (hi : s.attempts[i]? = some a) (hk : a.completes[c]? = some k)
    (hphase : k.phase = .lost) :
    s.eraseKey i c = s := by
  simp [ConnectThreads.eraseKey, hi, hk, hphase]

/-- This is the completion of the manager that takes one step for it. -/
theorem completeAlone_spec (hi : s.attempts[i]? = some a) (hcallback : a.hasCallback = true)
    (result : Except String PeerId) : ∃ a', (completeAlone i a result s).attempts[i]? = some a' ∧
      a'.toConnectAttempt = a.toConnectAttempt.complete a.stage result ∧
      (completeAlone i a result s).manager.pendingConnections =
        if a.completed then s.manager.pendingConnections
        else s.manager.pendingConnections.erase a.key := by
  obtain ⟨henter, hmanager⟩ := update_attempt hi (.enterComplete result)
  obtain ⟨hexchange, hmanager'⟩ := update_attempt henter (.exchange a.completes.length)
  rw [hmanager] at hmanager'
  unfold completeAlone
  cases hcompleted : a.completed with
  | true =>
    have hlost : (a.enterComplete result).exchange a.completes.length =
        (a.enterComplete result).setPhase a.completes.length { result := result } .lost := by
      simp [ConnectCall.exchange, ConnectCall.enterComplete, hcompleted]
    rw [hlost] at hexchange
    rw [eraseKey_lost hexchange (k := { result := result, phase := .lost })
      (by simp [ConnectCall.setPhase, ConnectCall.enterComplete]) rfl]
    obtain ⟨hrun, hmanager''⟩ := update_attempt hexchange (.runCallback a.completes.length)
    refine ⟨_, hrun, ?_, ?_⟩
    · simp only [ConnectCall.runCallback, ConnectCall.setPhase, ConnectCall.enterComplete,
        ConnectAttempt.complete, hcompleted, List.set_append_right _ _ (Nat.le_refl _),
        Nat.sub_self, List.set_cons_zero, List.getElem?_concat_length, if_true]
      rw [← hcompleted]
    · rw [hmanager'', hmanager', if_pos rfl]
  | false =>
    have hwon : (a.enterComplete result).exchange a.completes.length =
        { (a.enterComplete result).setPhase a.completes.length { result := result } .won with
          completed := true } := by
      simp [ConnectCall.exchange, ConnectCall.enterComplete, hcompleted]
    rw [hwon] at hexchange
    obtain ⟨herase, hpending⟩ := eraseKey_won hexchange (c := a.completes.length)
      (k := { result := result, phase := .won })
      (by simp [ConnectCall.setPhase, ConnectCall.enterComplete]) rfl
    obtain ⟨hrun, hmanager''⟩ := update_attempt herase (.runCallback a.completes.length)
    refine ⟨_, hrun, ?_, ?_⟩
    · simp [ConnectCall.runCallback, ConnectCall.setPhase, ConnectCall.enterComplete,
        ConnectCall.erase, ConnectAttempt.complete, hcompleted, hcallback]
    · rw [hmanager'', hpending, hmanager']
      rfl

end MeshNetwork.Proofs
