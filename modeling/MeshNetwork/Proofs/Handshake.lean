import MeshNetwork.Proofs.ConnectionSteps

/-!
# Data and the handshake

A connection dispatches envelopes as soon as its session has been started, and the id of the remote
is stored by the startup thread only after the handshake. Payloads reach the sink under the
announced id exactly as long as no `DATA` envelope is dispatched before that.
-/

namespace MeshNetwork.Proofs

/-! ## The property -/

/-- Every payload was handed on after a handshake, under the id that was announced in it. -/
def Announced (trace : List ConnectionTrace) : Prop :=
  ∀ before peerId bytes after, trace = before ++ .pushDataBytes peerId bytes :: after →
    ∃ record, .handshakeCompleted record ∈ before ∧ record.peerId = peerId

/-- The id that the stage has stored. -/
def storedId : StartupStage → PeerId
  | .identified record | .registered record => record.peerId
  | _ => ""

/-- `set_remote_peer_id` has run, or would store what is stored already. -/
def RemoteKnown : StartupStage → Prop
  | .shaken record => record.peerId = ""
  | .identified _ | .registered _ => True
  | _ => False

instance : DecidablePred RemoteKnown
  | .shaken record => inferInstanceAs (Decidable (record.peerId = ""))
  | .identified _ | .registered _ => .isTrue trivial
  | .created | .reading _ | .awaitingResponse _ | .awaitingHandshake | .failed _ => .isFalse id

/-- A `DATA` envelope is handed on only when the remote is known. -/
def DataAfterStartup (s : RpcConnection.State) (event : ConnectionEvent) : Prop :=
  dispatchesData s event = true → RemoteKnown s.stage

lemma remoteKnown_iff (stage : StartupStage) :
    RemoteKnown stage ↔ ∃ record, shakenRecord stage = some record ∧
      record.peerId = storedId stage := by
  cases stage <;> simp [RemoteKnown, shakenRecord, storedId]

/-! ## Traces -/

section Traces

variable {trace : List ConnectionTrace}

lemma announced_concat {entry : ConnectionTrace} : Announced (trace ++ [entry]) ↔ Announced trace ∧
    ∀ peerId bytes, entry = .pushDataBytes peerId bytes →
      ∃ record, .handshakeCompleted record ∈ trace ∧ record.peerId = peerId := by
  constructor
  · intro h
    refine ⟨fun before peerId bytes after htrace => ?_, fun peerId bytes hentry => ?_⟩
    · exact h before peerId bytes (after ++ [entry]) (by rw [htrace]; simp)
    · exact h trace peerId bytes [] (by rw [hentry])
  · rintro ⟨htrace, hentry⟩ before peerId bytes after hsplit
    rcases List.eq_nil_or_concat after with rfl | ⟨after', last, rfl⟩
    · obtain ⟨rfl, hlast⟩ := List.append_inj' hsplit rfl
      exact hentry peerId bytes (List.singleton_inj.mp hlast)
    · refine htrace before peerId bytes after' ?_
      rw [List.concat_eq_append, ← List.cons_append, ← List.append_assoc] at hsplit
      exact (List.append_inj' hsplit rfl).1

end Traces

/-! ## The startup thread -/

/-- The trace holds the handshake of the stage, and the stored id is that of the stage. -/
structure StartupTraced (s : RpcConnection.State) : Prop where
  completed : ∀ record, .handshakeCompleted record ∈ s.trace ↔ shakenRecord s.stage = some record
  stored : s.authenticatedRemoteId = storedId s.stage

variable {codec : EnvelopeCodec} {s s' : RpcConnection.State} {event : ConnectionEvent}

lemma storedId_of_none {stage : StartupStage} (h : shakenRecord stage = none) :
    storedId stage = "" := by
  cases stage with
  | shaken | identified | registered => cases h
  | _ => rfl

lemma StartupMove.traced (h : StartupTraced s) {stage : StartupStage} {peerId : PeerId}
    {trace : List ConnectionTrace} (hmove : StartupMove s stage peerId trace) :
    (∀ record, .handshakeCompleted record ∈ s.trace ++ trace ↔ shakenRecord stage = some record) ∧
      peerId = storedId stage := by
  have hcompleted := h.completed
  have hstored := h.stored
  cases hmove with
  | keep =>
    rw [List.append_nil]
    exact ⟨hcompleted, hstored⟩
  | advance hbefore hafter =>
    rw [List.append_nil, hafter, hstored, storedId_of_none hbefore, storedId_of_none hafter]
    rw [hbefore] at hcompleted
    exact ⟨hcompleted, rfl⟩
  | shake hbefore =>
    rw [hbefore] at hcompleted
    refine ⟨fun record => ?_, hstored.trans (storedId_of_none hbefore)⟩
    rw [List.mem_append, hcompleted]
    simp [shakenRecord, eq_comm]
  | identify hbefore =>
    rw [hbefore] at hcompleted
    rw [List.append_nil]
    exact ⟨hcompleted, rfl⟩
  | register hbefore =>
    rw [hbefore] at hcompleted hstored
    refine ⟨fun record => ?_, hstored⟩
    rw [List.mem_append, hcompleted]
    simp [shakenRecord]

lemma StartupMove.no_push {stage : StartupStage} {peerId : PeerId} {trace : List ConnectionTrace}
    (hmove : StartupMove s stage peerId trace) (h : Announced s.trace) :
    Announced (s.trace ++ trace) := by
  cases hmove with
  | keep | advance | identify =>
    rw [List.append_nil]
    exact h
  | shake | register =>
    refine announced_concat.mpr ⟨h, fun peerId bytes hentry => ?_⟩
    cases hentry

lemma StartupTraced.step (h : StartupTraced s) (hstep : StartupStep s event s') :
    StartupTraced s' := by
  cases hpush : dispatchesData s event with
  | true =>
    obtain ⟨hstage, hid, bytes, htrace⟩ := hstep.push hpush
    refine ⟨fun record => ?_, by rw [hstage, hid, h.stored]⟩
    rw [hstage, htrace, ← h.completed record]
    simp
  | false =>
    obtain ⟨trace, hmove, htrace⟩ := hstep.quiet hpush
    obtain ⟨hcompleted, hstored⟩ := hmove.traced h
    rw [← htrace] at hcompleted
    exact ⟨hcompleted, hstored⟩

/-- One event keeps the property exactly if it is admitted. -/
lemma announced_step_iff (h : StartupTraced s) (hannounced : Announced s.trace)
    (hstep : StartupStep s event s') :
    Announced s'.trace ↔ DataAfterStartup s event := by
  unfold DataAfterStartup
  cases hpush : dispatchesData s event with
  | true =>
    obtain ⟨-, -, bytes, htrace⟩ := hstep.push hpush
    rw [htrace, announced_concat, remoteKnown_iff, ← h.stored]
    simp only [← h.completed]
    constructor
    · exact fun hnext _ => hnext.2 _ _ rfl
    · intro hrecord
      refine ⟨hannounced, fun peerId bytes hentry => ?_⟩
      cases hentry
      exact hrecord trivial
  | false =>
    obtain ⟨trace, hmove, htrace⟩ := hstep.quiet hpush
    rw [htrace]
    exact iff_of_true (hmove.no_push hannounced) fun h => absurd h Bool.false_ne_true

lemma create_traced (peerId : PeerId) (localEndpoint remoteEndpoint : Endpoint) (udpPort : Int)
    (hasHandler : Bool) :
    StartupTraced (.create peerId localEndpoint remoteEndpoint udpPort hasHandler) := by
  refine ⟨fun record => ?_, rfl⟩
  simp [RpcConnection.State.create, shakenRecord]

/-- In a run of a connection every payload is handed to the sink after the handshake and under the
announced id exactly if no `DATA` envelope is dispatched before the id of the remote is known. -/
theorem data_after_handshake_iff (codec : EnvelopeCodec) (peerId : PeerId)
    (localEndpoint remoteEndpoint : Endpoint) (udpPort : Int) (events : List ConnectionEvent) :
    EventRun.Always (RpcConnection.State.step codec) (fun s => Announced s.trace)
        (.create peerId localEndpoint remoteEndpoint udpPort) events ↔
      EventRun.Guarded (RpcConnection.State.step codec) DataAfterStartup
        (.create peerId localEndpoint remoteEndpoint udpPort) events := by
  have htraced : ∀ s event, StartupTraced s → StartupTraced (s.step codec event) :=
    fun s event h => h.step (startup_step codec s event)
  refine EventRun.always_iff_guarded htraced (fun s event h hannounced => ?_)
    (create_traced ..) ?_ events
  · exact announced_step_iff h hannounced (startup_step codec s event)
  · intro before peerId bytes after htrace
    simp [RpcConnection.State.create] at htrace

/-- The acceptor waits for the handshake, and the remote sends data instead. -/
def dataFirst : List ConnectionEvent :=
  [.start false, .awaitRemote [], .message [1] [7], .dispatch true]

theorem data_before_handshake :
    let s := EventRun.run (RpcConnection.State.step dataCodec)
      (.create "a" ⟨"10.0.0.1", 9000⟩ ⟨"10.0.0.2", 9000⟩ 9001)
      dataFirst
    s.trace = [.pushDataBytes "" [7]] ∧ ¬Announced s.trace := by
  intro s
  have htrace : s.trace = [.pushDataBytes "" [7]] := by rfl
  refine ⟨htrace, fun h => ?_⟩
  obtain ⟨record, hrecord, -⟩ := h [] "" [7] [] htrace
  cases hrecord

end MeshNetwork.Proofs
