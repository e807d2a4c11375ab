import MeshNetwork.Library.EventRuns
import MeshNetwork.Model.Connection

/-!
# The steps of a connection

What each part of a connection leaves as it is, and what an event can do to the startup of the
connection and to its trace.
-/

namespace MeshNetwork.Proofs

/-! ## What the parts of a step change -/

lemma settle_frame (reqId : Bytes) (result : Except String Bytes) (s : RpcConnection.State) :
    ∃ pendingRequests requests, s.settle reqId result = { s with pendingRequests, requests } := by
  unfold RpcConnection.State.settle
  split <;> exact ⟨_, _, rfl⟩

lemma failAll_frame (ids : List Bytes) (s : RpcConnection.State) :
    ∃ pendingRequests requests, s.failAll ids = { s with pendingRequests, requests } := by
  induction ids generalizing s with
  | nil => exact ⟨_, _, rfl⟩
  | cons id ids ih =>
    obtain ⟨pendingRequests, requests, hsettle⟩ := settle_frame id rpcLayerDestroyed s
    obtain ⟨pendingRequests', requests', hrest⟩ := ih { s with pendingRequests, requests }
    refine ⟨pendingRequests', requests', ?_⟩
    change (s.settle id rpcLayerDestroyed).failAll ids = _
    rw [hsettle, hrest]

lemma shutdown_frame (ord : IterOrder Bytes) (s : RpcConnection.State) :
    ∃ pendingRequests requests sessionStopped,
      s.shutdown ord = { s with pendingRequests, requests, sessionStopped } := by
  obtain ⟨pendingRequests, requests, hfail⟩ := failAll_frame (ord.visit 0 s.pendingRequests.keys)
    { s with sessionStopped := s.sessionStopped || s.hasSession }
  exact ⟨pendingRequests, requests, _, hfail⟩

lemma sendMessage_frame (codec : EnvelopeCodec) (envelope : Envelope) (s : RpcConnection.State) :
    ∃ pendingRequests requests sent, s.sendMessage codec envelope =
      { s with pendingRequests, requests, sent } := by
  unfold RpcConnection.State.sendMessage RpcConnection.State.track
  dsimp only
  split_ifs
  · obtain ⟨pendingRequests, requests, hsettle⟩ := settle_frame envelope.msgId brokenPromise s
    rw [hsettle]
    exact ⟨_, _, _, rfl⟩
  · exact ⟨_, _, _, rfl⟩

lemma timerHandler_frame (n : Nat) (s : RpcConnection.State) :
    ∃ pendingRequests requests, s.timerHandler n = { s with pendingRequests, requests } := by
  unfold RpcConnection.State.timerHandler
  split
  · exact ⟨_, _, rfl⟩
  · dsimp only
    split
    · obtain ⟨pendingRequests, requests, hsettle⟩ := settle_frame _ requestTimeout _
      exact ⟨_, _, hsettle⟩
    · exact ⟨_, _, rfl⟩
    · exact ⟨_, _, rfl⟩

lemma onMessage_frame (codec : EnvelopeCodec) (msgId payload : Bytes) (s : RpcConnection.State) :
    ∃ pendingRequests requests dispatching, s.onMessage codec msgId payload =
      { s with
        pendingRequests, requests, dispatching, received := s.received ++ [(msgId, payload)] } := by
  unfold RpcConnection.State.onMessage RpcConnection.State.storeResponse
  dsimp only
  split
  · exact ⟨_, _, _, rfl⟩
  · obtain ⟨pendingRequests, requests, hsettle⟩ :=
      settle_frame msgId (.ok payload) { s with received := s.received ++ [(msgId, payload)] }
    rw [hsettle]
    split_ifs <;> exact ⟨_, _, _, rfl⟩

/-- The call of the sink for an envelope. -/
def pushes (s : RpcConnection.State) (sinkAlive : Bool) (env : Envelope) : List ConnectionTrace :=
  if env.type = .data ∧ sinkAlive then [.pushDataBytes s.authenticatedRemoteId env.payload] else []

lemma handleHandshake_frame (codec : EnvelopeCodec) (env : Envelope) (s : RpcConnection.State) :
    ∃ pendingRequests requests sent remoteUdpEndpoint handshakePromise,
      s.handleHandshake codec env =
      { s with pendingRequests, requests, sent, remoteUdpEndpoint, handshakePromise } := by
  unfold RpcConnection.State.handleHandshake RpcConnection.State.fulfillHandshakePromise
  dsimp only
  split_ifs
  · split
    · exact ⟨_, _, _, _, _, rfl⟩
    · obtain ⟨_, _, _, hsend⟩ := sendMessage_frame codec _ _
      rw [hsend]
      split <;> exact ⟨_, _, _, _, _, rfl⟩
  · exact ⟨_, _, _, _, _, rfl⟩

lemma handleHeartbeat_frame (codec : EnvelopeCodec) (env : Envelope) (s : RpcConnection.State) :
    ∃ pendingRequests requests sent, s.handleHeartbeat codec env =
      { s with pendingRequests, requests, sent } := by
  unfold RpcConnection.State.handleHeartbeat
  split_ifs
  · exact sendMessage_frame codec _ s
  · exact ⟨_, _, _, rfl⟩

lemma dispatchMessage_frame (codec : EnvelopeCodec) (sinkAlive : Bool) (env : Envelope)
    (s : RpcConnection.State) :
    ∃ pendingRequests requests sent remoteUdpEndpoint handshakePromise,
      s.dispatchMessage codec sinkAlive env =
      { s with
        pendingRequests, requests, sent, remoteUdpEndpoint, handshakePromise,
        trace := s.trace ++ pushes s sinkAlive env } := by
  unfold RpcConnection.State.dispatchMessage pushes
  cases htype : env.type with
  | handshake =>
    obtain ⟨_, _, _, _, _, hframe⟩ := handleHandshake_frame codec env s
    dsimp only
    rw [hframe, if_neg (by simp), List.append_nil]
    exact ⟨_, _, _, _, _, rfl⟩
  | heartbeat =>
    obtain ⟨_, _, _, hframe⟩ := handleHeartbeat_frame codec env s
    dsimp only
    rw [hframe, if_neg (by simp), List.append_nil]
    exact ⟨_, _, _, _, _, rfl⟩
  | data =>
    cases sinkAlive with
    | true => exact ⟨_, _, _, _, _, rfl⟩
    | false =>
      simp only [Bool.false_eq_true, and_false, if_false, List.append_nil]
      exact ⟨_, _, _, _, _, rfl⟩
  | other _ =>
    dsimp only
    rw [if_neg (by simp), List.append_nil]
    exact ⟨_, _, _, _, _, rfl⟩

/-! ## Steps -/

/-- The messages that an event adds. -/
def arrivals (s : RpcConnection.State) : ConnectionEvent → List (Bytes × Bytes)
  | .message msgId payload => if s.hasSession ∧ s.dispatching = none then [(msgId, payload)] else []
  | _ => []

/-- The event hands the payload of an envelope to the sink. -/
def dispatchesData (s : RpcConnection.State) : ConnectionEvent → Bool
  | .dispatch sinkAlive => sinkAlive && s.dispatching.any fun env => decide (env.type = .data)
  | _ => false

/-- The record of the handshake that `start` has completed. -/
def shakenRecord : StartupStage → Option PeerRecord
  | .shaken record | .identified record | .registered record => some record
  | _ => none

/-- What an event does to the startup stage, to the stored id of the remote and to the trace. -/
inductive StartupMove (s : RpcConnection.State) :
    StartupStage → PeerId → List ConnectionTrace → Prop
  | keep : StartupMove s s.stage s.authenticatedRemoteId []
  | advance {stage : StartupStage} (hbefore : shakenRecord s.stage = none)
      (hafter : shakenRecord stage = none) :
      StartupMove s stage s.authenticatedRemoteId []
  | shake {record : PeerRecord} (hbefore : shakenRecord s.stage = none) :
      StartupMove s (.shaken record) s.authenticatedRemoteId [.handshakeCompleted record]
  | identify {record : PeerRecord} (hbefore : s.stage = .shaken record) :
      StartupMove s (.identified record) record.peerId []
  | register {record : PeerRecord} (hbefore : s.stage = .identified record) :
      StartupMove s (.registered record) s.authenticatedRemoteId [.addConnection record.peerId]

/-- The fields that the handshake depends on. -/
structure StartupStep (s : RpcConnection.State) (event : ConnectionEvent)
    (s' : RpcConnection.State) : Prop where
  quiet : dispatchesData s event = false →
    ∃ trace, StartupMove s s'.stage s'.authenticatedRemoteId trace ∧ s'.trace = s.trace ++ trace
  push : dispatchesData s event = true → s'.stage = s.stage ∧
    s'.authenticatedRemoteId = s.authenticatedRemoteId ∧
    ∃ bytes, s'.trace = s.trace ++ [.pushDataBytes s.authenticatedRemoteId bytes]
  received : s'.received = s.received ++ arrivals s event

section Steps

variable {codec : EnvelopeCodec} {s s' : RpcConnection.State} {event : ConnectionEvent}

lemma StartupStep.of_move (hevent : dispatchesData s event = false)
    (harrivals : arrivals s event = []) {trace : List ConnectionTrace}
    (hmove : StartupMove s s'.stage s'.authenticatedRemoteId trace)
    (htrace : s'.trace = s.trace ++ trace) (hreceived : s'.received = s.received) :
    StartupStep s event s' := by
  refine ⟨fun _ => ⟨trace, hmove, htrace⟩, fun hpush => ?_,
    by rw [hreceived, harrivals, List.append_nil]⟩
  rw [hevent] at hpush
  cases hpush

/-- An event that changes none of these fields. -/
lemma StartupStep.same (hevent : dispatchesData s event = false) (harrivals : arrivals s event = [])
    (hstage : s'.stage = s.stage) (hid : s'.authenticatedRemoteId = s.authenticatedRemoteId)
    (htrace : s'.trace = s.trace) (hreceived : s'.received = s.received) :
    StartupStep s event s' := by
  refine .of_move hevent harrivals ?_ (by rw [htrace, List.append_nil]) hreceived
  rw [hstage, hid]
  exact .keep

/-- The startup thread goes on before the handshake has been completed. -/
lemma StartupStep.advance (hevent : dispatchesData s event = false)
    (harrivals : arrivals s event = []) (hbefore : shakenRecord s.stage = none)
    (hafter : shakenRecord s'.stage = none)
    (hid : s'.authenticatedRemoteId = s.authenticatedRemoteId) (htrace : s'.trace = s.trace)
    (hreceived : s'.received = s.received) : StartupStep s event s' := by
  refine .of_move hevent harrivals ?_ (by rw [htrace, List.append_nil]) hreceived
  rw [hid]
  exact .advance hbefore hafter

lemma resume_step (codec : EnvelopeCodec) (s : RpcConnection.State) :
    StartupStep s .resume (s.resume codec) := by
  have hsame : StartupStep s .resume s := .same rfl rfl rfl rfl rfl rfl
  unfold RpcConnection.State.resume
  cases hstage : s.stage with
  | created | reading | registered | failed => exact hsame
  | awaitingResponse n =>
    have hbefore : shakenRecord s.stage = none := congrArg shakenRecord hstage
    dsimp only
    split
    · exact hsame
    · unfold RpcConnection.State.takeResponse
      split
      · exact .advance rfl rfl hbefore rfl rfl rfl rfl
      · exact .of_move rfl rfl (.shake hbefore) rfl rfl
  | awaitingHandshake =>
    have hbefore : shakenRecord s.stage = none := congrArg shakenRecord hstage
    dsimp only
    split
    · exact .of_move rfl rfl (.shake hbefore) rfl rfl
    · exact hsame
  | shaken record => exact .of_move rfl rfl (.identify hstage) (List.append_nil _).symm rfl
  | identified record => exact .of_move rfl rfl (.register hstage) rfl rfl

lemma dispatch_step (codec : EnvelopeCodec) (s : RpcConnection.State) (sinkAlive : Bool) :
    StartupStep s (.dispatch sinkAlive) (s.step codec (.dispatch sinkAlive)) := by
  unfold RpcConnection.State.step
  dsimp only
  cases hdispatching : s.dispatching with
  | none => exact .same (by simp [dispatchesData, hdispatching]) rfl rfl rfl rfl rfl
  | some env =>
    obtain ⟨_, _, _, _, _, hframe⟩ :=
      dispatchMessage_frame codec sinkAlive env { s with dispatching := none }
    have hdata : dispatchesData s (.dispatch sinkAlive) = true ↔ env.type = .data ∧ sinkAlive := by
      simp [dispatchesData, hdispatching, and_comm]
    dsimp only
    rw [hframe]
    refine ⟨fun hquiet => ⟨[], .keep, ?_⟩, fun hpush => ⟨rfl, rfl, env.payload, ?_⟩,
      (List.append_nil _).symm⟩
    · unfold pushes
      rw [if_neg]
      rw [← hdata, hquiet]
      exact Bool.false_ne_true
    · unfold pushes
      rw [if_pos (hdata.mp hpush)]

/-- What an event can do. -/
theorem startup_step (codec : EnvelopeCodec) (s : RpcConnection.State) (event : ConnectionEvent) :
    StartupStep s event (s.step codec event) := by
  cases event with
  | sendMessage envelope =>
    obtain ⟨_, _, _, hframe⟩ := sendMessage_frame codec envelope s
    unfold RpcConnection.State.step
    dsimp only
    rw [hframe]
    exact .same rfl rfl rfl rfl rfl rfl
  | timerExpires n => exact .same rfl rfl rfl rfl rfl rfl
  | timerHandler n =>
    obtain ⟨_, _, hframe⟩ := timerHandler_frame n s
    unfold RpcConnection.State.step
    dsimp only
    rw [hframe]
    exact .same rfl rfl rfl rfl rfl rfl
  | shutdown ord =>
    obtain ⟨_, _, _, hframe⟩ := shutdown_frame ord s
    unfold RpcConnection.State.step
    dsimp only
    rw [hframe]
    exact .same rfl rfl rfl rfl rfl rfl
  | message msgId payload =>
    obtain ⟨_, _, _, hframe⟩ := onMessage_frame codec msgId payload s
    unfold RpcConnection.State.step
    dsimp only
    split_ifs with hready
    · rw [hframe]
      refine ⟨fun _ => ⟨[], .keep, (List.append_nil _).symm⟩,
        fun hpush => absurd hpush Bool.false_ne_true, ?_⟩
      rw [arrivals, if_pos hready]
    · exact .same rfl (if_neg hready) rfl rfl rfl rfl
  | dispatch sinkAlive => exact dispatch_step codec s sinkAlive
  | start initiator =>
    unfold RpcConnection.State.step RpcConnection.State.start
    dsimp only
    split
    · rename_i hstage
      exact .advance rfl rfl (congrArg shakenRecord hstage) rfl rfl rfl rfl
    · exact .same rfl rfl rfl rfl rfl rfl
  | awaitRemote msgId =>
    unfold RpcConnection.State.step RpcConnection.State.awaitRemote
    dsimp only
    split
    · rename_i hstage
      obtain ⟨_, _, _, hframe⟩ := sendMessage_frame codec
        { msgId := msgId, sender := s.getLocalPeerIp, recipient := s.getRemotePeerIp
          type := .handshake, payload := codec.serializeHandshake s.makeHandshake
          expectResponse := true } s
      rw [hframe]
      exact .advance rfl rfl (congrArg shakenRecord hstage) rfl rfl rfl rfl
    · rename_i hstage
      exact .advance rfl rfl (congrArg shakenRecord hstage) rfl rfl rfl rfl
    · exact .same rfl rfl rfl rfl rfl rfl
  | resume => exact resume_step codec s
  | startTimeout ord =>
    obtain ⟨_, _, _, hframe⟩ := shutdown_frame ord s
    unfold RpcConnection.State.step RpcConnection.State.startTimeout
    dsimp only
    split
    · rename_i hstage _
      rw [hframe]
      exact .advance rfl rfl (congrArg shakenRecord hstage) rfl rfl rfl rfl
    · exact .same rfl rfl rfl rfl rfl rfl

end Steps

/-- A codec that reads every payload as `DATA`. -/
def dataCodec : EnvelopeCodec where
  parseEnvelope bytes :=
    some { msgId := [], type := .data, payload := bytes, expectResponse := false }
  serializeEnvelope env := env.payload
  parseHandshake _ := none
  serializeHandshake _ := []

end MeshNetwork.Proofs
