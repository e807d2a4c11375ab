import MeshNetwork.Model.EnvelopeWire
import MeshNetwork.Model.Envelopes
import MeshNetwork.Model.Session
import MeshNetwork.Proofs.ConnectionSteps

/-!
# The ids of framed messages

The frame of a message starts with the first 16 bytes of the id of its envelope. Requests and routed
data carry a fresh id and answers the id of the request, whatever the remote has put there; the
envelopes of routing updates carry none.
-/

namespace MeshNetwork.Proofs

open EventRun

/-! ## The envelopes of the handlers -/

section Handlers

variable (codec : EnvelopeCodec) (s : RpcConnection.State)

/-- The request as its constructor makes it, with the id that it has drawn. -/
lemma awaitRemote_request (msgId : Bytes) (fresh : Uuid) (hstage : s.stage = .reading true) :
    (s.awaitRemote codec msgId).sent = (s.sendMessage codec
      { makeHandshakeRequest codec fresh s.getLocalPeerIp s.getRemotePeerIp s.peerId with
        msgId := msgId }).sent := by
  unfold RpcConnection.State.awaitRemote
  rw [hstage]
  rfl

/-- The fresh id of a response is overwritten, so it does not matter which one it was. -/
lemma handleHeartbeat_response (env : Envelope) (fresh : Uuid)
    (hexpect : env.expectResponse = true) :
    s.handleHeartbeat codec env =
      s.sendMessage codec
        { makeHeartbeatResponse fresh s.getLocalPeerIp env.sender with msgId := env.msgId } :=
  if_pos hexpect

lemma handleHandshake_response (env : Envelope) (fresh : Uuid) {req : Handshake}
    (hexpect : env.expectResponse = true) (hparse : codec.parseHandshake env.payload = some req) :
    (s.handleHandshake codec env).sent =
      ({ s with remoteUdpEndpoint := s.announcedUdpEndpoint req.peerRecord }.sendMessage codec
        { makeHandshakeResponse codec fresh s.getLocalPeerIp env.sender s.peerId with
          msgId := env.msgId }).sent := by
  unfold RpcConnection.State.handleHandshake RpcConnection.State.fulfillHandshakePromise
  rw [if_pos hexpect, hparse]
  dsimp only
  split <;> rfl

end Handlers

/-! ## What an event sends -/

/-- The handlers answer the envelope. -/
def GetsResponse (codec : EnvelopeCodec) (env : Envelope) : Prop :=
  env.expectResponse = true ∧
    (env.type = .heartbeat ∨ env.type = .handshake ∧ codec.parseHandshake env.payload ≠ none)

instance (codec : EnvelopeCodec) (env : Envelope) : Decidable (GetsResponse codec env) :=
  inferInstanceAs (Decidable (_ ∧ _))

/-- The ids of the messages that an event sends. -/
def sentIds (codec : EnvelopeCodec) (s : RpcConnection.State) : ConnectionEvent → List Bytes
  | .sendMessage env => [env.msgId]
  | .awaitRemote msgId => if s.stage = .reading true then [msgId] else []
  | .dispatch _ =>
    (s.dispatching.toList.filter fun env => decide (GetsResponse codec env)).map Envelope.msgId
  | _ => []

/-- The calls of `async_send_message` that lead from one state to the next, by their ids. -/
def SendsIds (s s' : RpcConnection.State) (ids : List Bytes) : Prop :=
  ∃ messages, s'.sent = s.sent ++ messages ∧ messages.map Prod.fst = ids

lemma SendsIds.none {s s' : RpcConnection.State} (h : s'.sent = s.sent) : SendsIds s s' [] :=
  ⟨[], by rw [h, List.append_nil], rfl⟩

section Sent

variable (codec : EnvelopeCodec) (s : RpcConnection.State)

lemma sendMessage_ids (env : Envelope) : SendsIds s (s.sendMessage codec env) [env.msgId] := by
  have htrack : (s.track env.msgId).sent = s.sent := by
    obtain ⟨_, _, hsettle⟩ := settle_frame env.msgId brokenPromise s
    unfold RpcConnection.State.track
    rw [hsettle]
  unfold RpcConnection.State.sendMessage
  dsimp only
  split_ifs
  · exact ⟨[_], by rw [htrack], rfl⟩
  · exact ⟨[_], rfl, rfl⟩

lemma dispatchMessage_ids (sinkAlive : Bool) (env : Envelope) :
    SendsIds s (s.dispatchMessage codec sinkAlive env) (if GetsResponse codec env then [env.msgId]
      else []) := by
  unfold RpcConnection.State.dispatchMessage
  by_cases hexpect : env.expectResponse = true
  · cases htype : env.type with
    | handshake =>
      dsimp only
      cases hparse : codec.parseHandshake env.payload with
      | none =>
        rw [if_neg (by simp [GetsResponse, htype, hparse])]
        refine .none ?_
        unfold RpcConnection.State.handleHandshake
        rw [if_pos hexpect, hparse]
      | some req =>
        rw [if_pos (by simp [GetsResponse, htype, hparse, hexpect])]
        obtain ⟨messages, hsent, hids⟩ := sendMessage_ids codec
          { s with remoteUdpEndpoint := s.announcedUdpEndpoint req.peerRecord } _
        exact ⟨messages, (handleHandshake_response codec s env default hexpect hparse).trans
          hsent, hids⟩
    | heartbeat =>
      dsimp only
      rw [if_pos (by simp [GetsResponse, htype, hexpect]),
        handleHeartbeat_response codec s env default hexpect]
      exact sendMessage_ids codec s _
    | data =>
      have hsilent : ¬GetsResponse codec env := by simp [GetsResponse, htype]
      rw [if_neg hsilent]
      dsimp only
      split_ifs <;> exact .none rfl
    | other _ =>
      have hsilent : ¬GetsResponse codec env := by simp [GetsResponse, htype]
      rw [if_neg hsilent]
      exact .none rfl
  · have hsilent : ¬GetsResponse codec env := fun h => hexpect h.1
    rw [if_neg hsilent]
    cases htype : env.type with
    | handshake => exact .none (by rw [RpcConnection.State.handleHandshake, if_neg hexpect])
    | heartbeat => exact .none (by rw [RpcConnection.State.handleHeartbeat, if_neg hexpect])
    | data =>
      dsimp only
      split_ifs <;> exact .none rfl
    | other _ => exact .none rfl

/-- What an event adds to the messages sent. -/
lemma step_ids (event : ConnectionEvent) :
    SendsIds s (s.step codec event) (sentIds codec s event) := by
  cases event with
  | sendMessage env => exact sendMessage_ids codec s env
  | timerExpires n => exact .none rfl
  | timerHandler n =>
    obtain ⟨_, _, hframe⟩ := timerHandler_frame n s
    exact .none (by rw [RpcConnection.State.step, hframe])
  | shutdown ord =>
    obtain ⟨_, _, _, hframe⟩ := shutdown_frame ord s
    exact .none (by rw [RpcConnection.State.step, hframe])
  | message msgId payload =>
    obtain ⟨_, _, _, hframe⟩ := onMessage_frame codec msgId payload s
    refine .none ?_
    unfold RpcConnection.State.step
    dsimp only
    split_ifs
    · rw [hframe]
    · rfl
  | dispatch sinkAlive =>
    unfold RpcConnection.State.step sentIds
    dsimp only
    cases s.dispatching with
    | none => exact .none rfl
    | some env =>
      obtain ⟨messages, hsent, hids⟩ :=
        dispatchMessage_ids codec { s with dispatching := none } sinkAlive env
      refine ⟨messages, hsent, hids.trans ?_⟩
      by_cases hresponse : GetsResponse codec env <;> simp [hresponse]
  | start initiator =>
    refine .none ?_
    unfold RpcConnection.State.step RpcConnection.State.start
    dsimp only
    split <;> rfl
  | awaitRemote msgId =>
    by_cases hstage : s.stage = .reading true
    · have hids : sentIds codec s (.awaitRemote msgId) = [msgId] := if_pos hstage
      obtain ⟨messages, hsent, hfst⟩ := sendMessage_ids codec s _
      rw [hids]
      exact ⟨messages, (awaitRemote_request codec s msgId default hstage).trans hsent, hfst⟩
    · have hids : sentIds codec s (.awaitRemote msgId) = [] := if_neg hstage
      rw [hids]
      refine .none ?_
      unfold RpcConnection.State.step RpcConnection.State.awaitRemote
      dsimp only
      split
      · exact absurd ‹_› hstage
      · rfl
      · rfl
  | resume =>
    refine .none ?_
    unfold RpcConnection.State.step RpcConnection.State.resume RpcConnection.State.takeResponse
    dsimp only
    split <;> (try split) <;> (try split) <;> rfl
  | startTimeout ord =>
    obtain ⟨_, _, _, hframe⟩ := shutdown_frame ord s
    refine .none ?_
    unfold RpcConnection.State.step RpcConnection.State.startTimeout
    dsimp only
    split
    · rw [hframe]
    · rfl

end Sent

/-! ## Frames -/

/-- The frame of a message is a header of 20 bytes, which starts with the id of the envelope, and
the message. -/
def Framed (message : Bytes × Bytes) : Prop :=
  16 ≤ message.1.length ∧ (frameOf message.1 message.2).length = 20 + message.2.length ∧
    (frameOf message.1 message.2).take 16 = message.1

/-- The bytes of a longer id are cut off. -/
lemma framed_iff (message : Bytes × Bytes) : Framed message ↔ message.1.length = 16 := by
  obtain ⟨msgId, bytes⟩ := message
  unfold Framed frameOf
  dsimp only
  constructor
  · rintro ⟨-, -, htake⟩
    have hlen := congrArg List.length htake
    simp only [List.length_take, List.length_append, htonl, List.length_cons,
      List.length_nil] at hlen
    omega
  · intro hlen
    refine ⟨hlen.ge, ?_, ?_⟩
    · simp only [List.length_append, List.length_take, htonl, List.length_cons, List.length_nil]
      omega
    · rw [List.append_assoc, List.take_of_length_le hlen.le, List.take_left' hlen]

/-! ## Runs -/

/-- Of the paths by which the program sends an envelope, the event takes one with an id as in `ok`:
it is no routing update, and a request that is answered has such an id. -/
def SendsWith (codec : EnvelopeCodec) (ok : Bytes → Prop) (s : RpcConnection.State) :
    ProgramEvent → Prop
  | .triggeredUpdate .. | .fullTable .. => False
  | .dispatch _ => ∀ env, s.dispatching = some env → GetsResponse codec env → ok env.msgId
  | _ => True

section Runs

variable (codec : EnvelopeCodec) (ok : Bytes → Prop)

/-- Every id that an event sends is fresh, echoed or empty. -/
lemma sentIds_iff (hfresh : ∀ msgId : Uuid, ok msgId.bytes) (hempty : ¬ok [])
    (s : RpcConnection.State) (event : ProgramEvent) :
    (∀ msgId ∈ sentIds codec s (event.onConnection s), ok msgId) ↔ SendsWith codec ok s event := by
  cases event with
  | heartbeat msgId =>
    simpa [sentIds, ProgramEvent.onConnection, SendsWith, makeHeartbeatRequest] using hfresh msgId
  | forwardPacket msgId =>
    simpa [sentIds, ProgramEvent.onConnection, SendsWith, makeGenericData] using hfresh msgId
  | triggeredUpdate | fullTable =>
    simpa [sentIds, ProgramEvent.onConnection, SendsWith, updateEnvelope] using hempty
  | awaitRemote msgId =>
    have hid := hfresh msgId
    by_cases hstage : s.stage = .reading true <;>
      simp [sentIds, ProgramEvent.onConnection, SendsWith, hstage, hid]
  | dispatch => cases hdispatching : s.dispatching <;>
      simp [sentIds, ProgramEvent.onConnection, SendsWith, hdispatching]
  | message | start | resume | startTimeout | timerExpires | timerHandler | shutdown =>
    simp [sentIds, ProgramEvent.onConnection, SendsWith]

lemma programStep_ids_iff (hfresh : ∀ msgId : Uuid, ok msgId.bytes) (hempty : ¬ok [])
    (s : RpcConnection.State) (event : ProgramEvent) (hs : ∀ message ∈ s.sent, ok message.1) :
    (∀ message ∈ (s.programStep codec event).sent, ok message.1) ↔ SendsWith codec ok s event := by
  obtain ⟨messages, hsent, hids⟩ := step_ids codec s (event.onConnection s)
  rw [← sentIds_iff codec ok hfresh hempty, ← hids, RpcConnection.State.programStep, hsent]
  simp only [List.forall_mem_append, List.forall_mem_map]
  exact and_iff_right hs

/-- Along every run from a new connection, the frame builder reads ids that are long enough exactly
if no routing update is sent and no answered request has a shorter id, and the frames carry the ids
of their envelopes exactly if no routing update is sent and every answered request has an id of 16
bytes. -/
theorem framed_messages_iff (peerId : PeerId) (localEndpoint remoteEndpoint : Endpoint)
    (udpPort : Int) (hasHandler : Bool) (events : List ProgramEvent) :
    (Always (RpcConnection.State.programStep codec)
      (fun s => ∀ message ∈ s.sent, 16 ≤ message.1.length)
        (.create peerId localEndpoint remoteEndpoint udpPort hasHandler) events ↔
      Guarded (RpcConnection.State.programStep codec)
        (SendsWith codec fun msgId => 16 ≤ msgId.length)
        (.create peerId localEndpoint remoteEndpoint udpPort hasHandler) events) ∧
    (Always (RpcConnection.State.programStep codec) (fun s => ∀ message ∈ s.sent, Framed message)
        (.create peerId localEndpoint remoteEndpoint udpPort hasHandler) events ↔
      Guarded (RpcConnection.State.programStep codec)
        (SendsWith codec fun msgId => msgId.length = 16)
        (.create peerId localEndpoint remoteEndpoint udpPort hasHandler) events) := by
  have hnew : (RpcConnection.State.create peerId localEndpoint remoteEndpoint udpPort
      hasHandler).sent = [] := rfl
  simp only [framed_iff]
  constructor
  · apply always_iff_guarded_of_step
    · exact programStep_ids_iff codec (fun msgId => 16 ≤ msgId.length)
        (fun msgId => msgId.size.ge) (by simp)
    · simp [hnew]
  · apply always_iff_guarded_of_step
    · exact programStep_ids_iff codec (fun msgId => msgId.length = 16)
        (fun msgId => msgId.size) (by simp)
    · simp [hnew]

end Runs

/-- The startup of a connection of `a` to `b`, who answers its request. -/
def startupEvents : List ProgramEvent :=
  [.start true, .awaitRemote default,
    .message (default : Uuid).bytes (serializeEnvelope (makeHandshakeResponse protobufCodec default
      ⟨"10.0.0.2", 4000, 5000⟩ ⟨"10.0.0.1", 4000, 0⟩ "b")),
    .dispatch true, .resume, .resume, .resume]

/-- The first broadcast of the table after the startup of a connection: the id is empty, and the
frame builder reads 16 bytes of it. -/
theorem full_table_without_id :
    (run (RpcConnection.State.programStep protobufCodec)
      (.create "a" ⟨"10.0.0.1", 4000⟩ ⟨"10.0.0.2", 4000⟩ 0)
      startupEvents).stage = .registered ⟨"b", "10.0.0.2", 4000, 5000⟩ ∧
      ∃ message ∈ (run (RpcConnection.State.programStep protobufCodec)
        (.create "a" ⟨"10.0.0.1", 4000⟩ ⟨"10.0.0.2", 4000⟩ 0)
        (startupEvents ++ [.fullTable (.stored PeerId) default "a" "b"
          (AList.singleton "a" 0)])).sent,
        message.1 = [] ∧ ¬Framed message := by
  refine ⟨by decide +kernel, ?_⟩
  rw [run_concat]
  refine ⟨([], _), List.mem_concat_self, rfl, ?_⟩
  rw [framed_iff]
  exact Nat.zero_ne_add_one 15

end MeshNetwork.Proofs
