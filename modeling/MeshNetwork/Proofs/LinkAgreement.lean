import MeshNetwork.Model.Link
import MeshNetwork.Proofs.EnvelopeIds
import MeshNetwork.Proofs.EnvelopeWire
import MeshNetwork.Proofs.Handshake

/-!
# What two connections know of each other

Whatever an end of a link has stored came out of a message of the other end. So the handshake gives
each end the record of the other, and the data that one end sends reach the sink of the other once
each and in order.
-/

namespace MeshNetwork.Proofs

/-! ## Messages -/

/-- The record that an end announces. -/
def recordOf (s : RpcConnection.State) : PeerRecord := ⟨s.peerId, s.getLocalPeerIp⟩

/-- An envelope that an end with this record sends; `send_message` fills in the addresses. -/
structure SpeaksFor (codec : EnvelopeCodec) (record : PeerRecord) (e : Envelope) : Prop where
  known : ∀ value, e.type ≠ .other value
  handshake : e.type = .handshake → e.payload = codec.serializeHandshake ⟨meshVersion, record⟩

def MessageOf (codec : EnvelopeCodec) (record : PeerRecord) (bytes : Bytes) : Prop :=
  ∃ e, bytes = codec.serializeEnvelope e ∧ Built e ∧ SpeaksFor codec record e

/-- One that has passed the session of the other end. -/
structure HeardEnvelope (codec : EnvelopeCodec) (record : PeerRecord) (e : Envelope) : Prop where
  built : Built e
  fits : Fits codec e
  speaks : SpeaksFor codec record e

def HeardFrom (codec : EnvelopeCodec) (record : PeerRecord) (bytes : Bytes) : Prop :=
  ∃ e, bytes = codec.serializeEnvelope e ∧ HeardEnvelope codec record e

section Codec

variable {codec : EnvelopeCodec} {record : PeerRecord} {e : Envelope}

lemma SpeaksFor.of_data (h : e.type = .heartbeat ∨ e.type = .data) : SpeaksFor codec record e := by
  constructor
  · rcases h with h | h <;> rw [h] <;> exact fun _ hother => EnvelopeType.noConfusion hother
  · rcases h with h | h <;> rw [h] <;> exact fun hhandshake => EnvelopeType.noConfusion hhandshake

lemma HeardEnvelope.parse (h : HeardEnvelope codec record e) (hcodec : FaithfulCodec codec) :
    codec.parseEnvelope (codec.serializeEnvelope e) = some e := hcodec.envelope e h.built h.fits

lemma HeardEnvelope.parseHandshake (h : HeardEnvelope codec record e) (hcodec : FaithfulCodec codec)
    (hrecord : OnWire record.peerIp) (htype : e.type = .handshake) :
    codec.parseHandshake e.payload = some ⟨meshVersion, record⟩ :=
  hcodec.handshake e _ h.built h.fits (h.speaks.handshake htype) hrecord

end Codec

/-- All answers in the promises have the property. -/
def Responses (P : Bytes → Prop) (requests : List PendingRequest) : Prop :=
  ∀ q ∈ requests, ∀ bytes, .ok bytes ∈ q.promise → P bytes

section Requests

variable {P : Bytes → Prop} {s : RpcConnection.State}

lemma Responses.modify {requests : List PendingRequest} (h : Responses P requests) (n : Nat)
    {f : PendingRequest → PendingRequest}
    (hf : ∀ q ∈ requests, ∀ bytes, .ok bytes ∈ (f q).promise → .ok bytes ∈ q.promise ∨ P bytes) :
    Responses P (requests.modify n f) := by
  intro q hq bytes hbytes
  obtain ⟨i, hi⟩ := List.mem_iff_getElem?.mp hq
  rw [List.getElem?_modify] at hi
  obtain ⟨q₀, hq₀, hq⟩ := Option.map_eq_some_iff.mp hi
  have hmem := List.mem_of_getElem? hq₀
  split_ifs at hq
  · rw [← hq] at hbytes
    rcases hf q₀ hmem bytes hbytes with hold | hnew
    · exact h q₀ hmem bytes hold
    · exact hnew
  · rw [← hq] at hbytes
    exact h q₀ hmem bytes hbytes

lemma settle_responses (h : Responses P s.requests) (reqId : Bytes) (result : Except String Bytes)
    (hresult : ∀ bytes, result = .ok bytes → P bytes) :
    ∃ pendingRequests requests, s.settle reqId result = { s with pendingRequests, requests } ∧
      Responses P requests := by
  unfold RpcConnection.State.settle
  split
  · exact ⟨_, _, rfl, h⟩
  · refine ⟨_, _, rfl, h.modify _ fun q _ bytes hbytes => ?_⟩
    unfold PendingRequest.settle at hbytes
    rcases List.mem_append.mp hbytes with hold | hnew
    · exact .inl hold
    · exact .inr (hresult bytes (List.mem_singleton.mp hnew).symm)

lemma error_responses {what : String} :
    ∀ bytes, (.error what : Except String Bytes) = .ok bytes → P bytes := by
  intro bytes h
  cases h

lemma failAll_responses (ids : List Bytes) (h : Responses P s.requests) :
    ∃ pendingRequests requests, s.failAll ids = { s with pendingRequests, requests } ∧
      Responses P requests := by
  induction ids generalizing s with
  | nil => exact ⟨_, _, rfl, h⟩
  | cons id ids ih =>
    obtain ⟨pendingRequests, requests, hsettle, hrequests⟩ :=
      settle_responses h id rpcLayerDestroyed error_responses
    obtain ⟨pendingRequests', requests', hrest, hrequests'⟩ :=
      ih (s := { s with pendingRequests, requests }) hrequests
    refine ⟨pendingRequests', requests', ?_, hrequests'⟩
    change (s.settle id rpcLayerDestroyed).failAll ids = _
    rw [← hrest, ← hsettle]

lemma shutdown_responses (ord : IterOrder Bytes) (h : Responses P s.requests) :
    ∃ pendingRequests requests sessionStopped,
      s.shutdown ord = { s with pendingRequests, requests, sessionStopped } ∧
        Responses P requests := by
  obtain ⟨pendingRequests, requests, hfail, hrequests⟩ := failAll_responses
    (ord.visit 0 s.pendingRequests.keys)
    (s := { s with sessionStopped := s.sessionStopped || s.hasSession }) h
  exact ⟨pendingRequests, requests, _, hfail, hrequests⟩

lemma timerHandler_responses (n : Nat) (h : Responses P s.requests) :
    ∃ pendingRequests requests, s.timerHandler n = { s with pendingRequests, requests } ∧
      Responses P requests := by
  unfold RpcConnection.State.timerHandler
  split
  · exact ⟨_, _, rfl, h⟩
  · have hran : Responses P (s.requests.modify n fun r => { r with timer := .done }) :=
      h.modify n fun _ _ _ hbytes => .inl hbytes
    dsimp only
    split
    · obtain ⟨pendingRequests, requests, hsettle, hrequests⟩ := settle_responses
        (s := { s with requests := s.requests.modify n fun r => { r with timer := .done } }) hran _
        requestTimeout
        error_responses
      exact ⟨pendingRequests, requests, hsettle, hrequests⟩
    · exact ⟨_, _, rfl, hran⟩
    · exact ⟨_, _, rfl, h⟩

end Requests

/-! ## One end -/

/-- The payload of a `DATA` envelope. -/
def dataPayload (e : Envelope) : Option Bytes := if e.type = .data then some e.payload else none

/-- The payloads of the `DATA` envelopes among some messages. -/
def dataOf (codec : EnvelopeCodec) (messages : List Bytes) : List Bytes :=
  messages.filterMap fun bytes => (codec.parseEnvelope bytes).bind dataPayload

def sinkPayload : ConnectionTrace → Option Bytes
  | .pushDataBytes _ bytes => some bytes
  | .handshakeCompleted _ => none
  | .addConnection _ => none

/-- The payloads that the sink was called with. -/
def sinkPayloads (trace : List ConnectionTrace) : List Bytes := trace.filterMap sinkPayload

/-- What an end with the record `theirs` lets others see; its data may come before the startup
thread has stored its name. -/
def EntryOf (theirs : PeerRecord) : ConnectionTrace → Prop
  | .pushDataBytes p _ => p = "" ∨ p = theirs.peerId
  | .handshakeCompleted r => r = theirs
  | .addConnection p => p = theirs.peerId

/-- The startup thread has stored the id of the other end. -/
def IdStored : StartupStage → Prop
  | .identified _ | .registered _ => True
  | _ => False

/-- What is seen under the name of the other end. -/
def NamedEntry (theirs : PeerRecord) : ConnectionTrace → Prop
  | .pushDataBytes p _ => p = theirs.peerId
  | .handshakeCompleted r => r = theirs
  | .addConnection p => p = theirs.peerId

/-- From `before` on, once the id has been stored, all is seen under the name of the other end. -/
def NamesSince (theirs : PeerRecord) (before after : RpcConnection.State) : Prop :=
  ∃ entries, after.trace = before.trace ++ entries ∧
    (IdStored before.stage → IdStored after.stage ∧ ∀ entry ∈ entries, NamedEntry theirs entry)

/-- The state of an end whose messages all come from an end with the record `theirs`. -/
structure EndInv (codec : EnvelopeCodec) (mine theirs : PeerRecord)
    (s : RpcConnection.State) : Prop where
  record : recordOf s = mine
  onWire : OnWire mine.peerIp ∧ OnWire theirs.peerIp
  handler : s.hasHandler = true
  sent : ∀ m ∈ s.sent, MessageOf codec mine m.2
  responses : Responses (HeardFrom codec theirs) s.requests
  dispatching : ∀ e, s.dispatching = some e → HeardEnvelope codec theirs e
  promise : ∀ r, s.handshakePromise = some (some r) → r = theirs ∧
    s.remoteUdpEndpoint = s.announcedUdpEndpoint theirs
  shaken : ∀ r, shakenRecord s.stage = some r → r = theirs ∧
    s.remoteUdpEndpoint = s.announcedUdpEndpoint theirs
  stored : s.authenticatedRemoteId = storedId s.stage
  data : sinkPayloads s.trace ++ (s.dispatching.bind dataPayload).toList =
    dataOf codec (s.received.map Prod.snd)
  trace : ∀ entry ∈ s.trace, EntryOf theirs entry

/-- The events of an end of a link. -/
def LinkAdmits (codec : EnvelopeCodec) (mine theirs : PeerRecord) : ConnectionEvent → Prop
  | .sendMessage e => SpeaksFor codec mine e
  | .message _ payload => HeardFrom codec theirs payload
  | .dispatch sinkAlive => sinkAlive = true
  | _ => True

section End

variable {codec : EnvelopeCodec} {mine theirs : PeerRecord} {s : RpcConnection.State}

/-- Nothing but the requests and the messages changes. -/
lemma EndInv.requests (h : EndInv codec mine theirs s) {pendingRequests : UMap Bytes Nat}
    {requests : List PendingRequest} {sent : List (Bytes × Bytes)} {sessionStopped : Bool}
    (hsent : ∀ m ∈ sent, MessageOf codec mine m.2)
    (hresponses : Responses (HeardFrom codec theirs) requests) :
    EndInv codec mine theirs { s with
      pendingRequests := pendingRequests, requests := requests, sent := sent,
      sessionStopped := sessionStopped } :=
  ⟨h.record, h.onWire, h.handler, hsent, hresponses, h.dispatching, h.promise, h.shaken, h.stored,
    h.data, h.trace⟩

lemma EndInv.localOnWire (h : EndInv codec mine theirs s) : OnWire s.getLocalPeerIp := by
  have hlocal : s.getLocalPeerIp = mine.peerIp := congrArg PeerRecord.peerIp h.record
  rw [hlocal]
  exact h.onWire.1

/-- The ports of endpoints are small. -/
lemma isInt32_port (port : UInt16) : IsInt32 port.toNat := by
  have hlt := port.toNat_lt
  unfold IsInt32
  omega

lemma remoteOnWire (s : RpcConnection.State) : OnWire s.getRemotePeerIp :=
  ⟨isInt32_port _, isInt32_port _⟩

lemma EndInv.message (h : EndInv codec mine theirs s) {e : Envelope} (he : SpeaksFor codec mine e) :
    MessageOf codec mine (codec.serializeEnvelope
      { e with sender := s.getLocalPeerIp, recipient := s.getRemotePeerIp }) :=
  ⟨_, rfl, ⟨h.localOnWire, remoteOnWire s, he.known⟩, he.known, he.handshake⟩

lemma EndInv.sendMessage (h : EndInv codec mine theirs s) {e : Envelope}
    (he : SpeaksFor codec mine e) :
    EndInv codec mine theirs (s.sendMessage codec e) := by
  have hsent : ∀ m ∈ s.sent ++ [(e.msgId, codec.serializeEnvelope
      { e with sender := s.getLocalPeerIp, recipient := s.getRemotePeerIp })],
      MessageOf codec mine m.2 := by
    intro m hm
    rcases List.mem_append.mp hm with hm | hm
    · exact h.sent m hm
    · rw [List.mem_singleton.mp hm]
      exact h.message he
  unfold RpcConnection.State.sendMessage RpcConnection.State.track
  dsimp only
  split_ifs
  · obtain ⟨pendingRequests, requests, hsettle, hrequests⟩ :=
      settle_responses h.responses e.msgId brokenPromise error_responses
    rw [hsettle]
    refine h.requests hsent fun q hq bytes hbytes => ?_
    rcases List.mem_append.mp hq with hq | hq
    · exact hrequests q hq bytes hbytes
    · rw [List.mem_singleton.mp hq] at hbytes
      exact absurd hbytes List.not_mem_nil
  · exact h.requests hsent h.responses

lemma EndInv.makeHandshake_eq (h : EndInv codec mine theirs s) :
    s.makeHandshake = ⟨meshVersion, mine⟩ := by
  rw [← h.record]
  rfl

/-- What is seen of an end grows by entries that push no data. -/
def GrowsSilently (theirs : PeerRecord) (before after : List ConnectionTrace) : Prop :=
  ∃ entries, after = before ++ entries ∧ ∀ entry ∈ entries, sinkPayload entry = none ∧
    EntryOf theirs entry

lemma GrowsSilently.refl (theirs : PeerRecord) (trace : List ConnectionTrace) :
    GrowsSilently theirs trace trace :=
  ⟨[], (List.append_nil _).symm, fun _ hentry => absurd hentry List.not_mem_nil⟩

lemma GrowsSilently.concat {entry : ConnectionTrace}
    (hentry : sinkPayload entry = none ∧ EntryOf theirs entry) (trace : List ConnectionTrace) :
    GrowsSilently theirs trace (trace ++ [entry]) :=
  ⟨[entry], rfl, fun _ hmem => List.mem_singleton.mp hmem ▸ hentry⟩

/-- Nothing but the startup of the connection changes. -/
lemma EndInv.startup (h : EndInv codec mine theirs s) {s' : RpcConnection.State}
    (hframe : s' = { s with
      stage := s'.stage, trace := s'.trace, authenticatedRemoteId := s'.authenticatedRemoteId,
      remoteUdpEndpoint := s'.remoteUdpEndpoint })
    (hudp : s'.remoteUdpEndpoint = s.remoteUdpEndpoint ∨
      s'.remoteUdpEndpoint = s.announcedUdpEndpoint theirs)
    (hshaken : ∀ r, shakenRecord s'.stage = some r →
      r = theirs ∧ s'.remoteUdpEndpoint = s.announcedUdpEndpoint theirs)
    (hstored : s'.authenticatedRemoteId = storedId s'.stage)
    (htrace : GrowsSilently theirs s.trace s'.trace) : EndInv codec mine theirs s' := by
  obtain ⟨entries, htrace, hentries⟩ := htrace
  have hpayloads : sinkPayloads s'.trace = sinkPayloads s.trace := by
    unfold sinkPayloads
    rw [htrace, List.filterMap_append, List.filterMap_eq_nil_iff.mpr fun entry hentry =>
      (hentries entry hentry).1, List.append_nil]
  have hseen : ∀ entry ∈ s'.trace, EntryOf theirs entry := by
    intro entry hentry
    rw [htrace] at hentry
    rcases List.mem_append.mp hentry with hold | hnew
    · exact h.trace entry hold
    · exact (hentries entry hnew).2
  rw [hframe]
  refine ⟨h.record, h.onWire, h.handler, h.sent, h.responses, h.dispatching, fun r hr => ?_,
    hshaken, hstored, ?_, hseen⟩
  · obtain ⟨htheirs, hset⟩ := h.promise r hr
    refine ⟨htheirs, ?_⟩
    rcases hudp with hudp | hudp
    · exact hudp.trans hset
    · exact hudp
  · dsimp only
    rw [hpayloads]
    exact h.data

/-- The startup goes on to a stage without a record of the other end. -/
lemma EndInv.unshaken (h : EndInv codec mine theirs s) {stage : StartupStage}
    (hstage : shakenRecord stage = none) (hstored : s.authenticatedRemoteId = storedId stage) :
    EndInv codec mine theirs { s with stage := stage } :=
  h.startup rfl (.inl rfl) (fun r hr => (Option.some_ne_none r (hr.symm.trans hstage)).elim) hstored
    (.refl theirs s.trace)

lemma readHandshakeResponse_eq (hcodec : FaithfulCodec codec) {response : Except String Bytes}
    {r : PeerRecord} (htheirs : OnWire theirs.peerIp)
    (hresponse : ∀ bytes, response = .ok bytes → HeardFrom codec theirs bytes)
    (hread : RpcConnection.State.readHandshakeResponse codec response = .ok r) : r = theirs := by
  unfold RpcConnection.State.readHandshakeResponse at hread
  cases response with
  | error what => cases hread
  | ok bytes =>
    obtain ⟨e, rfl, heard⟩ := hresponse bytes rfl
    dsimp only at hread
    rw [heard.parse hcodec] at hread
    dsimp only at hread
    split_ifs at hread with htype
    rw [heard.parseHandshake hcodec htheirs (not_not.mp htype)] at hread
    cases hread
    rfl

lemma EndInv.resume (hcodec : FaithfulCodec codec) (h : EndInv codec mine theirs s) :
    EndInv codec mine theirs (s.resume codec) := by
  have hstored := h.stored
  have hshaken := h.shaken
  unfold RpcConnection.State.resume
  cases hstage : s.stage with
  | created | reading | registered | failed => exact h
  | awaitingResponse n =>
    rw [hstage] at hstored
    dsimp only
    cases hresponse : (s.requests[n]?).bind fun r => r.promise.head? with
    | none => exact h
    | some response =>
      have hmessage : ∀ bytes, response = .ok bytes → HeardFrom codec theirs bytes := by
        intro bytes hok
        obtain ⟨q, hq, hhead⟩ := Option.bind_eq_some_iff.mp hresponse
        rw [hok] at hhead
        exact h.responses q (List.mem_of_getElem? hq) bytes (List.mem_of_mem_head? hhead)
      dsimp only [RpcConnection.State.takeResponse]
      cases hread : RpcConnection.State.readHandshakeResponse codec response with
      | error message => exact h.unshaken rfl hstored
      | ok r =>
        obtain rfl := readHandshakeResponse_eq hcodec h.onWire.2 hmessage hread
        refine h.startup rfl (.inr rfl) (fun r' hr' => ⟨(Option.some.inj hr').symm, rfl⟩) hstored
          (.concat ?_ s.trace)
        exact ⟨rfl, rfl⟩
  | awaitingHandshake =>
    rw [hstage] at hstored
    dsimp only
    split
    · rename_i r hr
      obtain ⟨rfl, hset⟩ := h.promise r hr
      refine h.startup rfl (.inl rfl) (fun r' hr' => ⟨(Option.some.inj hr').symm, hset⟩) hstored
        (.concat ?_ s.trace)
      exact ⟨rfl, rfl⟩
    · exact h
  | shaken record =>
    rw [hstage] at hshaken
    exact h.startup rfl (.inl rfl) hshaken rfl (.refl theirs s.trace)
  | identified record =>
    rw [hstage] at hshaken hstored
    refine h.startup rfl (.inl rfl) hshaken hstored (.concat ?_ s.trace)
    exact ⟨rfl, congrArg PeerRecord.peerId (hshaken record rfl).1⟩

lemma dataOf_concat (hcodec : FaithfulCodec codec) (messages : List Bytes) {e : Envelope}
    (he : HeardEnvelope codec theirs e) :
    dataOf codec (messages ++ [codec.serializeEnvelope e]) = dataOf codec messages ++
      (dataPayload e).toList := by
  unfold dataOf
  rw [List.filterMap_append, List.append_cancel_left_eq]
  cases hpayload : dataPayload e <;> simp [he.parse hcodec, hpayload]

/-- The next message of the remote is taken in. -/
lemma EndInv.onMessage (hcodec : FaithfulCodec codec) (h : EndInv codec mine theirs s)
    (msgId : Bytes) {payload : Bytes} (hpayload : HeardFrom codec theirs payload)
    (hidle : s.dispatching = none) :
    EndInv codec mine theirs (s.onMessage codec msgId payload) := by
  obtain ⟨pendingRequests, requests, hsettle, hrequests⟩ := settle_responses
    (s := { s with received := s.received ++ [(msgId, payload)] }) h.responses msgId (.ok payload)
    fun bytes hok => Except.ok.inj hok ▸ hpayload
  obtain ⟨e, rfl, heard⟩ := hpayload
  have hdata := h.data
  rw [hidle] at hdata
  unfold RpcConnection.State.onMessage RpcConnection.State.storeResponse
  dsimp only
  rw [heard.parse hcodec]
  dsimp only
  rw [hsettle]
  dsimp only
  rw [if_pos h.handler]
  refine ⟨h.record, h.onWire, h.handler, h.sent, hrequests,
    fun e' he' => Option.some.inj he' ▸ heard, h.promise, h.shaken, h.stored, ?_, h.trace⟩
  dsimp only
  rw [List.map_append, List.map_singleton, dataOf_concat hcodec _ heard, ← hdata]
  exact (congrArg (· ++ (dataPayload e).toList) (List.append_nil _)).symm

lemma EndInv.id_eq (h : EndInv codec mine theirs s) (hstored : IdStored s.stage) :
    s.authenticatedRemoteId = theirs.peerId := by
  have hshaken := h.shaken
  rw [h.stored]
  cases hstage : s.stage with
  | identified record | registered record =>
    rw [hstage] at hshaken
    exact congrArg PeerRecord.peerId (hshaken record rfl).1
  | _ =>
    rw [hstage] at hstored
    exact hstored.elim

lemma EndInv.knownId (h : EndInv codec mine theirs s) :
    s.authenticatedRemoteId = "" ∨ s.authenticatedRemoteId = theirs.peerId := by
  have hstored := h.stored
  cases hstage : s.stage with
  | identified record | registered record => exact .inr (h.id_eq (by rw [hstage]; trivial))
  | _ =>
    rw [hstage] at hstored
    exact .inl hstored

lemma EndInv.fulfill (h : EndInv codec mine theirs s)
    (hudp : s.remoteUdpEndpoint = s.announcedUdpEndpoint theirs) :
    EndInv codec mine theirs (s.fulfillHandshakePromise theirs) := by
  unfold RpcConnection.State.fulfillHandshakePromise
  split
  · exact ⟨h.record, h.onWire, h.handler, h.sent, h.responses, h.dispatching,
      fun r hr => ⟨(Option.some.inj (Option.some.inj hr)).symm, hudp⟩, h.shaken, h.stored,
      h.data, h.trace⟩
  · exact h

/-- The handshake request of the remote is answered. -/
lemma EndInv.handleHandshake (hcodec : FaithfulCodec codec) (h : EndInv codec mine theirs s)
    {e : Envelope} (heard : HeardEnvelope codec theirs e) (htype : e.type = .handshake) :
    EndInv codec mine theirs (s.handleHandshake codec e) := by
  unfold RpcConnection.State.handleHandshake
  split_ifs
  · rw [heard.parseHandshake hcodec h.onWire.2 htype]
    dsimp only
    have hannounced : EndInv codec mine theirs
        { s with remoteUdpEndpoint := s.announcedUdpEndpoint theirs } :=
      h.startup rfl (.inr rfl) (fun r hr => ⟨(h.shaken r hr).1, rfl⟩) h.stored
        (.refl theirs s.trace)
    have hanswered : ∀ response, SpeaksFor codec mine response → EndInv codec mine theirs
        (({ s with remoteUdpEndpoint := s.announcedUdpEndpoint theirs }.sendMessage codec
          response).fulfillHandshakePromise theirs) := by
      intro response hresponse
      refine (hannounced.sendMessage hresponse).fulfill ?_
      obtain ⟨_, _, _, hframe⟩ :=
        sendMessage_frame codec response
          { s with remoteUdpEndpoint := s.announcedUdpEndpoint theirs }
      rw [hframe]
      rfl
    exact hanswered _ ⟨fun _ hother => EnvelopeType.noConfusion hother,
      fun _ => congrArg codec.serializeHandshake h.makeHandshake_eq⟩
  · exact h

/-- The envelope in dispatch is handled. -/
lemma EndInv.dispatch (hcodec : FaithfulCodec codec) (h : EndInv codec mine theirs s) :
    EndInv codec mine theirs (s.step codec (.dispatch true)) := by
  unfold RpcConnection.State.step
  dsimp only
  cases hdispatching : s.dispatching with
  | none => exact h
  | some e =>
    have heard := h.dispatching e hdispatching
    have hdata := h.data
    rw [hdispatching] at hdata
    have hdone : e.type ≠ .data → EndInv codec mine theirs { s with dispatching := none } := by
      intro htype
      refine ⟨h.record, h.onWire, h.handler, h.sent, h.responses,
        fun e' he' => (Option.some_ne_none e' he'.symm).elim, h.promise, h.shaken, h.stored,
        ?_, h.trace⟩
      have hnone : dataPayload e = none := if_neg htype
      dsimp only [Option.bind_some] at hdata
      rw [hnone] at hdata
      exact hdata
    dsimp only [RpcConnection.State.dispatchMessage]
    cases htype : e.type with
    | handshake => exact (hdone (by simp [htype])).handleHandshake hcodec heard htype
    | heartbeat =>
      dsimp only [RpcConnection.State.handleHeartbeat]
      split_ifs
      · exact (hdone (by simp [htype])).sendMessage (.of_data (.inl rfl))
      · exact hdone (by simp [htype])
    | data =>
      have hpayload : dataPayload e = some e.payload := if_pos htype
      dsimp only [Option.bind_some] at hdata
      rw [hpayload] at hdata
      dsimp only
      rw [if_pos rfl]
      refine ⟨h.record, h.onWire, h.handler, h.sent, h.responses,
        fun e' he' => (Option.some_ne_none e' he'.symm).elim, h.promise, h.shaken, h.stored, ?_,
        fun entry hentry => ?_⟩
      · dsimp only [sinkPayloads] at hdata ⊢
        rw [List.filterMap_append, ← hdata]
        exact List.append_nil _
      · rcases List.mem_append.mp hentry with hold | hnew
        · exact h.trace entry hold
        · rw [List.mem_singleton.mp hnew]
          exact h.knownId
    | other value => exact hdone (by simp [htype])

/-- Every event of an end keeps what it knows of the other. -/
lemma EndInv.awaitRemote (h : EndInv codec mine theirs s) (msgId : Bytes) :
    EndInv codec mine theirs (s.awaitRemote codec msgId) := by
  have hstored := h.stored
  unfold RpcConnection.State.awaitRemote
  cases hstage : s.stage with
  | reading initiator =>
    rw [hstage] at hstored
    cases initiator with
    | true =>
      have hasked : ∀ request, SpeaksFor codec mine request → ∀ n, EndInv codec mine theirs
          { s.sendMessage codec request with stage := .awaitingResponse n } := by
        intro request hrequest n
        obtain ⟨_, _, _, hframe⟩ := sendMessage_frame codec request s
        refine (h.sendMessage hrequest).unshaken rfl ?_
        rw [hframe]
        exact hstored
      exact hasked _ ⟨fun _ hother => EnvelopeType.noConfusion hother,
        fun _ => congrArg codec.serializeHandshake h.makeHandshake_eq⟩ _
    | false => exact h.unshaken rfl hstored
  | _ => exact h

lemma EndInv.step (hcodec : FaithfulCodec codec) (h : EndInv codec mine theirs s)
    {event : ConnectionEvent} (hevent : LinkAdmits codec mine theirs event) :
    EndInv codec mine theirs (s.step codec event) := by
  cases event with
  | sendMessage e => exact h.sendMessage hevent
  | timerExpires n =>
    refine h.requests h.sent (h.responses.modify n fun q _ bytes hbytes => .inl ?_)
    split_ifs at hbytes <;> exact hbytes
  | timerHandler n =>
    obtain ⟨pendingRequests, requests, hframe, hrequests⟩ := timerHandler_responses n h.responses
    unfold RpcConnection.State.step
    dsimp only
    rw [hframe]
    exact h.requests h.sent hrequests
  | shutdown ord =>
    obtain ⟨pendingRequests, requests, sessionStopped, hframe, hrequests⟩ :=
      shutdown_responses ord h.responses
    unfold RpcConnection.State.step
    dsimp only
    rw [hframe]
    exact h.requests h.sent hrequests
  | message msgId payload =>
    unfold RpcConnection.State.step
    dsimp only
    split_ifs with hready
    · exact h.onMessage hcodec msgId hevent hready.2
    · exact h
  | dispatch sinkAlive =>
    obtain rfl : sinkAlive = true := hevent
    exact h.dispatch hcodec
  | start initiator =>
    have hstored := h.stored
    unfold RpcConnection.State.step RpcConnection.State.start
    dsimp only
    cases hstage : s.stage with
    | created =>
      rw [hstage] at hstored
      exact ⟨h.record, h.onWire, h.handler, h.sent, h.responses, h.dispatching,
        fun r hr => (Option.some_ne_none r (Option.some.inj hr).symm).elim,
        fun r hr => (Option.some_ne_none r hr.symm).elim, hstored, h.data, h.trace⟩
    | _ => exact h
  | awaitRemote msgId => exact h.awaitRemote msgId
  | resume => exact h.resume hcodec
  | startTimeout ord =>
    have hstored := h.stored
    unfold RpcConnection.State.step RpcConnection.State.startTimeout
    dsimp only
    split
    · rename_i hstage _
      rw [hstage] at hstored
      obtain ⟨pendingRequests, requests, sessionStopped, hframe, hrequests⟩ :=
        shutdown_responses ord h.responses
      rw [hframe]
      exact (h.requests h.sent hrequests).unshaken rfl hstored
    · exact h

lemma NamesSince.refl (theirs : PeerRecord) (s : RpcConnection.State) : NamesSince theirs s s :=
  ⟨[], (List.append_nil _).symm, fun hstored =>
    ⟨hstored, fun _ hentry => absurd hentry List.not_mem_nil⟩⟩

lemma NamesSince.trans {before between after : RpcConnection.State}
    (h : NamesSince theirs before between) (h' : NamesSince theirs between after) :
    NamesSince theirs before after := by
  obtain ⟨entries, htrace, hnames⟩ := h
  obtain ⟨entries', htrace', hnames'⟩ := h'
  refine ⟨entries ++ entries', by rw [htrace', htrace, List.append_assoc], fun hstored => ?_⟩
  obtain ⟨hbetween, hfirst⟩ := hnames hstored
  obtain ⟨hafter, hsecond⟩ := hnames' hbetween
  exact ⟨hafter, fun entry hentry => (List.mem_append.mp hentry).elim (hfirst entry)
    (hsecond entry)⟩

/-- The id that has been stored stays, and the data are pushed under it. -/
lemma EndInv.step_names (h : EndInv codec mine theirs s) (event : ConnectionEvent) :
    NamesSince theirs s (s.step codec event) := by
  have hstep := startup_step codec s event
  cases hdata : dispatchesData s event with
  | true =>
    obtain ⟨hstage, -, bytes, htrace⟩ := hstep.push hdata
    refine ⟨_, htrace, fun hstored => ⟨hstage ▸ hstored, fun entry hentry => ?_⟩⟩
    rw [List.mem_singleton.mp hentry]
    exact h.id_eq hstored
  | false =>
    obtain ⟨entries, hmove, htrace⟩ := hstep.quiet hdata
    refine ⟨entries, htrace, fun hstored => ?_⟩
    have hshaken : shakenRecord s.stage ≠ none := by
      intro hnone
      cases hstage : s.stage <;> rw [hstage] at hnone hstored <;> cases hnone <;> exact hstored
    generalize (s.step codec event).stage = stage,
      (s.step codec event).authenticatedRemoteId = id at hmove ⊢
    cases hmove with
    | keep => exact ⟨hstored, fun _ hentry => absurd hentry List.not_mem_nil⟩
    | advance hbefore => exact absurd hbefore hshaken
    | shake hbefore => exact absurd hbefore hshaken
    | identify hbefore =>
      rw [hbefore] at hstored
      exact hstored.elim
    | @register record hbefore =>
      refine ⟨trivial, fun entry hentry => ?_⟩
      rw [List.mem_singleton.mp hentry]
      exact congrArg PeerRecord.peerId (h.shaken record (congrArg shakenRecord hbefore)).1

end End

/-! ## The link -/

section Ends

@[simp] lemma other_other (side : LinkEnd) : side.other.other = side := by
  cases side <;> rfl

@[simp] lemma get_set_same (link : Link) (s : RpcConnection.State) (side : LinkEnd) :
    (link.set s side).get side = s := by
  cases side <;> rfl

@[simp] lemma get_set_other (link : Link) (s : RpcConnection.State) (side : LinkEnd) :
    (link.set s side).get side.other = link.get side.other := by
  cases side <;> rfl

lemma eq_or_eq_other (side side' : LinkEnd) : side' = side ∨ side' = side.other := by
  cases side <;> cases side' <;> decide

end Ends

/-- Each end knows of the other what the other has sent, and has received it in order. -/
structure LinkInv (codec : EnvelopeCodec) (record : LinkEnd → PeerRecord) (link : Link) : Prop where
  ends : ∀ side, EndInv codec (record side) (record side.other) (link.get side)
  inOrder : ∀ (side : LinkEnd) (i : Nat) (m : Bytes × Bytes),
    (link.get side).received[i]? = some m →
    ∃ (m' : Bytes × Bytes) (beyond : Bytes),
      (link.get side.other).sent[i]? = some m' ∧ m = (Link.frameId m'.1 beyond, m'.2)

section Link

variable {codec : EnvelopeCodec} {record : LinkEnd → PeerRecord} {link : Link}

lemma step_sent_grows (codec : EnvelopeCodec) (s : RpcConnection.State) (event : ConnectionEvent) :
    s.sent <+: (s.step codec event).sent := by
  obtain ⟨messages, hsent, -⟩ := step_ids codec s event
  rw [hsent]
  exact List.prefix_append _ _

lemma arrivals_length (s : RpcConnection.State) (event : ConnectionEvent) :
    (arrivals s event).length ≤ 1 := by
  unfold arrivals
  split
  · split_ifs
    · exact le_rfl
    · exact Nat.zero_le 1
  · exact Nat.zero_le 1

/-- An end takes a step. -/
lemma LinkInv.set (hcodec : FaithfulCodec codec) (h : LinkInv codec record link) {side : LinkEnd}
    {event : ConnectionEvent} (hevent : LinkAdmits codec (record side) (record side.other) event)
    (harrivals : ∀ m ∈ arrivals (link.get side) event, ∃ (m' : Bytes × Bytes) (beyond : Bytes),
      (link.get side.other).sent[(link.get side).received.length]? = some m' ∧
        m = (Link.frameId m'.1 beyond, m'.2)) :
    LinkInv codec record (link.set ((link.get side).step codec event) side) := by
  refine ⟨fun side' => ?_, fun side' i m hm => ?_⟩
  · rcases eq_or_eq_other side side' with rfl | rfl
    · rw [get_set_same]
      exact (h.ends side').step hcodec hevent
    · rw [get_set_other]
      exact h.ends side.other
  · rcases eq_or_eq_other side side' with rfl | rfl
    · rw [get_set_same, (startup_step codec _ _).received] at hm
      rw [get_set_other]
      rcases Nat.lt_or_ge i (link.get side').received.length with hi | hi
      · rw [List.getElem?_append_left hi] at hm
        exact h.inOrder side' i m hm
      · rw [List.getElem?_append_right hi] at hm
        obtain ⟨m', beyond, hm', hframe⟩ := harrivals m (List.mem_of_getElem? hm)
        have hlen := arrivals_length (link.get side') event
        have hlt := (List.getElem?_eq_some_iff.mp hm).1
        obtain rfl : i = (link.get side').received.length := by omega
        exact ⟨m', beyond, hm', hframe⟩
    · rw [get_set_other] at hm
      rw [other_other, get_set_same]
      obtain ⟨m', beyond, hm', hframe⟩ := h.inOrder side.other i m hm
      rw [other_other] at hm'
      obtain ⟨rest, hrest⟩ := step_sent_grows codec (link.get side) event
      refine ⟨m', beyond, ?_, hframe⟩
      rw [← hrest, List.getElem?_append_left (List.getElem?_eq_some_iff.mp hm').1]
      exact hm'

/-- The program's own events. -/
lemma allows_admits {side : LinkEnd} {s : RpcConnection.State} {event : ProgramEvent}
    (hallows : Link.allows side s event = true) (mine theirs : PeerRecord) :
    LinkAdmits codec mine theirs (event.onConnection s) ∧
      arrivals s (event.onConnection s) = [] := by
  cases event with
  | message msgId payload => cases hallows
  | dispatch sinkAlive => exact ⟨hallows, rfl⟩
  | heartbeat msgId => exact ⟨.of_data (.inl rfl), rfl⟩
  | forwardPacket msgId ord forwardPkt unknown => exact ⟨.of_data (.inr rfl), rfl⟩
  | triggeredUpdate ord pktId self neighborId update => exact ⟨.of_data (.inr rfl), rfl⟩
  | fullTable ord pktId self neighborId update => exact ⟨.of_data (.inr rfl), rfl⟩
  | _ => exact ⟨trivial, rfl⟩

/-- The next message of the other end is short enough to be read. -/
lemma LinkInv.heard (h : LinkInv codec record link) {side : LinkEnd} {m : Bytes × Bytes}
    (hnext : link.nextMessage side = some m) : HeardFrom codec (record side.other) m.2 := by
  obtain ⟨hm, hshort⟩ := Option.filter_eq_some_iff.mp hnext
  obtain ⟨e, hbytes, hbuilt, hspeaks⟩ := (h.ends side.other).sent m (List.mem_of_getElem? hm)
  refine ⟨e, hbytes, hbuilt, ?_, hspeaks⟩
  unfold Fits
  rw [← hbytes]
  exact of_decide_eq_true hshort

/-- Every event of the link keeps what the ends know of each other. -/
lemma LinkInv.step (hcodec : FaithfulCodec codec) (h : LinkInv codec record link)
    (event : LinkEvent) :
    LinkInv codec record (link.step codec event) := by
  cases event with
  | act side event =>
    unfold Link.step
    dsimp only
    split_ifs with hallows
    · obtain ⟨hadmits, hnone⟩ := allows_admits hallows (record side) (record side.other)
      refine h.set hcodec hadmits fun m hm => ?_
      rw [hnone] at hm
      exact absurd hm List.not_mem_nil
    · exact h
  | deliver side beyond =>
    unfold Link.step
    dsimp only
    cases hnext : link.nextMessage side with
    | none => exact h
    | some m =>
      obtain ⟨hm, -⟩ := Option.filter_eq_some_iff.mp hnext
      refine h.set hcodec (h.heard hnext) fun m' hm' => ?_
      unfold ProgramEvent.onConnection arrivals at hm'
      dsimp only at hm'
      split_ifs at hm'
      · exact ⟨m, beyond, hm, List.mem_singleton.mp hm'⟩
      · exact absurd hm' List.not_mem_nil

lemma LinkInv.step_names (h : LinkInv codec record link) (event : LinkEvent) (side : LinkEnd) :
    NamesSince (record side.other) (link.get side) ((link.step codec event).get side) := by
  have hset : ∀ (side' : LinkEnd) (event : ConnectionEvent), NamesSince (record side.other)
      (link.get side)
      ((link.set ((link.get side').step codec event) side').get side) := by
    intro side' event
    rcases eq_or_eq_other side' side with rfl | rfl
    · rw [get_set_same]
      exact (h.ends side).step_names event
    · rw [get_set_other]
      exact .refl _ _
  unfold Link.step
  cases event with
  | act side' event =>
    dsimp only
    split_ifs
    · exact hset side' _
    · exact .refl _ _
  | deliver side' beyond =>
    dsimp only
    cases link.nextMessage side' with
    | none => exact .refl _ _
    | some m => exact hset side' _

/-- The messages that an end has received are the first ones that the other has sent. -/
lemma LinkInv.received_leads (h : LinkInv codec record link) (side : LinkEnd) :
    (link.get side).received.map Prod.snd <+: (link.get side.other).sent.map Prod.snd := by
  rw [List.prefix_iff_getElem?]
  intro i hi
  rw [List.length_map] at hi
  obtain ⟨m', beyond, hm', hframe⟩ := h.inOrder side i _ (List.getElem?_eq_getElem hi)
  rw [List.getElem?_map, hm', List.getElem_map, hframe]
  rfl

lemma create_onWire (peerId : PeerId) (localEndpoint remoteEndpoint : Endpoint) {udpPort : Int}
    (hport : IsInt32 udpPort) :
    OnWire (recordOf (.create peerId localEndpoint remoteEndpoint udpPort)).peerIp :=
  ⟨isInt32_port _, hport⟩

lemma create_end (codec : EnvelopeCodec) (peerId : PeerId) (localEndpoint remoteEndpoint : Endpoint)
    {udpPort : Int} (hport : IsInt32 udpPort) {theirs : PeerRecord}
    (htheirs : OnWire theirs.peerIp) :
    EndInv codec (recordOf (.create peerId localEndpoint remoteEndpoint udpPort)) theirs
      (.create peerId localEndpoint remoteEndpoint udpPort) where
  record := rfl
  onWire := ⟨create_onWire peerId localEndpoint remoteEndpoint hport, htheirs⟩
  handler := rfl
  sent := fun _ hm => absurd hm List.not_mem_nil
  responses := fun _ hq => absurd hq List.not_mem_nil
  dispatching := fun e he => (Option.some_ne_none e he.symm).elim
  promise := fun r hr => (Option.some_ne_none (some r) hr.symm).elim
  shaken := fun r hr => (Option.some_ne_none r hr.symm).elim
  stored := rfl
  data := rfl
  trace := fun _ hentry => absurd hentry List.not_mem_nil

/-- The records of the two ends. -/
def linkRecord (link : Link) (side : LinkEnd) : PeerRecord := recordOf (link.get side)

lemma linkInv_run (hcodec : FaithfulCodec codec) (initiatorId acceptorId : PeerId)
    (dialled accepted : Endpoint) {initiatorUdp acceptorUdp : Int}
    (hinitiator : IsInt32 initiatorUdp) (hacceptor : IsInt32 acceptorUdp)
    (events : List LinkEvent) :
    LinkInv codec (linkRecord (.create initiatorId acceptorId dialled accepted initiatorUdp
      acceptorUdp))
      (EventRun.run (Link.step codec) (.create initiatorId acceptorId dialled accepted initiatorUdp
        acceptorUdp)
        events) := by
  induction events using List.reverseRecOn with
  | nil =>
    refine ⟨fun side => ?_, fun side i m hm => ?_⟩
    · cases side with
      | initiator =>
        exact create_end codec initiatorId dialled accepted hinitiator
          (create_onWire acceptorId accepted dialled hacceptor)
      | acceptor =>
        exact create_end codec acceptorId accepted dialled hacceptor
          (create_onWire initiatorId dialled accepted hinitiator)
    · cases side <;> exact absurd (List.mem_of_getElem? hm) List.not_mem_nil
  | append_singleton events event ih =>
    rw [EventRun.run_concat]
    exact ih.step hcodec event

/-- What the end `near` has got from the end `far`. -/
structure LinkAgreement (codec : EnvelopeCodec) (near far : RpcConnection.State) : Prop where
  /-- A completed handshake has given the record of the other end. -/
  record : ∀ r, shakenRecord near.stage = some r →
    r = recordOf far ∧ near.remoteUdpEndpoint = near.announcedUdpEndpoint (recordOf far)
  /-- The sink gets the data of the other end in the order in which they were sent, and each
  once. -/
  data : sinkPayloads near.trace <+: dataOf codec (far.sent.map Prod.snd)
  /-- None is missing once all has arrived. -/
  complete : near.dispatching = none → near.received.length = far.sent.length →
    sinkPayloads near.trace = dataOf codec (far.sent.map Prod.snd)
  /-- Whatever others see is about the other end. -/
  trace : ∀ entry ∈ near.trace, EntryOf (recordOf far) entry

lemma LinkInv.agreement (h : LinkInv codec record link) (side : LinkEnd) :
    LinkAgreement codec (link.get side) (link.get side.other) := by
  have hnear := h.ends side
  have hfar := (h.ends side.other).record
  have hleads := h.received_leads side
  constructor
  · rw [hfar]
    exact hnear.shaken
  · have hdata : sinkPayloads (link.get side).trace <+: dataOf codec
        ((link.get side).received.map Prod.snd) := by
      rw [← hnear.data]
      exact List.prefix_append _ _
    exact hdata.trans (hleads.filterMap _)
  · intro hidle hlength
    have hdata := hnear.data
    have hall := hleads.eq_of_length (by rw [List.length_map, List.length_map, hlength])
    rw [hidle, hall] at hdata
    rw [← hdata]
    exact (List.append_nil _).symm
  · rw [hfar]
    exact hnear.trace

lemma linkInv_names (hcodec : FaithfulCodec codec) (h : LinkInv codec record link) (side : LinkEnd)
    (later : List LinkEvent) :
    NamesSince (record side.other) (link.get side)
      ((EventRun.run (Link.step codec) link later).get side) := by
  induction later generalizing link with
  | nil => exact .refl _ _
  | cons event later ih => exact (h.step_names event side).trans (ih (h.step hcodec event))

/-- At every moment of every run of a link, what each of its ends has got is what the other has
announced and sent; and from the moment on at which its startup thread has stored the id, it names
the other. -/
theorem link_agreement (hcodec : FaithfulCodec codec) (initiatorId acceptorId : PeerId)
    (dialled accepted : Endpoint) (initiatorUdp acceptorUdp : Int)
    (hinitiator : IsInt32 initiatorUdp) (hacceptor : IsInt32 acceptorUdp)
    (events later : List LinkEvent) (side : LinkEnd) :
    let before := EventRun.run (Link.step codec)
      (.create initiatorId acceptorId dialled accepted initiatorUdp acceptorUdp) events
    let link := EventRun.run (Link.step codec) before later
    LinkAgreement codec (link.get side) (link.get side.other) ∧
      NamesSince (recordOf (link.get side.other)) (before.get side) (link.get side) := by
  have hbefore :=
    linkInv_run hcodec initiatorId acceptorId dialled accepted hinitiator hacceptor events
  have hlink :=
    linkInv_run hcodec initiatorId acceptorId dialled accepted hinitiator hacceptor
      (events ++ later)
  rw [EventRun.run_append] at hlink
  refine ⟨hlink.agreement side, ?_⟩
  rw [(hlink.ends side.other).record]
  exact linkInv_names hcodec hbefore side later

end Link

/-- The handshake, and a packet of the acceptor that overtakes the startup thread of the
initiator. -/
def dataDuringStartup : List LinkEvent :=
  [.act .initiator (.start true), .act .acceptor (.start false),
    .act .initiator (.awaitRemote default), .deliver .acceptor [], .act .acceptor (.dispatch true),
    .act .acceptor (.awaitRemote default), .act .acceptor .resume, .act .acceptor .resume,
    .act .acceptor .resume,
    .act .acceptor (.forwardPacket default (.stored PeerId) { id := [7] } {}),
    .deliver .initiator [], .act .initiator (.dispatch true), .deliver .initiator [],
    .act .initiator (.dispatch true), .act .initiator .resume, .act .initiator .resume]

/-- Another packet, after the id has been stored. -/
def dataAfterStartup : List LinkEvent :=
  [.act .acceptor (.forwardPacket default (.stored PeerId) { id := [8] } {}),
    .deliver .initiator [], .act .initiator (.dispatch true)]

def startedLink : Link :=
  EventRun.run (Link.step protobufCodec) (.create "a" "b" ⟨"10.0.0.1", 1⟩ ⟨"10.0.0.2", 2⟩ 3 (-4))
    dataDuringStartup

theorem link_agreement_startup :
    let link := EventRun.run (Link.step protobufCodec) startedLink dataAfterStartup
    IdStored startedLink.initiator.stage ∧
      link.initiator.trace = [.pushDataBytes "" [10, 1, 7],
        .handshakeCompleted ⟨"b", "10.0.0.2", 2, -4⟩, .pushDataBytes "b" [10, 1, 8]] ∧
      LinkAgreement protobufCodec link.initiator link.acceptor ∧
      NamesSince (recordOf link.acceptor) startedLink.initiator link.initiator := by
  have hstage : startedLink.initiator.stage = .identified ⟨"b", "10.0.0.2", 2, -4⟩ := by
    decide +kernel
  refine ⟨by rw [hstage]; trivial, by decide +kernel, ?_⟩
  exact link_agreement protobufCodec_faithful "a" "b" ⟨"10.0.0.1", 1⟩ ⟨"10.0.0.2", 2⟩ 3 (-4)
    ⟨by decide, by decide⟩
    ⟨by decide, by decide⟩ dataDuringStartup dataAfterStartup .initiator

end MeshNetwork.Proofs
