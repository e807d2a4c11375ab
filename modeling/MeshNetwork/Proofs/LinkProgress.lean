import MeshNetwork.Proofs.LinkAgreement

/-!
# The handshake of a link comes to its end

As long as nobody gives up, the ends of a link wait for each other only while a message is on its
way or a thread has something to do: the request of the initiator is its first message, the acceptor
answers it with its own first message, and each of the two completes the startup of an end.
-/

namespace MeshNetwork.Proofs

/-- Nothing is given up: no request times out, the acceptor goes on waiting, and no end is shut
down. -/
def KeepsTrying : ProgramEvent → Prop
  | .startTimeout _ | .timerExpires _ | .timerHandler _ | .shutdown _ => False
  | _ => True

def PatientEvent : LinkEvent → Prop
  | .act _ event => KeepsTrying event
  | .deliver _ _ => True

/-- The startup threads wait or have ended, and every message has arrived and has been
dispatched. -/
structure Settled (codec : EnvelopeCodec) (link : Link) : Prop where
  started : ∀ side, (link.get side).stage ≠ .created ∧
    ∀ initiator, (link.get side).stage ≠ .reading initiator
  waiting : ∀ side, ((link.get side).resume codec).stage = (link.get side).stage
  dispatched : ∀ side, (link.get side).dispatching = none
  delivered : ∀ side, (link.get side).received.length = (link.get side.other).sent.length

structure IsRequest (e : Envelope) : Prop where
  type : e.type = .handshake
  expects : e.expectResponse = true
  size : e.msgId.length = 16
  built : Built e

/-! ## What a step leaves as it is -/

section Frames

variable {codec : EnvelopeCodec} {s : RpcConnection.State}

lemma sendMessage_untracked {e : Envelope} (hexpect : e.expectResponse = false) :
    s.sendMessage codec e = { s with sent := s.sent ++ [(e.msgId, codec.serializeEnvelope
      { e with sender := s.getLocalPeerIp, recipient := s.getRemotePeerIp })] } := by
  unfold RpcConnection.State.sendMessage
  dsimp only
  rw [hexpect, if_neg Bool.false_ne_true]

/-- A promise that is kept: it stays where it is, and so does its value. -/
def PromiseKept (before after : Option (Option PeerRecord)) : Prop :=
  (before ≠ none → after ≠ none) ∧ ∀ r, before = some (some r) → after = some (some r)

lemma PromiseKept.refl (promise : Option (Option PeerRecord)) : PromiseKept promise promise :=
  ⟨id, fun _ => id⟩

lemma fulfill_kept (record : PeerRecord) : ∃ promise,
    s.fulfillHandshakePromise record = { s with handshakePromise := promise } ∧
      PromiseKept s.handshakePromise promise := by
  unfold RpcConnection.State.fulfillHandshakePromise
  split
  · rename_i hpromise
    refine ⟨_, rfl, fun _ => Option.some_ne_none _, fun r hr => ?_⟩
    rw [hpromise] at hr
    exact (Option.some_ne_none r (Option.some.inj hr).symm).elim
  · exact ⟨_, rfl, .refl _⟩

/-- A handler answers at most, and what it sends is not tracked. -/
lemma dispatchMessage_untracked (codec : EnvelopeCodec) (s : RpcConnection.State) (sinkAlive : Bool)
    (e : Envelope) :
    ∃ sent remoteUdpEndpoint handshakePromise trace, s.dispatchMessage codec sinkAlive e =
      { s with sent := s.sent ++ sent, remoteUdpEndpoint, handshakePromise, trace } ∧
      PromiseKept s.handshakePromise handshakePromise := by
  have hsame : ∃ sent remoteUdpEndpoint handshakePromise trace,
      s = { s with sent := s.sent ++ sent, remoteUdpEndpoint, handshakePromise, trace } ∧
      PromiseKept s.handshakePromise handshakePromise :=
    ⟨[], s.remoteUdpEndpoint, s.handshakePromise, s.trace, by rw [List.append_nil], .refl _⟩
  unfold RpcConnection.State.dispatchMessage
  cases e.type with
  | handshake =>
    dsimp only [RpcConnection.State.handleHandshake]
    split_ifs
    · cases codec.parseHandshake e.payload with
      | none => exact hsame
      | some req =>
        dsimp only
        rw [sendMessage_untracked rfl]
        obtain ⟨promise, hfulfill, hkept⟩ := fulfill_kept req.peerRecord
        rw [hfulfill]
        exact ⟨_, _, _, _, rfl, hkept⟩
    · exact hsame
  | heartbeat =>
    dsimp only [RpcConnection.State.handleHeartbeat]
    split_ifs
    · rw [sendMessage_untracked rfl]
      exact ⟨_, _, _, _, rfl, .refl _⟩
    · exact hsame
  | data =>
    dsimp only
    split_ifs
    · exact ⟨[], s.remoteUdpEndpoint, s.handshakePromise, _, by rw [List.append_nil], .refl _⟩
    · exact hsame
  | other value => exact hsame

end Frames

/-! ## The acceptor -/

/-- The promise of the handshake has been fulfilled. -/
def Fulfilled (s : RpcConnection.State) : Prop := ∃ r, s.handshakePromise = some (some r)

/-- The first message of the acceptor is the answer to a request. -/
def RequestAnswered (codec : EnvelopeCodec) (request : Envelope) (s : RpcConnection.State) : Prop :=
  ∃ response rest, s.sent = (request.msgId, codec.serializeEnvelope response) :: rest ∧
    response.type = .handshake ∧ Built response

/-- How far the acceptor is with the request that is its first message. -/
inductive Greeted (codec : EnvelopeCodec) (request : Envelope) (s : RpcConnection.State) : Prop
  | arrived (hone : s.received.length = 1) (hdispatching : s.dispatching = some request)
      (hsent : s.sent = [])
      (hpromise : ¬Fulfilled s)
  | answered (hpromise : Fulfilled s) (hanswer : RequestAnswered codec request s)

structure AcceptorInv (codec : EnvelopeCodec) (s : RpcConnection.State) : Prop where
  role : s.stage ≠ .reading true ∧ (∀ n, s.stage ≠ .awaitingResponse n) ∧
    ∀ error, s.stage ≠ .failed error
  fresh : s.stage = .created → s.received = []
  promised : s.stage ≠ .created → s.handshakePromise ≠ none
  shaken : ∀ r, shakenRecord s.stage = some r → Fulfilled s
  idle : s.received = [] → s.sent = [] ∧ s.dispatching = none ∧ ¬Fulfilled s
  greeted : ∀ m ms request, s.received = m :: ms → m.2 = codec.serializeEnvelope request →
    IsRequest request → Greeted codec request s

section Acceptor

variable {codec : EnvelopeCodec} {mine theirs : PeerRecord} {s s' : RpcConnection.State}
  {request : Envelope}

lemma RequestAnswered.grow (h : RequestAnswered codec request s) (hgrows : s.sent <+: s'.sent) :
    RequestAnswered codec request s' := by
  obtain ⟨response, rest, hsent, hresponse⟩ := h
  obtain ⟨more, hmore⟩ := hgrows
  refine ⟨response, rest ++ more, ?_, hresponse⟩
  rw [← hmore, hsent, List.cons_append]

/-- The end has been greeted, and goes on. -/
lemma AcceptorInv.later (h : AcceptorInv codec s) (hfulfilled : Fulfilled s)
    (hfulfilled' : Fulfilled s') (hgrows : s.sent <+: s'.sent)
    (hreceived : s.received <+: s'.received) (hstage : s'.stage ≠ .created)
    (hrole : s'.stage ≠ .reading true ∧ (∀ n, s'.stage ≠ .awaitingResponse n) ∧
      ∀ error, s'.stage ≠ .failed error) :
    AcceptorInv codec s' := by
  have hne : s.received ≠ [] := fun hnil => (h.idle hnil).2.2 hfulfilled
  obtain ⟨m, ms, hms⟩ := List.exists_cons_of_ne_nil hne
  obtain ⟨more, hmore⟩ := hreceived
  refine ⟨hrole, fun hcreated => absurd hcreated hstage, fun _ => ?_, fun _ _ => hfulfilled',
    fun hnil => ?_, fun m' ms' request hms' hrequest his => ?_⟩
  · obtain ⟨r, hr⟩ := hfulfilled'
    rw [hr]
    exact Option.some_ne_none _
  · rw [← hmore, hms] at hnil
    cases hnil
  · rw [← hmore, hms, List.cons_append] at hms'
    obtain ⟨rfl, -⟩ := List.cons.inj hms'
    cases h.greeted m ms request hms hrequest his with
    | arrived _ _ _ hpromise => exact absurd hfulfilled hpromise
    | answered _ hanswer => exact .answered hfulfilled' (hanswer.grow hgrows)

/-- The startup thread goes on. -/
lemma AcceptorInv.startup (h : AcceptorInv codec s) {stage : StartupStage} {peerId : PeerId}
    {trace : List ConnectionTrace} (hstarted : s.stage ≠ .created) (hstage : stage ≠ .created)
    (hrole : stage ≠ .reading true ∧ (∀ n, stage ≠ .awaitingResponse n) ∧
      ∀ error, stage ≠ .failed error) (hshaken : ∀ r, shakenRecord stage = some r → Fulfilled s) :
    AcceptorInv codec
      { s with stage := stage, authenticatedRemoteId := peerId, trace := trace } := by
  refine ⟨hrole, fun hcreated => absurd hcreated hstage, fun _ => h.promised hstarted,
    hshaken, h.idle, fun m ms request hms hrequest his => ?_⟩
  cases h.greeted m ms request hms hrequest his with
  | arrived hone hdispatching hsent hpromise => exact .arrived hone hdispatching hsent hpromise
  | answered hpromise hanswer => exact .answered hpromise hanswer

lemma AcceptorInv.resume (h : AcceptorInv codec s) : AcceptorInv codec (s.resume codec) := by
  have hshaken := h.shaken
  unfold RpcConnection.State.resume
  cases hstage : s.stage with
  | created | reading | registered | failed => exact h
  | awaitingResponse n => exact absurd hstage (h.role.2.1 n)
  | awaitingHandshake =>
    dsimp only
    split
    · rename_i r hr
      exact h.startup (by simp [hstage]) (by simp) (by simp) fun _ _ => ⟨r, hr⟩
    · exact h
  | shaken record =>
    rw [hstage] at hshaken
    exact h.startup (by simp [hstage]) (by simp) (by simp) hshaken
  | identified record =>
    rw [hstage] at hshaken
    exact h.startup (by simp [hstage]) (by simp) (by simp) hshaken

/-- An end that has been registered has been greeted. -/
lemma AcceptorInv.send (h : AcceptorInv codec s) {r : PeerRecord} (hstage : s.stage = .registered r)
    (e : Envelope) :
    AcceptorInv codec (s.sendMessage codec e) := by
  have hfulfilled : Fulfilled s := h.shaken r (congrArg shakenRecord hstage)
  have hgrows := step_sent_grows codec s (.sendMessage e)
  obtain ⟨pendingRequests, requests, sent, hframe⟩ := sendMessage_frame codec e s
  unfold RpcConnection.State.step at hgrows
  dsimp only at hgrows
  rw [hframe] at hgrows ⊢
  exact h.later hfulfilled hfulfilled hgrows (List.prefix_refl _) (by simp [hstage]) h.role

/-- The reader hands a message on to the handler. -/
lemma onMessage_dispatching (hhandler : s.hasHandler = true) (msgId : Bytes) {payload : Bytes}
    {e : Envelope} (he : codec.parseEnvelope payload = some e) :
    (s.onMessage codec msgId payload).dispatching = some e := by
  obtain ⟨_, _, hsettle⟩ :=
    settle_frame msgId (.ok payload) { s with received := s.received ++ [(msgId, payload)] }
  unfold RpcConnection.State.onMessage RpcConnection.State.storeResponse
  dsimp only
  rw [he]
  dsimp only
  rw [hsettle]
  dsimp only
  rw [if_pos hhandler]

/-- The first message is the request, or the end has been greeted. -/
lemma AcceptorInv.message (hcodec : FaithfulCodec codec) (hend : EndInv codec mine theirs s)
    (h : AcceptorInv codec s) (msgId : Bytes) {payload : Bytes}
    (hshort : payload.length ≤ maxPayloadSize) :
    AcceptorInv codec (s.step codec (.message msgId payload)) := by
  unfold RpcConnection.State.step
  dsimp only
  split_ifs with hready
  · have hstarted : s.stage ≠ .created := by
      intro hcreated
      unfold RpcConnection.State.hasSession at hready
      rw [hcreated] at hready
      exact absurd hready.1 Bool.false_ne_true
    obtain ⟨pendingRequests, requests, dispatching, hframe⟩ := onMessage_frame codec msgId payload s
    have hdispatching : ∀ e, codec.parseEnvelope payload = some e →
        (s.onMessage codec msgId payload).dispatching = some e :=
      fun _ he => onMessage_dispatching hend.handler msgId he
    rw [hframe] at hdispatching ⊢
    refine ⟨h.role, fun hcreated => absurd hcreated hstarted, h.promised, h.shaken, fun hnil => ?_,
      fun m ms request hms hrequest his => ?_⟩
    · exact absurd hnil (by simp)
    · dsimp only at hms
      cases hreceived : s.received with
      | nil =>
        rw [hreceived] at hms
        obtain ⟨rfl, rfl⟩ := List.cons.inj hms
        obtain ⟨hsent, -, hpromise⟩ := h.idle hreceived
        dsimp only at hrequest
        refine .arrived (by simp) (hdispatching request ?_) hsent hpromise
        rw [hrequest] at hshort ⊢
        exact hcodec.envelope request his.built hshort
      | cons m' ms' =>
        rw [hreceived, List.cons_append] at hms
        obtain ⟨rfl, -⟩ := List.cons.inj hms
        cases h.greeted m' ms' request hreceived hrequest his with
        | arrived _ hdispatching' _ _ =>
          rw [hready.2] at hdispatching'
          exact (Option.some_ne_none request hdispatching'.symm).elim
        | answered hpromise hanswer => exact .answered hpromise hanswer
  · exact h

/-- The request is answered. -/
lemma dispatch_answers (hcodec : FaithfulCodec codec) (hlocal : OnWire s.getLocalPeerIp)
    (htheirs : OnWire theirs.peerIp) (heard : HeardEnvelope codec theirs request)
    (his : IsRequest request) (hsent : s.sent = []) (hpromise : ¬Fulfilled s)
    (hpromised : s.handshakePromise ≠ none) :
    Fulfilled (s.dispatchMessage codec true request) ∧
      RequestAnswered codec request (s.dispatchMessage codec true request) := by
  have hnone : s.handshakePromise = some none := by
    cases hvalue : s.handshakePromise with
    | none => exact absurd hvalue hpromised
    | some value =>
      cases value with
      | none => rfl
      | some r => exact absurd ⟨r, hvalue⟩ hpromise
  unfold RpcConnection.State.dispatchMessage
  rw [his.type]
  dsimp only [RpcConnection.State.handleHandshake]
  rw [if_pos his.expects, heard.parseHandshake hcodec htheirs his.type]
  dsimp only
  rw [sendMessage_untracked rfl]
  unfold RpcConnection.State.fulfillHandshakePromise
  dsimp only
  rw [hnone, hsent]
  exact ⟨⟨theirs, rfl⟩, _, [], rfl, rfl, hlocal, remoteOnWire _,
    fun _ hother => EnvelopeType.noConfusion hother⟩

lemma AcceptorInv.dispatch (hcodec : FaithfulCodec codec) (hend : EndInv codec mine theirs s)
    (h : AcceptorInv codec s) : AcceptorInv codec (s.step codec (.dispatch true)) := by
  unfold RpcConnection.State.step
  dsimp only
  cases hdispatching : s.dispatching with
  | none => exact h
  | some e =>
    have hne : s.received ≠ [] := by
      intro hnil
      rw [(h.idle hnil).2.1] at hdispatching
      exact Option.some_ne_none e hdispatching.symm
    have hstarted : s.stage ≠ .created := fun hcreated => hne (h.fresh hcreated)
    have hrequest := dispatch_answers (s := { s with dispatching := none }) hcodec hend.localOnWire
      hend.onWire.2
      (hend.dispatching e hdispatching)
    dsimp only
    obtain ⟨sent, remoteUdpEndpoint, handshakePromise, trace, hframe, hkept⟩ :=
      dispatchMessage_untracked codec { s with dispatching := none } true e
    rw [hframe] at hrequest ⊢
    have hfulfilled : Fulfilled s → ∃ r, handshakePromise = some (some r) :=
      fun ⟨r, hr⟩ => ⟨r, hkept.2 r hr⟩
    refine ⟨h.role, h.fresh, fun _ => hkept.1 (h.promised hstarted),
      fun r hr => hfulfilled (h.shaken r hr),
      fun hnil => absurd hnil hne, fun m ms request hms hpayload his => ?_⟩
    cases h.greeted m ms request hms hpayload his with
    | arrived hone hdispatching' hsent hpromise =>
      rw [hdispatching] at hdispatching'
      obtain rfl := Option.some.inj hdispatching'
      obtain ⟨hfulfilled', hanswer⟩ := hrequest his hsent hpromise (h.promised hstarted)
      exact .answered hfulfilled' hanswer
    | answered hpromise hanswer =>
      exact .answered (hfulfilled hpromise) (hanswer.grow (List.prefix_append _ _))

/-- The events that send are those of a registered connection. -/
lemma registered_of_allows (side : LinkEnd) (msgId : Uuid)
    (h : Link.allows side s (.heartbeat msgId) = true) :
    ∃ r, s.stage = .registered r := by
  unfold Link.allows at h
  dsimp only at h
  split at h
  · exact ⟨_, by assumption⟩
  · cases h

lemma AcceptorInv.act (hcodec : FaithfulCodec codec) (hend : EndInv codec mine theirs s)
    (h : AcceptorInv codec s) {event : ProgramEvent} (hpatient : KeepsTrying event)
    (hallows : Link.allows .acceptor s event = true) :
    AcceptorInv codec (s.programStep codec event) := by
  unfold RpcConnection.State.programStep
  cases event with
  | heartbeat msgId | forwardPacket _ _ _ _ | triggeredUpdate _ _ _ _ _ | fullTable _ _ _ _ _ =>
    obtain ⟨r, hstage⟩ := registered_of_allows .acceptor default hallows
    exact h.send hstage _
  | awaitRemote msgId =>
    unfold ProgramEvent.onConnection RpcConnection.State.step RpcConnection.State.awaitRemote
    dsimp only
    cases hstage : s.stage with
    | reading initiator =>
      cases initiator with
      | true => exact absurd hstage h.role.1
      | false =>
        exact h.startup (by simp [hstage]) (by simp) (by simp) fun r hr =>
          (Option.some_ne_none r hr.symm).elim
    | _ => exact h
  | dispatch sinkAlive =>
    obtain rfl : sinkAlive = true := hallows
    exact h.dispatch hcodec hend
  | message msgId payload => cases hallows
  | start initiator =>
    obtain rfl : initiator = false := by
      cases initiator with
      | true => cases hallows
      | false => rfl
    unfold ProgramEvent.onConnection RpcConnection.State.step RpcConnection.State.start
    dsimp only
    cases hstage : s.stage with
    | created =>
      have hreceived := h.fresh hstage
      obtain ⟨hsent, hdispatching, -⟩ := h.idle hreceived
      have hnone : ∀ r, (some none : Option (Option PeerRecord)) ≠ some (some r) := by simp
      refine ⟨by simp, by simp, by simp, fun r hr => (Option.some_ne_none r hr.symm).elim,
        fun _ => ⟨hsent, hdispatching, fun ⟨r, hr⟩ => hnone r hr⟩, fun m ms request hms _ _ => ?_⟩
      rw [hreceived] at hms
      cases hms
    | _ => exact h
  | resume => exact h.resume
  | startTimeout ord => exact hpatient.elim
  | timerExpires n => exact hpatient.elim
  | timerHandler n => exact hpatient.elim
  | shutdown ord => exact hpatient.elim

end Acceptor

/-! ## The initiator -/

/-- The first message of the initiator is its request. -/
def Asked (codec : EnvelopeCodec) (s : RpcConnection.State) : Prop :=
  ∃ request rest, s.sent = (request.msgId, codec.serializeEnvelope request) :: rest ∧
    IsRequest request

/-- The first message that comes decides the request. -/
structure AwaitsAnswer (s : RpcConnection.State) (q : PendingRequest) : Prop where
  only : s.requests = [q]
  first : ∃ message rest, s.sent = (q.reqId, message) :: rest
  before : s.received = [] → q.promise = [] ∧ s.pendingRequests.lookup q.reqId = some 0
  after : ∀ m ms, s.received = m :: ms → m.1 = q.reqId → q.promise.head? = some (.ok m.2)

/-- The stages in which the initiator has sent nothing. -/
def SilentStage (stage : StartupStage) : Prop := stage = .created ∨ stage = .reading true

structure InitiatorInv (codec : EnvelopeCodec) (s : RpcConnection.State) : Prop where
  role : s.stage ≠ .reading false ∧ s.stage ≠ .awaitingHandshake ∧ ∀ error, s.stage ≠ .failed error
  silent : SilentStage s.stage → s.sent = [] ∧ s.received = [] ∧ s.dispatching = none ∧
    s.requests = [] ∧ ∀ id, s.pendingRequests.lookup id = none
  asked : ¬SilentStage s.stage → Asked codec s
  waiting : ∀ n, s.stage = .awaitingResponse n → n = 0 ∧ ∃ q, AwaitsAnswer s q

section Initiator

variable {codec : EnvelopeCodec} {mine theirs : PeerRecord} {s s' : RpcConnection.State}

lemma Asked.grow (h : Asked codec s) (hgrows : s.sent <+: s'.sent) : Asked codec s' := by
  obtain ⟨request, rest, hsent, his⟩ := h
  obtain ⟨more, hmore⟩ := hgrows
  refine ⟨request, rest ++ more, ?_, his⟩
  rw [← hmore, hsent, List.cons_append]

lemma not_silentStage {stage : StartupStage} (hcreated : stage ≠ .created)
    (hreading : ∀ b, stage ≠ .reading b) :
    ¬SilentStage stage := by
  rintro (hstage | hstage)
  · exact hcreated hstage
  · exact hreading true hstage

/-- The answer has been taken, and the end goes on. -/
lemma InitiatorInv.later (h : InitiatorInv codec s) (hsilent : ¬SilentStage s.stage)
    {r : PeerRecord} (hshaken : shakenRecord s'.stage = some r) (hgrows : s.sent <+: s'.sent) :
    InitiatorInv codec s' := by
  have hstages : (s'.stage ≠ .created ∧ ∀ b, s'.stage ≠ .reading b) ∧
      s'.stage ≠ .awaitingHandshake ∧
      (∀ error, s'.stage ≠ .failed error) ∧ ∀ n, s'.stage ≠ .awaitingResponse n := by
    cases hstage : s'.stage <;> simp_all [shakenRecord]
  obtain ⟨⟨hcreated, hreading⟩, hawaiting, hfailed, hresponse⟩ := hstages
  have hsilent' := not_silentStage hcreated hreading
  exact ⟨⟨hreading false, hawaiting, hfailed⟩, fun hsilent'' => absurd hsilent'' hsilent',
    fun _ => (h.asked hsilent).grow hgrows, fun n hn => absurd hn (hresponse n)⟩

lemma InitiatorInv.send (h : InitiatorInv codec s) {r : PeerRecord}
    (hstage : s.stage = .registered r) (e : Envelope) :
    InitiatorInv codec (s.sendMessage codec e) := by
  have hgrows := step_sent_grows codec s (.sendMessage e)
  obtain ⟨pendingRequests, requests, sent, hframe⟩ := sendMessage_frame codec e s
  unfold RpcConnection.State.step at hgrows
  dsimp only at hgrows
  rw [hframe] at hgrows ⊢
  exact h.later (not_silentStage (by simp [hstage]) (by simp [hstage]))
    (congrArg shakenRecord hstage) hgrows

/-- The request is sent. -/
lemma InitiatorInv.awaitRemote (h : InitiatorInv codec s) (hlocal : OnWire s.getLocalPeerIp)
    (msgId : Uuid) :
    InitiatorInv codec (s.awaitRemote codec msgId.bytes) := by
  unfold RpcConnection.State.awaitRemote
  cases hstage : s.stage with
  | reading initiator =>
    cases initiator with
    | true =>
      obtain ⟨hsent, hreceived, hdispatching, hrequests, hpending⟩ := h.silent (.inr hstage)
      dsimp only [RpcConnection.State.sendMessage, RpcConnection.State.track,
        RpcConnection.State.settle]
      rw [if_pos rfl, hpending]
      dsimp only
      rw [hsent, hrequests]
      refine ⟨by simp, fun hsilent => ?_, fun _ => ?_, fun n hn => ?_⟩
      · exact absurd hsilent (not_silentStage (by simp) (by simp))
      · exact ⟨makeHandshakeRequest codec msgId s.getLocalPeerIp s.getRemotePeerIp s.peerId, [],
          rfl, rfl, rfl, msgId.size, hlocal, remoteOnWire s,
          fun _ hother => EnvelopeType.noConfusion hother⟩
      · refine ⟨(StartupStage.awaitingResponse.inj hn).symm, _, rfl, ⟨_, [], rfl⟩,
          fun _ => ⟨rfl, ?_⟩, ?_⟩
        · exact AList.lookup_insert _
        · intro m ms hms
          rw [hreceived] at hms
          cases hms
    | false => exact absurd hstage h.role.1
  | _ => exact h

lemma InitiatorInv.dispatch (h : InitiatorInv codec s) (sinkAlive : Bool) :
    InitiatorInv codec (s.step codec (.dispatch sinkAlive)) := by
  unfold RpcConnection.State.step
  dsimp only
  cases hdispatching : s.dispatching with
  | none => exact h
  | some e =>
    have hsilent : ¬SilentStage s.stage := by
      intro hsilent
      rw [(h.silent hsilent).2.2.1] at hdispatching
      exact Option.some_ne_none e hdispatching.symm
    obtain ⟨sent, remoteUdpEndpoint, handshakePromise, trace, hframe, -⟩ :=
      dispatchMessage_untracked codec { s with dispatching := none } sinkAlive e
    dsimp only
    rw [hframe]
    refine ⟨h.role, fun hsilent' => absurd hsilent' hsilent,
      fun _ => (h.asked hsilent).grow (List.prefix_append _ _), fun n hn => ?_⟩
    obtain ⟨hn, q, hq⟩ := h.waiting n hn
    obtain ⟨message, rest, hfirst⟩ := hq.first
    refine ⟨hn, q, hq.only, ⟨message, rest ++ sent, ?_⟩, hq.before, hq.after⟩
    dsimp only
    rw [hfirst, List.cons_append]

/-- A message settles the request that has its id. -/
lemma settle_only {q : PendingRequest} (honly : s.requests = [q]) (msgId : Bytes)
    (result : Except String Bytes) :
    ∃ pendingRequests q', s.settle msgId result =
      { s with pendingRequests := pendingRequests, requests := [q'] } ∧
      q'.reqId = q.reqId ∧ (q'.promise = q.promise ∨ q'.promise = q.promise ++ [result]) ∧
      (s.pendingRequests.lookup msgId = some 0 → q'.promise = q.promise ++ [result]) := by
  unfold RpcConnection.State.settle
  cases hlookup : s.pendingRequests.lookup msgId with
  | none =>
    exact ⟨_, q, by rw [← honly], rfl, .inl rfl,
      fun hsome => (Option.some_ne_none 0 hsome.symm).elim⟩
  | some k =>
    dsimp only
    rw [honly]
    cases k with
    | zero => exact ⟨_, q.settle result, rfl, rfl, .inr rfl, fun _ => rfl⟩
    | succ k =>
      refine ⟨_, q, by rw [List.modify_succ_cons, List.modify_nil], rfl, .inl rfl, fun hzero => ?_⟩
      exact absurd (Option.some.inj hzero) (Nat.succ_ne_zero k)

/-- A message is stored; only the first one can decide the request. -/
lemma AwaitsAnswer.message {q : PendingRequest} (h : AwaitsAnswer s q) (msgId payload : Bytes) :
    ∃ pendingRequests q',
      { s with received := s.received ++ [(msgId, payload)] }.settle msgId (.ok payload) =
        { s with
          received := s.received ++ [(msgId, payload)]
          pendingRequests := pendingRequests, requests := [q'] } ∧
      ∀ dispatching, AwaitsAnswer
        { s with
          received := s.received ++ [(msgId, payload)], pendingRequests := pendingRequests,
          requests := [q']
          dispatching := dispatching } q' := by
  obtain ⟨pendingRequests, q', hsettle, hid, hpromise, hset⟩ :=
    settle_only (s := { s with received := s.received ++ [(msgId, payload)] }) h.only msgId
      (.ok payload)
  obtain ⟨message, rest, hfirst⟩ := h.first
  refine ⟨pendingRequests, q', hsettle, fun dispatching => ?_⟩
  refine ⟨rfl, ⟨message, rest, by rw [hid]; exact hfirst⟩, fun hnil => absurd hnil (by simp),
    fun m ms hms hm => ?_⟩
  dsimp only at hms
  rw [hid] at hm
  cases hreceived : s.received with
  | nil =>
    rw [hreceived] at hms
    obtain ⟨rfl, rfl⟩ := List.cons.inj hms
    obtain ⟨hempty, hpending⟩ := h.before hreceived
    have hsame : msgId = q.reqId := hm
    rw [← hsame] at hpending
    rw [hset hpending, hempty]
    rfl
  | cons m' ms' =>
    rw [hreceived, List.cons_append] at hms
    obtain ⟨rfl, -⟩ := List.cons.inj hms
    have hhead := h.after m' ms' hreceived hm
    rcases hpromise with hsame | hmore
    · rw [hsame]
      exact hhead
    · rw [hmore, List.head?_append, hhead]
      rfl

lemma InitiatorInv.message (hcodec : FaithfulCodec codec) (h : InitiatorInv codec s)
    {msgId payload : Bytes} (hpayload : HeardFrom codec theirs payload)
    (hsilent : ¬SilentStage s.stage) :
    InitiatorInv codec (s.step codec (.message msgId payload)) := by
  unfold RpcConnection.State.step
  dsimp only
  split_ifs with hready
  · have hstage : (s.onMessage codec msgId payload).stage = s.stage ∧
        (s.onMessage codec msgId payload).sent = s.sent := by
      obtain ⟨_, _, _, hframe⟩ := onMessage_frame codec msgId payload s
      rw [hframe]
      exact ⟨rfl, rfl⟩
    have hasked : Asked codec (s.onMessage codec msgId payload) := by
      refine (h.asked hsilent).grow ?_
      rw [hstage.2]
    refine ⟨by rw [hstage.1]; exact h.role, fun hsilent' => ?_, fun _ => hasked, fun n hn => ?_⟩
    · rw [hstage.1] at hsilent'
      exact absurd hsilent' hsilent
    · rw [hstage.1] at hn
      obtain ⟨hn, q, hq⟩ := h.waiting n hn
      obtain ⟨e, rfl, heard⟩ := hpayload
      obtain ⟨pendingRequests, q', hsettle, hawaits⟩ := hq.message msgId (codec.serializeEnvelope e)
      refine ⟨hn, q', ?_⟩
      unfold RpcConnection.State.onMessage RpcConnection.State.storeResponse
      dsimp only
      rw [heard.parse hcodec]
      dsimp only
      rw [hsettle]
      split_ifs
      · exact hawaits _
      · exact hawaits s.dispatching
  · exact h

/-- The thread goes on, if an answer that it waits for is a handshake. -/
lemma InitiatorInv.resume (h : InitiatorInv codec s)
    (hanswer : ∀ q response, AwaitsAnswer s q → q.promise.head? = some response →
      ∃ r, RpcConnection.State.readHandshakeResponse codec response = .ok r) :
    InitiatorInv codec (s.resume codec) := by
  unfold RpcConnection.State.resume
  cases hstage : s.stage with
  | created | reading | registered | failed => exact h
  | awaitingResponse n =>
    have hsilent : ¬SilentStage s.stage := not_silentStage (by simp [hstage]) (by simp [hstage])
    obtain ⟨rfl, q, hq⟩ := h.waiting n hstage
    dsimp only
    cases hresponse : (s.requests[0]?).bind fun r => r.promise.head? with
    | none => exact h
    | some response =>
      rw [hq.only] at hresponse
      obtain ⟨r, hread⟩ := hanswer q response hq hresponse
      dsimp only [RpcConnection.State.takeResponse]
      rw [hread]
      exact h.later hsilent rfl (List.prefix_refl _)
  | awaitingHandshake => exact absurd hstage h.role.2.1
  | shaken record =>
    exact h.later (not_silentStage (by simp [hstage]) (by simp [hstage])) rfl (List.prefix_refl _)
  | identified record =>
    exact h.later (not_silentStage (by simp [hstage]) (by simp [hstage])) rfl (List.prefix_refl _)

lemma InitiatorInv.act (h : InitiatorInv codec s) (hlocal : OnWire s.getLocalPeerIp)
    (hanswer : ∀ q response, AwaitsAnswer s q → q.promise.head? = some response →
      ∃ r, RpcConnection.State.readHandshakeResponse codec response = .ok r)
    {event : ProgramEvent} (hpatient : KeepsTrying event)
    (hallows : Link.allows .initiator s event = true) :
    InitiatorInv codec (s.programStep codec event) := by
  unfold RpcConnection.State.programStep
  cases event with
  | heartbeat msgId | forwardPacket _ _ _ _ | triggeredUpdate _ _ _ _ _ | fullTable _ _ _ _ _ =>
    obtain ⟨r, hstage⟩ := registered_of_allows .initiator default hallows
    exact h.send hstage _
  | awaitRemote msgId => exact h.awaitRemote hlocal msgId
  | dispatch sinkAlive => exact h.dispatch sinkAlive
  | message msgId payload => cases hallows
  | start initiator =>
    obtain rfl : initiator = true := by
      cases initiator with
      | true => rfl
      | false => cases hallows
    unfold ProgramEvent.onConnection RpcConnection.State.step RpcConnection.State.start
    dsimp only
    cases hstage : s.stage with
    | created =>
      have hreading : SilentStage (.reading true) := .inr rfl
      exact ⟨by simp, fun _ => h.silent (.inl hstage),
        fun hsilent => absurd hreading hsilent, by simp⟩
    | _ => exact h
  | resume => exact h.resume hanswer
  | startTimeout ord => exact hpatient.elim
  | timerExpires n => exact hpatient.elim
  | timerHandler n => exact hpatient.elim
  | shutdown ord => exact hpatient.elim

end Initiator

/-! ## The link -/

/-- How far the two ends are with the handshake. -/
structure Greeting (codec : EnvelopeCodec) (record : LinkEnd → PeerRecord)
    (link : Link) : Prop where
  inv : LinkInv codec record link
  initiator : InitiatorInv codec (link.get .initiator)
  acceptor : AcceptorInv codec (link.get .acceptor)

section Progress

variable {codec : EnvelopeCodec} {record : LinkEnd → PeerRecord} {link : Link}

lemma frameId_eq {msgId : Bytes} (hlength : msgId.length = 16) (beyond : Bytes) :
    Link.frameId msgId beyond = msgId := by
  unfold Link.frameId
  rw [← hlength, List.take_left]

/-- The first message that reaches the acceptor is the request. -/
lemma Greeting.request_first (h : Greeting codec record link) {m : Bytes × Bytes}
    {ms : List (Bytes × Bytes)} (hreceived : (link.get .acceptor).received = m :: ms) :
    ∃ request rest, (link.get .initiator).sent =
      (request.msgId, codec.serializeEnvelope request) :: rest ∧
      IsRequest request ∧ m.2 = codec.serializeEnvelope request ∧
      Greeted codec request (link.get .acceptor) := by
  obtain ⟨m', beyond, hm', rfl⟩ := h.inv.inOrder .acceptor 0 m (by rw [hreceived]; rfl)
  have hasked : ¬SilentStage (link.get .initiator).stage := by
    intro hsilent
    have hsent : (link.get LinkEnd.acceptor.other).sent = [] := (h.initiator.silent hsilent).1
    rw [hsent] at hm'
    exact Option.some_ne_none m' hm'.symm
  obtain ⟨request, rest, hsent, his⟩ := h.initiator.asked hasked
  have hfirst : (link.get LinkEnd.acceptor.other).sent[0]? =
      some (request.msgId, codec.serializeEnvelope request) := by
    change (link.get .initiator).sent[0]? = _
    rw [hsent]
    rfl
  rw [hfirst] at hm'
  obtain rfl := Option.some.inj hm'
  exact ⟨request, rest, hsent, his, rfl, h.acceptor.greeted _ ms request hreceived rfl his⟩

/-- The acceptor sends nothing before it has answered. -/
lemma Greeting.answer_sent (h : Greeting codec record link)
    (hsent : (link.get .acceptor).sent ≠ []) :
    ∃ request rest, (link.get .initiator).sent =
      (request.msgId, codec.serializeEnvelope request) :: rest ∧
      IsRequest request ∧ Fulfilled (link.get .acceptor) ∧
        RequestAnswered codec request (link.get .acceptor) := by
  have hne : (link.get .acceptor).received ≠ [] := fun hnil => hsent (h.acceptor.idle hnil).1
  obtain ⟨m, ms, hreceived⟩ := List.exists_cons_of_ne_nil hne
  obtain ⟨request, rest, hfirst, his, -, hgreeted⟩ := h.request_first hreceived
  cases hgreeted with
  | arrived _ _ hempty _ => exact absurd hempty hsent
  | answered hpromise hanswer => exact ⟨request, rest, hfirst, his, hpromise, hanswer⟩

/-- The first message that reaches the initiator is the answer to its request. -/
lemma Greeting.answer_first (h : Greeting codec record link) {m : Bytes × Bytes}
    {ms : List (Bytes × Bytes)} (hreceived : (link.get .initiator).received = m :: ms) :
    ∃ request rest response, (link.get .initiator).sent =
      (request.msgId, codec.serializeEnvelope request) :: rest ∧
      m = (request.msgId, codec.serializeEnvelope response) ∧ response.type = .handshake ∧
        Built response := by
  obtain ⟨m', beyond, hm', rfl⟩ := h.inv.inOrder .initiator 0 m (by rw [hreceived]; rfl)
  have hne : (link.get .acceptor).sent ≠ [] := List.ne_nil_of_mem (List.mem_of_getElem? hm')
  obtain ⟨request, rest, hsent, his, -, response, rest', hanswer, hresponse⟩ := h.answer_sent hne
  have hfirst : (link.get LinkEnd.initiator.other).sent[0]? =
      some (request.msgId, codec.serializeEnvelope response) := by
    change (link.get .acceptor).sent[0]? = _
    rw [hanswer]
    rfl
  rw [hfirst] at hm'
  obtain rfl := Option.some.inj hm'
  dsimp only
  rw [frameId_eq his.size]
  exact ⟨request, rest, response, hsent, rfl, hresponse⟩

/-- The answer that the initiator waits for is a handshake. -/
lemma Greeting.readable (hcodec : FaithfulCodec codec) (h : Greeting codec record link)
    (q : PendingRequest) (response : Except String Bytes)
    (hq : AwaitsAnswer (link.get .initiator) q) (hresponse : q.promise.head? = some response) :
    ∃ r, RpcConnection.State.readHandshakeResponse codec response = .ok r := by
  cases hreceived : (link.get .initiator).received with
  | nil =>
    rw [(hq.before hreceived).1] at hresponse
    exact (Option.some_ne_none response hresponse.symm).elim
  | cons m ms =>
    obtain ⟨request, rest, answer, hsent, rfl, htype, hbuilt⟩ := h.answer_first hreceived
    obtain ⟨message, rest', hfirst⟩ := hq.first
    rw [hsent] at hfirst
    have hid : request.msgId = q.reqId := congrArg Prod.fst (List.cons.inj hfirst).1
    rw [hq.after _ ms hreceived hid] at hresponse
    obtain rfl := Option.some.inj hresponse
    have hmem : q ∈ (link.get .initiator).requests := by
      rw [hq.only]
      exact List.mem_singleton_self q
    obtain ⟨e, he, heard⟩ := (h.inv.ends .initiator).responses q hmem _
      (List.mem_of_mem_head? (hq.after _ ms hreceived hid))
    dsimp only at he
    -- the same bytes are read as the same envelope
    have hfits : Fits codec answer := by
      unfold Fits
      rw [he]
      exact heard.fits
    have hparse := hcodec.envelope answer hbuilt hfits
    rw [he, heard.parse hcodec] at hparse
    obtain rfl := Option.some.inj hparse
    refine ⟨record .acceptor, ?_⟩
    unfold RpcConnection.State.readHandshakeResponse
    dsimp only
    rw [heard.parse hcodec]
    dsimp only
    rw [if_neg (not_not.mpr htype), heard.parseHandshake hcodec
      (h.inv.ends .initiator).onWire.2 htype]
    rfl

/-- As long as the acceptor has not answered, no message is on its way to the initiator. -/
lemma Greeting.not_silent (h : Greeting codec record link)
    (hsent : (link.get .acceptor).sent ≠ []) :
    ¬SilentStage (link.get .initiator).stage := by
  intro hsilent
  obtain ⟨request, rest, hfirst, -⟩ := h.answer_sent hsent
  rw [(h.initiator.silent hsilent).1] at hfirst
  cases hfirst

lemma Greeting.step (hcodec : FaithfulCodec codec) (h : Greeting codec record link)
    {event : LinkEvent} (hpatient : PatientEvent event) :
    Greeting codec record (link.step codec event) := by
  have hinv := h.inv.step hcodec event
  cases event with
  | act side event =>
    unfold Link.step at hinv ⊢
    dsimp only at hinv ⊢
    split_ifs at hinv ⊢ with hallows
    · cases side with
      | initiator =>
        exact ⟨hinv, h.initiator.act (h.inv.ends .initiator).localOnWire (h.readable hcodec)
          hpatient hallows, h.acceptor⟩
      | acceptor =>
        exact ⟨hinv, h.initiator, h.acceptor.act hcodec (h.inv.ends .acceptor) hpatient hallows⟩
    · exact h
  | deliver side beyond =>
    unfold Link.step at hinv ⊢
    dsimp only at hinv ⊢
    cases hnext : link.nextMessage side with
    | none => exact h
    | some m =>
      rw [hnext] at hinv
      obtain ⟨hm, hshort⟩ := Option.filter_eq_some_iff.mp hnext
      cases side with
      | initiator =>
        have hsilent := h.not_silent (List.ne_nil_of_mem (List.mem_of_getElem? hm))
        exact ⟨hinv, h.initiator.message hcodec (h.inv.heard hnext) hsilent, h.acceptor⟩
      | acceptor =>
        exact ⟨hinv, h.initiator,
          h.acceptor.message hcodec (h.inv.ends .acceptor) _ (of_decide_eq_true hshort)⟩

/-- Once there is nothing left to do, the request has been answered. -/
lemma Greeting.answered (h : Greeting codec record link) (hsettled : Settled codec link) :
    Fulfilled (link.get .acceptor) ∧ (link.get .acceptor).sent ≠ [] := by
  obtain ⟨hcreated, hreading⟩ := hsettled.started .initiator
  obtain ⟨request, rest, hsent, -⟩ := h.initiator.asked (not_silentStage hcreated hreading)
  have hlength : (link.get .acceptor).received.length = (link.get .initiator).sent.length :=
    hsettled.delivered .acceptor
  rw [hsent] at hlength
  obtain ⟨m, ms, hreceived⟩ := List.exists_cons_of_length_eq_add_one hlength
  obtain ⟨request', _, _, _, _, hgreeted⟩ := h.request_first hreceived
  cases hgreeted with
  | arrived _ hdispatching _ _ =>
    rw [hsettled.dispatched .acceptor] at hdispatching
    exact (Option.some_ne_none request' hdispatching.symm).elim
  | answered hpromise hanswer =>
    obtain ⟨response, rest', hanswer, -⟩ := hanswer
    refine ⟨hpromise, ?_⟩
    rw [hanswer]
    exact List.cons_ne_nil _ _

/-- The startup thread of the acceptor has nothing to wait for. -/
lemma Greeting.acceptor_registered (h : Greeting codec record link)
    (hsettled : Settled codec link) :
    ∃ r, (link.get .acceptor).stage = .registered r := by
  obtain ⟨⟨r, hpromise⟩, -⟩ := h.answered hsettled
  obtain ⟨hcreated, hreading⟩ := hsettled.started .acceptor
  have hwaiting := hsettled.waiting .acceptor
  unfold RpcConnection.State.resume at hwaiting
  cases hstage : (link.get .acceptor).stage with
  | created => exact absurd hstage hcreated
  | reading initiator => exact absurd hstage (hreading initiator)
  | awaitingResponse n => exact absurd hstage (h.acceptor.role.2.1 n)
  | awaitingHandshake =>
    rw [hstage, hpromise] at hwaiting
    cases hwaiting
  | shaken record =>
    rw [hstage] at hwaiting
    cases hwaiting
  | identified record =>
    rw [hstage] at hwaiting
    cases hwaiting
  | registered record => exact ⟨record, rfl⟩
  | failed error => exact absurd hstage (h.acceptor.role.2.2 error)

/-- Nor has that of the initiator. -/
lemma Greeting.initiator_registered (hcodec : FaithfulCodec codec) (h : Greeting codec record link)
    (hsettled : Settled codec link) : ∃ r, (link.get .initiator).stage = .registered r := by
  obtain ⟨-, hsent⟩ := h.answered hsettled
  have hlength : (link.get .initiator).received.length = (link.get .acceptor).sent.length :=
    hsettled.delivered .initiator
  have hreceived : (link.get .initiator).received ≠ [] := by
    rw [← List.length_pos_iff, hlength, List.length_pos_iff]
    exact hsent
  obtain ⟨m, ms, hreceived⟩ := List.exists_cons_of_ne_nil hreceived
  obtain ⟨hcreated, hreading⟩ := hsettled.started .initiator
  have hwaiting := hsettled.waiting .initiator
  unfold RpcConnection.State.resume at hwaiting
  cases hstage : (link.get .initiator).stage with
  | created => exact absurd hstage hcreated
  | reading initiator => exact absurd hstage (hreading initiator)
  | awaitingResponse n =>
    obtain ⟨rfl, q, hq⟩ := h.initiator.waiting n hstage
    obtain ⟨request, rest, response, hfirst, rfl, -⟩ := h.answer_first hreceived
    obtain ⟨message, rest', hfirst'⟩ := hq.first
    rw [hfirst] at hfirst'
    have hid : request.msgId = q.reqId := congrArg Prod.fst (List.cons.inj hfirst').1
    have hhead := hq.after _ ms hreceived hid
    obtain ⟨r, hread⟩ := h.readable hcodec q _ hq hhead
    have hresponse : ((link.get .initiator).requests[0]?).bind (fun r => r.promise.head?) =
        q.promise.head? := by
      rw [hq.only]
      rfl
    rw [hstage] at hwaiting
    dsimp only at hwaiting
    rw [hresponse, hhead] at hwaiting
    dsimp only [RpcConnection.State.takeResponse] at hwaiting
    rw [hread] at hwaiting
    cases hwaiting
  | awaitingHandshake => exact absurd hstage h.initiator.role.2.1
  | shaken record =>
    rw [hstage] at hwaiting
    cases hwaiting
  | identified record =>
    rw [hstage] at hwaiting
    cases hwaiting
  | registered record => exact ⟨record, rfl⟩
  | failed error => exact absurd hstage (h.initiator.role.2.2 error)

lemma create_greeting (hcodec : FaithfulCodec codec) (initiatorId acceptorId : PeerId)
    (dialled accepted : Endpoint) {initiatorUdp acceptorUdp : Int}
    (hinitiator : IsInt32 initiatorUdp) (hacceptor : IsInt32 acceptorUdp) :
    Greeting codec (linkRecord (.create initiatorId acceptorId dialled accepted initiatorUdp
      acceptorUdp))
      (.create initiatorId acceptorId dialled accepted initiatorUdp acceptorUdp) where
  inv := linkInv_run hcodec initiatorId acceptorId dialled accepted hinitiator hacceptor []
  initiator := {
    role := ⟨fun h => StartupStage.noConfusion h, fun h => StartupStage.noConfusion h,
      fun _ h => StartupStage.noConfusion h⟩
    silent := fun _ => ⟨rfl, rfl, rfl, rfl, fun id => AList.lookup_empty id⟩
    asked := fun hsilent => absurd (.inl rfl) hsilent
    waiting := fun _ h => StartupStage.noConfusion h }
  acceptor := {
    role := ⟨fun h => StartupStage.noConfusion h, fun _ h => StartupStage.noConfusion h,
      fun _ h => StartupStage.noConfusion h⟩
    fresh := fun _ => rfl
    promised := fun hcreated => absurd rfl hcreated
    shaken := fun r hr => (Option.some_ne_none r hr.symm).elim
    idle := fun _ => ⟨rfl, rfl, fun ⟨r, hr⟩ => Option.some_ne_none (some r) hr.symm⟩
    greeted := fun m ms _ hms => absurd hms.symm (List.cons_ne_nil m ms) }

lemma greeting_run (hcodec : FaithfulCodec codec) (initiatorId acceptorId : PeerId)
    (dialled accepted : Endpoint) {initiatorUdp acceptorUdp : Int}
    (hinitiator : IsInt32 initiatorUdp) (hacceptor : IsInt32 acceptorUdp) (events : List LinkEvent)
    (hpatient : ∀ event ∈ events, PatientEvent event) :
    Greeting codec (linkRecord (.create initiatorId acceptorId dialled accepted initiatorUdp
      acceptorUdp))
      (EventRun.run (Link.step codec) (.create initiatorId acceptorId dialled accepted initiatorUdp
        acceptorUdp)
        events) := by
  induction events using List.reverseRecOn with
  | nil => exact create_greeting hcodec initiatorId acceptorId dialled accepted hinitiator hacceptor
  | append_singleton events event ih =>
    rw [EventRun.run_concat]
    have hbefore := ih fun e he => hpatient e (List.mem_append_left _ he)
    exact hbefore.step hcodec (hpatient event List.mem_concat_self)

/-- As long as nobody gives up, the handshake cannot get stuck: whenever the startup threads have
nothing left to do and every message has arrived and has been dispatched, each end is registered
under the record of the other. -/
theorem handshake_completes (hcodec : FaithfulCodec codec) (initiatorId acceptorId : PeerId)
    (dialled accepted : Endpoint) (initiatorUdp acceptorUdp : Int)
    (hinitiator : IsInt32 initiatorUdp) (hacceptor : IsInt32 acceptorUdp) (events : List LinkEvent)
    (hpatient : ∀ event ∈ events, PatientEvent event) :
    let link := EventRun.run (Link.step codec)
      (.create initiatorId acceptorId dialled accepted initiatorUdp acceptorUdp) events
    Settled codec link →
      ∀ side, (link.get side).stage = .registered (recordOf (link.get side.other)) := by
  intro link hsettled side
  have hgreeting :=
    greeting_run hcodec initiatorId acceptorId dialled accepted hinitiator hacceptor events hpatient
  have hregistered : ∃ r, (link.get side).stage = .registered r := by
    cases side with
    | initiator => exact hgreeting.initiator_registered hcodec hsettled
    | acceptor => exact hgreeting.acceptor_registered hsettled
  obtain ⟨r, hr⟩ := hregistered
  rw [hr, ((hgreeting.inv.agreement side).record r (congrArg shakenRecord hr)).1]

end Progress

/-- The acceptor is registered first, and its heartbeat is answered before the initiator has read
the response. -/
def earlyHeartbeat : List LinkEvent :=
  [.act .initiator (.start true), .act .initiator (.awaitRemote default),
    .act .acceptor (.start false), .deliver .acceptor [], .act .acceptor (.dispatch true),
    .act .acceptor (.awaitRemote default), .act .acceptor .resume, .act .acceptor .resume,
    .act .acceptor .resume, .act .acceptor (.heartbeat default), .deliver .initiator [],
    .act .initiator (.dispatch true), .deliver .initiator [], .act .initiator (.dispatch true),
    .deliver .acceptor [], .act .acceptor (.dispatch true), .act .initiator .resume,
    .act .initiator .resume, .act .initiator .resume]

theorem handshake_completes_heartbeat :
    let link :=
      EventRun.run (Link.step protobufCodec) (.create "a" "b" ⟨"", 1⟩ ⟨"", 2⟩ 3 4) earlyHeartbeat
    Settled protobufCodec link ∧ (link.get .initiator).stage = .registered ⟨"b", "", 2, 4⟩ ∧
      ∀ side, (link.get side).stage = .registered (recordOf (link.get side.other)) := by
  intro link
  have hsettled : Settled protobufCodec link := {
    started := fun side => by cases side <;> decide +kernel
    waiting := fun side => by cases side <;> decide +kernel
    dispatched := fun side => by cases side <;> decide +kernel
    delivered := fun side => by cases side <;> decide +kernel }
  have hpatient : ∀ event ∈ earlyHeartbeat, PatientEvent event := by
    simp [earlyHeartbeat, PatientEvent, KeepsTrying]
  exact ⟨hsettled, by decide +kernel,
    handshake_completes protobufCodec_faithful "a" "b" ⟨"", 1⟩ ⟨"", 2⟩ 3 4 ⟨by decide, by decide⟩
      ⟨by decide, by decide⟩ earlyHeartbeat hpatient hsettled⟩

end MeshNetwork.Proofs
