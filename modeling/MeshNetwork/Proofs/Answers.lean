import MeshNetwork.Proofs.Forwarding
import MeshNetwork.Proofs.PendingMessages

/-!
# Answers to a broadcast request

What a node does with a copy of a broadcast request and with an answer to it: a node that answers
sends its answers to the next hop towards the originator and the request to its other neighbours, a
relay passes an answer on, and the originator reports it.
-/

namespace MeshNetwork.Proofs

/-! ## Requests and answers -/

/-- The arguments of a call of `broadcast_request` at `origin`. -/
structure Query where
  origin : PeerId
  id : Bytes
  subtype : String
  serialized : Bytes
  protocol : TransportProtocol

namespace Query

/-- A copy of the request. -/
def copy (q : Query) (ttl : UInt32) : RoutedPacket :=
  makeBinaryRoutedPacket q.id q.origin "" ttl q.subtype q.protocol q.serialized true

def reqId (q : Query) : String := toHex q.id

end Query

/-- The holder of `im` can read the payload of `pkt`. -/
def Readable (lib : Libraries) (im : IdentityManager) (pkt : RoutedPacket) : Prop :=
  pkt.hasEncryptedPayload = false ∨ ∃ plaintext, decryptPacket lib.toOpenSsl im pkt = .ok plaintext

/-- An answer of `v` to the request, readable with the keys `im` of the originator. -/
structure IsAnswer (lib : Libraries) (im : IdentityManager) (q : Query) (v : PeerId)
    (pkt : RoutedPacket) : Prop where
  id : pkt.id = q.id
  sender : pkt.fromPeerId = v
  dest : pkt.toPeerId = q.origin
  kind : pkt.expectResponse = false
  type : pkt.type = .binary
  transport : pkt.transport = q.protocol
  readable : Readable lib im pkt

lemma IsAnswer.withTtl {lib : Libraries} {im : IdentityManager} {q : Query} {v : PeerId}
    {pkt : RoutedPacket} (h : IsAnswer lib im q v pkt) (ttl : UInt32) :
    IsAnswer lib im q v { pkt with ttl } :=
  ⟨h.id, h.sender, h.dest, h.kind, h.type, h.transport, h.readable⟩

lemma IsAnswer.isData {lib : Libraries} {im : IdentityManager} {q : Query} {v : PeerId}
    {pkt : RoutedPacket} (h : IsAnswer lib im q v pkt) : pkt.type ≠ .routingUpdate := by
  rw [h.type]
  decide

/-- The handler answers the request. -/
def Answers (lib : Libraries) (q : Query) : Handler → Prop
  | .topologyRequest => lib.parseTopologyRequest q.serialized = true
  | .pingRequest => (lib.parsePing q.serialized).isSome = true
  | .application replies => replies q.origin q.serialized ≠ []
  | .identityRequest => False
  | .heartbeat => False

/-- Encrypted packets of `sender` open at the holder of `receiver`. -/
structure SharesKeys (lib : Libraries) (origin : PeerId) (receiver : IdentityManager)
    (sender : NodeState) : Prop where
  cipher : IdealCipher lib.toOpenSsl
  keys : ∃ originKey senderKey, sender.identity.trustedKeys.lookup origin = some originKey ∧
    KeyPair lib.toOpenSsl originKey receiver.myPrivateKey ∧
    receiver.trustedKeys.lookup sender.peerId = some senderKey ∧
    KeyPair lib.toOpenSsl senderKey sender.identity.myPrivateKey

/-- A node that answers the request, in packets that the originator can read. -/
structure Responds (lib : Libraries) (im : IdentityManager) (q : Query)
    (node : NodeState) : Prop where
  unblocked : node.ignoreAllIncomingMessages = false
  notPending : node.requestTracker.pendingRequests.lookup q.reqId = none
  notTracked : q.reqId ∉ node.requestTracker.broadcasts
  answers : ∃ info, node.handlers.lookup q.subtype = some info ∧ Answers lib q info.handler
  encrypts : node.encryptMessages = true → SharesKeys lib q.origin im node

/-- The originator, while the timer of its request has not expired. -/
structure Collects (im : IdentityManager) (q : Query) (node : NodeState) : Prop where
  unblocked : node.ignoreAllIncomingMessages = false
  notPending : node.requestTracker.pendingRequests.lookup q.reqId = none
  tracked : q.reqId ∈ node.requestTracker.broadcasts
  identity : node.identity = im

/-! ## The callbacks of the nodes -/

section Callbacks

variable {lib : Libraries} {im : IdentityManager} {q : Query} (env : StepEnv)

lemma decryptPacket_hasKey {ssl : OpenSsl} {pkt : RoutedPacket} {plaintext : Bytes}
    (h : decryptPacket ssl im pkt = .ok plaintext) : im.hasKey pkt.fromPeerId = true := by
  unfold decryptPacket IdentityManager.getPublicKey at h
  unfold IdentityManager.hasKey
  cases hkey : im.trustedKeys.lookup pkt.fromPeerId with
  | none => simp [hkey] at h
  | some key => simp

lemma Sealed.isAnswer {v : PeerId} {subtype : String} {payload plaintext : Bytes} {p : RoutedPacket}
    (h : Sealed (makeBinaryRoutedPacket q.id v q.origin 15 subtype q.protocol payload) p)
    (hopens : decryptPacket lib.toOpenSsl im p = .ok plaintext) :
    IsAnswer lib im q v p ∧ p.ttl = 15 := by
  constructor
  · exact {
      id := congrArg RoutedPacket.id h.rest
      sender := congrArg RoutedPacket.fromPeerId h.rest
      dest := congrArg RoutedPacket.toPeerId h.rest
      kind := congrArg RoutedPacket.expectResponse h.rest
      type := congrArg RoutedPacket.type h.rest
      transport := congrArg RoutedPacket.transport h.rest
      readable := .inr ⟨plaintext, hopens⟩ }
  · exact congrArg RoutedPacket.ttl h.rest

/-- One reply is one more answer among the sent packets. -/
lemma reply_sends {node : NodeState} (hresponds : Responds lib im q node) (ttl : UInt32)
    (responseSubtype : Option String) {call : NodeCall}
    (hnode : ∃ calls, call.node = { node with calls }) (payload : Bytes) :
    ∃ p, (NodeCall.reply lib env (q.copy ttl) responseSubtype call payload).sent =
      call.sent ++ [p] ∧ IsAnswer lib im q node.peerId p ∧ p.ttl = 15 := by
  obtain ⟨calls, hcall⟩ := hnode
  unfold NodeCall.reply NodeCall.makePacket
  simp only [Query.copy, makeBinaryRoutedPacket, Bool.not_true, Bool.false_eq_true, if_false]
  split_ifs with hencrypt
  · have hon : node.encryptMessages = true := by
      rw [hcall] at hencrypt
      exact hencrypt.1
    obtain ⟨hcipher, originKey, senderKey, hknown, horigin, hfrom, hsender⟩ :=
      hresponds.encrypts hon
    have hidentity : call.node.identity = node.identity := by rw [hcall]
    have hpeer : call.node.peerId = node.peerId := by rw [hcall]
    rw [← hidentity] at hknown hsender
    rw [hpeer]
    obtain ⟨p, hp, hsealed, hopens⟩ := securePacket_opens hcipher call.node.identity im horigin
      hsender hknown
      (NodeCall.nonces env { call with uuids := call.uuids + 1 })
      (makeBinaryRoutedPacket q.id node.peerId q.origin 15 (responseSubtype.getD "") q.protocol
        payload) hfrom payload
    refine ⟨p, ?_, hsealed.isAnswer hopens⟩
    exact congrArg NodeCall.sent (secureAndSend_of_some lib env
      { call with uuids := call.uuids + 1 } hp)
  · refine ⟨_, rfl, ⟨rfl, ?_, rfl, rfl, rfl, rfl, .inl rfl⟩, rfl⟩
    simp [hcall]

/-- What a node that answers the request has sent. -/
def SendsAnswers (lib : Libraries) (im : IdentityManager) (q : Query) (v : PeerId)
    (sent : List RoutedPacket) : Prop :=
  ∀ p ∈ sent, IsAnswer lib im q v p ∧ p.ttl = 15

/-- What is left of the answers after one hop. -/
lemma SendsAnswers.forwarded {v : PeerId} {sent : List RoutedPacket}
    (h : SendsAnswers lib im q v sent) {p : RoutedPacket} :
    (∃ a ∈ sent, 0 < a.ttl - 1 ∧ p = { a with ttl := a.ttl - 1 }) ↔
      ∃ a ∈ sent, p = { a with ttl := 14 } := by
  have hpos : (0 : UInt32) < 15 - 1 := by decide
  constructor
  · rintro ⟨a, ha, -, hp⟩
    rw [(h a ha).2] at hp
    exact ⟨a, ha, hp⟩
  · rintro ⟨a, ha, hp⟩
    refine ⟨a, ha, ?_⟩
    rw [(h a ha).2]
    exact ⟨hpos, hp⟩

lemma foldl_reply_sends {node : NodeState} (hresponds : Responds lib im q node) (ttl : UInt32)
    (responseSubtype : Option String) (payloads : List Bytes) {call : NodeCall}
    (hnode : ∃ calls, call.node = { node with calls })
    (hsent : SendsAnswers lib im q node.peerId call.sent) (hsome : call.sent ≠ [] ∨ payloads ≠ []) :
    SendsAnswers lib im q node.peerId
        (payloads.foldl (NodeCall.reply lib env (q.copy ttl) responseSubtype) call).sent ∧
      (payloads.foldl (NodeCall.reply lib env (q.copy ttl) responseSubtype) call).sent ≠ [] := by
  induction payloads generalizing call with
  | nil => exact ⟨hsent, hsome.resolve_right (not_not_intro rfl)⟩
  | cons payload payloads ih =>
    obtain ⟨p, hp, hanswer⟩ := reply_sends env hresponds ttl responseSubtype hnode payload
    rw [List.foldl_cons]
    apply ih
    · rw [reply_node]
      exact hnode
    · rw [hp]
      intro p' hp'
      rcases List.mem_append.mp hp' with hold | hnew
      · exact hsent p' hold
      · rw [List.mem_singleton.mp hnew]
        exact hanswer
    · rw [hp]
      simp

/-- A handler that answers leaves the node as it is, up to the record of calls, and sends
answers. -/
lemma runHandler_answers {node : NodeState} (hresponds : Responds lib im q node)
    (router : RouterState) (pending : NodeCall → PeerId → NodeCall) {info : HandlerInfo}
    (hanswers : Answers lib q info.handler) (ttl : UInt32) :
    (∃ calls, (NodeCall.runHandler lib env router pending { node } info (q.copy ttl)).node =
      { node with calls := node.calls ++ calls }) ∧
    SendsAnswers lib im q node.peerId
      (NodeCall.runHandler lib env router pending { node } info (q.copy ttl)).sent ∧
    (NodeCall.runHandler lib env router pending { node } info (q.copy ttl)).sent ≠ [] := by
  have hsilent : SendsAnswers lib im q node.peerId [] := fun p hp => absurd hp List.not_mem_nil
  have hone : ∀ payload, SendsAnswers lib im q node.peerId
        (NodeCall.reply lib env (q.copy ttl) info.responseSubtype { node } payload).sent ∧
      (NodeCall.reply lib env (q.copy ttl) info.responseSubtype { node } payload).sent ≠ [] :=
        fun payload =>
    foldl_reply_sends env hresponds ttl info.responseSubtype [payload] ⟨node.calls, rfl⟩ hsilent
      (.inr (by simp))
  unfold NodeCall.runHandler
  cases hhandler : info.handler with
  | topologyRequest =>
    rw [hhandler] at hanswers
    have hparse : lib.parseTopologyRequest (q.copy ttl).binaryData = true := hanswers
    simp only [hparse, if_true, reply_node]
    exact ⟨⟨[], by simp⟩, hone _⟩
  | pingRequest =>
    rw [hhandler] at hanswers
    obtain ⟨message, hmessage⟩ := Option.isSome_iff_exists.mp hanswers
    have hparse : lib.parsePing (q.copy ttl).binaryData = some message := hmessage
    simp only [hparse, reply_node]
    exact ⟨⟨[], by simp⟩, hone _⟩
  | identityRequest =>
    rw [hhandler] at hanswers
    exact hanswers.elim
  | heartbeat =>
    rw [hhandler] at hanswers
    exact hanswers.elim
  | application replies =>
    rw [hhandler] at hanswers
    dsimp only
    constructor
    · rw [foldl_reply_node]
      exact ⟨_, rfl⟩
    · exact foldl_reply_sends env hresponds ttl info.responseSubtype _ ⟨_, rfl⟩ hsilent
        (.inr hanswers)

/-- A copy of the request at a node that answers it. -/
lemma onPacketForMe_request {node : NodeState} (hresponds : Responds lib im q node)
    (router : RouterState) (ttl : UInt32) :
    ∃ calls sent, onPacketForMe lib env node router (q.copy ttl) =
        ({ node with calls := node.calls ++ calls }, q.copy ttl, sent) ∧
      SendsAnswers lib im q node.peerId sent ∧ sent ≠ [] := by
  obtain ⟨info, hlookup, hanswers⟩ := hresponds.answers
  obtain ⟨⟨calls, hnode⟩, hsent, hsome⟩ := runHandler_answers env hresponds router
    (NodeCall.handlePendingIncomingPackets lib env router (NodeCall.buffered { node } + 1))
    hanswers ttl
  refine ⟨calls, _, ?_, hsent, hsome⟩
  have hdispatch : NodeCall.dispatch lib env router
      (NodeCall.handlePendingIncomingPackets lib env router (NodeCall.buffered { node } + 1))
      { node }
      (q.copy ttl) =
      NodeCall.runHandler lib env router
        (NodeCall.handlePendingIncomingPackets lib env router (NodeCall.buffered { node } + 1))
        { node } info
        (q.copy ttl) := by
    refine (dispatch_new env router _ ?_ ?_).trans ?_
    · exact hresponds.notPending
    · exact hresponds.notTracked
    · simp only [Query.copy, makeBinaryRoutedPacket, hlookup, if_true, Option.elim_some]
  have hplain : (q.copy ttl).hasEncryptedPayload = false := rfl
  simp only [onPacketForMe, NodeCall.handleIncomingPacket, NodeCall.handleWith, hresponds.unblocked,
    hplain, hdispatch, Bool.false_eq_true, if_false, hnode]

/-- An answer at the originator. -/
lemma onPacketForMe_answer {node : NodeState} (hcollects : Collects im q node)
    (router : RouterState) {v : PeerId} {pkt : RoutedPacket} (hanswer : IsAnswer lib im q v pkt) :
    ∃ rawBytes pkt', onPacketForMe lib env node router pkt =
      ({ node with calls := node.calls ++ [.onResponse q.reqId v rawBytes] }, pkt', []) := by
  have hid : toHex pkt.id = q.reqId := congrArg toHex hanswer.id
  have hrecord : ∀ p : RoutedPacket, toHex p.id = q.reqId → NodeCall.dispatch lib env router
      (NodeCall.handlePendingIncomingPackets lib env router (NodeCall.buffered { node } + 1))
      { node } p =
      NodeCall.record { node } (.onResponse q.reqId p.fromPeerId p.binaryData) := by
    intro p hp
    rw [← hp]
    apply dispatch_broadcast
    · rw [hp]
      exact hcollects.notPending
    · rw [hp]
      exact hcollects.tracked
  cases hplain : pkt.hasEncryptedPayload with
  | false =>
    refine ⟨pkt.binaryData, pkt, ?_⟩
    simp only [onPacketForMe, NodeCall.handleIncomingPacket, NodeCall.handleWith,
      hcollects.unblocked, hplain, hrecord pkt hid, Bool.false_eq_true, if_false, hanswer.sender,
      NodeCall.record]
  | true =>
    obtain ⟨plaintext, hdecrypt⟩ := hanswer.readable.resolve_left (by simp [hplain])
    have hkey := decryptPacket_hasKey hdecrypt
    rw [← hcollects.identity] at hdecrypt hkey
    refine ⟨plaintext, NodeCall.decrypted pkt plaintext, ?_⟩
    simp only [onPacketForMe, NodeCall.handleIncomingPacket, NodeCall.handleWith,
      hcollects.unblocked, hplain, hkey, hdecrypt, hrecord (NodeCall.decrypted pkt plaintext) hid,
      Bool.false_eq_true, Bool.not_true, if_false, if_true]
    simp only [NodeCall.record, NodeCall.decrypted, RoutedPacket.binaryData, hanswer.sender,
      hcollects.unblocked]

end Callbacks

/-! ## One packet at one node -/

section Packets

variable {lib : Libraries} {im : IdentityManager} {q : Query} {env : StepEnv} {self src : PeerId}
  {node : NodeState}
  {s : RouterState}

/-- What handling a packet leaves as it was. -/
structure Steady (s s' : RouterState) (node node' : NodeState) : Prop where
  routes : SameRoutes s s'
  node : ∃ calls, node' = { node with calls := node.calls ++ calls }

/-- A copy of the request is handled before it is forwarded, so what the callback sends goes out
first. -/
lemma handlePacket_copy_eq (hself : self ≠ "") (hsrc : src ≠ self) (horigin : q.origin ≠ self)
    {ttl : UInt32} {node' : NodeState} {sent : List RoutedPacket}
    (hcb : onPacketForMe lib env node (s.heardFrom src (env.clock 0)) (q.copy ttl) =
      (node', q.copy ttl, sent)) :
    let own := (s.heardFrom src (env.clock 0)).sendOwnPackets self env 2 sent
    let forwarded :=
      own.2.forwardPacket self env.order (env.clock (2 + sent.length)) src "" q.reqId (q.copy ttl)
    s.handlePacket (onPacketForMe lib) self env node src (q.copy ttl) =
      (.packetForMe (q.copy ttl) :: own.1 ++ forwarded.1, node', forwarded.2) := by
  dsimp only
  rw [handlePacket_data hsrc horigin (show PacketType.binary ≠ .routingUpdate by decide)]
  unfold RouterState.routeDataPacket
  rw [if_pos ⟨.inl rfl, horigin⟩]
  dsimp only
  rw [hcb, if_neg (show ¬(q.copy ttl).toPeerId = self from hself.symm)]
  rfl

/-- A copy of the request at a node that answers: its answers go to the next hop towards the
originator, and if the node has not seen the request it goes to all other neighbours. -/
lemma handlePacket_copy (hresponds : Responds lib im q node) (hpeer : node.peerId = self)
    (hself : self ≠ "") (hsrc : src ≠ self) (horigin : q.origin ≠ self) (hnamed : q.origin ≠ "")
    (hprotocol : q.protocol = .tcp ∨ q.protocol = .udp) {hop : PeerId}
    (hroute : NextHop s q.origin hop) (hhop : hop ≠ self) (ttl : UInt32) :
    let r := s.handlePacket (onPacketForMe lib) self env node src (q.copy ttl)
    Steady s r.2.2 node r.2.1 ∧ (q.reqId, true) ∈ r.2.2.seenPacketIds.set ∧
    ∃ sent, SendsAnswers lib im q self sent ∧ sent ≠ [] ∧ ∀ next p, .transmit next p ∈ r.1 ↔
      (next = hop ∧ ∃ a ∈ sent, p = { a with ttl := 14 }) ∨
      ((q.reqId, true) ∉ s.seenPacketIds.set ∧ next ∈ s.neighborViews ∧ next ≠ src ∧ next ≠ self ∧
        0 < ttl - 1 ∧ p = q.copy (ttl - 1)) := by
  have hheard := heardFrom_same s src (env.clock 0)
  obtain ⟨calls, sent, hcb, hsent, hsome⟩ :=
    onPacketForMe_request env hresponds (s.heardFrom src (env.clock 0)) ttl
  rw [hpeer] at hsent
  have hsentPkts : ∀ p ∈ sent, p.toPeerId = q.origin ∧
      (p.transport = .tcp ∨ p.transport = .udp) := by
    intro p hp
    rw [(hsent p hp).1.transport]
    exact ⟨(hsent p hp).1.dest, hprotocol⟩
  dsimp only
  rw [handlePacket_copy_eq hself hsrc horigin hcb]
  -- the router after the node's own answers, which have another key than the request
  set s₁ := s.heardFrom src (env.clock 0) with hs₁
  set s₂ := (s₁.sendOwnPackets self env 2 sent).2 with hs₂
  have hsame : SameRoutes s s₂ := hheard.trans (.of_frame (sendOwnPackets_frame ..))
  have hkey : (q.reqId, true) ∈ s₂.seenPacketIds.set ↔ (q.reqId, true) ∈ s.seenPacketIds.set := by
    rw [hs₂, mem_sendOwnPackets_seen, hs₁, heardFrom_seen]
    intro p hp
    simp [(hsent p hp).1.kind]
  refine ⟨⟨hsame.trans (.of_frame (forwardPacket_frame ..)), calls, rfl⟩, forwardPacket_seen_mem ..,
    sent, hsent, hsome, fun next p => ?_⟩
  have hknown : (q.copy ttl).transport = .tcp ∨ (q.copy ttl).transport = .udp := hprotocol
  have hforward : .transmit next p ∈
      (s₂.forwardPacket self env.order (env.clock (2 + sent.length)) src "" q.reqId
        (q.copy ttl)).1 ↔
      (q.reqId, true) ∉ s.seenPacketIds.set ∧ next ∈ s.neighborViews ∧ next ≠ src ∧ next ≠ self ∧
        0 < ttl - 1 ∧ p = q.copy (ttl - 1) := by
    rw [mem_forwardPacket_broadcast hknown, ← hkey, ← hsame.mem, not_and]
    exact and_congr_left fun _ => forall_prop_of_true hsrc
  simp only [List.cons_append, List.mem_cons, List.mem_append, reduceCtorEq, false_or,
    mem_sendOwnPackets env hnamed horigin hhop hsentPkts 2 (hroute.of_same hheard),
    hsent.forwarded, hforward]

/-- An answer at a relay: it goes on to the next hop unless the id of the request was seen on an
answer. -/
lemma handlePacket_relay {v : PeerId} {pkt : RoutedPacket} (hanswer : IsAnswer lib im q v pkt)
    (hsrc : src ≠ self) (hv : v ≠ self) (horigin : q.origin ≠ self) (hnamed : q.origin ≠ "")
    (hprotocol : q.protocol = .tcp ∨ q.protocol = .udp) {hop : PeerId}
    (hroute : NextHop s q.origin hop) (hhop : hop ≠ self) (hback : hop ≠ src)
    (hlive : 0 < pkt.ttl - 1) :
    let r := s.handlePacket (onPacketForMe lib) self env node src pkt
    Steady s r.2.2 node r.2.1 ∧
    ((q.reqId, true) ∈ r.2.2.seenPacketIds.set ↔ (q.reqId, true) ∈ s.seenPacketIds.set) ∧
    ∀ next p, .transmit next p ∈ r.1 ↔
      (q.reqId, false) ∉ s.seenPacketIds.set ∧ next = hop ∧
        p = { pkt with ttl := pkt.ttl - 1 } := by
  have hfrom : pkt.fromPeerId ≠ self := by
    rw [hanswer.sender]
    exact hv
  have hkey : (toHex pkt.id, pkt.expectResponse) = (q.reqId, false) := by
    rw [hanswer.id, hanswer.kind]
    rfl
  have hknown : pkt.transport = .tcp ∨ pkt.transport = .udp := by
    rw [hanswer.transport]
    exact hprotocol
  rw [← hanswer.dest] at hroute horigin hnamed
  obtain ⟨hsent, hnode, hroutes, hseen⟩ := handlePacket_unicast (onPacketForMe lib) env node
    hsrc hfrom hanswer.isData hnamed horigin hknown hroute hhop hback
  rw [hkey] at hsent hseen
  refine ⟨⟨hroutes, [], by simp [hnode]⟩, by simp [hseen], fun next p => ?_⟩
  rw [hsent]
  simp [hlive]

/-- An answer at the originator. -/
lemma handlePacket_collect {v : PeerId} {pkt : RoutedPacket} (hanswer : IsAnswer lib im q v pkt)
    (hcollects : Collects im q node) (horigin : q.origin = self) (hsrc : src ≠ self)
    (hv : v ≠ self) :
    let r := s.handlePacket (onPacketForMe lib) self env node src pkt
    SameRoutes s r.2.2 ∧ r.2.2.seenPacketIds = s.seenPacketIds ∧
    (∃ rawBytes, r.2.1 = { node with calls := node.calls ++ [.onResponse q.reqId v rawBytes] }) ∧
    ∀ next p, .transmit next p ∉ r.1 := by
  have hfrom : pkt.fromPeerId ≠ self := by
    rw [hanswer.sender]
    exact hv
  obtain ⟨rawBytes, pkt', hcb⟩ :=
    onPacketForMe_answer env hcollects (s.heardFrom src (env.clock 0)) hanswer
  have heq : s.handlePacket (onPacketForMe lib) self env node src pkt =
      ([.packetForMe pkt], { node with calls := node.calls ++ [.onResponse q.reqId v rawBytes] },
        s.heardFrom src (env.clock 0)) := by
    rw [handlePacket_data hsrc hfrom hanswer.isData]
    unfold RouterState.routeDataPacket
    simp [hanswer.dest, horigin, hfrom, hcb, RouterState.sendOwnPackets]
  dsimp only
  rw [heq]
  refine ⟨heardFrom_same .., heardFrom_seen .., ⟨rawBytes, rfl⟩, fun next p => ?_⟩
  simp

end Packets

end MeshNetwork.Proofs
