import MeshNetwork.Model.Node

/-!
# Calls of a node

What the functions that a node's calls are made of do to its state, and the cases of `dispatch`.
-/

namespace MeshNetwork.Proofs

/-! ## Buffers -/

lemma popIncoming_eq (im : IdentityManager) (peerId : PeerId) :
    im.popIncomingPendingPackets peerId = ((im.pendingIncomingPackets.lookup peerId).getD [],
      { im with pendingIncomingPackets := im.pendingIncomingPackets.erase peerId }) := by
  unfold IdentityManager.popIncomingPendingPackets
  cases h : im.pendingIncomingPackets.lookup peerId with
  | none => rw [UMap.erase_eq_self h]; rfl
  | some packets => rfl

lemma popOutgoing_eq (im : IdentityManager) (peerId : PeerId) :
    im.popOutgoingPendingPackets peerId = ((im.pendingOutgoingPackets.lookup peerId).getD [],
      { im with pendingOutgoingPackets := im.pendingOutgoingPackets.erase peerId }) := by
  unfold IdentityManager.popOutgoingPendingPackets
  cases h : im.pendingOutgoingPackets.lookup peerId with
  | none => rw [UMap.erase_eq_self h]; rfl
  | some packets => rfl

section Sending

variable (lib : Libraries) (env : StepEnv)

lemma secureAndSend_of_some (call : NodeCall) {pkt p : RoutedPacket} {target : PeerId}
    {payload : Bytes}
    (h : securePacket lib.toOpenSsl call.node.identity (call.nonces env) pkt target
      payload = some p) :
    call.secureAndSend lib env pkt target payload =
      { call with draws := call.draws + 3, sent := call.sent ++ [p] } := by
  unfold NodeCall.secureAndSend NodeCall.secure
  rw [h]
  rfl

lemma secureAndSend_node (call : NodeCall) (pkt : RoutedPacket) (target : PeerId)
    (payload : Bytes) :
    (call.secureAndSend lib env pkt target payload).node = call.node ∧
      call.sent ⊆ (call.secureAndSend lib env pkt target payload).sent := by
  unfold NodeCall.secureAndSend NodeCall.secure
  cases securePacket lib.toOpenSsl call.node.identity (call.nonces env) pkt target payload with
  | none => exact ⟨rfl, List.Subset.refl _⟩
  | some p => exact ⟨rfl, List.subset_append_left _ _⟩

lemma reply_node (pkt : RoutedPacket) (responseSubtype : Option String) (call : NodeCall)
    (payload : Bytes) :
    (NodeCall.reply lib env pkt responseSubtype call payload).node = call.node := by
  unfold NodeCall.reply NodeCall.makePacket
  split_ifs
  · rfl
  · dsimp only
    split_ifs
    · exact (secureAndSend_node lib env ..).1
    · rfl

lemma foldl_reply_node (pkt : RoutedPacket) (responseSubtype : Option String)
    (payloads : List Bytes) (call : NodeCall) :
    (payloads.foldl (NodeCall.reply lib env pkt responseSubtype) call).node = call.node := by
  induction payloads generalizing call with
  | nil => rfl
  | cons payload payloads ih =>
    rw [List.foldl_cons, ih]
    exact reply_node ..

/-- The body of the loop of `handle_pending_outgoing_packets`. -/
def sendPending (call : NodeCall) (pkt : RoutedPacket) : NodeCall :=
  call.secureAndSend lib env pkt pkt.toPeerId pkt.binaryData

/-- A call that leaves keys, waiting incoming packets and handlers alone. -/
structure Quiet (node node' : NodeState) : Prop where
  caRoot : node'.identity.caRoot = node.identity.caRoot
  privateKey : node'.identity.myPrivateKey = node.identity.myPrivateKey
  trustedKeys : node'.identity.trustedKeys = node.identity.trustedKeys
  incoming : node'.identity.pendingIncomingPackets = node.identity.pendingIncomingPackets
  handlers : node'.handlers = node.handlers

lemma Quiet.of_identity {node node' : NodeState} (him : node'.identity = node.identity)
    (hhandlers : node'.handlers = node.handlers) : Quiet node node' := by
  constructor <;> simp only [him, hhandlers]

lemma Quiet.trans {node node' node'' : NodeState} (h : Quiet node node') (h' : Quiet node' node'') :
    Quiet node node'' :=
  ⟨h'.caRoot.trans h.caRoot, h'.privateKey.trans h.privateKey, h'.trustedKeys.trans h.trustedKeys,
    h'.incoming.trans h.incoming, h'.handlers.trans h.handlers⟩

lemma foldl_sendPending_node (packets : List RoutedPacket) (call : NodeCall) :
    (packets.foldl (sendPending lib env) call).node = call.node := by
  induction packets generalizing call with
  | nil => rfl
  | cons pkt packets ih =>
    rw [List.foldl_cons, ih]
    exact (secureAndSend_node lib env ..).1

lemma handlePendingOutgoing_quiet (call : NodeCall) (dest : PeerId) :
    Quiet call.node (call.handlePendingOutgoingPackets lib env dest).node ∧
      (call.handlePendingOutgoingPackets lib env dest).node.requestTracker =
        call.node.requestTracker := by
  have hnode : (call.handlePendingOutgoingPackets lib env dest).node =
      { call.node with identity := (call.node.identity.popOutgoingPendingPackets dest).2 } :=
    foldl_sendPending_node lib env _ _
  rw [hnode, popOutgoing_eq]
  exact ⟨⟨rfl, rfl, rfl, rfl, rfl⟩, rfl⟩

/-- `should_send_identity_request` writes its table of cooldowns only. -/
lemma shouldSend_call (call : NodeCall) (peerId : PeerId) :
    ∃ cooldowns, (call.shouldSendIdentityRequest env peerId).2 =
      { call with node := { call.node with idRequestCooldowns := cooldowns } } := by
  unfold NodeCall.shouldSendIdentityRequest
  dsimp only
  split_ifs
  · exact ⟨_, rfl⟩
  · exact ⟨_, rfl⟩

lemma shouldSend_quiet (call : NodeCall) (peerId : PeerId) :
    Quiet call.node (call.shouldSendIdentityRequest env peerId).2.node := by
  obtain ⟨cooldowns, hcall⟩ := shouldSend_call env call peerId
  rw [hcall]
  exact .of_identity rfl rfl

lemma askIdentity_quiet (call : NodeCall) (peerId : PeerId) :
    Quiet call.node (call.askIdentity lib env peerId).node := by
  have hquiet := shouldSend_quiet env call peerId
  unfold NodeCall.askIdentity
  dsimp only
  split_ifs
  · exact hquiet.trans (.of_identity rfl rfl)
  · exact hquiet

lemma postpone_quiet (call : NodeCall) (destId : PeerId) (pkt : RoutedPacket) :
    Quiet call.node (call.postpone lib env destId pkt).node := by
  refine Quiet.trans ?_ (askIdentity_quiet lib env _ destId)
  exact ⟨rfl, rfl, rfl, rfl, rfl⟩

lemma sendMessage_quiet (call : NodeCall) (destId : PeerId) (subtype : String) (serialized : Bytes)
    (protocol : TransportProtocol) :
    Quiet call.node (call.sendMessage lib env destId subtype serialized protocol).node := by
  unfold NodeCall.sendMessage NodeCall.makePacket
  dsimp only
  split_ifs
  · exact postpone_quiet lib env { call with uuids := call.uuids + 1 } ..
  · rw [(secureAndSend_node lib env ..).1]
    exact .of_identity rfl rfl
  · exact .of_identity rfl rfl

lemma sendRequestAsync_quiet (call : NodeCall) (destId : PeerId) (subtype : String)
    (serialized : Bytes) (tag : Nat) (protocol : TransportProtocol) :
    Quiet call.node (call.sendRequestAsync lib env destId subtype serialized tag
      protocol).node := by
  unfold NodeCall.sendRequestAsync NodeCall.makePacket NodeCall.secure
  dsimp only
  split_ifs
  · refine Quiet.trans ?_ (postpone_quiet lib env ..)
    exact ⟨rfl, rfl, rfl, rfl, rfl⟩
  · generalize securePacket _ _ _ _ _ _ = secured
    cases secured with
    | none => exact .of_identity rfl rfl
    | some p => exact .of_identity rfl rfl
  · exact .of_identity rfl rfl

end Sending

section Dispatch

variable {lib : Libraries} (env : StepEnv)
variable (router : RouterState) (pending : NodeCall → PeerId → NodeCall) {call : NodeCall}
  {pkt : RoutedPacket}

lemma dispatch_request {cb : RequestCallback}
    (h : call.node.requestTracker.pendingRequests.lookup (toHex pkt.id) = some cb) :
    call.dispatch lib env router pending pkt =
      (call.setTracker { call.node.requestTracker with
        pendingRequests := call.node.requestTracker.pendingRequests.erase (toHex
          pkt.id) }).runCallback lib env pending
        cb pkt.fromPeerId pkt.binaryData := by
  simp only [NodeCall.dispatch, AsyncRequestTracker.fulfillRequest,
    AsyncRequestTracker.completeRequest, h]

lemma dispatch_broadcast (h : call.node.requestTracker.pendingRequests.lookup (toHex pkt.id) = none)
    (hbroadcast : toHex pkt.id ∈ call.node.requestTracker.broadcasts) :
    call.dispatch lib env router pending pkt =
      call.record (.onResponse (toHex pkt.id) pkt.fromPeerId pkt.binaryData) := by
  simp only [NodeCall.dispatch, AsyncRequestTracker.fulfillRequest,
    AsyncRequestTracker.completeRequest, h, if_pos hbroadcast, NodeCall.setTracker]

lemma dispatch_new (h : call.node.requestTracker.pendingRequests.lookup (toHex pkt.id) = none)
    (hbroadcast : toHex pkt.id ∉ call.node.requestTracker.broadcasts) :
    call.dispatch lib env router pending pkt =
      if pkt.type = .binary then
        (call.node.handlers.lookup pkt.subtype).elim call fun info => call.runHandler lib env router
          pending info pkt
      else call := by
  simp only [NodeCall.dispatch, AsyncRequestTracker.fulfillRequest,
    AsyncRequestTracker.completeRequest, h, if_neg hbroadcast]
  cases call.node.handlers.lookup pkt.subtype <;> rfl

end Dispatch

end MeshNetwork.Proofs
