import MeshNetwork.Model.NodeThreads
import MeshNetwork.Proofs.NodeCalls

/-!
# Steps of a node's calls

What one step can do to the identity manager, and what content it can hand to the steps that it
calls.
-/

namespace MeshNetwork.Proofs

/-- The packet that has arrived and the bytes that are passed on for it, if the step calls a
callback of a tracked request or a handler. -/
def passedOn : NodeTask → Option (RoutedPacket × Bytes)
  | .callback arrived _ _ rawBytes => some (arrived, rawBytes)
  | .onResponse arrived _ _ rawBytes => some (arrived, rawBytes)
  | .handler arrived _ pkt => some (arrived, pkt.binaryData)
  | _ => none

/-- The same for a packet that is about to be dispatched. -/
def content : NodeTask → Option (RoutedPacket × Bytes)
  | .dispatch arrived pkt => some (arrived, pkt.binaryData)
  | t => passedOn t

/-- The identity manager stays as it is, and no step is called with content. -/
structure Silent (call call' : NodeCall) (called : List NodeTask) : Prop where
  identity : call'.node.identity = call.node.identity
  content : called.filterMap content = []

section Steps

variable (lib : Libraries) (env : StepEnv) (router : RouterState) (call : NodeCall)

lemma start_silent (event : NodeEvent) :
    Silent call (NodeTask.start lib env call event).1 (NodeTask.start lib env call event).2 := by
  cases event with
  | sendMessage destId subtype serialized protocol =>
    unfold NodeTask.start NodeCall.makePacket
    dsimp only
    split_ifs <;> exact ⟨rfl, rfl⟩
  | sendRequestAsync destId subtype serialized tag protocol =>
    unfold NodeTask.start NodeCall.makePacket
    dsimp only
    split_ifs <;> exact ⟨rfl, rfl⟩
  | requestTimeout reqId =>
    unfold NodeTask.start NodeState.call
    dsimp only
    split <;> exact ⟨rfl, rfl⟩
  | broadcastTimeout reqId =>
    unfold NodeTask.start NodeState.call
    dsimp only
    split_ifs <;> exact ⟨rfl, rfl⟩
  | _ => exact ⟨rfl, rfl⟩

lemma runCallback_silent (cb : RequestCallback) (sender : PeerId) (rawBytes : Bytes) :
    Silent call (NodeTask.runCallback lib call cb sender rawBytes).1
      (NodeTask.runCallback lib call cb sender rawBytes).2 := by
  cases cb with
  | application tag => exact ⟨rfl, rfl⟩
  | identityResponse =>
    unfold NodeTask.runCallback
    cases lib.parseIdentity rawBytes <;> exact ⟨rfl, rfl⟩

lemma runHandler_silent (info : HandlerInfo) (pkt : RoutedPacket) :
    Silent call (NodeTask.runHandler lib env router call info pkt).1
      (NodeTask.runHandler lib env router call info pkt).2 := by
  rcases info with ⟨responseSubtype, handler⟩
  unfold NodeTask.runHandler
  cases handler with
  | topologyRequest =>
    dsimp only
    split_ifs <;> exact ⟨rfl, rfl⟩
  | pingRequest =>
    dsimp only
    cases lib.parsePing pkt.binaryData <;> exact ⟨rfl, rfl⟩
  | identityRequest =>
    dsimp only
    cases lib.parseIdentity pkt.binaryData <;> exact ⟨rfl, rfl⟩
  | heartbeat => exact ⟨rfl, rfl⟩
  | application replies =>
    refine ⟨rfl, ?_⟩
    dsimp only
    rw [List.filterMap_map]
    exact List.filterMap_eq_nil_iff.mpr fun _ _ => rfl

/-- A dispatched packet is passed on to a callback or a handler with its content, or not at all. -/
lemma deliver_content (arrived pkt : RoutedPacket) :
    (NodeTask.deliver call arrived pkt).1.node.identity = call.node.identity ∧
      (NodeTask.deliver call arrived pkt).2.filterMap content ⊆ [(arrived, pkt.binaryData)] := by
  unfold NodeTask.deliver
  split
  · exact ⟨rfl, List.Subset.refl _⟩
  · exact ⟨rfl, List.Subset.refl _⟩
  · split_ifs
    · split
      · exact ⟨rfl, List.nil_subset _⟩
      · exact ⟨rfl, List.Subset.refl _⟩
    · exact ⟨rfl, List.nil_subset _⟩

end Steps

/-- What a step can do: the call after it and the steps that it calls. -/
inductive StepMove (lib : Libraries) (call : NodeCall) : NodeTask → NodeCall → List NodeTask → Prop
  | silent {t : NodeTask} {call' : NodeCall} {called : List NodeTask} :
      (∀ p, t ≠ .handlePendingIncomingPackets p ∧ t ≠ .handlePendingOutgoingPackets p) →
        Silent call call' called →
      StepMove lib call t call' called
  | receive (pkt : RoutedPacket) :
      StepMove lib call (.handleIncomingPacket pkt) call (NodeTask.receive call pkt)
  | opened {pkt : RoutedPacket} {plaintext : Bytes} :
      decryptPacket lib.toOpenSsl call.node.identity pkt = .ok plaintext →
      StepMove lib call (.decryptPacket pkt) call [.dispatch pkt (NodeCall.decrypted pkt plaintext)]
  | delivered {arrived pkt : RoutedPacket} {call' : NodeCall} {called : List NodeTask} :
      call'.node.identity = call.node.identity →
        called.filterMap content ⊆ [(arrived, pkt.binaryData)] →
      StepMove lib call (.dispatch arrived pkt) call' called
  | bufferIncoming (pkt : RoutedPacket) :
      StepMove lib call (.bufferIncomingPacket pkt)
        (call.setIdentity (call.node.identity.bufferIncomingPacket pkt.fromPeerId pkt)) []
  | bufferOutgoing (destId : PeerId) (pkt : RoutedPacket) :
      StepMove lib call (.bufferOutgoingPacket destId pkt)
        (call.setIdentity (call.node.identity.bufferOutgoingPacket destId pkt)) []
  | learn (peer : PeerId) (certificatePem pubKey : Bytes) :
      StepMove lib call (.addTrustedPeer peer certificatePem)
        (call.setIdentity (call.node.identity.addTrustedPeer peer pubKey))
        [.handlePendingIncomingPackets peer, .handlePendingOutgoingPackets peer]
  | popIncoming (src : PeerId) :
      StepMove lib call (.handlePendingIncomingPackets src)
        (call.setIdentity (call.node.identity.popIncomingPendingPackets src).2)
        ((call.node.identity.popIncomingPendingPackets src).1.map .handleIncomingPacket)
  | popOutgoing (dest : PeerId) :
      StepMove lib call (.handlePendingOutgoingPackets dest)
        (call.setIdentity (call.node.identity.popOutgoingPendingPackets dest).2)
        ((call.node.identity.popOutgoingPendingPackets dest).1.map fun pkt =>
          .securePacket pkt pkt.toPeerId pkt.binaryData)

lemma exec_move (lib : Libraries) (env : StepEnv) (router : RouterState) (call : NodeCall)
    (t : NodeTask) :
    StepMove lib call t (t.exec lib env router call).1 (t.exec lib env router call).2 := by
  cases t with
  | call event => exact .silent (fun _ => by simp) (start_silent lib env call event)
  | trackRequest reqId cb => exact .silent (fun _ => by simp) ⟨rfl, rfl⟩
  | sendPacket pkt => exact .silent (fun _ => by simp) ⟨rfl, rfl⟩
  | bufferOutgoingPacket destId pkt => exact .bufferOutgoing destId pkt
  | shouldSendIdentityRequest peerId =>
    obtain ⟨cooldowns, hcall⟩ := shouldSend_call env call peerId
    unfold NodeTask.exec
    dsimp only
    rw [hcall]
    refine .silent (fun _ => by simp) ⟨rfl, ?_⟩
    split_ifs <;> rfl
  | sendIdentityRequest dest => exact .silent (fun _ => by simp) ⟨rfl, rfl⟩
  | securePacket pkt target payload =>
    have hnode := (secureAndSend_node lib env call pkt target payload).1
    exact .silent (fun _ => by simp) ⟨congrArg NodeState.identity hnode, rfl⟩
  | secureRequest pkt target payload tag =>
    unfold NodeTask.exec NodeCall.secure
    dsimp only
    refine .silent (fun _ => by simp) ?_
    split <;> exact ⟨rfl, rfl⟩
  | handleIncomingPacket pkt => exact .receive pkt
  | bufferIncomingPacket pkt => exact .bufferIncoming pkt
  | decryptPacket pkt =>
    unfold NodeTask.exec
    cases hdecrypt : decryptPacket lib.toOpenSsl call.node.identity pkt with
    | error message =>
      simp only [hdecrypt]
      exact .silent (fun _ => by simp) ⟨rfl, rfl⟩
    | ok plaintext =>
      simp only [hdecrypt]
      exact .opened hdecrypt
  | dispatch arrived pkt =>
    exact .delivered (deliver_content call arrived pkt).1 (deliver_content call arrived pkt).2
  | callback arrived cb sender rawBytes =>
    exact .silent (fun _ => by simp) (runCallback_silent lib call cb sender rawBytes)
  | onResponse arrived reqId sender rawBytes => exact .silent (fun _ => by simp) ⟨rfl, rfl⟩
  | handler arrived info pkt =>
    exact .silent (fun _ => by simp) (runHandler_silent lib env router call info pkt)
  | addTrustedPeer peer certificatePem => exact .learn peer certificatePem _
  | handlePendingIncomingPackets src => exact .popIncoming src
  | handlePendingOutgoingPackets dest => exact .popOutgoing dest
  | reply pkt responseSubtype payload =>
    have hnode := reply_node lib env pkt responseSubtype call payload
    exact .silent (fun _ => by simp) ⟨congrArg NodeState.identity hnode, rfl⟩
  | replyIdentity pkt responseSubtype =>
    have hnode :=
      reply_node lib env pkt responseSubtype call (lib.serializeIdentity call.node.identity.myCert)
    exact .silent (fun _ => by simp) ⟨congrArg NodeState.identity hnode, rfl⟩

end MeshNetwork.Proofs
