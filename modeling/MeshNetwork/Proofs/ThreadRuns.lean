import MeshNetwork.Model.NodeThreads
import MeshNetwork.Proofs.WaitingPackets

/-!
# Calls that run alone

The steps of a call, taken one after the other without another call between them, do what the call
does as one function of the node.
-/

namespace MeshNetwork.Proofs

open TaskPool

section Alone

variable {lib : Libraries} (env : StepEnv) (router : RouterState)

/-- The tasks lead from one call to the other when nothing comes between them. -/
abbrev RunsAlone (lib : Libraries) (call : NodeCall) (tasks : List NodeTask)
    (call' : NodeCall) : Prop :=
  Completes (nodeThreads lib) (env, router) call tasks call'

variable {env router}

lemma runsAlone_task {call call' : NodeCall} {t : NodeTask}
    (h : RunsAlone env router lib (t.exec lib env router call).1
      (t.exec lib env router call).2 call') :
    RunsAlone env router lib call [t] call' := by
  apply Completes.task
  rw [List.append_nil]
  exact h

/-- A step that calls nothing. -/
lemma runsAlone_last {call call' : NodeCall} {t : NodeTask}
    (h : t.exec lib env router call = (call', [])) :
    RunsAlone env router lib call [t] call' := by
  apply runsAlone_task
  rw [h]
  exact .done call'

lemma runsAlone_cons {call call' call'' : NodeCall} {t : NodeTask} {rest : List NodeTask}
    (h : RunsAlone env router lib call [t] call')
    (hrest : RunsAlone env router lib call' rest call'') :
    RunsAlone env router lib call (t :: rest) call'' :=
  h.append hrest

/-! ## Sending -/

lemma sendRequest_alone (call : NodeCall) (pkt : RoutedPacket) (cb : RequestCallback)
    (reqId : String) :
    RunsAlone env router lib call (NodeTask.sendRequest pkt cb reqId)
      ((call.setTracker (call.node.requestTracker.trackRequestCallback reqId cb)).sendPacket pkt) :=
  runsAlone_cons (runsAlone_last rfl) (runsAlone_last rfl)

lemma askIdentity_alone (call : NodeCall) (peerId : PeerId) :
    RunsAlone env router lib call [.shouldSendIdentityRequest peerId]
      (call.askIdentity lib env peerId) := by
  apply runsAlone_task
  unfold NodeTask.exec NodeCall.askIdentity
  dsimp only
  split_ifs
  · exact runsAlone_task (sendRequest_alone ..)
  · exact .done _

lemma postpone_alone (call : NodeCall) (destId : PeerId) (pkt : RoutedPacket) :
    RunsAlone env router lib call (NodeTask.postpone destId pkt)
      (call.postpone lib env destId pkt) :=
  runsAlone_cons (runsAlone_last rfl) (askIdentity_alone ..)

lemma sendMessage_alone (call : NodeCall) (destId : PeerId) (subtype : String) (serialized : Bytes)
    (protocol : TransportProtocol) :
    RunsAlone env router lib call [.call (.sendMessage destId subtype serialized protocol)]
      (call.sendMessage lib env destId subtype serialized protocol) := by
  apply runsAlone_task
  unfold NodeTask.exec NodeTask.start NodeCall.sendMessage
  dsimp only
  split_ifs
  · exact postpone_alone ..
  · exact runsAlone_last rfl
  · exact runsAlone_last rfl

lemma sendRequestAsync_alone (call : NodeCall) (destId : PeerId) (subtype : String)
    (serialized : Bytes) (tag : Nat) (protocol : TransportProtocol) :
    RunsAlone env router lib call [.call (.sendRequestAsync destId subtype serialized tag protocol)]
      (call.sendRequestAsync lib env destId subtype serialized tag protocol) := by
  apply runsAlone_task
  unfold NodeTask.exec NodeTask.start NodeCall.sendRequestAsync
  dsimp only
  split_ifs
  · exact runsAlone_cons (runsAlone_last rfl) (postpone_alone ..)
  · apply runsAlone_task
    unfold NodeTask.exec NodeCall.secure NodeCall.makePacket
    dsimp only
    generalize securePacket _ _ _ _ _ _ = secured
    cases secured with
    | none => exact .done _
    | some p => exact sendRequest_alone ..
  · exact sendRequest_alone ..

lemma securePackets_alone (packets : List RoutedPacket) (call : NodeCall) :
    RunsAlone env router lib call
      (packets.map fun pkt => .securePacket pkt pkt.toPeerId pkt.binaryData)
      (packets.foldl (sendPending lib env) call) := by
  induction packets generalizing call with
  | nil => exact .done call
  | cons pkt packets ih => exact runsAlone_cons (runsAlone_last rfl) (ih _)

lemma handlePendingOutgoing_alone (call : NodeCall) (dest : PeerId) :
    RunsAlone env router lib call [.handlePendingOutgoingPackets dest]
      (call.handlePendingOutgoingPackets lib env dest) :=
  runsAlone_task (securePackets_alone ..)

lemma replies_alone (pkt : RoutedPacket) (responseSubtype : Option String) (payloads : List Bytes)
    (call : NodeCall) :
    RunsAlone env router lib call (payloads.map (.reply pkt responseSubtype))
      (payloads.foldl (NodeCall.reply lib env pkt responseSubtype) call) := by
  induction payloads generalizing call with
  | nil => exact .done call
  | cons payload payloads ih => exact runsAlone_cons (runsAlone_last rfl) (ih _)

/-! ## Receiving -/

lemma identityRequests_fulfill (node : NodeState) (reqId : String) :
    identityRequests { node with requestTracker := (node.requestTracker.fulfillRequest reqId).2 } ⊆
      identityRequests node := by
  intro id hid
  unfold identityRequests AsyncRequestTracker.fulfillRequest
    AsyncRequestTracker.completeRequest at hid
  cases hlookup : node.requestTracker.pendingRequests.lookup reqId with
  | none =>
    simp only [hlookup, Set.mem_ofPred_eq] at hid
    split_ifs at hid
    · exact hid
    · exact hid
  | some cb =>
    simp only [hlookup, Set.mem_ofPred_eq] at hid
    exact (UMap.lookup_erase_eq_some.mp hid).2

variable {ca priv : Bytes} {ids : Set String} {n : Nat} {pending : NodeCall → PeerId → NodeCall}

/-- What holds while packets are handled, whatever keys they bring. -/
abbrev Handling (lib : Libraries) (ca priv : Bytes) (ids : Set String) : NodeState → Prop :=
  Receiving lib (fun _ _ => True) ca priv ids

/-- The function handles the packets that wait for a peer as the steps do, as long as at most `n`
wait. -/
def PendingAlone (lib : Libraries) (env : StepEnv) (router : RouterState) (ca priv : Bytes)
    (ids : Set String) (n : Nat) (pending : NodeCall → PeerId → NodeCall) : Prop :=
  ∀ call peer, Handling lib ca priv ids call.node → call.node.identity.hasKey peer = true →
    call.buffered ≤ n →
    RunsAlone env router lib call [.handlePendingIncomingPackets peer] (pending call peer)

variable (hpending : PendingAlone lib env router ca priv ids n pending) {call : NodeCall}
  (h : Handling lib ca priv ids call.node) (hn : call.buffered ≤ n)

include hpending h hn

lemma learnKey_alone (peer : PeerId) (cert : Bytes) :
    RunsAlone env router lib call [.addTrustedPeer peer cert]
      (call.learnKey lib env pending peer cert) := by
  apply runsAlone_task
  refine runsAlone_cons (hpending _ peer (h.addKey trivial) ?_ hn) (handlePendingOutgoing_alone ..)
  exact (hasKey_addTrustedPeer ..).mpr (.inl rfl)

lemma runCallback_alone (arrived : RoutedPacket) (cb : RequestCallback) (sender : PeerId)
    (rawBytes : Bytes) :
    RunsAlone env router lib call [.callback arrived cb sender rawBytes]
      (call.runCallback lib env pending cb sender rawBytes) := by
  apply runsAlone_task
  unfold NodeTask.exec NodeTask.runCallback NodeCall.runCallback
  cases cb with
  | application tag => exact .done _
  | identityResponse =>
    dsimp only
    cases lib.parseIdentity rawBytes with
    | none => exact .done _
    | some cert => exact learnKey_alone hpending h hn sender cert

lemma runHandler_alone (arrived : RoutedPacket) (info : HandlerInfo) (pkt : RoutedPacket) :
    RunsAlone env router lib call [.handler arrived info pkt]
      (call.runHandler lib env router pending info pkt) := by
  apply runsAlone_task
  unfold NodeTask.exec NodeTask.runHandler NodeCall.runHandler
  rcases info with ⟨responseSubtype, handler⟩
  cases handler with
  | topologyRequest =>
    dsimp only
    split_ifs
    · exact runsAlone_last rfl
    · exact .done _
  | pingRequest =>
    dsimp only
    cases lib.parsePing pkt.binaryData with
    | none => exact .done _
    | some message => exact runsAlone_last rfl
  | identityRequest =>
    dsimp only
    cases lib.parseIdentity pkt.binaryData with
    | none => exact .done _
    | some cert =>
      exact runsAlone_cons (learnKey_alone hpending h hn pkt.fromPeerId cert) (runsAlone_last rfl)
  | heartbeat => exact .done _
  | application replies => exact replies_alone ..

lemma dispatch_alone (arrived pkt : RoutedPacket) :
    RunsAlone env router lib call [.dispatch arrived pkt]
      (call.dispatch lib env router pending pkt) := by
  apply runsAlone_task
  unfold NodeTask.exec NodeTask.deliver NodeCall.dispatch
  dsimp only
  rcases hfulfilled : call.node.requestTracker.fulfillRequest
    (toHex pkt.id) with ⟨fulfilled, tracker⟩
  cases fulfilled with
  | request cb =>
    have htracker : tracker = (call.node.requestTracker.fulfillRequest (toHex pkt.id)).2 := by
      rw [hfulfilled]
    have hhandling : Handling lib ca priv ids (call.setTracker tracker).node := by
      rw [htracker]
      exact h.quiet (.of_identity rfl rfl) (identityRequests_fulfill call.node _)
    exact runCallback_alone hpending hhandling hn arrived cb _ _
  | broadcast => exact runsAlone_last rfl
  | nothing =>
    dsimp only
    split_ifs
    · cases call.node.handlers.lookup pkt.subtype with
      | none => exact .done _
      | some info => exact runHandler_alone hpending h hn arrived info pkt
    · exact .done _

lemma handleWith_alone (pkt : RoutedPacket) :
    RunsAlone env router lib call [.handleIncomingPacket pkt]
      (call.handleWith lib env router pending pkt).1 := by
  apply runsAlone_task
  unfold NodeTask.exec NodeTask.receive NodeCall.handleWith
  dsimp only
  split_ifs
  · exact .done _
  · exact runsAlone_cons (runsAlone_last rfl) (askIdentity_alone ..)
  · apply runsAlone_task
    unfold NodeTask.exec
    dsimp only
    cases decryptPacket lib.toOpenSsl call.node.identity pkt with
    | error message => exact .done _
    | ok plaintext => exact dispatch_alone hpending h hn pkt _
  · exact dispatch_alone hpending h hn pkt pkt

lemma foldl_handleWith_alone
    (hsettles : HandlesPending lib (fun _ _ => True) ca priv ids n pending pending) {peer : PeerId}
    (packets : List RoutedPacket) (hkey : call.node.identity.hasKey peer = true)
    (hfrom : ∀ p ∈ packets, p.fromPeerId = peer) :
    RunsAlone env router lib call (packets.map .handleIncomingPacket)
      (packets.foldl (fun call pkt => (call.handleWith lib env router pending pkt).1) call) := by
  induction packets generalizing call with
  | nil => exact .done call
  | cons pkt packets ih =>
    have hfirst :=
      handleWith_settles env router hsettles h hn (bringsGoodKey_true priv ids pkt) fun _ => by
      rw [hfrom pkt List.mem_cons_self]
      exact hkey
    exact runsAlone_cons (handleWith_alone hpending h hn pkt)
      (ih hfirst.receiving (hfirst.buffered.trans hn)
      (hfirst.keys peer hkey) fun p hp => hfrom p (List.mem_cons_of_mem _ hp))

omit hpending h hn in
lemma handlePending_alone {depth : Nat} (hdepth : n < depth) :
    PendingAlone lib env router ca priv ids n
      (NodeCall.handlePendingIncomingPackets lib env router depth) := by
  induction n using Nat.strong_induction_on generalizing depth with
  | _ n ih =>
    intro call peer h hkey hn
    obtain ⟨d, rfl⟩ := Nat.exists_eq_add_one_of_ne_zero (Nat.ne_zero_of_lt hdepth)
    obtain ⟨hpop, hsum, hpackets⟩ := popIncoming_settles h peer
    apply runsAlone_task
    unfold NodeTask.exec NodeCall.handlePendingIncomingPackets
    dsimp only
    cases hqueue : (call.node.identity.popIncomingPendingPackets peer).1 with
    | nil => exact .done _
    | cons pkt packets =>
      rw [hqueue, List.length_cons] at hsum
      rw [hqueue] at hpackets
      -- the nested handling has fewer packets left to take
      exact foldl_handleWith_alone (ih _ (by omega) (by omega)) hpop.receiving (le_refl _)
        (handlePending_settles env router (by omega) (by omega)) _ (hpop.keys peer hkey) fun p hp =>
          (hpackets p hp).1

end Alone

/-- A call whose steps nothing comes between does what the node's function does. -/
theorem call_runsAlone (lib : Libraries) {ca : Bytes} {node : NodeState}
    (hsound : Sound (fun _ _ => True) ca node) (env : StepEnv) (router : RouterState)
    (event : NodeEvent) (hrouter : ∀ r pkt, event = .incoming r pkt → r = router) :
    RunsAlone env router lib { node } [.call event] (node.call lib env event) := by
  cases event with
  | incoming r pkt =>
    obtain rfl := hrouter r pkt rfl
    have hhandling : Handling lib ca node.identity.myPrivateKey (identityRequests node) node :=
      ⟨hsound, rfl, fun _ hid => hid, fun _ _ _ p _ => bringsGoodKey_true _ _ _⟩
    exact runsAlone_task (handleWith_alone (handlePending_alone (Nat.lt_succ_self _)) hhandling
      (le_refl _) pkt)
  | sendMessage destId subtype serialized protocol => exact sendMessage_alone ..
  | sendRequestAsync destId subtype serialized tag protocol => exact sendRequestAsync_alone ..
  | requestTimeout reqId =>
    apply runsAlone_last
    unfold NodeTask.exec NodeTask.start NodeState.call
    dsimp only
    split <;> rfl
  | broadcastTimeout reqId =>
    apply runsAlone_last
    unfold NodeTask.exec NodeTask.start NodeState.call
    dsimp only
    split_ifs <;> rfl
  | _ => exact runsAlone_last rfl

/-- Every call of a node in a run of it is one of the interleavings. -/
theorem call_of_pool {lib : Libraries} {ca : Bytes} {node₀ node : NodeState}
    (h₀ : Sound (fun _ _ => True) ca node₀)
    (hrun : Relation.ReflTransGen (NodeState.Moves lib fun _ _ => True) node₀ node) (env : StepEnv)
    (router : RouterState) (event : NodeEvent)
    (hrouter : ∀ r pkt, event = .incoming r pkt → r = router) :
    ∃ steps, EventRun.run (NodePool.step lib) (NodePool.create node)
      (.start event :: List.replicate steps (.advance 0 (env, router))) =
        ⟨node.call lib env event, [[]]⟩ := by
  have halone := call_runsAlone lib (run_sound h₀ hrun) env router event hrouter
  let pool : NodePool := ⟨{ node }, [[.call event]]⟩
  have hstack : pool.threads[0]? = some [.call event] := rfl
  exact Completes.run halone hstack

end MeshNetwork.Proofs
