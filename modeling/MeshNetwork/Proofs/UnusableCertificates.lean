import MeshNetwork.Proofs.KeyExchange

/-!
# Certificates without a key

A certificate from which no key can be extracted yields the empty string, which is then stored as
the key of its sender. With it the packets that wait for the key can neither be decrypted nor
encrypted, so they are dropped.
-/

namespace MeshNetwork.Proofs

/-! ## Packets that wait to be decrypted -/

/-- Every packet that waits to be decrypted is encrypted, and is from the peer under which it
waits. -/
def SealedWaiting (node : NodeState) : Prop :=
  ∀ src, ∀ pkt ∈ waiting node.identity src .incoming, pkt.fromPeerId = src ∧
    pkt.hasEncryptedPayload = true

lemma SealedWaiting.of_eq {node node' : NodeState} (h : SealedWaiting node)
    (hincoming : node'.identity.pendingIncomingPackets = node.identity.pendingIncomingPackets) :
    SealedWaiting node' := by
  unfold SealedWaiting waiting at h ⊢
  rw [hincoming]
  exact h

lemma SealedWaiting.popIncoming {node : NodeState} (h : SealedWaiting node) (peer : PeerId) :
    SealedWaiting { node with identity := (node.identity.popIncomingPendingPackets peer).2 } := by
  intro src pkt hpkt
  rw [popIncoming_eq] at hpkt
  dsimp only [waiting] at hpkt
  rw [UMap.lookup_erase_eq] at hpkt
  split_ifs at hpkt
  · exact absurd hpkt List.not_mem_nil
  · exact h src pkt hpkt

section Calls

variable {lib : Libraries} (env : StepEnv) (router : RouterState)

lemma bufferIncoming_sealed {call : NodeCall} (h : SealedWaiting call.node) {pkt : RoutedPacket}
    (hencrypted : pkt.hasEncryptedPayload = true) :
    SealedWaiting (call.bufferIncoming lib env pkt).node := by
  have hquiet := askIdentity_quiet lib env
    (call.setIdentity (call.node.identity.bufferIncomingPacket pkt.fromPeerId pkt)) pkt.fromPeerId
  refine SealedWaiting.of_eq (fun src p hp => ?_) hquiet.incoming
  dsimp only [waiting, NodeCall.setIdentity, IdentityManager.bufferIncomingPacket] at hp
  rw [UMap.lookup_insert_eq] at hp
  split_ifs at hp with hsrc
  · rcases List.mem_append.mp hp with hold | hnew
    · rw [hsrc]
      exact h pkt.fromPeerId p hold
    · rw [List.mem_singleton.mp hnew, hsrc]
      exact ⟨rfl, hencrypted⟩
  · exact h src p hp

section Pending

variable {pending : NodeCall → PeerId → NodeCall}
  (hpending : ∀ call peer, SealedWaiting call.node → SealedWaiting (pending call peer).node)
  {call : NodeCall}
  (h : SealedWaiting call.node)

include hpending h

lemma learnKey_sealed (peer : PeerId) (cert : Bytes) :
    SealedWaiting (call.learnKey lib env pending peer cert).node := by
  have hadded : SealedWaiting (call.setIdentity (call.node.identity.addTrustedPeer peer
      (extractPubkeyFromCert lib.toOpenSsl cert))).node := h.of_eq rfl
  exact (hpending _ peer hadded).of_eq (handlePendingOutgoing_quiet lib env _ peer).1.incoming

lemma runCallback_sealed (cb : RequestCallback) (sender : PeerId) (rawBytes : Bytes) :
    SealedWaiting (call.runCallback lib env pending cb sender rawBytes).node := by
  unfold NodeCall.runCallback
  cases cb with
  | application tag => exact h.of_eq rfl
  | identityResponse =>
    dsimp only
    cases lib.parseIdentity rawBytes with
    | none => exact h
    | some cert => exact learnKey_sealed env hpending h sender cert

lemma runHandler_sealed (info : HandlerInfo) (pkt : RoutedPacket) :
    SealedWaiting (call.runHandler lib env router pending info pkt).node := by
  unfold NodeCall.runHandler
  cases info.handler with
  | topologyRequest =>
    dsimp only
    split_ifs
    · rw [reply_node]
      exact h
    · exact h
  | pingRequest =>
    dsimp only
    cases lib.parsePing pkt.binaryData with
    | none => exact h
    | some message =>
      rw [reply_node]
      exact h
  | identityRequest =>
    dsimp only
    cases lib.parseIdentity pkt.binaryData with
    | none => exact h
    | some cert =>
      rw [reply_node]
      exact learnKey_sealed env hpending h pkt.fromPeerId cert
  | heartbeat => exact h
  | application replies =>
    rw [foldl_reply_node]
    exact h.of_eq rfl

lemma dispatch_sealed (pkt : RoutedPacket) :
    SealedWaiting (call.dispatch lib env router pending pkt).node := by
  cases hlookup : call.node.requestTracker.pendingRequests.lookup (toHex pkt.id) with
  | some cb =>
    have herased : SealedWaiting (call.setTracker { call.node.requestTracker with
      pendingRequests := call.node.requestTracker.pendingRequests.erase (toHex pkt.id) }).node :=
        h.of_eq rfl
    rw [dispatch_request env router pending hlookup]
    exact runCallback_sealed env hpending herased cb pkt.fromPeerId pkt.binaryData
  | none =>
    by_cases hbroadcast : toHex pkt.id ∈ call.node.requestTracker.broadcasts
    · rw [dispatch_broadcast env router pending hlookup hbroadcast]
      exact h.of_eq rfl
    · rw [dispatch_new env router pending hlookup hbroadcast]
      split_ifs
      · cases call.node.handlers.lookup pkt.subtype with
        | none => exact h
        | some info => exact runHandler_sealed env router hpending h info pkt
      · exact h

lemma handleWith_sealed (pkt : RoutedPacket) :
    SealedWaiting (call.handleWith lib env router pending pkt).1.node := by
  unfold NodeCall.handleWith
  split_ifs with hignore hencrypted hunknown
  · exact h
  · exact bufferIncoming_sealed env h hencrypted
  · cases decryptPacket lib.toOpenSsl call.node.identity pkt with
    | error message => exact h
    | ok plaintext => exact dispatch_sealed env router hpending h _
  · exact dispatch_sealed env router hpending h pkt

end Pending

lemma handlePending_sealed (depth : Nat) (call : NodeCall) (peer : PeerId)
    (h : SealedWaiting call.node) :
    SealedWaiting (NodeCall.handlePendingIncomingPackets lib env router depth call peer).node := by
  induction depth generalizing call peer with
  | zero => exact h
  | succ depth ih =>
    have hpop : SealedWaiting (call.setIdentity
        (call.node.identity.popIncomingPendingPackets peer).2).node :=
      h.popIncoming peer
    unfold NodeCall.handlePendingIncomingPackets
    dsimp only
    generalize call.setIdentity (call.node.identity.popIncomingPendingPackets peer).2 = rest at hpop
    generalize (call.node.identity.popIncomingPendingPackets peer).1 = packets
    induction packets generalizing rest with
    | nil => exact hpop
    | cons pkt packets ihp => exact ihp _ (handleWith_sealed env router ih hpop pkt)

/-- Only the arrival of a packet changes which packets wait to be decrypted. -/
lemma call_incoming_eq (node : NodeState) {event : NodeEvent}
    (hevent : ∀ r pkt, event ≠ .incoming r pkt) :
    (node.call lib env event).node.identity.pendingIncomingPackets =
      node.identity.pendingIncomingPackets := by
  cases event with
  | incoming r pkt => exact absurd rfl (hevent r pkt)
  | sendMessage destId subtype serialized protocol =>
    exact (sendMessage_quiet lib env { node } ..).incoming
  | sendRequestAsync destId subtype serialized tag protocol =>
    exact (sendRequestAsync_quiet lib env { node } ..).incoming
  | requestTimeout reqId =>
    unfold NodeState.call
    dsimp only
    split <;> rfl
  | broadcastTimeout reqId =>
    unfold NodeState.call
    dsimp only
    split_ifs <;> rfl
  | _ => rfl

lemma call_sealed {node : NodeState} (h : SealedWaiting node) (event : NodeEvent) :
    SealedWaiting (node.call lib env event).node := by
  by_cases hevent : ∀ r pkt, event ≠ .incoming r pkt
  · exact h.of_eq (call_incoming_eq env node hevent)
  · push Not at hevent
    obtain ⟨r, pkt, rfl⟩ := hevent
    exact handleWith_sealed env r (handlePending_sealed env r _) h pkt

lemma run_sealed {node₀ node : NodeState} (h₀ : SealedWaiting node₀)
    (hrun : Relation.ReflTransGen (NodeState.Moves lib fun _ _ => True) node₀ node) :
    SealedWaiting node := by
  induction hrun with
  | refl => exact h₀
  | tail _ hstep ih =>
    obtain ⟨env, event, -, rfl⟩ := hstep
    exact call_sealed env ih event

/-! ## The empty key -/

lemma handleWith_unusable (pending : NodeCall → PeerId → NodeCall) {call : NodeCall}
    {pkt : RoutedPacket} (hkey : call.node.identity.trustedKeys.lookup pkt.fromPeerId = some [])
    (hencrypted : pkt.hasEncryptedPayload = true) :
    (call.handleWith lib env router pending pkt).1 = call := by
  have hknown : call.node.identity.hasKey pkt.fromPeerId = true := by
    simp [IdentityManager.hasKey, hkey]
  have hdecrypt : decryptPacket lib.toOpenSsl call.node.identity pkt =
      .error "sender identity unknown." := by
    simp [decryptPacket, IdentityManager.getPublicKey, hkey]
  unfold NodeCall.handleWith
  by_cases hignore : call.node.ignoreAllIncomingMessages = true
  · rw [if_pos hignore]
  · rw [if_neg hignore, if_pos hencrypted, if_neg (by simp [hknown]), hdecrypt]

/-- The packets that wait are taken out of the buffer and dropped. -/
lemma handlePending_unusable {call : NodeCall} {peer : PeerId}
    (hkey : call.node.identity.trustedKeys.lookup peer = some []) (h : SealedWaiting call.node)
    (depth : Nat) :
    NodeCall.handlePendingIncomingPackets lib env router (depth + 1) call peer =
      call.setIdentity { call.node.identity with
        pendingIncomingPackets := call.node.identity.pendingIncomingPackets.erase peer } := by
  have hpackets : ∀ pkt ∈ waiting call.node.identity peer .incoming,
      pkt.fromPeerId = peer ∧ pkt.hasEncryptedPayload = true := h peer
  unfold NodeCall.handlePendingIncomingPackets
  rw [popIncoming_eq]
  dsimp only
  change (waiting call.node.identity peer .incoming).foldl _ _ = _
  generalize waiting call.node.identity peer .incoming = packets at hpackets
  induction packets with
  | nil => rfl
  | cons pkt packets ih =>
    obtain ⟨hfrom, hencrypted⟩ := hpackets pkt List.mem_cons_self
    rw [List.foldl_cons, handleWith_unusable env router _ (by rw [hfrom]; exact hkey) hencrypted]
    exact ih fun p hp => hpackets p (List.mem_cons_of_mem pkt hp)

lemma handlePendingOutgoing_identity (call : NodeCall) (dest : PeerId) :
    (call.handlePendingOutgoingPackets lib env dest).node.identity =
      { call.node.identity with
        pendingOutgoingPackets := call.node.identity.pendingOutgoingPackets.erase dest } := by
  have hnode : (call.handlePendingOutgoingPackets lib env dest).node =
      { call.node with identity := (call.node.identity.popOutgoingPendingPackets dest).2 } :=
    foldl_sendPending_node lib env _ _
  rw [hnode, popOutgoing_eq]

/-- The identity manager after an unusable certificate of `peer`. -/
def withoutKey (im : IdentityManager) (peer : PeerId) : IdentityManager :=
  { im with
    trustedKeys := im.trustedKeys.insert peer []
    pendingIncomingPackets := im.pendingIncomingPackets.erase peer
    pendingOutgoingPackets := im.pendingOutgoingPackets.erase peer }

lemma learnKey_unusable (call : NodeCall) (h : SealedWaiting call.node) (depth : Nat)
    (peer : PeerId) {cert : Bytes} (hcert : extractPubkeyFromCert lib.toOpenSsl cert = []) :
    (call.learnKey lib env (NodeCall.handlePendingIncomingPackets lib env router (depth + 1)) peer
      cert).node.identity =
      withoutKey call.node.identity peer := by
  have hsealed : SealedWaiting (call.setIdentity
      (call.node.identity.addTrustedPeer peer [])).node := h.of_eq rfl
  have hkey : (call.setIdentity (call.node.identity.addTrustedPeer peer
      [])).node.identity.trustedKeys.lookup peer =
    some [] := AList.lookup_insert _
  unfold NodeCall.learnKey
  dsimp only
  rw [hcert, handlePendingOutgoing_identity, handlePending_unusable env router hkey hsealed]
  rfl

/-! ## Identity messages -/

/-- The packet that is dispatched when `pkt` arrives. -/
def dispatched (lib : Libraries) (node : NodeState) (pkt : RoutedPacket) : Option RoutedPacket :=
  if node.ignoreAllIncomingMessages then none
  else if pkt.hasEncryptedPayload then
    if node.identity.hasKey pkt.fromPeerId then
      (decryptPacket lib.toOpenSsl node.identity pkt).toOption.map (NodeCall.decrypted pkt)
    else none
  else some pkt

/-- The packet is handled as an identity request, or as the response to one, with the certificate
`cert`. -/
inductive IdentityMessage (lib : Libraries) (node : NodeState) (cert : Bytes)
    (pkt : RoutedPacket) : Prop
  | request {info : HandlerInfo}
      (hreply : node.requestTracker.pendingRequests.lookup (toHex pkt.id) = none)
      (hbroadcast : toHex pkt.id ∉ node.requestTracker.broadcasts) (htype : pkt.type = .binary)
      (hlookup : node.handlers.lookup pkt.subtype = some info)
      (hhandler : info.handler = .identityRequest)
      (hparse : lib.parseIdentity pkt.binaryData = some cert) : IdentityMessage lib node cert pkt
  | response
      (hreply : node.requestTracker.pendingRequests.lookup (toHex pkt.id) = some .identityResponse)
      (hparse : lib.parseIdentity pkt.binaryData = some cert) : IdentityMessage lib node cert pkt

lemma handleWith_dispatched (pending : NodeCall → PeerId → NodeCall) (call : NodeCall)
    {pkt p : RoutedPacket} (h : dispatched lib call.node pkt = some p) :
    (call.handleWith lib env router pending pkt).1 = call.dispatch lib env router pending p ∧
      p.fromPeerId = pkt.fromPeerId := by
  unfold dispatched at h
  unfold NodeCall.handleWith
  by_cases hignore : call.node.ignoreAllIncomingMessages = true
  · rw [if_pos hignore] at h
    cases h
  · rw [if_neg hignore] at h ⊢
    by_cases hencrypted : pkt.hasEncryptedPayload = true
    · rw [if_pos hencrypted] at h ⊢
      by_cases hknown : call.node.identity.hasKey pkt.fromPeerId = true
      · rw [if_pos hknown] at h
        rw [if_neg (by simp [hknown])]
        cases hdecrypt : decryptPacket lib.toOpenSsl call.node.identity pkt with
        | error message =>
          rw [hdecrypt] at h
          cases h
        | ok plaintext =>
          rw [hdecrypt] at h
          cases h
          exact ⟨rfl, rfl⟩
      · rw [if_neg hknown] at h
        cases h
    · rw [if_neg hencrypted] at h ⊢
      cases h
      exact ⟨rfl, rfl⟩

lemma dispatch_unusable (call : NodeCall) (h : SealedWaiting call.node) (depth : Nat)
    {pkt : RoutedPacket} {cert : Bytes} (hmessage : IdentityMessage lib call.node cert pkt)
    (hcert : extractPubkeyFromCert lib.toOpenSsl cert = []) :
    (call.dispatch lib env router (NodeCall.handlePendingIncomingPackets lib env router (depth + 1))
      pkt).node.identity =
      withoutKey call.node.identity pkt.fromPeerId := by
  cases hmessage with
  | @request info hreply hbroadcast htype hlookup hhandler hparse =>
    rw [dispatch_new env router _ hreply hbroadcast, if_pos htype, hlookup]
    dsimp only [Option.elim, NodeCall.runHandler]
    rw [hhandler]
    dsimp only
    rw [hparse]
    dsimp only
    rw [reply_node]
    exact learnKey_unusable env router call h depth pkt.fromPeerId hcert
  | response hreply hparse =>
    have herased : SealedWaiting (call.setTracker { call.node.requestTracker with
      pendingRequests := call.node.requestTracker.pendingRequests.erase (toHex pkt.id) }).node :=
        h.of_eq rfl
    rw [dispatch_request env router _ hreply]
    dsimp only [NodeCall.runCallback]
    rw [hparse]
    exact learnKey_unusable env router _ herased depth pkt.fromPeerId hcert

end Calls

/-- Two nodes trust the same keys, and the same packets wait in their buffers. -/
structure SameStore (node node' : NodeState) : Prop where
  keys : ∀ p, node'.identity.trustedKeys.lookup p = node.identity.trustedKeys.lookup p
  packets : ∀ p dir, waiting node'.identity p dir = waiting node.identity p dir

lemma waiting_withoutKey (im : IdentityManager) (peer p : PeerId) (dir : Direction) :
    waiting (withoutKey im peer) p dir = if p = peer then [] else waiting im p dir := by
  cases dir with
  | incoming =>
    dsimp only [waiting, withoutKey]
    rw [UMap.lookup_erase_eq]
    split_ifs <;> rfl
  | outgoing =>
    dsimp only [waiting, withoutKey]
    rw [UMap.lookup_erase_eq]
    split_ifs <;> rfl

lemma sameStore_withoutKey {node node' : NodeState} {peer : PeerId}
    (h : node'.identity = withoutKey node.identity peer) :
    SameStore node node' ↔ node.identity.trustedKeys.lookup peer = some [] ∧
      ∀ dir, waiting node.identity peer dir = [] := by
  have hkeys (p : PeerId) : node'.identity.trustedKeys.lookup p =
      if p = peer then some [] else node.identity.trustedKeys.lookup p := by
    rw [h]
    exact UMap.lookup_insert_eq ..
  have hpackets (p : PeerId) (dir : Direction) : waiting node'.identity p dir =
      if p = peer then [] else waiting node.identity p dir := by
    rw [h]
    exact waiting_withoutKey ..
  constructor
  · intro hsame
    refine ⟨?_, fun dir => ?_⟩
    · rw [← hsame.keys, hkeys, if_pos rfl]
    · rw [← hsame.packets, hpackets, if_pos rfl]
  · rintro ⟨hkey, hnone⟩
    refine ⟨fun p => ?_, fun p dir => ?_⟩
    · rw [hkeys]
      split_ifs with hp
      · rw [hp, hkey]
      · rfl
    · rw [hpackets]
      split_ifs with hp
      · rw [hp, hnone]
      · rfl

/-- In every state of a node, an identity message without a usable certificate leaves the trusted
keys and the buffers as they were exactly if the key of its sender was the empty one already and no
packet waited for it. -/
theorem unusable_certificate_iff (lib : Libraries) {node₀ node : NodeState}
    (h₀ : ∀ src, waiting node₀.identity src .incoming = [])
    (hrun : Relation.ReflTransGen (NodeState.Moves lib fun _ _ => True) node₀ node) (env : StepEnv)
    (router : RouterState) {pkt p : RoutedPacket} {cert : Bytes}
    (hpkt : dispatched lib node pkt = some p) (hmessage : IdentityMessage lib node cert p)
    (hcert : extractPubkeyFromCert lib.toOpenSsl cert = []) :
    SameStore node (node.call lib env (.incoming router pkt)).node ↔
      node.identity.trustedKeys.lookup pkt.fromPeerId = some [] ∧
        ∀ dir, waiting node.identity pkt.fromPeerId dir = [] := by
  have hsealed : SealedWaiting node := by
    refine run_sealed (fun src pkt hwaiting => ?_) hrun
    rw [h₀] at hwaiting
    exact absurd hwaiting List.not_mem_nil
  obtain ⟨hcall, hfrom⟩ := handleWith_dispatched env router
    (NodeCall.handlePendingIncomingPackets lib env router (NodeCall.buffered { node } + 1))
    { node } hpkt
  apply sameStore_withoutKey
  unfold NodeState.call NodeCall.handleIncomingPacket
  dsimp only
  rw [hcall, ← hfrom]
  exact dispatch_unusable env router { node } hsealed _ hmessage hcert

/-! ## A node and a peer -/

/-- The open libraries, in which a certificate of another length than two cannot be read. -/
def readingLibraries : Libraries :=
  { openLibraries with readX509 := fun cert => if cert.length = 2 then some cert else none }

/-- A node after an identity request of "b" with the given certificate. -/
def requestedBy (cert : Bytes) (node : NodeState) : NodeCall :=
  node.call readingLibraries (plainEnv 0) (.incoming (RouterState.create "a" 0)
    (identityRequestOfB cert))

/-- A second unreadable certificate of the same peer. -/
theorem unusable_certificate_again :
    extractPubkeyFromCert readingLibraries.toOpenSsl [0] = [] ∧
      SameStore (requestedBy [0] loadedA).node
        (requestedBy [0] (requestedBy [0] loadedA).node).node := by
  have hrun : Relation.ReflTransGen (NodeState.Moves readingLibraries fun _ _ => True) loadedA
      (requestedBy [0] loadedA).node := .single ⟨plainEnv 0, _, trivial, rfl⟩
  have hmessage : IdentityMessage readingLibraries (requestedBy [0] loadedA).node [0]
      (identityRequestOfB [0]) :=
    .request rfl List.not_mem_nil rfl rfl rfl rfl
  refine ⟨rfl, (unusable_certificate_iff readingLibraries (fun _ => rfl) hrun (plainEnv 0)
    (RouterState.create "a" 0)
    rfl hmessage rfl).mpr ⟨by decide, fun dir => ?_⟩⟩
  cases dir <;> decide

/-- Node "a" after it has sent a message to "b" without its key. -/
def postponedToB : NodeState :=
  (loadedA.call readingLibraries (plainEnv 0) (.sendMessage "b" "Note" [42] .tcp)).node

/-- An unreadable certificate replaces the trusted key of "b", and takes the packet that waits for
its key out of the buffer; all that is sent is the answer to "b". -/
theorem unreadable_certificate_overwrites :
    extractPubkeyFromCert readingLibraries.toOpenSsl [0] = [] ∧
      (requestedBy [9, 2] loadedA).node.identity.trustedKeys.lookup "b" = some [2] ∧
      (requestedBy [0] (requestedBy [9, 2] loadedA).node).node.identity.trustedKeys.lookup
        "b" = some [] ∧
      (waiting postponedToB.identity "b" .outgoing).length = 1 ∧
      waiting (requestedBy [0] postponedToB).node.identity "b" .outgoing = [] ∧
      (requestedBy [0] postponedToB).sent.map RoutedPacket.subtype = [identityResponseSubtype] := by
  decide

end MeshNetwork.Proofs
