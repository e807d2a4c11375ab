import MeshNetwork.Proofs.PendingMessages
import MeshNetwork.Proofs.Traffic

/-!
# Nodes come to rest

The nodes answer requests, ask for keys, and keep packets until a key arrives. Each of these
exchanges items of work for lower ones: a packet that waits to be sent is above all packets under
way; a request is above the answer to it; an encrypted packet is above the request for the key of
its sender. A network of nodes therefore comes to rest when the applications send nothing. The
keep-alives that `RpcManager::send_heartbeats` sends each peer over UDP are no part of the model.
-/

namespace MeshNetwork.Proofs

open Quiescence

/-! ## Items -/

/-- Requests, encrypted packets, identity requests and plain packets. -/
def packetKind (pkt : RoutedPacket) : ℕ :=
  if pkt.expectResponse then if pkt.hasEncryptedPayload ∨
    pkt.subtype ≠ identityRequestSubtype then 6 else 3
  else if pkt.hasEncryptedPayload then 4 else 1

lemma packetKind_encrypted {pkt : RoutedPacket} (h : pkt.hasEncryptedPayload = true) :
    packetKind pkt = if pkt.expectResponse then 6 else 4 := by
  simp [packetKind, h]

/-- The rank of a packet that waits for the key of its sender. -/
def incomingRank (pkt : RoutedPacket) : ℕ := (if pkt.expectResponse then 5 else 2) * 2 ^ 33

/-- The rank of a packet that waits for the key of its destination. -/
def outgoingRank (_ : RoutedPacket) : ℕ := 7 * 2 ^ 33

def rankList (rank : RoutedPacket → ℕ) (packets : List RoutedPacket) : Multiset ℕ :=
  ↑(packets.map rank)

noncomputable def waitingLoad (rank : RoutedPacket → ℕ)
    (waiting : UMap PeerId (List RoutedPacket)) : Multiset ℕ :=
  total fun p => rankList rank ((waiting.lookup p).getD [])

noncomputable def heldBy (node : NodeState) : Multiset ℕ :=
  waitingLoad incomingRank node.identity.pendingIncomingPackets +
    waitingLoad outgoingRank node.identity.pendingOutgoingPackets

section Waiting

variable (rank : RoutedPacket → ℕ) (waiting : UMap PeerId (List RoutedPacket)) (p : PeerId)

lemma waiting_support_finite :
    (fun p => rankList rank ((waiting.lookup p).getD [])).support.Finite := by
  refine (List.finite_toSet waiting.keys).subset fun p hp => ?_
  by_contra hnone
  refine hp ?_
  dsimp only
  rw [AList.lookup_eq_none.mpr (fun hmem => hnone (AList.mem_keys.mp hmem))]
  rfl

lemma waitingLoad_insert (packets : List RoutedPacket) :
    waitingLoad rank (waiting.insert p packets) + rankList rank ((waiting.lookup p).getD []) =
      waitingLoad rank waiting + rankList rank packets := by
  have hupdate : (fun q => rankList rank (((waiting.insert p packets).lookup q).getD [])) =
      Function.update (fun q => rankList rank ((waiting.lookup q).getD [])) p
        (rankList rank packets) := by
    funext q
    rw [UMap.lookup_insert_eq]
    by_cases hq : q = p
    · subst hq
      rw [if_pos rfl, Function.update_self]
      rfl
    · rw [if_neg hq, Function.update_of_ne hq]
  unfold waitingLoad
  rw [hupdate]
  exact total_update (waiting_support_finite rank waiting) p _

lemma waitingLoad_erase :
    waitingLoad rank (waiting.erase p) + rankList rank ((waiting.lookup p).getD []) =
      waitingLoad rank waiting := by
  have hupdate : (fun q => rankList rank (((waiting.erase p).lookup q).getD [])) =
      Function.update (fun q => rankList rank ((waiting.lookup q).getD [])) p 0 := by
    funext q
    rw [UMap.lookup_erase_eq]
    by_cases hq : q = p
    · subst hq
      rw [if_pos rfl, Function.update_self]
      rfl
    · rw [if_neg hq, Function.update_of_ne hq]
  unfold waitingLoad
  rw [hupdate, total_update (waiting_support_finite rank waiting) p 0, add_zero]

/-- One more packet waits. -/
lemma waitingLoad_buffer (pkt : RoutedPacket) :
    waitingLoad rank (waiting.insert p ((waiting.lookup p).getD [] ++ [pkt])) =
      waitingLoad rank waiting + {rank pkt} := by
  have hinsert := waitingLoad_insert rank waiting p ((waiting.lookup p).getD [] ++ [pkt])
  have hsplit : rankList rank ((waiting.lookup p).getD [] ++ [pkt]) =
      {rank pkt} + rankList rank ((waiting.lookup p).getD []) := by
    unfold rankList
    rw [List.map_append, ← Multiset.coe_add, add_comm]
    rfl
  rw [hsplit, ← add_assoc] at hinsert
  exact add_right_cancel hinsert

end Waiting

/-! ## Calls -/

/-- What a call has sent so far, and what its node holds. -/
noncomputable def callLoad (call : NodeCall) : Multiset ℕ :=
  heldBy call.node + sentLoad packetKind call.sent

/-- Packets wait under the id of their sender, and identity requests are answered by identity
responses. -/
structure OrderlyNode (node : NodeState) : Prop where
  waiting : ∀ p, ∀ pkt ∈ (node.identity.pendingIncomingPackets.lookup p).getD [], pkt.fromPeerId = p
  identityReply : ∀ info, node.handlers.lookup identityRequestSubtype = some info →
    info.responseSubtype = some identityResponseSubtype

lemma OrderlyNode.of_quiet {node node' : NodeState} (h : OrderlyNode node)
    (hquiet : Quiet node node') : OrderlyNode node' :=
  ⟨by rw [hquiet.incoming]; exact h.waiting, by rw [hquiet.handlers]; exact h.identityReply⟩

/-- The items `X` and some of those of `call` have been exchanged for lower ones. -/
structure Lowers (X : Multiset ℕ) (call call' : NodeCall) : Prop where
  orderly : OrderlyNode call'.node
  keys : ∀ p, call.node.identity.hasKey p = true → call'.node.identity.hasKey p = true
  below : Below (callLoad call') (callLoad call + X)

lemma Lowers.trans {X Y : Multiset ℕ} {call call' call'' : NodeCall} (h : Lowers X call call')
    (h' : Lowers Y call' call'') : Lowers (X + Y) call call'' := by
  refine ⟨h'.orderly, fun p hp => h'.keys p (h.keys p hp), h'.below.trans ?_⟩
  rw [← add_assoc]
  exact Below.add_right h.below Y

lemma Lowers.refl (X : Multiset ℕ) {call : NodeCall} (horderly : OrderlyNode call.node) :
    Lowers X call call :=
  ⟨horderly, fun _ hp => hp, below_add _ _⟩

lemma Lowers.weaken {X Y : Multiset ℕ} {call call' : NodeCall} (h : Lowers X call call')
    (hXY : Below (callLoad call + X) (callLoad call + Y)) : Lowers Y call call' :=
  ⟨h.orderly, h.keys, h.below.trans hXY⟩

/-- A call that has only sent packets of ranks below `b`. -/
structure SendsBelow (b : ℕ) (call call' : NodeCall) : Prop where
  node : call'.node = call.node
  sent : ∃ packets, call'.sent = call.sent ++ packets ∧ ∀ p ∈ packets, sendRank packetKind p < b

namespace SendsBelow

variable {b b' : ℕ} {call call' call'' : NodeCall}

lemma refl (b : ℕ) (call : NodeCall) : SendsBelow b call call :=
  ⟨rfl, [], (List.append_nil _).symm, fun _ hp => absurd hp List.not_mem_nil⟩

lemma trans (h : SendsBelow b call call') (h' : SendsBelow b call' call'') :
    SendsBelow b call call'' := by
  obtain ⟨packets, hsent, hlt⟩ := h.sent
  obtain ⟨packets', hsent', hlt'⟩ := h'.sent
  refine ⟨h'.node.trans h.node, packets ++ packets', ?_, fun p hp => ?_⟩
  · rw [hsent', hsent, List.append_assoc]
  · exact (List.mem_append.mp hp).elim (hlt p) (hlt' p)

lemma congr_uuids {uuids : ℕ} (h : SendsBelow b { call with uuids } call') :
    SendsBelow b call call' := ⟨h.node, h.sent⟩

lemma load (h : SendsBelow b call call') :
    ∃ Y, callLoad call' = callLoad call + Y ∧ ∀ y ∈ Y, y < b := by
  obtain ⟨packets, hsent, hlt⟩ := h.sent
  refine ⟨sentLoad packetKind packets, ?_, fun y hy => ?_⟩
  · unfold callLoad sentLoad
    rw [h.node, hsent, List.map_append, ← Multiset.coe_add, add_assoc]
  · obtain ⟨p, hp, rfl⟩ := List.mem_map.mp (Multiset.mem_coe.mp hy)
    exact hlt p hp

lemma lowers (h : SendsBelow b call call') (horderly : OrderlyNode call.node) :
    Lowers {b} call call' := by
  obtain ⟨Y, hload, hlt⟩ := h.load
  refine ⟨h.node ▸ horderly, fun p hp => h.node ▸ hp, ?_⟩
  rw [hload]
  exact below_replace hlt

end SendsBelow

section Sending

variable (lib : Libraries) (env : StepEnv)

/-- An encrypted packet differs from the plain one in its payload only. -/
lemma securePacket_kind {ssl : OpenSsl} {im : IdentityManager} {nonces : Nonces}
    {pkt p : RoutedPacket} {target : PeerId} {payload : Bytes}
    (h : securePacket ssl im nonces pkt target payload = some p) :
    packetKind p = if pkt.expectResponse then 6 else 4 := by
  unfold securePacket at h
  split at h
  · cases h
  · split_ifs at h
    simp only [Option.bind_eq_bind, Option.bind_eq_some_iff, Option.some.injEq] at h
    obtain ⟨enc, -, key, -, signature, -, rfl⟩ := h
    exact packetKind_encrypted rfl

lemma secureAndSend_below {b : ℕ} (call : NodeCall) {pkt : RoutedPacket} (target : PeerId)
    (payload : Bytes) (hb : 5 * 2 ^ 33 ≤ b)
    (hrequest : pkt.expectResponse = true → 7 * 2 ^ 33 ≤ b) :
    SendsBelow b call (call.secureAndSend lib env pkt target payload) := by
  cases hsecured : securePacket lib.toOpenSsl call.node.identity (call.nonces env) pkt target
    payload with
  | none =>
    unfold NodeCall.secureAndSend NodeCall.secure
    rw [hsecured]
    exact ⟨rfl, [], (List.append_nil _).symm, fun _ hp => absurd hp List.not_mem_nil⟩
  | some p =>
    rw [secureAndSend_of_some lib env call hsecured]
    refine ⟨rfl, [p], rfl, fun q hq => ?_⟩
    obtain rfl := List.mem_singleton.mp hq
    have hkind := securePacket_kind hsecured
    unfold sendRank
    split_ifs at hkind with hexpects
    · have := hrequest hexpects
      omega
    · omega

/-- What the replies to a packet lie below. -/
def replyBound (responseSubtype : Option String) : ℕ :=
  (if responseSubtype = some identityResponseSubtype then 2 else 5) * 2 ^ 33

lemma reply_below {b : ℕ} {pkt : RoutedPacket} {responseSubtype : Option String}
    (hb : pkt.expectResponse = true → replyBound responseSubtype ≤ b) (call : NodeCall)
    (payload : Bytes) :
    SendsBelow b call (NodeCall.reply lib env pkt responseSubtype call payload) := by
  unfold NodeCall.reply NodeCall.makePacket
  dsimp only
  split_ifs with hno hencrypt
  · exact .refl b call
  · -- an encrypted reply is no identity response
    have hsubtype : responseSubtype ≠ some identityResponseSubtype := by
      rintro rfl
      exact hencrypt.2 (.inr rfl)
    have hbound := hb (by simpa using hno)
    unfold replyBound at hbound
    rw [if_neg hsubtype] at hbound
    exact SendsBelow.congr_uuids (secureAndSend_below lib env { call with uuids := call.uuids + 1 }
      pkt.fromPeerId payload hbound
      fun hfalse => absurd hfalse Bool.false_ne_true)
  · have hbound := hb (by simpa using hno)
    refine ⟨rfl, _, rfl, fun q hq => ?_⟩
    obtain rfl := List.mem_singleton.mp hq
    have hkind : packetKind
        { makeBinaryRoutedPacket (env.uuid call.uuids) call.node.peerId pkt.fromPeerId 15
            (responseSubtype.getD "") pkt.transport payload with
          id := pkt.id, payload := .binaryData payload } = 1 := rfl
    unfold sendRank
    unfold replyBound at hbound
    rw [hkind]
    split_ifs at hbound <;> omega

lemma foldl_reply_below {b : ℕ} {pkt : RoutedPacket} {responseSubtype : Option String}
    (hb : pkt.expectResponse = true → replyBound responseSubtype ≤ b) (payloads : List Bytes)
    (call : NodeCall) :
    SendsBelow b call (payloads.foldl (NodeCall.reply lib env pkt responseSubtype) call) := by
  induction payloads generalizing call with
  | nil => exact .refl b call
  | cons payload payloads ih => exact (reply_below lib env hb call payload).trans (ih _)

/-- The request for a key. -/
lemma askIdentity_lowers (call : NodeCall) (horderly : OrderlyNode call.node) (peerId : PeerId) :
    Lowers {3 * 2 ^ 33 + (2 ^ 33 - 1)} call (call.askIdentity lib env peerId) := by
  have hquiet := askIdentity_quiet lib env call peerId
  refine ⟨horderly.of_quiet hquiet, fun p hp => ?_, ?_⟩
  · unfold IdentityManager.hasKey
    rw [hquiet.trustedKeys]
    exact hp
  · obtain ⟨cooldowns, hshould⟩ := shouldSend_call env call peerId
    unfold NodeCall.askIdentity
    dsimp only
    rw [hshould]
    split_ifs
    · have hload : callLoad (NodeCall.sendIdentityRequest lib env
          { call with node := { call.node with idRequestCooldowns := cooldowns } } peerId) =
          callLoad call + {3 * 2 ^ 33 + (2 ^ 33 - 1)} := by
        unfold callLoad NodeCall.sendIdentityRequest NodeCall.sendPlainRequest sentLoad
        dsimp only [NodeCall.sendPacket, NodeCall.setTracker, NodeCall.makePacket]
        rw [List.map_append, ← Multiset.coe_add, add_assoc]
        rfl
      rw [hload]
    · exact below_add (callLoad call) _

/-- Each packet that waited for a key is exchanged for an encrypted one. -/
lemma handlePendingOutgoing_lowers (call : NodeCall) (horderly : OrderlyNode call.node)
    (dest : PeerId) :
    Lowers 0 call (call.handlePendingOutgoingPackets lib env dest) := by
  have hquiet := (handlePendingOutgoing_quiet lib env call dest).1
  refine ⟨horderly.of_quiet hquiet, fun p hp => ?_, ?_⟩
  · unfold IdentityManager.hasKey
    rw [hquiet.trustedKeys]
    exact hp
  · -- the loop: what remains to be sent has the rank of a waiting packet
    have hloop : ∀ (packets : List RoutedPacket) (call : NodeCall),
        Below (callLoad (packets.foldl (sendPending lib env) call))
          (callLoad call + rankList outgoingRank packets) := by
      intro packets
      induction packets with
      | nil => exact fun call => below_add _ _
      | cons pkt packets ih =>
        intro call
        have hsend : SendsBelow (outgoingRank pkt) call (sendPending lib env call pkt) := by
          refine secureAndSend_below lib env call _ _ ?_ fun _ => le_rfl
          unfold outgoingRank
          omega
        obtain ⟨Y, hload, hlt⟩ := hsend.load
        refine (ih _).trans ?_
        rw [hload, show rankList outgoingRank (pkt :: packets) = {outgoingRank pkt} +
          rankList outgoingRank packets from rfl, ← add_assoc]
        exact Below.add_right (below_replace hlt) _
    have hpop := hloop (call.node.identity.popOutgoingPendingPackets dest).1
      (call.setIdentity (call.node.identity.popOutgoingPendingPackets dest).2)
    have hload : callLoad (call.setIdentity (call.node.identity.popOutgoingPendingPackets dest).2) +
        rankList outgoingRank (call.node.identity.popOutgoingPendingPackets dest).1 =
          callLoad call := by
      rw [popOutgoing_eq]
      unfold callLoad heldBy NodeCall.setIdentity
      dsimp only
      rw [add_right_comm, add_assoc (waitingLoad incomingRank _), waitingLoad_erase]
    rw [hload] at hpop
    rw [add_zero]
    exact hpop

end Sending

/-! ## Incoming packets -/

section Receiving

variable (lib : Libraries) (env : StepEnv) (router : RouterState)
  {pending : NodeCall → PeerId → NodeCall}

/-- The packets that waited for the key of `p` are handled. -/
def Releases (pending : NodeCall → PeerId → NodeCall) : Prop :=
  ∀ call p, OrderlyNode call.node → call.node.identity.hasKey p = true →
    Lowers 0 call (pending call p)

lemma learnKey_lowers (hpending : Releases pending) (call : NodeCall)
    (horderly : OrderlyNode call.node) (peer : PeerId) (certificatePem : Bytes) :
    Lowers 0 call (call.learnKey lib env pending peer certificatePem) := by
  unfold NodeCall.learnKey
  dsimp only
  generalize extractPubkeyFromCert lib.toOpenSsl certificatePem = pubKey
  have hadded : Lowers 0 call (call.setIdentity
      (call.node.identity.addTrustedPeer peer pubKey)) := by
    refine ⟨⟨horderly.waiting, horderly.identityReply⟩, fun p hp => ?_, ?_⟩
    · unfold NodeCall.setIdentity IdentityManager.addTrustedPeer IdentityManager.hasKey
      dsimp only
      rw [UMap.lookup_insert_eq]
      split_ifs
      · rfl
      · exact hp
    · exact below_add _ _
  have hkey : (call.setIdentity (call.node.identity.addTrustedPeer peer
      pubKey)).node.identity.hasKey peer = true := by
    unfold NodeCall.setIdentity IdentityManager.addTrustedPeer IdentityManager.hasKey
    dsimp only
    rw [AList.lookup_insert]
    rfl
  have hreleased := hpending _ peer hadded.orderly hkey
  exact (hadded.trans hreleased).trans (handlePendingOutgoing_lowers lib env _
    hreleased.orderly peer)

lemma runHandler_lowers (hpending : Releases pending) {b : ℕ} {info : HandlerInfo}
    {pkt : RoutedPacket} (hb : pkt.expectResponse = true → replyBound info.responseSubtype ≤ b)
    (call : NodeCall) (horderly : OrderlyNode call.node) :
    Lowers {b} call (call.runHandler lib env router pending info pkt) := by
  unfold NodeCall.runHandler
  cases info.handler with
  | topologyRequest =>
    dsimp only
    split_ifs
    · exact (reply_below lib env hb call _).lowers horderly
    · exact .refl _ horderly
  | pingRequest =>
    cases lib.parsePing pkt.binaryData with
    | none => exact .refl _ horderly
    | some message => exact (reply_below lib env hb call _).lowers horderly
  | identityRequest =>
    cases lib.parseIdentity pkt.binaryData with
    | none => exact .refl _ horderly
    | some certificatePem =>
      have hlearned := learnKey_lowers lib env hpending call horderly pkt.fromPeerId certificatePem
      have hreplied := hlearned.trans ((reply_below lib env hb _ (lib.serializeIdentity
        (call.learnKey lib env pending pkt.fromPeerId certificatePem).node.identity.myCert)).lowers
        hlearned.orderly)
      rw [zero_add] at hreplied
      exact hreplied
  | heartbeat => exact .refl _ horderly
  | application replies =>
    have hreplied := (foldl_reply_below lib env hb (replies pkt.fromPeerId pkt.binaryData)
      (call.record (.handler pkt.subtype pkt.fromPeerId pkt.binaryData))).lowers
      ⟨horderly.waiting, horderly.identityReply⟩
    exact ⟨hreplied.orderly, hreplied.keys, hreplied.below⟩

lemma runCallback_lowers (hpending : Releases pending) (call : NodeCall)
    (horderly : OrderlyNode call.node) (cb : RequestCallback) (sender : PeerId) (rawBytes : Bytes) :
    Lowers 0 call (call.runCallback lib env pending cb sender rawBytes) := by
  unfold NodeCall.runCallback
  cases cb with
  | application tag =>
    exact ⟨⟨horderly.waiting, horderly.identityReply⟩, fun _ hp => hp, below_add _ _⟩
  | identityResponse =>
    cases lib.parseIdentity rawBytes with
    | none => exact .refl _ horderly
    | some certificatePem =>
      exact learnKey_lowers lib env hpending call horderly sender certificatePem

lemma dispatch_lowers (hpending : Releases pending) {b : ℕ} {pkt : RoutedPacket}
    (hb : pkt.expectResponse = true → (if pkt.subtype = identityRequestSubtype then 2 else 5) * 2 ^
      33 ≤ b) (call : NodeCall) (horderly : OrderlyNode call.node) :
    Lowers {b} call (call.dispatch lib env router pending pkt) := by
  cases hrequest : call.node.requestTracker.pendingRequests.lookup (toHex pkt.id) with
  | some cb =>
    rw [dispatch_request env router pending hrequest]
    have hcallback :=
      runCallback_lowers lib env hpending (call.setTracker { call.node.requestTracker with
      pendingRequests := call.node.requestTracker.pendingRequests.erase (toHex pkt.id) })
      ⟨horderly.waiting, horderly.identityReply⟩ cb pkt.fromPeerId pkt.binaryData
    exact ⟨hcallback.orderly, hcallback.keys,
      hcallback.below.trans (by rw [add_zero]; exact below_add _ _)⟩
  | none =>
    by_cases hbroadcast : toHex pkt.id ∈ call.node.requestTracker.broadcasts
    · rw [dispatch_broadcast env router pending hrequest hbroadcast]
      exact ⟨⟨horderly.waiting, horderly.identityReply⟩, fun _ hp => hp, below_add _ _⟩
    · rw [dispatch_new env router pending hrequest hbroadcast]
      split_ifs
      · cases hinfo : call.node.handlers.lookup pkt.subtype with
        | none => exact .refl _ horderly
        | some info =>
          refine runHandler_lowers lib env router hpending (fun hexpects => ?_) call horderly
          have hbound := hb hexpects
          unfold replyBound
          by_cases hidentity : pkt.subtype = identityRequestSubtype
          · rw [hidentity] at hinfo
            rw [if_pos hidentity] at hbound
            rw [if_pos (horderly.identityReply info hinfo)]
            exact hbound
          · rw [if_neg hidentity] at hbound
            split_ifs <;> omega
      · exact .refl _ horderly

lemma bufferIncoming_lowers (call : NodeCall) (horderly : OrderlyNode call.node)
    {pkt : RoutedPacket} (hencrypted : pkt.hasEncryptedPayload = true) :
    Lowers {packetKind pkt * 2 ^ 33} call (call.bufferIncoming lib env pkt) := by
  have hbuffered : Lowers {incomingRank pkt} call
      (call.setIdentity (call.node.identity.bufferIncomingPacket pkt.fromPeerId pkt)) := by
    refine ⟨⟨fun p q hq => ?_, horderly.identityReply⟩, fun _ hp => hp, ?_⟩
    · unfold NodeCall.setIdentity IdentityManager.bufferIncomingPacket at hq
      dsimp only at hq
      rw [UMap.lookup_insert_eq] at hq
      split_ifs at hq with hp
      · subst hp
        rcases List.mem_append.mp hq with hold | hnew
        · exact horderly.waiting _ q hold
        · rw [List.mem_singleton.mp hnew]
      · exact horderly.waiting p q hq
    · have hload : callLoad (call.setIdentity
          (call.node.identity.bufferIncomingPacket pkt.fromPeerId pkt)) =
          callLoad call + {incomingRank pkt} := by
        unfold callLoad heldBy NodeCall.setIdentity IdentityManager.bufferIncomingPacket
        dsimp only
        rw [waitingLoad_buffer, add_right_comm (waitingLoad incomingRank _), add_right_comm]
      rw [hload]
  refine (hbuffered.trans (askIdentity_lowers lib env _ hbuffered.orderly pkt.fromPeerId)).weaken
    (below_replace fun y hy => ?_)
  rw [packetKind_encrypted hencrypted]
  rcases Multiset.mem_add.mp hy with hy | hy
  · rw [Multiset.mem_singleton.mp hy]
    unfold incomingRank
    split_ifs <;> omega
  · rw [Multiset.mem_singleton.mp hy]
    split_ifs <;> omega

/-- A packet that comes from the router. -/
lemma handleWith_lowers (hpending : Releases pending) (call : NodeCall)
    (horderly : OrderlyNode call.node) (pkt : RoutedPacket) :
    Lowers {packetKind pkt * 2 ^ 33} call (call.handleWith lib env router pending pkt).1 := by
  unfold NodeCall.handleWith
  split_ifs with hignored hencrypted hkey
  · exact .refl _ horderly
  · exact bufferIncoming_lowers lib env call horderly hencrypted
  · cases decryptPacket lib.toOpenSsl call.node.identity pkt with
    | error _ => exact .refl _ horderly
    | ok plaintext =>
      refine dispatch_lowers lib env router hpending (fun hexpects => ?_) call horderly
      have hrequest : pkt.expectResponse = true := hexpects
      rw [packetKind_encrypted hencrypted, if_pos hrequest]
      split_ifs <;> omega
  · refine dispatch_lowers lib env router hpending (fun hexpects => ?_) call horderly
    unfold packetKind
    rw [if_pos hexpects]
    by_cases hidentity : pkt.subtype = identityRequestSubtype
    · rw [if_pos hidentity]
      split_ifs <;> omega
    · rw [if_neg hidentity, if_pos (.inr hidentity)]
      omega

/-- A packet that waited for the key of its sender. -/
lemma handleWith_waiting (hpending : Releases pending) (call : NodeCall)
    (horderly : OrderlyNode call.node) {pkt : RoutedPacket}
    (hkey : call.node.identity.hasKey pkt.fromPeerId = true) :
    Lowers {incomingRank pkt} call (call.handleWith lib env router pending pkt).1 := by
  have hrank : ∀ pkt' : RoutedPacket, pkt'.expectResponse = pkt.expectResponse →
      pkt'.expectResponse = true →
      (if pkt'.subtype = identityRequestSubtype then 2 else 5) * 2 ^ 33 ≤ incomingRank pkt := by
    intro pkt' hsame hexpects
    rw [hsame] at hexpects
    unfold incomingRank
    rw [if_pos hexpects]
    split_ifs <;> omega
  unfold NodeCall.handleWith
  split_ifs with hignored hencrypted hunknown
  · exact .refl _ horderly
  · rw [hkey] at hunknown
    exact absurd hunknown (by decide)
  · cases decryptPacket lib.toOpenSsl call.node.identity pkt with
    | error _ => exact .refl _ horderly
    | ok plaintext =>
      exact dispatch_lowers lib env router hpending (hrank (NodeCall.decrypted pkt plaintext) rfl)
        call horderly
  · exact dispatch_lowers lib env router hpending (hrank pkt rfl) call horderly

lemma handlePendingIncoming_releases (depth : ℕ) :
    Releases (NodeCall.handlePendingIncomingPackets lib env router depth) := by
  induction depth with
  | zero => exact fun call p horderly _ => .refl _ horderly
  | succ depth ih =>
    intro call src horderly hkey
    have hloop : ∀ (packets : List RoutedPacket) (call : NodeCall),
        (∀ pkt ∈ packets, pkt.fromPeerId = src) →
        OrderlyNode call.node → call.node.identity.hasKey src = true →
        Lowers (rankList incomingRank packets) call (packets.foldl (fun call pkt =>
          (call.handleWith lib env router (NodeCall.handlePendingIncomingPackets lib env router
            depth) pkt).1) call) := by
      intro packets
      induction packets with
      | nil => exact fun call _ horderly _ => .refl _ horderly
      | cons pkt packets ihPackets =>
        intro call hfrom horderly hkey
        have hknown : call.node.identity.hasKey pkt.fromPeerId = true := by
          rw [hfrom pkt List.mem_cons_self]
          exact hkey
        have hfirst := handleWith_waiting lib env router ih call horderly hknown
        exact hfirst.trans (ihPackets _ (fun q hq => hfrom q (List.mem_cons_of_mem pkt hq))
          hfirst.orderly
          (hfirst.keys src hkey))
    unfold NodeCall.handlePendingIncomingPackets
    rw [popIncoming_eq]
    dsimp only
    have hpopped := hloop ((call.node.identity.pendingIncomingPackets.lookup src).getD [])
      (call.setIdentity
      { call.node.identity with
        pendingIncomingPackets := call.node.identity.pendingIncomingPackets.erase src })
      (horderly.waiting src) ⟨fun p q hq => ?_, horderly.identityReply⟩ hkey
    · refine ⟨hpopped.orderly, hpopped.keys, hpopped.below.trans ?_⟩
      have hload : callLoad (call.setIdentity { call.node.identity with
          pendingIncomingPackets := call.node.identity.pendingIncomingPackets.erase src }) +
          rankList incomingRank ((call.node.identity.pendingIncomingPackets.lookup src).getD []) =
            callLoad call := by
        unfold callLoad heldBy NodeCall.setIdentity
        dsimp only
        rw [add_right_comm, add_right_comm (waitingLoad incomingRank _), waitingLoad_erase]
      rw [hload, add_zero]
    · unfold NodeCall.setIdentity at hq
      dsimp only at hq
      rw [UMap.lookup_erase_eq] at hq
      split_ifs at hq
      · exact absurd hq List.not_mem_nil
      · exact horderly.waiting p q hq

end Receiving

/-! ## Networks of nodes -/

section Nodes

variable (lib : Libraries)

lemma packetKind_decrypted (pkt : RoutedPacket) (plaintext : Bytes) :
    packetKind (NodeCall.decrypted pkt plaintext) ≤ packetKind pkt := by
  have hplain : (NodeCall.decrypted pkt plaintext).hasEncryptedPayload = false := rfl
  unfold packetKind
  rw [hplain]
  simp only [Bool.false_eq_true, false_or, if_false]
  change (if pkt.expectResponse = true then if pkt.subtype ≠ identityRequestSubtype then 6 else 3
    else 1) ≤ _
  split_ifs <;> first | omega | simp_all

lemma onPacketForMe_settles : SettlesTraffic packetKind heldBy OrderlyNode (onPacketForMe lib) := by
  have hlowers := fun env (node : NodeState) router pkt (horderly : OrderlyNode node) =>
    handleWith_lowers lib env router (handlePendingIncoming_releases lib env router
      (NodeCall.buffered { node } + 1)) { node } horderly pkt
  refine ⟨fun env node router pkt horderly => (hlowers env node router pkt horderly).orderly,
    fun env node router pkt => ⟨(onPacketForMe_keepsHeader lib env node router pkt).2, ?_⟩,
    fun env node router pkt horderly => ?_⟩
  · unfold onPacketForMe NodeCall.handleIncomingPacket NodeCall.handleWith
    dsimp only
    split_ifs
    · exact le_rfl
    · exact le_rfl
    · cases decryptPacket lib.toOpenSsl node.identity pkt with
      | error _ => exact le_rfl
      | ok plaintext => exact packetKind_decrypted pkt plaintext
    · exact le_rfl
  · have hbelow := (hlowers env node router pkt horderly).below
    have hstart : callLoad { node } = heldBy node := add_zero _
    rw [hstart] at hbelow
    exact hbelow

end Nodes

/-- An event of a network of nodes: one of the network, or a call of a node's functions. -/
inductive MeshEvent where
  | network (event : NetworkEvent)
  | node (x : PeerId) (event : NodeEvent)

def meshStep (lib : Libraries) (env : StepEnv) (net : Network NodeState) :
    MeshEvent → Network NodeState
  | .network event => net.step (fun _ => onPacketForMe lib) env event
  | .node x event => net.callNode lib env x event

/-- Events in which an application or the outside world sends something. -/
def MeshEvent.Sends : MeshEvent → Prop
  | .network event => Injects event
  | .node _ (.requestTimeout _) => False
  | .node _ (.broadcastTimeout _) => False
  | .node _ (.on _ _ _) => False
  | .node _ (.setBlockAllMessages _) => False
  | .node _ _ => True

/-- The built-in handler of identity requests stays in place. -/
def MeshEvent.KeepsIdentityHandler : MeshEvent → Prop
  | .node _ (.on subtype _ _) => subtype ≠ identityRequestSubtype
  | _ => True

section Steps

variable (lib : Libraries) (env : StepEnv) {net : Network NodeState} {event : MeshEvent}

/-- An expired timer sends nothing. -/
lemma timeout_call (node : NodeState) (reqId : String) :
    ((node.call lib env (.requestTimeout reqId)).sent = [] ∧
      Quiet node (node.call lib env (.requestTimeout reqId)).node ∧
      (node.call lib env (.requestTimeout reqId)).node.identity = node.identity) ∧
    ((node.call lib env (.broadcastTimeout reqId)).sent = [] ∧
      Quiet node (node.call lib env (.broadcastTimeout reqId)).node ∧
      (node.call lib env (.broadcastTimeout reqId)).node.identity = node.identity) := by
  constructor
  · dsimp only [NodeState.call, AsyncRequestTracker.completeRequest]
    cases node.requestTracker.pendingRequests.lookup reqId with
    | none => exact ⟨rfl, .of_identity rfl rfl, rfl⟩
    | some cb =>
      cases cb with
      | identityResponse => exact ⟨rfl, .of_identity rfl rfl, rfl⟩
      | application tag => exact ⟨rfl, .of_identity rfl rfl, rfl⟩
  · dsimp only [NodeState.call]
    split_ifs
    · exact ⟨rfl, .of_identity rfl rfl, rfl⟩
    · exact ⟨rfl, .of_identity rfl rfl, rfl⟩

/-- A call in which the application sends nothing. -/
lemma silent_call {x : PeerId} {event : NodeEvent} (h : ¬(MeshEvent.node x event).Sends)
    (node : NodeState) :
    (node.call lib env event).sent = [] ∧ (node.call lib env event).node.identity =
      node.identity := by
  cases event with
  | requestTimeout reqId =>
    obtain ⟨hsent, -, hidentity⟩ := (timeout_call lib env node reqId).1
    exact ⟨hsent, hidentity⟩
  | broadcastTimeout reqId =>
    obtain ⟨hsent, -, hidentity⟩ := (timeout_call lib env node reqId).2
    exact ⟨hsent, hidentity⟩
  | on subtype responseSubtype replies => exact ⟨rfl, rfl⟩
  | setBlockAllMessages block => exact ⟨rfl, rfl⟩
  | incoming router pkt => exact absurd trivial h
  | sendText remoteId text => exact absurd trivial h
  | sendMessage destId subtype serialized protocol => exact absurd trivial h
  | broadcastMessage subtype serialized protocol => exact absurd trivial h
  | sendRequestAsync destId subtype serialized tag protocol => exact absurd trivial h
  | broadcastRequest subtype serialized protocol => exact absurd trivial h

/-- Every call of a node's functions keeps its buffers in order. -/
lemma call_orderly {node : NodeState} (h : OrderlyNode node) {x : PeerId} {event : NodeEvent}
    (hevent : (MeshEvent.node x event).KeepsIdentityHandler) :
    OrderlyNode (node.call lib env event).node := by
  cases event with
  | incoming router pkt =>
    exact (handleWith_lowers lib env router (handlePendingIncoming_releases lib env router
      (NodeCall.buffered { node } + 1)) { node } h pkt).orderly
  | sendText remoteId text => exact ⟨h.waiting, h.identityReply⟩
  | sendMessage destId subtype serialized protocol =>
    exact h.of_quiet (sendMessage_quiet lib env { node } destId subtype serialized protocol)
  | broadcastMessage subtype serialized protocol => exact ⟨h.waiting, h.identityReply⟩
  | sendRequestAsync destId subtype serialized tag protocol =>
    exact h.of_quiet (sendRequestAsync_quiet lib env { node } destId subtype serialized
      tag protocol)
  | broadcastRequest subtype serialized protocol => exact ⟨h.waiting, h.identityReply⟩
  | requestTimeout reqId => exact h.of_quiet (timeout_call lib env node reqId).1.2.1
  | broadcastTimeout reqId => exact h.of_quiet (timeout_call lib env node reqId).2.2.1
  | on subtype responseSubtype replies =>
    refine ⟨h.waiting, fun info hinfo => ?_⟩
    unfold NodeState.call at hinfo
    dsimp only at hinfo
    rw [UMap.lookup_insert_eq, if_neg (Ne.symm hevent)] at hinfo
    exact h.identityReply info hinfo
  | setBlockAllMessages block => exact ⟨h.waiting, h.identityReply⟩

/-- The nodes are in order, and only finitely many things are under way or waiting. -/
structure Tidy (net : Network NodeState) : Prop where
  finite : FiniteTraffic packetKind heldBy net
  orderly : ∀ x, OrderlyNode (net.owners x)

lemma Tidy.apply (h : Tidy net) {x : PeerId} {r : List RouterOutput × NodeState × RouterState}
    (hr : OrderlyNode r.2.1) : Tidy (net.apply x r) := by
  obtain ⟨_, _, happly⟩ := apply_trafficLoad h.finite x
  refine ⟨(happly r).1, fun y => ?_⟩
  rw [apply_eq]
  by_cases hy : y = x
  · subst hy
    simp only [Function.update_self]
    exact hr
  · simp only [Function.update_of_ne hy]
    exact h.orderly y

lemma step_orderly {node : NodeState} (h : OrderlyNode node) (self : PeerId) (s : RouterState)
    (event : RouterEvent) :
    OrderlyNode (s.step (onPacketForMe lib) self env node event).2.1 := by
  have hsettles := onPacketForMe_settles lib
  cases event with
  | packetReceived src pkt => exact handlePacket_inv hsettles env h
  | peerConnected p => exact h
  | peerDisconnected p => exact h
  | maintenance => exact h
  | sendPacket pkt =>
    unfold RouterState.step RouterState.routeDataPacket
    dsimp only
    split_ifs
    · exact hsettles.keeps env node s pkt h
    · exact hsettles.keeps env node s pkt h
    · exact h
    · exact h

/-- Whatever happens, the network stays tidy. -/
lemma Tidy.step (h : Tidy net) (hevent : event.KeepsIdentityHandler) :
    Tidy (meshStep lib env net event) := by
  cases event with
  | node x event => exact h.apply (call_orderly lib env (h.orderly x) hevent)
  | network event =>
    change Tidy (net.step (fun _ => onPacketForMe lib) env event)
    cases event with
    | router x event => exact h.apply (step_orderly lib env (h.orderly x) x (net.routers x) event)
    | sendTriggeredUpdates x => exact h.apply (h.orderly x)
    | broadcastFullTable x => exact h.apply (h.orderly x)
    | deliver src dst index =>
      cases hpkt : (net.channel src dst)[index]? with
      | none =>
        rw [step_deliver_none hpkt]
        exact h
      | some pkt =>
        rw [step_deliver_some hpkt]
        exact Tidy.apply ⟨(take_trafficLoad h.finite hpkt).1, h.orderly⟩
          (handlePacket_inv (onPacketForMe_settles lib) env (h.orderly dst))

lemma heldBy_identity {node node' : NodeState} (h : node'.identity = node.identity) :
    heldBy node' = heldBy node := by
  unfold heldBy
  rw [h]

/-- As long as nobody sends anything new, the traffic does not grow, and it shrinks with each
delivery. -/
lemma Tidy.traffic (h : Tidy net) (hevent : event.KeepsIdentityHandler) (hsilent : ¬event.Sends) :
    TrafficStep packetKind heldBy OrderlyNode net (meshStep lib env net event) ∧
      ∀ netEvent, event = .network netEvent → DeliversData net netEvent →
        StrictlyBelow (trafficLoad packetKind heldBy (meshStep lib env net event))
          (trafficLoad packetKind heldBy net) := by
  have hsettles : ∀ x : PeerId, SettlesTraffic packetKind heldBy OrderlyNode (onPacketForMe lib) :=
    fun _ => onPacketForMe_settles lib
  have hkind : ∀ p ttl, packetKind { p with ttl } = packetKind p := fun _ _ => rfl
  cases event with
  | network event =>
    refine ⟨step_traffic hsettles hkind h.orderly h.finite hsilent, ?_⟩
    rintro netEvent hnet ⟨src, dst, index, pkt, hdeliver, hpkt, hdata⟩
    obtain rfl := MeshEvent.network.inj hnet
    subst hdeliver
    exact (deliver_data hsettles hkind h.orderly h.finite hpkt hdata).2
  | node x event =>
    refine ⟨?_, fun netEvent hnet => nomatch hnet⟩
    have hnext := h.step lib env hevent
    refine ⟨hnext.finite, hnext.orderly, ?_⟩
    obtain ⟨rest, hload, happly⟩ := apply_trafficLoad h.finite x
    obtain ⟨hsent, hidentity⟩ := silent_call lib env hsilent (net.owners x)
    unfold meshStep Network.callNode
    dsimp only
    rw [(happly _).2, hsent, heldBy_identity hidentity, hload]
    unfold RouterState.sendOwnPackets
    rw [show outputLoad packetKind [] = 0 from rfl, zero_add]

end Steps

/-- The nodes have been created and started; packets may be under way on finitely many links. -/
structure Started (net : Network NodeState) : Prop where
  links : {link : PeerId × PeerId | net.channel link.1 link.2 ≠ []}.Finite
  incoming : ∀ x, (net.owners x).identity.pendingIncomingPackets = ∅
  outgoing : ∀ x, (net.owners x).identity.pendingOutgoingPackets = ∅
  handlers : ∀ x, (net.owners x).handlers = setupBuiltinHandlers

lemma waitingLoad_empty (rank : RoutedPacket → ℕ) : waitingLoad rank ∅ = 0 := by
  unfold waitingLoad total
  exact finsum_zero

lemma Started.tidy {net : Network NodeState} (h : Started net) : Tidy net := by
  refine ⟨⟨linkLoad_finite h.links, ?_⟩, fun x => ⟨fun p pkt hpkt => ?_, fun info hinfo => ?_⟩⟩
  · have hnone : (fun x => heldBy (net.owners x)) = 0 := by
      funext x
      unfold heldBy
      rw [h.incoming x, h.outgoing x, waitingLoad_empty, waitingLoad_empty]
      rfl
    rw [hnone, Function.support_zero]
    exact Set.finite_empty
  · rw [h.incoming x] at hpkt
    exact absurd hpkt List.not_mem_nil
  · rw [h.handlers x] at hinfo
    have hlookup : setupBuiltinHandlers.lookup identityRequestSubtype =
      some ⟨some identityResponseSubtype, .identityRequest⟩ := rfl
    rw [← Option.some.inj (hlookup.symm.trans hinfo)]

/-- However the nodes exchange identities, release packets that have waited for a key and answer
requests: once the applications are silent, the data traffic between the nodes, apart from the
keep-alives of `send_heartbeats`, ends. -/
theorem nodes_come_to_rest (lib : Libraries) (σ : ℕ → Network NodeState) (env : ℕ → StepEnv)
    (event : ℕ → MeshEvent) (hstart : Started (σ 0))
    (hstep : ∀ i, σ (i + 1) = meshStep lib (env i) (σ i) (event i))
    (hkeeps : ∀ i, (event i).KeepsIdentityHandler) (m : ℕ)
    (hsilent : ∀ i, m ≤ i → ¬(event i).Sends) :
    ∃ n, ∀ i, n ≤ i → (∀ netEvent, event i = .network netEvent → ¬DeliversData (σ i) netEvent) ∧
      ((∀ a b i, ∀ pkt ∈ (σ i).channel a b, pkt.type ≠ .routingUpdate → ∃ j index, i ≤ j ∧
          event j = .network (.deliver a b index) ∧ ((σ j).channel a b)[index]? = some pkt) →
        ∀ a b, ∀ pkt ∈ (σ i).channel a b, pkt.type = .routingUpdate) := by
  have htidy : ∀ i, Tidy (σ i) := by
    intro i
    induction i with
    | zero => exact hstart.tidy
    | succ i ih =>
      rw [hstep i]
      exact ih.step lib (env i) (hkeeps i)
  have hdies : ∃ n, ∀ i, n ≤ i →
      ¬∃ netEvent, event (m + i) = .network netEvent ∧ DeliversData (σ (m + i)) netEvent := by
    refine @traffic_dies_out NodeState packetKind heldBy OrderlyNode (fun i => σ (m + i)) _
      (htidy m).finite
      (htidy m).orderly fun i hfin horderly => ?_
    obtain ⟨hnext, hlower⟩ := Tidy.traffic lib (env (m + i)) ⟨hfin, horderly⟩ (hkeeps (m + i))
      (hsilent (m + i) (Nat.le_add_right m i))
    rw [← hstep (m + i)] at hnext hlower
    exact ⟨hnext, fun ⟨netEvent, hnet, hdelivers⟩ => hlower netEvent hnet hdelivers⟩
  obtain ⟨n, hn⟩ := hdies
  have hrest : ∀ i, m + n ≤ i → ∀ netEvent, event i = .network netEvent →
      ¬DeliversData (σ i) netEvent := by
    intro i hi netEvent hnet hdelivers
    have hidle := hn (i - m) (by omega)
    rw [Nat.add_sub_cancel' (by omega)] at hidle
    exact hidle ⟨netEvent, hnet, hdelivers⟩
  refine ⟨m + n, fun i hi => ⟨hrest i hi, fun hall a b pkt hpkt => ?_⟩⟩
  by_contra hdata
  obtain ⟨j, index, hij, hdeliver, hpkt'⟩ := hall a b i pkt hpkt hdata
  exact hrest j (hi.trans hij) _ hdeliver ⟨a, b, index, pkt, rfl, hpkt', hdata⟩

/-- The neighbours "a" and "b", who encrypt and do not know each other's keys. -/
def strangers : Network NodeState where
  routers x := (RouterState.create x 0).peerConnected x (plainEnv 0) (if x = "a" then "b" else "a")
  owners x :=
    { peerId := x, encryptMessages := true
      identity := { myPrivateKey := if x = "a" then [1] else [2] } }

/-- "a" sends "b" a message, and the packets between them are delivered in turn. -/
def strangersEvent : ℕ → MeshEvent
  | 0 => .node "a" (.sendMessage "b" "note" [1] .tcp)
  | i + 1 => .network (if i % 2 = 0 then .deliver "a" "b" 0 else .deliver "b" "a" 0)

def strangersRun : ℕ → Network NodeState
  | 0 => strangers
  | i + 1 => meshStep openLibraries (plainEnv 0) (strangersRun i) (strangersEvent i)

/-- The identity exchange before the first message. -/
theorem nodes_come_to_rest_strangers : ((strangersRun 1).channel "a" "b").length = 1 ∧
    ∃ n, ∀ i, n ≤ i → ∀ netEvent, strangersEvent i = .network netEvent → ¬DeliversData
      (strangersRun i) netEvent := by
  refine ⟨by decide +kernel, ?_⟩
  have hstart : Started strangers :=
    ⟨Set.finite_empty.subset fun link hlink => hlink rfl, fun _ => rfl, fun _ => rfl, fun _ => rfl⟩
  obtain ⟨n, hn⟩ := nodes_come_to_rest openLibraries strangersRun (fun _ => plainEnv 0)
    strangersEvent hstart
    (fun _ => rfl) (fun i => by cases i <;> exact trivial) 1 (fun i hi => by
      obtain ⟨j, rfl⟩ := Nat.exists_eq_succ_of_ne_zero (Nat.one_le_iff_ne_zero.mp hi)
      change ¬Injects (if j % 2 = 0 then _ else _)
      split_ifs <;> exact id)
  exact ⟨n, fun i hi => (hn i hi).1⟩

end MeshNetwork.Proofs
