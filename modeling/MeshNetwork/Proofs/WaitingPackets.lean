import MeshNetwork.Proofs.NodeCalls

/-!
# Packets that wait for a key

When a key arrives a node handles the packets that wait for it, and one of them may bring the next
key. Such a chain takes packets out of the buffer only, so its depth is bounded by their number, and
it keeps every property of the trusted keys that the arriving certificates have.
-/

namespace MeshNetwork.Proofs

/-! ## Invariants -/

/-- What a packet holds for the owner of `priv`. -/
def payloadFor (ssl : OpenSsl) (priv : Bytes) (pkt : RoutedPacket) : Option Bytes :=
  if pkt.hasEncryptedPayload then openPacket ssl { myPrivateKey := priv } pkt
    else some pkt.binaryData

/-- The identity requests that a node has sent and that are not answered. -/
def identityRequests (node : NodeState) : Set String :=
  {id | node.requestTracker.pendingRequests.lookup id = some .identityResponse}

/-- If `pkt` is an identity request, or the answer to one of `ids`, its key is a good one for its
sender. -/
def BringsGoodKey (lib : Libraries) (good : PeerId → Bytes → Prop) (priv : Bytes) (ids : Set String)
    (pkt : RoutedPacket) : Prop :=
  pkt.subtype = identityRequestSubtype ∨ toHex pkt.id ∈ ids →
    ∀ payload cert, payloadFor lib.toOpenSsl priv pkt = some payload →
      lib.parseIdentity payload = some cert →
      good pkt.fromPeerId (extractPubkeyFromCert lib.toOpenSsl cert)

/-- What holds of a node between its calls. -/
structure Sound (good : PeerId → Bytes → Prop) (ca : Bytes) (node : NodeState) : Prop where
  caRoot : node.identity.caRoot = ca
  keys : ∀ p key, node.identity.trustedKeys.lookup p = some key → good p key
  waiting : ∀ src packets, node.identity.pendingIncomingPackets.lookup src = some packets →
    ∀ p ∈ packets, p.fromPeerId = src
  handlers : ∀ subtype info, node.handlers.lookup subtype = some info →
    info.handler = .identityRequest → subtype = identityRequestSubtype

/-- What holds while the packets that wait for a key are handled. -/
structure Receiving (lib : Libraries) (good : PeerId → Bytes → Prop) (ca priv : Bytes)
    (ids : Set String) (node : NodeState) : Prop extends Sound good ca node where
  privateKey : node.identity.myPrivateKey = priv
  requests : identityRequests node ⊆ ids
  brings : ∀ src packets, node.identity.pendingIncomingPackets.lookup src = some packets →
    ∀ p ∈ packets, BringsGoodKey lib good priv ids p

section Chain

variable {lib : Libraries} {good : PeerId → Bytes → Prop} {ca priv : Bytes} {ids : Set String}

lemma Sound.quiet {node node' : NodeState} (h : Sound good ca node) (hq : Quiet node node') :
    Sound good ca node' := by
  constructor
  · rw [hq.caRoot]
    exact h.caRoot
  · rw [hq.trustedKeys]
    exact h.keys
  · rw [hq.incoming]
    exact h.waiting
  · rw [hq.handlers]
    exact h.handlers

lemma Receiving.quiet {node node' : NodeState} (h : Receiving lib good ca priv ids node)
    (hq : Quiet node node') (hids : identityRequests node' ⊆ identityRequests node) :
    Receiving lib good ca priv ids node' := by
  refine ⟨h.toSound.quiet hq, ?_, fun id hid => h.requests (hids hid), ?_⟩
  · rw [hq.privateKey]
    exact h.privateKey
  · rw [hq.incoming]
    exact h.brings

lemma identityRequests_subset {node node' : NodeState}
    (h : node'.requestTracker = node.requestTracker) :
    identityRequests node' ⊆ identityRequests node := by
  unfold identityRequests
  rw [h]

lemma Receiving.addKey {node : NodeState} (h : Receiving lib good ca priv ids node) {peer : PeerId}
    {key : Bytes} (hgood : good peer key) :
    Receiving lib good ca priv ids
      { node with identity := node.identity.addTrustedPeer peer key } := by
  refine ⟨⟨h.caRoot, fun p key' hkey => ?_, h.waiting, h.handlers⟩, h.privateKey,
    h.requests, h.brings⟩
  dsimp only [IdentityManager.addTrustedPeer] at hkey
  rw [UMap.lookup_insert_eq] at hkey
  split_ifs at hkey with hp
  · cases hkey
    rw [hp]
    exact hgood
  · exact h.keys p key' hkey

lemma hasKey_addTrustedPeer (im : IdentityManager) (peer p : PeerId) (key : Bytes) :
    (im.addTrustedPeer peer key).hasKey p = true ↔ p = peer ∨ im.hasKey p = true := by
  unfold IdentityManager.hasKey IdentityManager.addTrustedPeer
  dsimp only
  rw [UMap.lookup_insert_eq]
  split_ifs with hp
  · simp [hp]
  · simp [hp]

/-! ## The chain -/

/-- Two ways of handling packets from `call` on agree, keep the invariant and all keys, and add no
packet to those that wait. -/
structure Settles (lib : Libraries) (good : PeerId → Bytes → Prop) (ca priv : Bytes)
    (ids : Set String) (call r r' : NodeCall) : Prop where
  agree : r = r'
  receiving : Receiving lib good ca priv ids r.node
  keys : ∀ p, call.node.identity.hasKey p = true → r.node.identity.hasKey p = true
  buffered : r.buffered ≤ call.buffered

/-- Two ways of handling the packets that wait for the key of a peer agree as long as at most `n`
wait. -/
def HandlesPending (lib : Libraries) (good : PeerId → Bytes → Prop) (ca priv : Bytes)
    (ids : Set String) (n : Nat) (pending pending' : NodeCall → PeerId → NodeCall) : Prop :=
  ∀ call peer, Receiving lib good ca priv ids call.node → call.node.identity.hasKey peer = true →
    call.buffered ≤ n → Settles lib good ca priv ids call (pending call peer) (pending' call peer)

lemma Settles.rfl {call : NodeCall} (h : Receiving lib good ca priv ids call.node) :
    Settles lib good ca priv ids call call call :=
  ⟨Eq.refl call, h, fun _ hp => hp, le_refl call.buffered⟩

lemma Settles.trans {call r r' t t' : NodeCall} (h : Settles lib good ca priv ids call r r')
    (h' : Settles lib good ca priv ids r t t') : Settles lib good ca priv ids call t t' :=
  ⟨h'.agree, h'.receiving, fun p hp => h'.keys p (h.keys p hp), h'.buffered.trans h.buffered⟩

/-- A further step that leaves keys and waiting packets alone. -/
lemma Settles.quiet {call r r' : NodeCall} (h : Settles lib good ca priv ids call r r')
    (f : NodeCall → NodeCall) (hq : Quiet r.node (f r).node)
    (hids : identityRequests (f r).node ⊆ identityRequests r.node) :
    Settles lib good ca priv ids call (f r) (f r') := by
  refine ⟨congrArg f h.agree, h.receiving.quiet hq hids, fun p hp => ?_, ?_⟩
  · have hkey := h.keys p hp
    unfold IdentityManager.hasKey at hkey ⊢
    rw [hq.trustedKeys]
    exact hkey
  · have hle := h.buffered
    unfold NodeCall.buffered at hle ⊢
    rw [hq.incoming]
    exact hle

lemma Settles.map {call r r' : NodeCall} (h : Settles lib good ca priv ids call r r')
    {f : NodeCall → NodeCall} (hf : ∀ c, (f c).node = c.node) :
    Settles lib good ca priv ids call (f r) (f r') := by
  apply h.quiet f
  · rw [hf]
    exact .of_identity (Eq.refl _) (Eq.refl _)
  · rw [hf]

variable (env : StepEnv) {n : Nat} {pending pending' : NodeCall → PeerId → NodeCall}

lemma learnKey_settles (hpending : HandlesPending lib good ca priv ids n pending pending')
    {call : NodeCall} (h : Receiving lib good ca priv ids call.node) (hn : call.buffered ≤ n)
    {peer : PeerId} {cert : Bytes} (hgood : good peer (extractPubkeyFromCert lib.toOpenSsl cert)) :
    Settles lib good ca priv ids call (call.learnKey lib env pending peer cert)
      (call.learnKey lib env pending' peer cert) := by
  set call' :=
    call.setIdentity (call.node.identity.addTrustedPeer peer
      (extractPubkeyFromCert lib.toOpenSsl cert))
  have hadded : Settles lib good ca priv ids call call' call' :=
    ⟨rfl, h.addKey hgood, fun p hp => (hasKey_addTrustedPeer ..).mpr (.inr hp),
      le_refl call.buffered⟩
  have hhandled :=
    hpending call' peer hadded.receiving ((hasKey_addTrustedPeer ..).mpr (.inl rfl)) hn
  obtain ⟨hquiet, htracker⟩ := handlePendingOutgoing_quiet lib env (pending call' peer) peer
  exact (hadded.trans hhandled).quiet (fun c => c.handlePendingOutgoingPackets lib env peer) hquiet
    (identityRequests_subset htracker)

lemma runCallback_settles (hpending : HandlesPending lib good ca priv ids n pending pending')
    {call : NodeCall} (h : Receiving lib good ca priv ids call.node) (hn : call.buffered ≤ n)
    {cb : RequestCallback} {sender : PeerId} {rawBytes : Bytes}
    (hgood : cb = .identityResponse → ∀ cert, lib.parseIdentity rawBytes = some cert →
      good sender (extractPubkeyFromCert lib.toOpenSsl cert)) :
    Settles lib good ca priv ids call (call.runCallback lib env pending cb sender rawBytes)
      (call.runCallback lib env pending' cb sender rawBytes) := by
  unfold NodeCall.runCallback
  cases cb with
  | application tag =>
    exact (Settles.rfl h).quiet (fun c => c.record (.response tag sender (some rawBytes)))
      (.of_identity rfl rfl)
      fun _ hid => hid
  | identityResponse =>
    dsimp only
    cases hparse : lib.parseIdentity rawBytes with
    | none => exact .rfl h
    | some cert => exact learnKey_settles env hpending h hn (hgood rfl cert hparse)

lemma runHandler_settles (router : RouterState)
    (hpending : HandlesPending lib good ca priv ids n pending pending') {call : NodeCall}
    (h : Receiving lib good ca priv ids call.node) (hn : call.buffered ≤ n) {info : HandlerInfo}
    {pkt : RoutedPacket}
    (hgood : info.handler = .identityRequest →
      ∀ cert, lib.parseIdentity pkt.binaryData = some cert →
      good pkt.fromPeerId (extractPubkeyFromCert lib.toOpenSsl cert)) :
    Settles lib good ca priv ids call (call.runHandler lib env router pending info pkt)
      (call.runHandler lib env router pending' info pkt) := by
  unfold NodeCall.runHandler
  cases hhandler : info.handler with
  | topologyRequest =>
    dsimp only
    split_ifs
    · exact (Settles.rfl h).map fun c => reply_node ..
    · exact .rfl h
  | pingRequest =>
    dsimp only
    cases lib.parsePing pkt.binaryData with
    | none => exact .rfl h
    | some message => exact (Settles.rfl h).map fun c => reply_node ..
  | identityRequest =>
    dsimp only
    cases hparse : lib.parseIdentity pkt.binaryData with
    | none => exact .rfl h
    | some cert =>
      exact (learnKey_settles env hpending h hn (hgood hhandler cert hparse)).map
        (f := fun c => c.reply lib env pkt info.responseSubtype
          (lib.serializeIdentity c.node.identity.myCert))
        fun c => reply_node ..
  | heartbeat => exact .rfl h
  | application replies =>
    have hrecord := (Settles.rfl h).quiet (fun c => c.record
      (.handler pkt.subtype pkt.fromPeerId pkt.binaryData))
      (.of_identity rfl rfl) fun _ hid => hid
    exact hrecord.map fun c => foldl_reply_node ..

lemma dispatch_settles (router : RouterState)
    (hpending : HandlesPending lib good ca priv ids n pending pending') {call : NodeCall}
    (h : Receiving lib good ca priv ids call.node) (hn : call.buffered ≤ n) {pkt : RoutedPacket}
    (hgood : pkt.subtype = identityRequestSubtype ∨ toHex pkt.id ∈ ids →
      ∀ cert, lib.parseIdentity pkt.binaryData = some cert →
        good pkt.fromPeerId (extractPubkeyFromCert lib.toOpenSsl cert)) :
    Settles lib good ca priv ids call (call.dispatch lib env router pending pkt)
      (call.dispatch lib env router pending' pkt) := by
  cases hlookup : call.node.requestTracker.pendingRequests.lookup (toHex pkt.id) with
  | some cb =>
    rw [dispatch_request env router pending hlookup, dispatch_request env router pending' hlookup]
    have herased := (Settles.rfl h).quiet (fun c => c.setTracker { call.node.requestTracker with
      pendingRequests := call.node.requestTracker.pendingRequests.erase (toHex pkt.id) })
        (.of_identity rfl rfl)
      fun id hid => by
        have herase : (call.node.requestTracker.pendingRequests.erase (toHex pkt.id)).lookup id =
          some .identityResponse := hid
        rw [UMap.lookup_erase_eq] at herase
        split_ifs at herase
        exact herase
    apply herased.trans (runCallback_settles env hpending herased.receiving hn ?_)
    rintro rfl
    exact hgood (.inr (h.requests hlookup))
  | none =>
    by_cases hbroadcast : toHex pkt.id ∈ call.node.requestTracker.broadcasts
    · rw [dispatch_broadcast env router pending hlookup hbroadcast,
        dispatch_broadcast env router pending' hlookup hbroadcast]
      exact (Settles.rfl h).quiet (fun c => c.record
        (.onResponse (toHex pkt.id) pkt.fromPeerId pkt.binaryData))
        (.of_identity rfl rfl) fun _ hid => hid
    · rw [dispatch_new env router pending hlookup hbroadcast,
        dispatch_new env router pending' hlookup hbroadcast]
      split_ifs
      · cases hhandler : call.node.handlers.lookup pkt.subtype with
        | none => exact .rfl h
        | some info =>
          exact runHandler_settles env router hpending h hn fun hid =>
            hgood (.inl (h.handlers _ _ hhandler hid))
      · exact .rfl h

lemma decryptPacket_opens {ssl : OpenSsl} {im : IdentityManager} {pkt : RoutedPacket}
    {plaintext : Bytes} (h : decryptPacket ssl im pkt = .ok plaintext) :
    openPacket ssl im pkt = some plaintext := by
  unfold decryptPacket at h
  cases hkey : im.getPublicKey pkt.fromPeerId with
  | none =>
    rw [hkey] at h
    cases h
  | some key =>
    rw [hkey] at h
    dsimp only at h
    split_ifs at h
    cases hopen : openPacket ssl im pkt with
    | none =>
      rw [hopen] at h
      cases h
    | some payload =>
      rw [hopen] at h
      cases h
      rfl

/-- A packet of a peer whose key is known. -/
lemma handleWith_settles (router : RouterState)
    (hpending : HandlesPending lib good ca priv ids n pending pending') {call : NodeCall}
    (h : Receiving lib good ca priv ids call.node) (hn : call.buffered ≤ n) {pkt : RoutedPacket}
    (hbrings : BringsGoodKey lib good priv ids pkt)
    (hkey : pkt.hasEncryptedPayload = true → call.node.identity.hasKey pkt.fromPeerId = true) :
    Settles lib good ca priv ids call (call.handleWith lib env router pending pkt).1
      (call.handleWith lib env router pending' pkt).1 := by
  unfold NodeCall.handleWith
  split_ifs with hignore hencrypted hunknown
  · exact .rfl h
  · rw [hkey hencrypted] at hunknown
    cases hunknown
  · cases hdecrypt : decryptPacket lib.toOpenSsl call.node.identity pkt with
    | error message => exact .rfl h
    | ok plaintext =>
      refine dispatch_settles env router hpending h hn fun hid cert hparse =>
        hbrings hid plaintext cert ?_ hparse
      have hopen := decryptPacket_opens hdecrypt
      unfold payloadFor
      rw [if_pos hencrypted, ← h.privateKey]
      exact hopen
  · refine dispatch_settles env router hpending h hn fun hid cert hparse =>
      hbrings hid pkt.binaryData cert ?_ hparse
    exact if_neg hencrypted

/-- The packet is decrypted in place, whatever its handling brings about. -/
lemma handleWith_packet (lib : Libraries) (env : StepEnv) (router : RouterState)
    (pending pending' : NodeCall → PeerId → NodeCall) (call : NodeCall) (pkt : RoutedPacket) :
    (call.handleWith lib env router pending pkt).2 =
      (call.handleWith lib env router pending' pkt).2 := by
  unfold NodeCall.handleWith
  split_ifs
  · rfl
  · rfl
  · cases decryptPacket lib.toOpenSsl call.node.identity pkt with
    | error message => rfl
    | ok plaintext => rfl
  · rfl

lemma popIncoming_settles {call : NodeCall} (h : Receiving lib good ca priv ids call.node)
    (src : PeerId) :
    Settles lib good ca priv ids call (call.setIdentity
      (call.node.identity.popIncomingPendingPackets src).2)
        (call.setIdentity (call.node.identity.popIncomingPendingPackets src).2) ∧
      (call.setIdentity (call.node.identity.popIncomingPendingPackets src).2).buffered +
        (call.node.identity.popIncomingPendingPackets src).1.length = call.buffered ∧
      ∀ p ∈ (call.node.identity.popIncomingPendingPackets src).1,
        p.fromPeerId = src ∧ BringsGoodKey lib good priv ids p := by
  unfold IdentityManager.popIncomingPendingPackets
  cases hlookup : call.node.identity.pendingIncomingPackets.lookup src with
  | none => exact ⟨.rfl h, rfl, fun p hp => absurd hp List.not_mem_nil⟩
  | some packets =>
    have hrest : ∀ src' packets',
        (call.node.identity.pendingIncomingPackets.erase src).lookup src' = some packets' →
        call.node.identity.pendingIncomingPackets.lookup src' = some packets' := by
      intro src' packets' hlookup'
      rw [UMap.lookup_erase_eq] at hlookup'
      split_ifs at hlookup'
      exact hlookup'
    have hsum :=
      UMap.sum_entries_erase call.node.identity.pendingIncomingPackets List.length hlookup
    refine ⟨⟨rfl, ⟨⟨h.caRoot, h.keys, ?_, h.handlers⟩, h.privateKey, h.requests, ?_⟩,
      fun _ hp => hp, ?_⟩, hsum, fun p hp => ?_⟩
    · exact fun src' packets' hlookup' => h.waiting src' packets' (hrest src' packets' hlookup')
    · exact fun src' packets' hlookup' => h.brings src' packets' (hrest src' packets' hlookup')
    · exact Nat.le.intro hsum
    · exact ⟨h.waiting src packets hlookup p hp, h.brings src packets hlookup p hp⟩

/-- The loop over the packets that wait for the key of `peer`. -/
lemma foldl_handleWith_settles (router : RouterState)
    (hpending : HandlesPending lib good ca priv ids n pending pending') {peer : PeerId}
    (packets : List RoutedPacket) {call : NodeCall} (h : Receiving lib good ca priv ids call.node)
    (hn : call.buffered ≤ n) (hkey : call.node.identity.hasKey peer = true)
    (hall : ∀ p ∈ packets, p.fromPeerId = peer ∧ BringsGoodKey lib good priv ids p) :
    Settles lib good ca priv ids call
      (packets.foldl (fun call pkt => (call.handleWith lib env router pending pkt).1) call)
      (packets.foldl (fun call pkt => (call.handleWith lib env router pending' pkt).1) call) := by
  induction packets generalizing call with
  | nil => exact .rfl h
  | cons pkt packets ih =>
    obtain ⟨hfrom, hbrings⟩ := hall pkt List.mem_cons_self
    have hfirst := handleWith_settles env router hpending h hn hbrings fun _ => by
      rw [hfrom]
      exact hkey
    rw [List.foldl_cons, List.foldl_cons, ← hfirst.agree]
    exact hfirst.trans (ih hfirst.receiving (hfirst.buffered.trans hn) (hfirst.keys peer hkey)
      fun p hp =>
      hall p (List.mem_cons_of_mem _ hp))

/-- Every nesting takes a waiting packet, so a depth above their number makes no difference. -/
lemma handlePending_settles (router : RouterState) {depth depth' : Nat} (hdepth : n < depth)
    (hdepth' : n < depth') :
    HandlesPending lib good ca priv ids n
      (NodeCall.handlePendingIncomingPackets lib env router depth)
      (NodeCall.handlePendingIncomingPackets lib env router depth') := by
  induction n using Nat.strong_induction_on generalizing depth depth' with
  | _ n ih =>
    intro call peer h hkey hn
    obtain ⟨d, rfl⟩ := Nat.exists_eq_add_one_of_ne_zero (Nat.ne_zero_of_lt hdepth)
    obtain ⟨d', rfl⟩ := Nat.exists_eq_add_one_of_ne_zero (Nat.ne_zero_of_lt hdepth')
    obtain ⟨hpop, hsum, hpackets⟩ := popIncoming_settles h peer
    unfold NodeCall.handlePendingIncomingPackets
    dsimp only
    cases hqueue : (call.node.identity.popIncomingPendingPackets peer).1 with
    | nil => exact hpop
    | cons pkt packets =>
      rw [hqueue, List.length_cons] at hsum
      rw [hqueue] at hpackets
      exact hpop.trans (foldl_handleWith_settles env router (ih _ (by omega) (by omega) (by omega))
        _ hpop.receiving
        (le_refl _) (hpop.keys peer hkey) hpackets)

end Chain

/-! ## Calls -/

/-- What a node may receive: a packet arrives only if it and the packets that wait for a key bring
good keys. -/
def ReceivesGood (lib : Libraries) (good : PeerId → Bytes → Prop) (node : NodeState) :
    NodeEvent → Prop
  | .incoming _ pkt =>
    BringsGoodKey lib good node.identity.myPrivateKey (identityRequests node) pkt ∧
      ∀ src packets, node.identity.pendingIncomingPackets.lookup src = some packets → ∀ p ∈ packets,
        BringsGoodKey lib good node.identity.myPrivateKey (identityRequests node) p
  | _ => True

section Calls

variable {lib : Libraries} {good : PeerId → Bytes → Prop} {ca : Bytes}

lemma bufferIncoming_sound (env : StepEnv) {call : NodeCall} (h : Sound good ca call.node)
    (pkt : RoutedPacket) :
    Sound good ca (call.bufferIncoming lib env pkt).node := by
  have hquiet := askIdentity_quiet lib env
    (call.setIdentity (call.node.identity.bufferIncomingPacket pkt.fromPeerId pkt)) pkt.fromPeerId
  refine Sound.quiet ?_ hquiet
  refine ⟨h.caRoot, h.keys, fun src packets hinsert p hp => ?_, h.handlers⟩
  dsimp only [NodeCall.setIdentity, IdentityManager.bufferIncomingPacket] at hinsert
  rw [UMap.lookup_insert_eq] at hinsert
  split_ifs at hinsert with hsrc
  · cases hinsert
    rcases List.mem_append.mp hp with hold | hnew
    · cases hwaiting : call.node.identity.pendingIncomingPackets.lookup pkt.fromPeerId with
      | none =>
        rw [hwaiting] at hold
        exact absurd hold List.not_mem_nil
      | some waiting =>
        rw [hwaiting] at hold
        rw [hsrc]
        exact h.waiting _ waiting hwaiting p hold
    · rw [List.mem_singleton.mp hnew, hsrc]
  · exact h.waiting src packets hinsert p hp

lemma incoming_sound (env : StepEnv) (router : RouterState) {node : NodeState}
    (h : Sound good ca node) {pkt : RoutedPacket}
    (hgood : ReceivesGood lib good node (.incoming router pkt)) :
    Sound good ca (node.call lib env (.incoming router pkt)).node := by
  by_cases hkey : pkt.hasEncryptedPayload = true → node.identity.hasKey pkt.fromPeerId = true
  · obtain ⟨hpkt, hwaiting⟩ := hgood
    have hreceiving : Receiving lib good ca node.identity.myPrivateKey
        (identityRequests node) node :=
      ⟨h, rfl, fun _ hid => hid, hwaiting⟩
    exact (handleWith_settles env router (handlePending_settles env router (Nat.lt_succ_self _)
      (Nat.lt_succ_self _))
      hreceiving (le_refl _) hpkt hkey).receiving.toSound
  · rw [Classical.not_imp, Bool.not_eq_true] at hkey
    unfold NodeState.call NodeCall.handleIncomingPacket NodeCall.handleWith
    simp only [hkey.1, hkey.2, Bool.not_false, if_true]
    split_ifs
    · exact h
    · exact bufferIncoming_sound env h pkt

/-- Every call of a node that receives good keys only keeps its keys good. -/
lemma call_sound (env : StepEnv) {node : NodeState} (h : Sound good ca node) {event : NodeEvent}
    (hgood : ReceivesGood lib good node event) : Sound good ca (node.call lib env event).node := by
  cases event with
  | incoming router pkt => exact incoming_sound env router h hgood
  | sendText remoteId text => exact h.quiet (.of_identity rfl rfl)
  | sendMessage destId subtype serialized protocol =>
    exact h.quiet (sendMessage_quiet lib env { node } ..)
  | broadcastMessage subtype serialized protocol => exact h.quiet (.of_identity rfl rfl)
  | sendRequestAsync destId subtype serialized tag protocol =>
    exact h.quiet (sendRequestAsync_quiet lib env { node } ..)
  | broadcastRequest subtype serialized protocol => exact h.quiet (.of_identity rfl rfl)
  | requestTimeout reqId =>
    unfold NodeState.call
    dsimp only
    split
    · exact h.quiet (.of_identity rfl rfl)
    · exact h.quiet (.of_identity rfl rfl)
  | broadcastTimeout reqId =>
    unfold NodeState.call
    dsimp only
    split_ifs
    · exact h.quiet (.of_identity rfl rfl)
    · exact h
  | on subtype responseSubtype replies =>
    refine ⟨h.caRoot, h.keys, h.waiting, fun subtype' info hlookup hid => ?_⟩
    have hinsert : (node.handlers.insert subtype ⟨responseSubtype, .application replies⟩).lookup
        subtype' =
      some info := hlookup
    rw [UMap.lookup_insert_eq] at hinsert
    split_ifs at hinsert
    · cases hinsert
      cases hid
    · exact h.handlers subtype' info hinsert hid
  | setBlockAllMessages block => exact h.quiet (.of_identity rfl rfl)

lemma builtinHandlers_identity {subtype : String} {info : HandlerInfo}
    (hlookup : setupBuiltinHandlers.lookup subtype = some info)
    (hid : info.handler = .identityRequest) :
    subtype = identityRequestSubtype := by
  unfold setupBuiltinHandlers at hlookup
  simp only [UMap.lookup_insert_eq, UMap.lookup_singleton_eq] at hlookup
  split_ifs at hlookup with hheartbeat hidentity hping htopology
  · cases hlookup
    cases hid
  · exact hidentity
  · cases hlookup
    cases hid
  · cases hlookup
    cases hid

lemma bringsGoodKey_true (priv : Bytes) (ids : Set String) (pkt : RoutedPacket) :
    BringsGoodKey lib (fun _ _ => True) priv ids pkt :=
  fun _ _ _ _ _ => trivial

lemma run_sound {node₀ node : NodeState} (h₀ : Sound (fun _ _ => True) ca node₀)
    (hrun : Relation.ReflTransGen (NodeState.Moves lib fun _ _ => True) node₀ node) :
    Sound (fun _ _ => True) ca node := by
  induction hrun with
  | refl => exact h₀
  | tail _ hstep ih =>
    obtain ⟨env, event, -, rfl⟩ := hstep
    apply call_sound env ih
    cases event with
    | incoming router pkt =>
      exact ⟨bringsGoodKey_true _ _ _, fun _ _ _ p _ => bringsGoodKey_true _ _ _⟩
    | _ => trivial

/-- In every run of a node, deeper nesting than `handleIncomingPacket` allows makes no
difference. -/
theorem handleIncomingPacket_depth {node₀ node : NodeState} (h₀ : Sound (fun _ _ => True) ca node₀)
    (hrun : Relation.ReflTransGen (NodeState.Moves lib fun _ _ => True) node₀ node) (env : StepEnv)
    (router : RouterState) (pkt : RoutedPacket) {depth : Nat}
    (hdepth : NodeCall.buffered { node } < depth) :
    NodeCall.handleWith lib env router (NodeCall.handlePendingIncomingPackets lib env router depth)
      { node } pkt =
      NodeCall.handleIncomingPacket lib env router { node } pkt := by
  have hsound := run_sound h₀ hrun
  by_cases hkey : pkt.hasEncryptedPayload = true → node.identity.hasKey pkt.fromPeerId = true
  · have hreceiving : Receiving lib (fun _ _ => True) ca node.identity.myPrivateKey
        (identityRequests node) node :=
      ⟨hsound, rfl, fun _ hid => hid, fun _ _ _ p _ => bringsGoodKey_true _ _ _⟩
    have hsettles := handleWith_settles env router
      (handlePending_settles env router hdepth (Nat.lt_succ_self _))
      hreceiving (le_refl _) (bringsGoodKey_true _ _ _) hkey
    exact Prod.ext hsettles.agree (handleWith_packet ..)
  · rw [Classical.not_imp, Bool.not_eq_true] at hkey
    unfold NodeCall.handleIncomingPacket NodeCall.handleWith
    simp only [hkey.1, hkey.2, Bool.not_false, if_true]

end Calls

end MeshNetwork.Proofs
