import MeshNetwork.Proofs.TrustedKeys

/-!
# What relays see

A packet of a node passes through other nodes. With encryption on, the calls that go through
`secure_packet` show them nothing of their content; the others show all of it.
-/

namespace MeshNetwork.Proofs

/-! ## Sending calls -/

/-- A sending call of a node, with the type of the content that it is given. -/
inductive SendingCall : Type → Type where
  | sendMessage (destId : PeerId) (subtype : String) (protocol : TransportProtocol) :
      SendingCall Bytes
  | sendRequestAsync (destId : PeerId) (subtype : String) (tag : Nat)
      (protocol : TransportProtocol) :
      SendingCall Bytes
  | sendText (remoteId : PeerId) : SendingCall String
  | broadcastMessage (subtype : String) (protocol : TransportProtocol) : SendingCall Bytes
  | broadcastRequest (subtype : String) (protocol : TransportProtocol) : SendingCall Bytes
  | reply (pkt : RoutedPacket) (responseSubtype : Option String) : SendingCall Bytes

namespace SendingCall

variable {α : Type}

def run (lib : Libraries) (env : StepEnv) (node : NodeState) : SendingCall α → α → NodeCall
  | .sendMessage destId subtype protocol, serialized =>
    NodeCall.sendMessage lib env { node } destId subtype serialized protocol
  | .sendRequestAsync destId subtype tag protocol, serialized =>
    NodeCall.sendRequestAsync lib env { node } destId subtype serialized tag protocol
  | .sendText remoteId, text => NodeCall.sendText env { node } remoteId text
  | .broadcastMessage subtype protocol, serialized =>
    NodeCall.broadcastMessage env { node } subtype serialized protocol
  | .broadcastRequest subtype protocol, serialized =>
    NodeCall.broadcastRequest env { node } subtype serialized protocol
  | .reply pkt responseSubtype, payload =>
    NodeCall.reply lib env pkt responseSubtype { node } payload

/-- The messages that `send_message`, `send_request_async` and the reply callback never encrypt. -/
def IdentityExchange : SendingCall α → Prop
  | .sendMessage _ subtype _ => subtype = identityRequestSubtype
  | .sendRequestAsync _ subtype _ _ => subtype = identityRequestSubtype
  | .reply _ responseSubtype =>
    responseSubtype.getD "" = identityRequestSubtype ∨
      responseSubtype.getD "" = identityResponseSubtype
  | _ => False

/-- The calls that have a branch for encryption. -/
def Encrypts : SendingCall α → Prop
  | .sendMessage .. => True
  | .sendRequestAsync .. => True
  | .reply .. => True
  | _ => False

end SendingCall

/-! ## Views -/

/-- A packet without its id, its ciphertext, its session key and its signature. -/
def relayView (pkt : RoutedPacket) : RoutedPacket :=
  { pkt with
    id := []
    signature := []
    encryptedSessionKey := []
    payload := if pkt.hasEncryptedPayload then .encryptedPayload [] else pkt.payload }

/-- The packets that a call hands to the router for one content and for another look the same,
whatever the clock and the random values are. -/
def SameToRelays {α : Type} (lib : Libraries) (node : NodeState) (call : SendingCall α)
    (content₁ content₂ : α) :
    Prop :=
  ∀ env₁ env₂, ∀ p₁ ∈ (call.run lib env₁ node content₁).sent,
    ∀ p₂ ∈ (call.run lib env₂ node content₂).sent, relayView p₁ = relayView p₂

/-- What a relay sees of `pkt` with an encrypted payload. -/
def sealedView (pkt : RoutedPacket) : RoutedPacket :=
  relayView { pkt with payload := .encryptedPayload [] }

section Views

variable {lib : Libraries} {env : StepEnv} {node : NodeState}

lemma relayView_secured {ssl : OpenSsl} {im : IdentityManager} {nonces : Nonces}
    {pkt p : RoutedPacket} {target : PeerId} {payload : Bytes}
    (h : securePacket ssl im nonces pkt target payload = some p) :
    relayView p = sealedView pkt := by
  unfold securePacket at h
  cases hkey : im.getPublicKey target with
  | none => simp [hkey] at h
  | some key =>
    simp only [hkey] at h
    split_ifs at h
    simp only [Option.bind_eq_bind, Option.bind_eq_some_iff, Option.some.injEq] at h
    obtain ⟨encPayload, -, encKey, -, signature, -, rfl⟩ := h
    rfl

lemma secureAndSend_view (call : NodeCall) (pkt : RoutedPacket) (target : PeerId) (payload : Bytes)
    (hsent : call.sent = []) :
    ∀ p ∈ (call.secureAndSend lib env pkt target payload).sent, relayView p = sealedView pkt := by
  unfold NodeCall.secureAndSend NodeCall.secure
  dsimp only
  cases hsecured : securePacket lib.toOpenSsl call.node.identity (call.nonces env) pkt target
    payload with
  | none => simp [hsent]
  | some p =>
    simp only [NodeCall.sendPacket, hsent, List.nil_append, List.mem_singleton, forall_eq]
    exact relayView_secured hsecured

/-- The identity request of a node shows its certificate. -/
def identityRequestView (lib : Libraries) (node : NodeState) (destId : PeerId) : RoutedPacket :=
  makeBinaryRoutedPacket [] node.peerId destId defaultTtl identityRequestSubtype .tcp
    (lib.serializeIdentity node.identity.myCert) true

lemma postpone_view (call : NodeCall) (destId : PeerId) (pkt : RoutedPacket)
    (hsent : call.sent = []) :
    ∀ p ∈ (call.postpone lib env destId pkt).sent,
      relayView p = identityRequestView lib call.node destId := by
  obtain ⟨cooldowns, hcall⟩ :=
    shouldSend_call env (call.setIdentity (call.node.identity.bufferOutgoingPacket destId pkt))
      destId
  unfold NodeCall.postpone NodeCall.askIdentity
  dsimp only
  rw [hcall]
  split_ifs
  · simp [NodeCall.sendIdentityRequest, NodeCall.sendPlainRequest, NodeCall.makePacket,
      NodeCall.setTracker, NodeCall.sendPacket, NodeCall.setIdentity, hsent, relayView,
      identityRequestView, makeBinaryRoutedPacket, RoutedPacket.hasEncryptedPayload,
      IdentityManager.bufferOutgoingPacket]
  · simp [NodeCall.setIdentity, hsent]

/-- What a relay sees of a message or request that a node sends. -/
def sendingView (lib : Libraries) (node : NodeState) (destId : PeerId)
    (pkt : RoutedPacket) : RoutedPacket :=
  if node.identity.hasKey destId then sealedView pkt else identityRequestView lib node destId

lemma sendMessage_view (hencrypt : node.encryptMessages = true) (destId : PeerId) {subtype : String}
    (hsubtype : subtype ≠ identityRequestSubtype) (serialized : Bytes)
    (protocol : TransportProtocol) :
    ∀ p ∈ (NodeCall.sendMessage lib env { node } destId subtype serialized protocol).sent,
      relayView p =
      sendingView lib node destId (makeBinaryRoutedPacket [] node.peerId destId defaultTtl subtype
        protocol) := by
  have hcond : node.encryptMessages = true ∧ subtype ≠ identityRequestSubtype :=
    ⟨hencrypt, hsubtype⟩
  simp only [NodeCall.sendMessage, NodeCall.makePacket, if_pos hcond, sendingView]
  by_cases hkey : node.identity.hasKey destId = true
  · simp only [hkey, Bool.not_true, Bool.false_eq_true, if_false, if_true]
    exact secureAndSend_view { node, uuids := 1 } _ destId serialized rfl
  · simp only [hkey, Bool.not_false, Bool.false_eq_true, if_false, if_true]
    exact postpone_view { node, uuids := 1 } destId _ rfl

lemma sendRequestAsync_view (hencrypt : node.encryptMessages = true) (destId : PeerId)
    {subtype : String} (hsubtype : subtype ≠ identityRequestSubtype) (serialized : Bytes)
    (tag : Nat) (protocol : TransportProtocol) :
    ∀ p ∈ (NodeCall.sendRequestAsync lib env { node } destId subtype serialized tag protocol).sent,
      relayView p =
      sendingView lib node destId
        (makeBinaryRoutedPacket [] node.peerId destId defaultTtl subtype protocol [] true) := by
  have hcond : node.encryptMessages = true ∧ subtype ≠ identityRequestSubtype :=
    ⟨hencrypt, hsubtype⟩
  simp only [NodeCall.sendRequestAsync, NodeCall.makePacket, if_pos hcond, NodeCall.secure,
    sendingView]
  by_cases hkey : node.identity.hasKey destId = true
  · simp only [hkey, Bool.not_true, Bool.false_eq_true, if_false, if_true]
    generalize hsecured : securePacket _ _ _ _ _ _ = secured
    cases secured with
    | none => simp [NodeCall.record]
    | some p =>
      simp only [NodeCall.sendPacket, NodeCall.setTracker, List.nil_append, List.mem_singleton,
        forall_eq]
      exact (relayView_secured hsecured).trans rfl
  · simp only [hkey, Bool.not_false, Bool.false_eq_true, if_false, if_true]
    exact postpone_view (NodeCall.setTracker { node, uuids := 1 } _) destId _ rfl

lemma reply_view (hencrypt : node.encryptMessages = true) (pkt : RoutedPacket)
    {responseSubtype : Option String}
    (hsubtype : ¬(responseSubtype.getD "" = identityRequestSubtype ∨
      responseSubtype.getD "" = identityResponseSubtype)) (payload : Bytes) :
    ∀ p ∈ (NodeCall.reply lib env pkt responseSubtype { node } payload).sent, relayView p =
      sealedView (makeBinaryRoutedPacket [] node.peerId pkt.fromPeerId 15 (responseSubtype.getD "")
        pkt.transport) := by
  have hcond : node.encryptMessages = true ∧ ¬(responseSubtype.getD "" = identityRequestSubtype ∨
    responseSubtype.getD "" = identityResponseSubtype) := ⟨hencrypt, hsubtype⟩
  unfold NodeCall.reply NodeCall.makePacket
  split_ifs
  · simp
  · dsimp only
    rw [if_pos hcond]
    exact secureAndSend_view { node, uuids := 1 } _ pkt.fromPeerId payload rfl

/-- All packets that an encrypting call hands to the router look the same. -/
lemma encrypts_view {α : Type} (lib : Libraries) (hencrypt : node.encryptMessages = true)
    {call : SendingCall α} (hcall : ¬call.IdentityExchange) (hencrypts : call.Encrypts) :
    ∃ view, ∀ env content, ∀ p ∈ (call.run lib env node content).sent, relayView p = view := by
  cases call with
  | sendMessage destId subtype protocol =>
    exact ⟨_, fun env content => sendMessage_view hencrypt destId hcall content protocol⟩
  | sendRequestAsync destId subtype tag protocol =>
    exact ⟨_, fun env content => sendRequestAsync_view hencrypt destId hcall content tag protocol⟩
  | reply pkt responseSubtype => exact ⟨_, fun env content => reply_view hencrypt pkt hcall content⟩
  | sendText remoteId => exact hencrypts.elim
  | broadcastMessage subtype protocol => exact hencrypts.elim
  | broadcastRequest subtype protocol => exact hencrypts.elim

/-- The other calls hand one packet to the router, with the content in a field that relays see. -/
lemma plain_view {α : Type} (lib : Libraries) (node : NodeState) {call : SendingCall α}
    (hplain : ¬call.Encrypts) :
    ∃ view : α → RoutedPacket, Function.Injective view ∧
      ∀ env content, (call.run lib env node content).sent.map relayView = [view content] := by
  cases call with
  | sendMessage destId subtype protocol => exact absurd trivial hplain
  | sendRequestAsync destId subtype tag protocol => exact absurd trivial hplain
  | reply pkt responseSubtype => exact absurd trivial hplain
  | sendText remoteId =>
    refine ⟨makeTextRoutedPacket [] node.peerId remoteId defaultTtl, fun text₁ text₂ h => ?_,
      fun _ _ => rfl⟩
    exact PayloadVariant.text.inj (congrArg RoutedPacket.payload h)
  | broadcastMessage subtype protocol =>
    refine ⟨fun data => makeBinaryRoutedPacket [] node.peerId "" defaultTtl subtype protocol data,
      fun data₁ data₂ h => ?_, fun _ _ => rfl⟩
    exact PayloadVariant.binaryData.inj (congrArg RoutedPacket.payload h)
  | broadcastRequest subtype protocol =>
    refine ⟨fun data => makeBinaryRoutedPacket [] node.peerId "" 15 subtype protocol data true,
      fun data₁ data₂ h => ?_, fun _ _ => rfl⟩
    exact PayloadVariant.binaryData.inj (congrArg RoutedPacket.payload h)

end Views

/-- With encryption on, two contents of one sending call look the same to relays exactly if the call
is one that encrypts, or the contents are equal. -/
theorem sameToRelays_iff (lib : Libraries) (node : NodeState)
    (hencrypt : node.encryptMessages = true) {α : Type} (call : SendingCall α)
    (hcall : ¬call.IdentityExchange) (content₁ content₂ : α) :
    SameToRelays lib node call content₁ content₂ ↔ call.Encrypts ∨ content₁ = content₂ := by
  by_cases hencrypts : call.Encrypts
  · obtain ⟨view, hview⟩ := encrypts_view lib hencrypt hcall hencrypts
    refine ⟨fun _ => .inl hencrypts, fun _ env₁ env₂ p₁ hp₁ p₂ hp₂ => ?_⟩
    rw [hview env₁ content₁ p₁ hp₁, hview env₂ content₂ p₂ hp₂]
  · obtain ⟨view, hinj, hview⟩ := plain_view lib node hencrypts
    have hsent : ∀ env content p, p ∈ (call.run lib env node content).sent →
        relayView p = view content := by
      intro env content p hp
      have hmem := List.mem_map_of_mem (f := relayView) hp
      rw [hview] at hmem
      exact List.mem_singleton.mp hmem
    constructor
    · intro hsame
      have hexists : ∀ content, ∃ p ∈ (call.run lib (plainEnv 0) node content).sent, relayView p =
          view content := by
        intro content
        rw [← List.mem_map, hview]
        exact List.mem_singleton_self _
      obtain ⟨p₁, hp₁, hview₁⟩ := hexists content₁
      obtain ⟨p₂, hp₂, hview₂⟩ := hexists content₂
      exact .inr (hinj (hview₁.symm.trans ((hsame _ _ p₁ hp₁ p₂ hp₂).trans hview₂)))
    · rintro (h | rfl) env₁ env₂ p₁ hp₁ p₂ hp₂
      · exact absurd h hencrypts
      · rw [hsent env₁ content₁ p₁ hp₁, hsent env₂ content₁ p₂ hp₂]

/-- A node that has the key of "b" sends it two messages, which look the same on the way. -/
theorem sameToRelays_message :
    (SendingCall.run openLibraries (plainEnv 0) (askedBy [9, 2]) (.sendMessage "b" "Note" .tcp)
      [42]).sent.length = 1 ∧
      SameToRelays openLibraries (askedBy [9, 2]) (.sendMessage "b" "Note" .tcp) [42] [43] := by
  refine ⟨by decide, ?_⟩
  exact (sameToRelays_iff openLibraries (askedBy [9, 2]) (by decide) (.sendMessage "b" "Note" .tcp)
    (by simp [SendingCall.IdentityExchange, identityRequestSubtype]) [42] [43]).mpr (.inl trivial)

/-- Texts and broadcasts of the same node do not. -/
theorem broadcasts_visible_to_relays :
    (askedBy [9, 2]).encryptMessages = true ∧
      ¬SameToRelays openLibraries (askedBy [9, 2]) (.sendText "b") "yes" "no" ∧
      ¬SameToRelays openLibraries (askedBy [9, 2]) (.broadcastMessage "Note" .tcp) [42] [43] ∧
      ¬SameToRelays openLibraries (askedBy [9, 2]) (.broadcastRequest "Note" .tcp) [42] [43] := by
  refine ⟨by decide, fun h => ?_, fun h => ?_, fun h => ?_⟩
  · exact absurd (h (plainEnv 0) (plainEnv 0) _ List.mem_cons_self _ List.mem_cons_self) (by decide)
  · exact absurd (h (plainEnv 0) (plainEnv 0) _ List.mem_cons_self _ List.mem_cons_self) (by decide)
  · exact absurd (h (plainEnv 0) (plainEnv 0) _ List.mem_cons_self _ List.mem_cons_self) (by decide)

end MeshNetwork.Proofs
