import MeshNetwork.Proofs.NodeCalls
import MeshNetwork.Proofs.RouterInvariant

/-!
# Encrypted packets and postponed messages

With ideal cryptography an encrypted packet opens to its payload. A message whose destination has
no key yet is buffered without its payload, so it arrives as it would have only if it is empty.
-/

namespace MeshNetwork.Proofs

/-! ## Ideal cryptography -/

/-- Decryption inverts encryption. -/
def IdealCipher (ssl : OpenSsl) : Prop :=
  ∀ key iv plaintext, key.length = aesKeySize → iv.length = aesIvSize →
    ∃ ciphertext, ssl.cbcEncrypt key iv plaintext = some ciphertext ∧
      ssl.cbcDecrypt key iv ciphertext = some plaintext

/-- What is encrypted for `pub` opens with `priv`, and what is signed with `priv` verifies with
`pub`. -/
structure KeyPair (ssl : OpenSsl) (pub priv : Bytes) : Prop where
  nonempty : pub ≠ []
  rsa : ∀ seed key, key.length = aesKeySize →
    ∃ ciphertext, ssl.rsaEncrypt pub seed key = some ciphertext ∧
      ssl.rsaDecrypt priv ciphertext = some key
  signature : ∀ message, ∃ sig, ssl.digestSign priv message = some sig ∧
    ssl.digestVerify pub message sig = true

lemma length_randBytes (n : Nat) (random : Bytes) : (randBytes n random).length = n := by
  simp [randBytes]

lemma aes_roundtrip {ssl : OpenSsl} (h : IdealCipher ssl) (random key plaintext : Bytes)
    (hkey : key.length = aesKeySize) :
    ∃ blob, aesEncrypt ssl random key plaintext = some blob ∧
      aesDecrypt ssl key blob = some plaintext := by
  obtain ⟨ciphertext, henc, hdec⟩ :=
    h key (randBytes aesIvSize random) plaintext hkey (length_randBytes ..)
  have hiv := length_randBytes aesIvSize random
  refine ⟨randBytes aesIvSize random ++ ciphertext, ?_, ?_⟩
  · simp [aesEncrypt, hkey, henc]
  · unfold aesDecrypt
    rw [if_neg (not_not_intro hkey), if_neg (by simp [hiv]), List.take_left' hiv,
      List.drop_left' hiv]
    exact hdec

/-- `p` is `pkt` with an encrypted payload. -/
structure Sealed (pkt p : RoutedPacket) : Prop where
  encrypted : p.hasEncryptedPayload = true
  rest : p = { pkt with
    payload := p.payload
    encryptedSessionKey := p.encryptedSessionKey
    signature := p.signature }

/-- A packet that is secured for a peer opens there to its payload. -/
theorem securePacket_opens {ssl : OpenSsl} (hideal : IdealCipher ssl)
    (sender receiver : IdentityManager) {targetKey senderKey : Bytes}
    (htarget : KeyPair ssl targetKey receiver.myPrivateKey)
    (hsender : KeyPair ssl senderKey sender.myPrivateKey) {target : PeerId}
    (hknown : sender.trustedKeys.lookup target = some targetKey) (nonces : Nonces)
    (pkt : RoutedPacket) (hfrom : receiver.trustedKeys.lookup pkt.fromPeerId = some senderKey)
    (payload : Bytes) :
    ∃ p, securePacket ssl sender nonces pkt target payload = some p ∧ Sealed pkt p ∧
      decryptPacket ssl receiver p = .ok payload := by
  have hlen : (generateAesKey nonces.sessionKey).length = aesKeySize := length_randBytes ..
  obtain ⟨blob, henc, hdec⟩ := aes_roundtrip hideal nonces.iv _ payload hlen
  obtain ⟨encKey, hrsaEnc, hrsaDec⟩ := htarget.rsa nonces.seed _ hlen
  obtain ⟨sig, hsign, hverify⟩ := hsender.signature blob
  refine ⟨{ pkt with
      payload := .encryptedPayload blob, encryptedSessionKey := encKey, signature := sig },
    ?_, ⟨rfl, rfl⟩, ?_⟩
  · simp [securePacket, IdentityManager.getPublicKey, hknown, htarget.nonempty, henc,
      hrsaEnc, hsign]
  · simp [decryptPacket, openPacket, IdentityManager.getPublicKey, hfrom, hsender.nonempty,
      RoutedPacket.encryptedPayload, hverify, hrsaDec, hdec]

/-! ## Postponed messages -/

/-- The two calls that postpone a message. -/
inductive SendCall where
  | message
  | request (tag : Nat)

def SendCall.run (lib : Libraries) (env : StepEnv) (node : NodeState) (destId : PeerId)
    (subtype : String) (serialized : Bytes) (protocol : TransportProtocol) : SendCall → NodeCall
  | .message => node.call lib env (.sendMessage destId subtype serialized protocol)
  | .request tag => node.call lib env (.sendRequestAsync destId subtype serialized tag protocol)

def SendCall.expectResponse : SendCall → Bool
  | .message => false
  | .request _ => true

/-- The packet of a call, before its payload is set. -/
def emptyPacket (env : StepEnv) (node : NodeState) (destId : PeerId) (subtype : String)
    (protocol : TransportProtocol) (kind : SendCall) : RoutedPacket :=
  makeBinaryRoutedPacket (env.uuid 0) node.peerId destId defaultTtl subtype protocol []
    kind.expectResponse

section

variable (lib : Libraries) (env : StepEnv)

lemma postpone_identity (call : NodeCall) (destId : PeerId) (pkt : RoutedPacket) :
    (call.postpone lib env destId pkt).node.identity =
      call.node.identity.bufferOutgoingPacket destId pkt := by
  unfold NodeCall.postpone NodeCall.askIdentity NodeCall.shouldSendIdentityRequest
  dsimp only
  split_ifs <;> rfl

/-- Without the key, the call buffers the packet without its payload. -/
lemma run_postpones {node : NodeState} (henc : node.encryptMessages = true) {destId : PeerId}
    (hkey : node.identity.hasKey destId = false) {subtype : String}
    (hsub : subtype ≠ identityRequestSubtype) (serialized : Bytes) (protocol : TransportProtocol)
    (kind : SendCall) :
    (kind.run lib env node destId subtype serialized protocol).node.identity =
      node.identity.bufferOutgoingPacket destId
        (emptyPacket env node destId subtype protocol kind) := by
  cases kind with
  | message =>
    change (NodeCall.sendMessage lib env { node } destId subtype serialized
      protocol).node.identity = _
    simp only [NodeCall.sendMessage, NodeCall.makePacket, henc, hkey, hsub, ne_eq,
      not_false_eq_true, and_self, Bool.not_false, if_true, postpone_identity]
    rfl
  | request tag =>
    change (NodeCall.sendRequestAsync lib env { node } destId subtype serialized tag
      protocol).node.identity = _
    simp only [NodeCall.sendRequestAsync, NodeCall.makePacket, henc, hkey, hsub, ne_eq,
      not_false_eq_true, and_self, Bool.not_false, if_true, postpone_identity]
    rfl

/-- With the key, the call encrypts the payload and sends the packet. -/
lemma run_sends (node : NodeState) (henc : node.encryptMessages = true) {destId : PeerId}
    (hkey : node.identity.hasKey destId = true) {subtype : String}
    (hsub : subtype ≠ identityRequestSubtype) (serialized : Bytes) (protocol : TransportProtocol)
    (kind : SendCall) {p : RoutedPacket}
    (hp : securePacket lib.toOpenSsl node.identity ⟨env.random 0, env.random 1, env.random 2⟩
      (emptyPacket env node destId subtype protocol kind) destId serialized = some p) :
    (kind.run lib env node destId subtype serialized protocol).sent = [p] := by
  cases kind with
  | message =>
    change (NodeCall.sendMessage lib env { node } destId subtype serialized protocol).sent = _
    simp only [NodeCall.sendMessage, NodeCall.makePacket, henc, hkey, hsub, ne_eq,
      not_false_eq_true, and_self, Bool.not_true, Bool.false_eq_true, if_true, if_false]
    rw [secureAndSend_of_some lib env _ hp]
    rfl
  | request tag =>
    change (NodeCall.sendRequestAsync lib env { node } destId subtype serialized tag
      protocol).sent = _
    simp only [NodeCall.sendRequestAsync, NodeCall.makePacket, henc, hkey, hsub, ne_eq,
      not_false_eq_true, and_self, Bool.not_true, Bool.false_eq_true, if_true, if_false,
      NodeCall.secure]
    have hsecure : securePacket lib.toOpenSsl node.identity
        (NodeCall.nonces env { node, uuids := 0 + 1 })
        (makeBinaryRoutedPacket (env.uuid 0) node.peerId destId defaultTtl subtype protocol []
          true) destId
        serialized = some p := hp
    rw [hsecure]
    rfl

lemma sent_subset_sendPending (packets : List RoutedPacket) (call : NodeCall) :
    call.sent ⊆ (packets.foldl (sendPending lib env) call).sent := by
  induction packets generalizing call with
  | nil => exact List.Subset.refl _
  | cons pkt packets ih =>
    intro p hp
    exact ih _ ((secureAndSend_node lib env call pkt _ _).2 hp)

/-- Every waiting packet that can be encrypted is handed to the router. -/
lemma sendPending_sends (packets : List RoutedPacket) (call : NodeCall) {pkt : RoutedPacket}
    (hpkt : pkt ∈ packets)
    (hsecure : ∀ nonces, ∃ p,
      securePacket lib.toOpenSsl call.node.identity nonces pkt pkt.toPeerId
        pkt.binaryData = some p) :
    ∃ nonces p, securePacket lib.toOpenSsl call.node.identity nonces pkt pkt.toPeerId
      pkt.binaryData = some p ∧ p ∈ (packets.foldl (sendPending lib env) call).sent := by
  induction packets generalizing call with
  | nil => exact absurd hpkt List.not_mem_nil
  | cons first packets ih =>
    have hnode : (sendPending lib env call first).node = call.node :=
      (secureAndSend_node lib env call first _ _).1
    rcases List.mem_cons.mp hpkt with rfl | hrest
    · obtain ⟨p, hp⟩ := hsecure (call.nonces env)
      refine ⟨_, p, hp, sent_subset_sendPending lib env packets _ ?_⟩
      unfold sendPending
      rw [secureAndSend_of_some lib env call hp]
      exact List.mem_append_right _ (List.mem_singleton_self p)
    · rw [← hnode] at hsecure ⊢
      exact ih _ hrest hsecure

/-- The fields that a postponed packet shares with the one that would have been sent at once. -/
def SameContent (ssl : OpenSsl) (receiver : IdentityManager) (p q : RoutedPacket) : Prop :=
  decryptPacket ssl receiver p = decryptPacket ssl receiver q ∧ p.subtype = q.subtype ∧
    p.transport = q.transport ∧ p.expectResponse = q.expectResponse

/-- A message that waits for the key of its destination arrives as it would have with the key known
at the call exactly if its payload is empty. -/
theorem postponed_content_iff (hideal : IdealCipher lib.toOpenSsl) (node : NodeState)
    (henc : node.encryptMessages = true) (destId : PeerId)
    (hkey : node.identity.hasKey destId = false) (subtype : String)
    (hsub : subtype ≠ identityRequestSubtype) (serialized : Bytes) (protocol : TransportProtocol)
    (kind : SendCall) (receiver : IdentityManager) (destKey senderKey : Bytes)
    (hdest : KeyPair lib.toOpenSsl destKey receiver.myPrivateKey)
    (hsender : KeyPair lib.toOpenSsl senderKey node.identity.myPrivateKey)
    (hfrom : receiver.trustedKeys.lookup node.peerId = some senderKey) :
    ∃ waiting direct,
      (kind.run lib env node destId subtype serialized protocol).node.identity =
        node.identity.bufferOutgoingPacket destId waiting ∧
      (kind.run lib env { node with identity := node.identity.addTrustedPeer destId destKey }
        destId subtype serialized protocol).sent = [direct] ∧
      ∀ (env' : StepEnv) (later : NodeCall) (packets : List RoutedPacket),
        later.node.identity.myPrivateKey = node.identity.myPrivateKey →
        later.node.identity.trustedKeys.lookup destId = some destKey →
        later.node.identity.pendingOutgoingPackets.lookup destId = some packets →
          waiting ∈ packets →
        ∃ postponed ∈ (later.handlePendingOutgoingPackets lib env' destId).sent,
          postponed.id = direct.id ∧
          (SameContent lib.toOpenSsl receiver postponed direct ↔ serialized = []) := by
  have hwaitingFrom : receiver.trustedKeys.lookup
      (emptyPacket env node destId subtype protocol kind).fromPeerId = some senderKey := hfrom
  have hknown : (node.identity.addTrustedPeer destId destKey).trustedKeys.lookup destId =
      some destKey :=
    AList.lookup_insert _
  have hhas : (node.identity.addTrustedPeer destId destKey).hasKey destId = true := by
    unfold IdentityManager.hasKey
    rw [hknown]
    rfl
  obtain ⟨direct, hdirect, hsealed, hopens⟩ := securePacket_opens hideal
    (node.identity.addTrustedPeer destId destKey) receiver hdest hsender hknown
    ⟨env.random 0, env.random 1, env.random 2⟩ (emptyPacket env node destId subtype protocol kind)
    hwaitingFrom serialized
  refine ⟨emptyPacket env node destId subtype protocol kind, direct,
    run_postpones lib env henc hkey hsub serialized protocol kind,
    run_sends lib env { node with identity := node.identity.addTrustedPeer destId destKey } henc
      hhas hsub serialized
      protocol kind hdirect, ?_⟩
  intro env' later packets hpriv hlater hpending hwaiting
  have hlaterPair : KeyPair lib.toOpenSsl senderKey later.node.identity.myPrivateKey := by
    rw [hpriv]
    exact hsender
  -- the key has arrived: the packet is encrypted with the payload it was buffered with
  have hpop : later.handlePendingOutgoingPackets lib env' destId =
      packets.foldl (sendPending lib env')
        (later.setIdentity { later.node.identity with
          pendingOutgoingPackets := later.node.identity.pendingOutgoingPackets.erase destId }) := by
    unfold NodeCall.handlePendingOutgoingPackets IdentityManager.popOutgoingPendingPackets
    rw [hpending]
    rfl
  have hsecures := fun nonces => securePacket_opens hideal { later.node.identity with
      pendingOutgoingPackets := later.node.identity.pendingOutgoingPackets.erase destId } receiver
        hdest hlaterPair hlater
    nonces (emptyPacket env node destId subtype protocol kind) hwaitingFrom []
  obtain ⟨nonces, postponed, hpostponed, hsent⟩ := sendPending_sends lib env' packets
    (later.setIdentity { later.node.identity with
      pendingOutgoingPackets := later.node.identity.pendingOutgoingPackets.erase destId }) hwaiting
    fun nonces => ⟨_, (hsecures nonces).choose_spec.1⟩
  obtain ⟨p, hp, hsealed', hopens'⟩ := hsecures nonces
  obtain rfl : p = postponed := Option.some.inj (hp.symm.trans hpostponed)
  refine ⟨p, ?_, ?_, ?_⟩
  · rw [hpop]
    exact hsent
  · rw [hsealed.rest, hsealed'.rest]
  · unfold SameContent
    rw [hopens, hopens', hsealed.rest, hsealed'.rest]
    simp [eq_comm]

end

/-! ## A small instance -/

/-- Libraries in which nothing is hidden: a key pair is one key, a ciphertext is its plaintext, a
signature is the signer's key, a certificate is the name of its issuer followed by the key of its
subject, and every issuer has signed two certificates. -/
def openLibraries : Libraries where
  readX509 cert := some cert
  x509VerifyCert caCert targetCert :=
    decide (targetCert = caCert ++ [1] ∨ targetCert = caCert ++ [2])
  x509Pubkey cert := some cert.tail
  x509CommonName cert := if cert.tail = [1] then "a" else "b"
  cbcEncrypt _ _ plaintext := some plaintext
  cbcDecrypt _ _ ciphertext := some ciphertext
  rsaEncrypt _ _ plaintext := some plaintext
  rsaDecrypt _ ciphertext := some ciphertext
  digestSign key _ := some key
  digestVerify key _ signature := decide (signature = key)
  parseIdentity payload := some payload
  serializeIdentity certificatePem := certificatePem
  parsePing _ := some ""
  serializePing _ := []
  parseTopologyRequest _ := true
  serializeTopologyResponse _ := []

lemma openLibraries_ideal : IdealCipher openLibraries.toOpenSsl :=
  fun _ _ plaintext _ _ => ⟨plaintext, rfl, rfl⟩

lemma openLibraries_keyPair {key : Bytes} (h : key ≠ []) :
    KeyPair openLibraries.toOpenSsl key key :=
  ⟨h, fun _ plaintext _ => ⟨plaintext, rfl, rfl⟩, fun _ => ⟨key, rfl, decide_eq_true rfl⟩⟩

def nodeA : NodeState where
  peerId := "a"
  encryptMessages := true
  identity := { myPrivateKey := [1] }

def identityB : IdentityManager where
  myPrivateKey := [2]
  trustedKeys := AList.singleton "a" [1]

/-- Node "a" after it has sent `payload` to "b" without its key, and then learnt the key. -/
def afterKey (payload : Bytes) : NodeCall :=
  let sent := SendCall.message.run openLibraries (plainEnv 0) nodeA "b" "Note" payload .tcp
  { node := { sent.node with identity := sent.node.identity.addTrustedPeer "b" [2] } }

theorem postponed_content_iff_empty :
    ∃ direct, (SendCall.message.run openLibraries (plainEnv 0)
        { nodeA with identity := nodeA.identity.addTrustedPeer "b" [2] } "b" "Note" [] .tcp).sent =
          [direct] ∧
      ∃ postponed ∈ ((afterKey []).handlePendingOutgoingPackets openLibraries (plainEnv 0)
        "b").sent,
        postponed.id = direct.id ∧ SameContent openLibraries.toOpenSsl identityB postponed
          direct := by
  obtain ⟨waiting, direct, hbuffer, hdirect, hlater⟩ := postponed_content_iff openLibraries
    (plainEnv 0)
    openLibraries_ideal nodeA rfl "b" rfl "Note" (by decide) [] .tcp .message identityB [2] [1]
    (openLibraries_keyPair (by decide)) (openLibraries_keyPair (by decide)) (by decide)
  have hpending : (afterKey []).node.identity.pendingOutgoingPackets.lookup "b" =
      some [waiting] := by
    unfold afterKey
    dsimp only [IdentityManager.addTrustedPeer]
    rw [hbuffer]
    exact AList.lookup_insert _
  obtain ⟨postponed, hsent, hid, hiff⟩ := hlater (plainEnv 0) (afterKey []) [waiting] rfl
    (AList.lookup_insert _) hpending
    (List.mem_singleton_self _)
  exact ⟨direct, hdirect, postponed, hsent, hid, hiff.mpr rfl⟩

theorem postponed_loses_payload :
    IdealCipher openLibraries.toOpenSsl ∧ KeyPair openLibraries.toOpenSsl [1] [1] ∧
    KeyPair openLibraries.toOpenSsl [2] [2] ∧ nodeA.encryptMessages = true ∧
      nodeA.identity.hasKey "b" = false ∧
    (SendCall.message.run openLibraries (plainEnv 0)
        { nodeA with identity := nodeA.identity.addTrustedPeer "b" [2] } "b" "Note" [42]
          .tcp).sent.map
      (fun p => (decryptPacket openLibraries.toOpenSsl identityB p).toOption) = [some [42]] ∧
    ((afterKey [42]).handlePendingOutgoingPackets openLibraries (plainEnv 0) "b").sent.map
      (fun p => (decryptPacket openLibraries.toOpenSsl identityB p).toOption) = [some []] :=
  ⟨openLibraries_ideal, openLibraries_keyPair (by decide), openLibraries_keyPair (by decide), rfl,
    rfl, by decide⟩

end MeshNetwork.Proofs
