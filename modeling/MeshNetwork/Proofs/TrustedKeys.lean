import MeshNetwork.Proofs.PendingMessages
import MeshNetwork.Proofs.WaitingPackets

/-!
# Trusted keys

A node trusts the key of every certificate that reaches it in an identity request or response. Its
keys come from certificates of the root only as long as all these certificates do.
-/

namespace MeshNetwork.Proofs

/-! ## Certificates -/

/-- The root has signed `cert` for `peer`. -/
def Certified (lib : Libraries) (ca : Bytes) (peer : PeerId) (cert : Bytes) : Prop :=
  verifyCertificate lib.toOpenSsl cert ca = true ∧ extractCommonName lib.toOpenSsl cert = peer

/-- The key of a certificate that the root has signed for `peer`. -/
def CertifiedKey (lib : Libraries) (ca : Bytes) (peer : PeerId) (key : Bytes) : Prop :=
  ∃ cert, Certified lib ca peer cert ∧ extractPubkeyFromCert lib.toOpenSsl cert = key

/-- If `pkt` is an identity request, or the answer to one of `ids`, the root has signed its
certificate for its sender. -/
def Vouched (lib : Libraries) (ca priv : Bytes) (ids : Set String) (pkt : RoutedPacket) : Prop :=
  pkt.subtype = identityRequestSubtype ∨ toHex pkt.id ∈ ids →
    ∀ payload cert, payloadFor lib.toOpenSsl priv pkt = some payload →
      lib.parseIdentity payload = some cert → Certified lib ca pkt.fromPeerId cert

/-- What a node may receive: a packet arrives only if it and the packets that wait for a key are
vouched for. -/
def ReceivesVouched (lib : Libraries) (node : NodeState) : NodeEvent → Prop
  | .incoming _ pkt =>
    Vouched lib node.identity.caRoot node.identity.myPrivateKey (identityRequests node) pkt ∧
      ∀ src packets, node.identity.pendingIncomingPackets.lookup src = some packets → ∀ p ∈ packets,
        Vouched lib node.identity.caRoot node.identity.myPrivateKey (identityRequests node) p
  | _ => True

lemma Vouched.bringsGoodKey {lib : Libraries} {ca priv : Bytes} {ids : Set String}
    {pkt : RoutedPacket} (h : Vouched lib ca priv ids pkt) :
    BringsGoodKey lib (CertifiedKey lib ca) priv ids pkt :=
  fun hid payload cert hpayload hparse => ⟨cert, h hid payload cert hpayload hparse, rfl⟩

/-! ## Runs -/

section Runs

variable {lib : Libraries} {ca : Bytes}

lemma ReceivesVouched.receivesGood {node : NodeState} {event : NodeEvent}
    (h : ReceivesVouched lib node event) :
    ReceivesGood lib (CertifiedKey lib node.identity.caRoot) node event := by
  cases event with
  | incoming router pkt =>
    exact ⟨h.1.bringsGoodKey, fun src packets hlookup p hp =>
      (h.2 src packets hlookup p hp).bringsGoodKey⟩
  | _ => trivial

/-- The keys of a node that has loaded its identity. -/
lemma loadIdentities_sound {cert key : Bytes} {im : IdentityManager}
    (hload : IdentityManager.loadIdentities lib.toOpenSsl {} cert key ca = .ok im) (peerId : PeerId)
    (encryptMessages : Bool) :
    Sound (CertifiedKey lib ca) ca { peerId, encryptMessages, identity := im } := by
  unfold IdentityManager.loadIdentities at hload
  dsimp only at hload
  split_ifs at hload with hverify
  cases hload
  refine ⟨rfl, fun p key' hlookup => ?_, fun src packets hlookup => ?_,
    fun _ _ => builtinHandlers_identity⟩
  · dsimp only [IdentityManager.addTrustedPeer] at hlookup
    rw [UMap.lookup_insert_eq] at hlookup
    split_ifs at hlookup with hp
    · cases hlookup
      exact ⟨cert, ⟨by simpa using hverify, hp.symm⟩, rfl⟩
    · cases hlookup
  · cases hlookup

/-- In every run in which every certificate that a node takes from an identity request or response
is one of the root for the sender, each trusted key comes from a certificate of the root for its
peer. -/
theorem trustedKeys_certified {cert key : Bytes} {im : IdentityManager}
    (hload : IdentityManager.loadIdentities lib.toOpenSsl {} cert key ca = .ok im) (peerId : PeerId)
    (encryptMessages : Bool) {node : NodeState}
    (hrun : Relation.ReflTransGen (NodeState.Moves lib (ReceivesVouched lib))
      { peerId, encryptMessages, identity := im }
      node) :
    node.identity.caRoot = ca ∧ ∀ p pubKey, node.identity.trustedKeys.lookup p = some pubKey →
      ∃ c, verifyCertificate lib.toOpenSsl c node.identity.caRoot = true ∧
        extractCommonName lib.toOpenSsl c = p ∧ extractPubkeyFromCert lib.toOpenSsl c = pubKey := by
  have hsound : Sound (CertifiedKey lib ca) ca node := by
    induction hrun with
    | refl => exact loadIdentities_sound hload peerId encryptMessages
    | tail _ hstep ih =>
      obtain ⟨env, event, hvouched, rfl⟩ := hstep
      have hgood := hvouched.receivesGood
      rw [ih.caRoot] at hgood
      exact call_sound env ih hgood
  refine ⟨hsound.caRoot, fun p pubKey hlookup => ?_⟩
  obtain ⟨c, ⟨hverify, hname⟩, hkey⟩ := hsound.keys p pubKey hlookup
  rw [hsound.caRoot]
  exact ⟨c, hverify, hname, hkey⟩

end Runs

/-! ## A node and a peer -/

def identityA : IdentityManager :=
  IdentityManager.addTrustedPeer { myCert := [9, 1], myPrivateKey := [1], caRoot := [9] } "a" [1]

lemma loadIdentities_identityA :
    IdentityManager.loadIdentities openLibraries.toOpenSsl {} [9, 1] [1] [9] = .ok identityA :=
  rfl

def loadedA : NodeState := { peerId := "a", encryptMessages := true, identity := identityA }

def identityRequestOfB (cert : Bytes) : RoutedPacket :=
  makeBinaryRoutedPacket [5] "b" "a" defaultTtl identityRequestSubtype .tcp cert true

/-- Node "a" after an identity request of "b" with the given certificate. -/
def askedBy (cert : Bytes) : NodeState :=
  (loadedA.call openLibraries (plainEnv 0)
    (.incoming (RouterState.create "a" 0) (identityRequestOfB cert))).node

theorem trustedKeys_certified_request :
    (askedBy [9, 2]).identity.trustedKeys.lookup "b" = some [2] ∧
      ∃ c, verifyCertificate openLibraries.toOpenSsl c [9] = true ∧
        extractCommonName openLibraries.toOpenSsl c = "b" ∧
        extractPubkeyFromCert openLibraries.toOpenSsl c = [2] := by
  have hvouched : ReceivesVouched openLibraries loadedA
      (.incoming (RouterState.create "a" 0) (identityRequestOfB [9, 2])) := by
    refine ⟨fun _ payload cert hpayload hparse => ?_, fun src packets hlookup => by cases hlookup⟩
    cases hpayload
    cases hparse
    exact ⟨by decide, by decide⟩
  have hrun : Relation.ReflTransGen (NodeState.Moves openLibraries (ReceivesVouched openLibraries))
      loadedA
      (askedBy [9, 2]) :=
    .single ⟨plainEnv 0, _, hvouched, rfl⟩
  have hkey : (askedBy [9, 2]).identity.trustedKeys.lookup "b" = some [2] := by decide
  obtain ⟨hroot, hkeys⟩ := trustedKeys_certified loadIdentities_identityA "a" true hrun
  rw [hroot] at hkeys
  exact ⟨hkey, hkeys "b" [2] hkey⟩

/-- The certificate of another root: the node trusts its key for "b". -/
theorem forged_certificate_trusted :
    IdentityManager.loadIdentities openLibraries.toOpenSsl {} [9, 1] [1] [9] =
      .ok loadedA.identity ∧ verifyCertificate openLibraries.toOpenSsl [7, 66] [9] = false ∧
      (askedBy [7, 66]).identity.caRoot = [9] ∧
      (askedBy [7, 66]).identity.trustedKeys.lookup "b" = some [66] ∧
      ∀ c, verifyCertificate openLibraries.toOpenSsl c [9] = true →
        extractPubkeyFromCert openLibraries.toOpenSsl c ≠ [66] := by
  refine ⟨rfl, by decide, by decide, by decide, fun c hverify => ?_⟩
  have hsigned : c = [9, 1] ∨ c = [9, 2] := of_decide_eq_true hverify
  rcases hsigned with rfl | rfl
  · decide
  · decide

end MeshNetwork.Proofs
