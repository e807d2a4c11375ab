import MeshNetwork.Model.Packet

/-!
# Identities and packet encryption

`CertHelpers`, `CryptoHelpers`, `IdentityManager` and `PacketSecurity`. OpenSSL is a parameter: the
parsing and verification of certificates, the block cipher, RSA and signatures are its functions,
`none` standing for an exception.
-/

namespace MeshNetwork

/-- The functions of OpenSSL that the program calls. -/
structure OpenSsl where
  readX509 : Bytes → Option Bytes
  x509VerifyCert : (caCert targetCert : Bytes) → Bool
  x509Pubkey : Bytes → Option Bytes
  x509CommonName : Bytes → String
  cbcEncrypt : (key iv plaintext : Bytes) → Option Bytes
  cbcDecrypt : (key iv ciphertext : Bytes) → Option Bytes
  rsaEncrypt : (pubKeyPem seed plaintext : Bytes) → Option Bytes
  rsaDecrypt : (privKeyPem ciphertext : Bytes) → Option Bytes
  digestSign : (privKeyPem message : Bytes) → Option Bytes
  digestVerify : (pubKeyPem message signature : Bytes) → Bool

/-- `RAND_bytes` fills a buffer of `n` bytes. -/
def randBytes (n : Nat) (random : Bytes) : Bytes := (random ++ List.replicate n 0).take n

/-! ## Certificates -/

def verifyCertificate (ssl : OpenSsl) (certPem caRootPem : Bytes) : Bool :=
  match ssl.readX509 caRootPem with
  | none => false
  | some caCert =>
    match ssl.readX509 certPem with
    | none => false
    | some targetCert => ssl.x509VerifyCert caCert targetCert

def extractPubkeyFromCert (ssl : OpenSsl) (certPem : Bytes) : Bytes :=
  match ssl.readX509 certPem with
  | none => []
  | some cert => (ssl.x509Pubkey cert).getD []

def extractCommonName (ssl : OpenSsl) (certPem : Bytes) : String :=
  match ssl.readX509 certPem with
  | none => ""
  | some cert => ssl.x509CommonName cert

/-! ## Ciphers -/

def aesKeySize : Nat := 32

def aesIvSize : Nat := 16

def generateAesKey (random : Bytes) : Bytes := randBytes aesKeySize random

/-- The result is the initialization vector followed by the ciphertext. -/
def aesEncrypt (ssl : OpenSsl) (random key plaintext : Bytes) : Option Bytes :=
  if key.length ≠ aesKeySize then none
  else
    let iv := randBytes aesIvSize random
    (ssl.cbcEncrypt key iv plaintext).map fun ciphertext => iv ++ ciphertext

def aesDecrypt (ssl : OpenSsl) (key encryptedBlob : Bytes) : Option Bytes :=
  if key.length ≠ aesKeySize then none
  else if encryptedBlob.length < aesIvSize then none
  else ssl.cbcDecrypt key (encryptedBlob.take aesIvSize) (encryptedBlob.drop aesIvSize)

/-! ## The identity manager -/

structure IdentityManager where
  myCert : Bytes := []
  myPrivateKey : Bytes := []
  caRoot : Bytes := []
  trustedKeys : UMap PeerId Bytes := ∅
  pendingIncomingPackets : UMap PeerId (List RoutedPacket) := ∅
  pendingOutgoingPackets : UMap PeerId (List RoutedPacket) := ∅

namespace IdentityManager

def hasKey (im : IdentityManager) (peerId : PeerId) : Bool := (im.trustedKeys.lookup peerId).isSome

def getPublicKey (im : IdentityManager) (peerId : PeerId) : Option Bytes :=
  im.trustedKeys.lookup peerId

def addTrustedPeer (im : IdentityManager) (peerId : PeerId) (pubKey : Bytes) : IdentityManager :=
  { im with trustedKeys := im.trustedKeys.insert peerId pubKey }

def bufferIncomingPacket (im : IdentityManager) (peerId : PeerId) (pkt : RoutedPacket) :
    IdentityManager :=
  { im with pendingIncomingPackets :=
      im.pendingIncomingPackets.insert peerId ((im.pendingIncomingPackets.lookup peerId).getD
        [] ++ [pkt]) }

def bufferOutgoingPacket (im : IdentityManager) (peerId : PeerId) (pkt : RoutedPacket) :
    IdentityManager :=
  { im with pendingOutgoingPackets :=
      im.pendingOutgoingPackets.insert peerId ((im.pendingOutgoingPackets.lookup peerId).getD
        [] ++ [pkt]) }

def popIncomingPendingPackets (im : IdentityManager) (peerId : PeerId) :
    List RoutedPacket × IdentityManager :=
  match im.pendingIncomingPackets.lookup peerId with
  | none => ([], im)
  | some vec => (vec, { im with pendingIncomingPackets := im.pendingIncomingPackets.erase peerId })

def popOutgoingPendingPackets (im : IdentityManager) (peerId : PeerId) :
    List RoutedPacket × IdentityManager :=
  match im.pendingOutgoingPackets.lookup peerId with
  | none => ([], im)
  | some vec => (vec, { im with pendingOutgoingPackets := im.pendingOutgoingPackets.erase peerId })

/-- `load_identities` on the contents of the three files. -/
def loadIdentities (ssl : OpenSsl) (im : IdentityManager) (cert key ca : Bytes) :
    Except String IdentityManager :=
  let im := { im with caRoot := ca, myCert := cert, myPrivateKey := key }
  if !verifyCertificate ssl im.myCert im.caRoot then
    .error ("IdentityManager: Startup Check Failed " ++
      "My certificate is not signed by the provided CA Root.")
  else
    let myPubKey := extractPubkeyFromCert ssl im.myCert
    let myId := extractCommonName ssl im.myCert
    .ok (im.addTrustedPeer myId myPubKey)

end IdentityManager

/-! ## Packet security -/

/-- The random bytes of one encryption: the session key, the initialization vector and the
padding. -/
structure Nonces where
  sessionKey : Bytes
  iv : Bytes
  seed : Bytes

/-- `secure_packet`; `none` is the result `false`, which leaves the packet alone. -/
def securePacket (ssl : OpenSsl) (im : IdentityManager) (nonces : Nonces) (pkt : RoutedPacket)
    (targetPeerId : PeerId) (rawPayload : Bytes) : Option RoutedPacket :=
  match im.getPublicKey targetPeerId with
  | none => none
  | some targetPubKey =>
    if targetPubKey = [] then none
    else do
      let sessionKey := generateAesKey nonces.sessionKey
      let encPayload ← aesEncrypt ssl nonces.iv sessionKey rawPayload
      let encSessionKey ← ssl.rsaEncrypt targetPubKey nonces.seed sessionKey
      let signature ← ssl.digestSign im.myPrivateKey encPayload
      some
        { pkt with
          payload := .encryptedPayload encPayload, encryptedSessionKey := encSessionKey, signature }

/-- The part of `decrypt_packet` after the signature check. -/
def openPacket (ssl : OpenSsl) (im : IdentityManager) (pkt : RoutedPacket) : Option Bytes := do
  let sessionKey ← ssl.rsaDecrypt im.myPrivateKey pkt.encryptedSessionKey
  aesDecrypt ssl sessionKey pkt.encryptedPayload

def decryptPacket (ssl : OpenSsl) (im : IdentityManager) (pkt : RoutedPacket) :
    Except String Bytes :=
  match im.getPublicKey pkt.fromPeerId with
  | none => .error "sender identity unknown."
  | some senderPubKey =>
    if senderPubKey = [] then .error "sender identity unknown."
    else if !ssl.digestVerify senderPubKey pkt.encryptedPayload pkt.signature then .error
      "invalid signature"
    else
      match openPacket ssl im pkt with
      | none => .error "decryption internal error"
      | some plaintext => .ok plaintext

end MeshNetwork
