import MeshNetwork.Library.ProtobufWire
import MeshNetwork.Model.Connection

/-!
# Envelopes on the wire

The messages of `proto/envelope.proto` as Protobuf writes and reads them. A field that holds a
message is written once it is set, and `send_message` and the constructors of handshakes set all of
them; any other field if it differs from its default. A reader takes the fields in any order, lets a
later one win, merges messages, passes over what it does not know and refuses a string that is not
UTF-8.
-/

namespace MeshNetwork

open ProtobufWire

/-! ## Writing -/

def EnvelopeType.number : EnvelopeType → Int
  | .handshake => 0
  | .heartbeat => 1
  | .data => 2
  | .other value => value

def serializeAddress (address : WireAddress) : Bytes :=
  bytesField 1 (utf8 address.ip) ++ (numberField 2 (int32Number address.tcpPort) ++
    (numberField 3 (int32Number address.udpPort) ++ []))

def serializeRecord (record : PeerRecord) : Bytes :=
  bytesField 1 (utf8 record.peerId) ++ (setField 2 (serializeAddress record.peerIp) ++ [])

def serializeHandshake (handshake : Handshake) : Bytes :=
  bytesField 1 (utf8 handshake.protoVersion) ++
    (setField 2 (serializeRecord handshake.peerRecord) ++ [])

def serializeEnvelope (envelope : Envelope) : Bytes :=
  bytesField 1 envelope.msgId ++ (setField 2 (serializeAddress envelope.sender) ++
    (setField 3 (serializeAddress envelope.recipient) ++
      (numberField 4 (int32Number envelope.type.number) ++
      (bytesField 5 envelope.payload ++ (numberField 6 envelope.expectResponse.toNat ++ [])))))

/-! ## Reading -/

def EnvelopeType.ofNumber (value : Int) : EnvelopeType :=
  if value = 0 then .handshake
  else if value = 1 then .heartbeat
  else if value = 2 then .data
  else .other value

def readAddressField (address : WireAddress) : Nat × FieldValue → Option WireAddress
  | (1, .bytes value) => (readText value).map fun ip => { address with ip }
  | (2, .varint value) => some { address with tcpPort := readInt32 value }
  | (3, .varint value) => some { address with udpPort := readInt32 value }
  | _ => some address

def readRecordField (record : PeerRecord) : Nat × FieldValue → Option PeerRecord
  | (1, .bytes value) => (readText value).map fun peerId => { record with peerId }
  | (2, .bytes value) =>
    (mergeMessage readAddressField record.peerIp value).map fun peerIp => { record with peerIp }
  | _ => some record

def readHandshakeField (handshake : Handshake) : Nat × FieldValue → Option Handshake
  | (1, .bytes value) => (readText value).map fun protoVersion => { handshake with protoVersion }
  | (2, .bytes value) =>
    (mergeMessage readRecordField handshake.peerRecord value).map fun peerRecord =>
      { handshake with peerRecord }
  | _ => some handshake

def readEnvelopeField (envelope : Envelope) : Nat × FieldValue → Option Envelope
  | (1, .bytes value) => some { envelope with msgId := value }
  | (2, .bytes value) =>
    (mergeMessage readAddressField envelope.sender value).map fun sender => { envelope with sender }
  | (3, .bytes value) =>
    (mergeMessage readAddressField envelope.recipient value).map fun recipient =>
      { envelope with recipient }
  | (4, .varint value) => some { envelope with type := .ofNumber (readInt32 value) }
  | (5, .bytes value) => some { envelope with payload := value }
  | (6, .varint value) => some { envelope with expectResponse := decide (value ≠ 0) }
  | _ => some envelope

def parseHandshake (bytes : Bytes) : Option Handshake :=
  mergeMessage readHandshakeField ⟨"", "", {}⟩ bytes

def parseEnvelope (bytes : Bytes) : Option Envelope :=
  mergeMessage readEnvelopeField
    { msgId := [], type := .handshake, payload := [], expectResponse := false } bytes

def protobufCodec : EnvelopeCodec :=
  ⟨parseEnvelope, serializeEnvelope, parseHandshake, serializeHandshake⟩

end MeshNetwork
