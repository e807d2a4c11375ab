import MeshNetwork.Library.ProtobufWire
import MeshNetwork.Model.Packet

/-!
# Packets on the wire

`RoutedPacket::SerializeAsString`. Protobuf writes the fields that are present in ascending order of
their numbers in `packet.proto`, each behind a tag with its number and its wire type, and the bytes
of unknown fields, which a parsed packet keeps, last. A field of the `payload_variant` is present
once it is set, any other field if it differs from its default.
-/

namespace MeshNetwork

open ProtobufWire

/-- The number that is written for a value; a negative one is extended to 64 bits. -/
def TransportProtocol.number : TransportProtocol → Nat
  | .tcp => 0
  | .udp => 1
  | .unknown value => value

def PacketType.number : PacketType → Nat
  | .routingUpdate => 0
  | .text => 1
  | .binary => 2
  | .unknown value => value

/-- An entry of a map is a message with the key and the value. -/
def mapEntry (entry : PeerId × UInt32) : Bytes :=
  setField 1 (setField 1 (utf8 entry.1) ++ (fieldTag 2 .varint ++ varint entry.2.toNat))

/-- What a parsed message keeps of fields that `packet.proto` does not declare. -/
structure UnknownFields where
  packet : Bytes := []
  routeTable : Bytes := []

/-- The order of the entries of a map is not fixed. -/
def serializeRouteTable (ord : IterOrder PeerId) (table : RouteTable)
    (unknown : UnknownFields) : Bytes :=
  (table.items ord 0).flatMap mapEntry ++ unknown.routeTable

def payloadField (ord : IterOrder PeerId) (unknown : UnknownFields) : PayloadVariant → Bytes
  | .notSet => []
  | .text value => setField 11 (utf8 value)
  | .routeTable value => setField 12 (serializeRouteTable ord value unknown)
  | .binaryData value => setField 13 value
  | .encryptedPayload value => setField 14 value

def serializePacket (ord : IterOrder PeerId) (pkt : RoutedPacket)
    (unknown : UnknownFields) : Bytes :=
  bytesField 1 pkt.id ++ (bytesField 2 (utf8 pkt.fromPeerId) ++ (bytesField 3 (utf8 pkt.toPeerId) ++
    (numberField 4 pkt.ttl.toNat ++ (numberField 5 pkt.type.number ++
      (numberField 6 pkt.transport.number ++
      (bytesField 7 (utf8 pkt.subtype) ++ numberField 8 pkt.expectResponse.toNat ++
        bytesField 9 pkt.signature ++
        bytesField 10 pkt.encryptedSessionKey ++ payloadField ord unknown pkt.payload ++
          unknown.packet))))))

end MeshNetwork
