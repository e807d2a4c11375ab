import MeshNetwork.Library.UnorderedMap

/-!
# Routed packets

The messages of `packet.proto`, the constructors of `RoutedPacketUtils.cpp` and the hex encoding
of packet ids. A packet is sent and received as a value; `PacketWire` has its bytes.
-/

namespace MeshNetwork

abbrev PeerId := String

/-- The bytes of a `std::string`, a `std::vector<uint8_t>` or a protobuf `bytes` field. -/
abbrev Bytes := List UInt8

/-- A point of the steady clock, in nanoseconds. -/
abbrev Time := Nat

def milliseconds (n : Nat) : Time := n * 1000000

def seconds (n : Nat) : Time := n * 1000000000

/-- Map from destination to cost in hops. -/
abbrev RouteTable := UMap PeerId UInt32

/-- Protobuf enumerations are open: a parsed value need not be a known one. -/
inductive TransportProtocol where
  | tcp
  | udp
  | unknown (value : Nat)
  deriving DecidableEq, Repr

inductive PacketType where
  | routingUpdate
  | text
  | binary
  | unknown (value : Nat)
  deriving DecidableEq, Repr

/-- The `payload_variant` of a packet. -/
inductive PayloadVariant where
  | notSet
  | text (value : String)
  | routeTable (value : RouteTable)
  | binaryData (value : Bytes)
  | encryptedPayload (value : Bytes)
  deriving DecidableEq

structure RoutedPacket where
  id : Bytes := []
  fromPeerId : PeerId := ""
  toPeerId : PeerId := ""
  ttl : UInt32 := 0
  type : PacketType := .routingUpdate
  transport : TransportProtocol := .tcp
  subtype : String := ""
  expectResponse : Bool := false
  signature : Bytes := []
  encryptedSessionKey : Bytes := []
  payload : PayloadVariant := .notSet
  deriving DecidableEq

/-- Accessors of an unset field return its default. -/
def RoutedPacket.routeTable (pkt : RoutedPacket) : RouteTable :=
  match pkt.payload with
  | .routeTable table => table
  | _ => ∅

def RoutedPacket.binaryData (pkt : RoutedPacket) : Bytes :=
  match pkt.payload with
  | .binaryData data => data
  | _ => []

def RoutedPacket.encryptedPayload (pkt : RoutedPacket) : Bytes :=
  match pkt.payload with
  | .encryptedPayload data => data
  | _ => []

def RoutedPacket.hasEncryptedPayload (pkt : RoutedPacket) : Bool :=
  match pkt.payload with
  | .encryptedPayload _ => true
  | _ => false

/-! ## Constructors; `id` is the value of `generate_uuid_bytes` -/

def makeTextRoutedPacket (id : Bytes) (fromPeerId toPeerId : PeerId) (ttl : UInt32)
    (payload : String) (expectResponse : Bool := false) : RoutedPacket :=
  { id, fromPeerId, toPeerId, ttl, type := .text, payload := .text payload, expectResponse }

def makeBinaryRoutedPacket (id : Bytes) (fromPeerId toPeerId : PeerId) (ttl : UInt32)
    (subtype : String) (transport : TransportProtocol) (rawData : Bytes := [])
    (expectResponse : Bool := false) : RoutedPacket :=
  { id, fromPeerId, toPeerId, ttl, type := .binary, subtype, transport
    payload := .binaryData rawData, expectResponse }

def makeRoutingTableRoutedPacket (id : Bytes) (fromPeerId toPeerId : PeerId) (ttl : UInt32)
    (rt : RouteTable) : RoutedPacket :=
  { id, fromPeerId, toPeerId, ttl, type := .routingUpdate, payload := .routeTable rt }

/-! ## Packet ids as text -/

/-- Two lower-case hexadecimal digits for each byte. -/
def toHex (input : Bytes) : String :=
  String.ofList (input.flatMap fun c => [Nat.digitChar (c.toNat / 16),
    Nat.digitChar (c.toNat % 16)])

end MeshNetwork
