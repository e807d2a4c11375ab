import MeshNetwork.Model.PacketWire
import MeshNetwork.Model.UdpTransport

/-!
# The sending side of the UDP transport

The options, the encoders and `send_packet` of `UdpTransport`, from
`src/mesh/net/udp/UdpTransport.h` and `UdpTransport.cpp`. The datagrams are those that
`async_send_to` is called with.
-/

namespace MeshNetwork

structure UdpFecOptions where
  enabled : Bool := false
  dataShards : UInt8 := 4
  roots : UInt8 := 0

/-- The members of `UdpTransport` that sending uses. -/
structure UdpSender where
  isOpen : Bool := true
  fecOptions : UdpFecOptions := {}
  /-- An entry without an encoder is left behind when its constructor throws. -/
  encodersByEndpoint : UMap String (Option FecCodec) := ∅

namespace UdpSender

/-- The constructor of `UdpTransport`. -/
def create (options : UdpFecOptions) : Except String UdpSender :=
  let options := if options.roots = 0 then { options with enabled := false } else options
  if options.enabled then
    if options.dataShards.toNat < 1 then .error "UDP FEC requires at least one data shard"
    else if options.dataShards.toNat + options.roots.toNat > 254 then
      .error "UDP FEC requires data shards + roots <= 254"
    else .ok { fecOptions := options }
  else .ok { fecOptions := options }

def shutdown (t : UdpSender) : UdpSender := { t with isOpen := false }

/-- The encoder that is stored under the key, or a new one. -/
def encoderFor (endpoint : Endpoint) (t : UdpSender) : Except String FecCodec × UdpSender :=
  let key := UdpTransport.endpointKey endpoint
  let codec :=
    UdpTransport.makeDecoder (t.encodersByEndpoint.lookup key) t.fecOptions.dataShards
      t.fecOptions.roots
  (codec, { t with encodersByEndpoint := t.encodersByEndpoint.insert key codec.toOption })

/-- The datagrams that `send_packet` sends to `endpoint`; an exception of the encoder is caught. -/
def sendPacket (ord : IterOrder PeerId) (endpoint : Endpoint) (pkt : RoutedPacket)
    (unknown : UnknownFields) (t : UdpSender) : List Bytes × UdpSender :=
  if t.isOpen then
    let payload := serializePacket ord pkt unknown
    if t.fecOptions.enabled then
      match t.encoderFor endpoint with
      | (.error _, t) => ([], t)
      | (.ok encoder, t) =>
        let (encoded, encoder) := encoder.encode payload
        let t := { t with
          encodersByEndpoint := t.encodersByEndpoint.insert (UdpTransport.endpointKey
            endpoint) (some encoder) }
        match encoded with
        | .error _ => ([], t)
        | .ok result => (result.dataFrame :: result.parityFrames, t)
    else ([payload], t)
  else ([], t)

end UdpSender

inductive UdpSenderEvent where
  | sendPacket (ord : IterOrder PeerId) (endpoint : Endpoint) (pkt : RoutedPacket)
      (unknown : UnknownFields)
  | shutdown

def UdpSender.step (t : UdpSender) : UdpSenderEvent → UdpSender
  | .sendPacket ord endpoint pkt unknown => (t.sendPacket ord endpoint pkt unknown).2
  | .shutdown => t.shutdown

end MeshNetwork
