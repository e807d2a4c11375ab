import MeshNetwork.Model.Connection
import MeshNetwork.Model.FecCodec

/-!
# The UDP transport

`UdpTransport` with a decoder for each sender and FEC configuration, and the callback by which
`RpcManager` hands the payloads on. The transport follows `src/mesh/net/udp/UdpTransport.cpp`, the
callback the constructor of `RpcManager`. The socket is bound to IPv4, and `on_receive_cb_` is taken
not to throw.
-/

namespace MeshNetwork

/-! ## Endpoints -/

/-- An IPv4 address as it is printed. -/
def dotted (a b c d : UInt8) : String :=
  toString a.toNat ++ "." ++ toString b.toNat ++ "." ++ toString c.toNat ++ "." ++ toString d.toNat

def Endpoint.IsV4 (endpoint : Endpoint) : Prop := ∃ a b c d, endpoint.address = dotted a b c d

/-- The source of a datagram. -/
abbrev UdpEndpoint := { endpoint : Endpoint // endpoint.IsV4 }

/-! ## Receiving -/

structure UdpTransport where
  isOpen : Bool := true
  /-- Whether `on_receive_cb_` is set. -/
  hasCallback : Bool := true
  /-- An entry without a decoder is left behind when its constructor throws. -/
  decodersByEndpoint : UMap String (Option FecCodec) := ∅

namespace UdpTransport

def endpointKey (endpoint : Endpoint) : String :=
  endpoint.address ++ ":" ++ toString endpoint.port.toNat

def decoderKey (endpoint : Endpoint) (dataShards roots : UInt8) : String :=
  endpointKey endpoint ++ "/" ++ toString dataShards.toNat ++ "/" ++ toString roots.toNat

def shutdown (t : UdpTransport) : UdpTransport := { t with isOpen := false }

/-- The decoder that is stored under the key, or a new one. -/
def makeDecoder (entry : Option (Option FecCodec)) (dataShards roots : UInt8) :
    Except String FecCodec :=
  match entry with
  | some (some codec) => .ok codec
  | _ => FecCodec.create dataShards roots

def decoderFor (endpoint : Endpoint) (dataShards roots : UInt8) (t : UdpTransport) :
    Except String FecCodec × UdpTransport :=
  let key := decoderKey endpoint dataShards roots
  let codec := makeDecoder (t.decodersByEndpoint.lookup key) dataShards roots
  (codec, { t with decodersByEndpoint := t.decodersByEndpoint.insert key codec.toOption })

/-- The handler of `start_receive`: the payloads that `on_receive_cb_` is called with, for the
source of the datagram. -/
def receive (t : UdpTransport) (datagram : UdpEndpoint × Bytes) : List Bytes × UdpTransport :=
  let (source, rawData) := datagram
  if t.isOpen ∧ rawData ≠ [] ∧ t.hasCallback then
    if isFecFrame rawData then
      match frameConfig rawData with
      | none => ([], t)
      | some (dataShards, roots) =>
        match t.decoderFor source dataShards roots with
        | (.error _, t) => ([], t)
        | (.ok decoder, t) =>
          let (payloads, decoder) := decoder.decode rawData
          (payloads, { t with
            decodersByEndpoint := t.decodersByEndpoint.insert (decoderKey source dataShards
              roots) (some decoder) })
    else ([rawData], t)
  else ([], t)

/-- The size of `recv_buffer_`. -/
def recvBufferSize : Nat := 65536

/-- `async_receive_from`, which cuts off what does not fit into `recv_buffer_`, and its handler. -/
def asyncReceiveFrom (t : UdpTransport) (datagram : UdpEndpoint × Bytes) :
    List Bytes × UdpTransport :=
  t.receive (datagram.1, datagram.2.take recvBufferSize)

end UdpTransport

/-! ## Attribution -/

/-- The callback that `RpcManager` sets: the call of `push_data_bytes`, if there is one. -/
def RpcManager.onUdpReceive (s : RpcManager) (endpoint : Endpoint) (bytes : Bytes) :
    Option (PeerId × Bytes) :=
  (s.connectionsByIp.lookup endpoint.address).map fun conn => (conn.remotePeerId, bytes)

/-- A manager with the UDP ports that the remotes of its connections have announced. -/
structure UdpManager where
  manager : RpcManager := {}
  announcedPorts : UMap Nat UInt16 := ∅

inductive UdpManagerEvent where
  /-- `announced` is the port of the handshake that the event completes, if it completes one. -/
  | rpc (event : RpcEvent) (announced : Int)
  /-- A further `HANDSHAKE` envelope on the connection `id`. -/
  | handshake (id : Nat) (announced : Int)

namespace UdpManager

/-- `remote_udp_endpoint_`, which the handshake sets to the address of the connection and the
announced port. -/
def remoteUdpEndpoint (s : UdpManager) (conn : RpcConnection) : Endpoint :=
  ⟨conn.remoteIp, (s.announcedPorts.lookup conn.id).getD 0⟩

/-- The number of the connection whose handshake the event completes. -/
def shakenConnection (s : RpcManager) : RpcEvent → Option Nat
  | .incoming _ _ => some s.nextConnection
  | .startupFinished i (.ok _) =>
    (s.attempts.lookup i).bind fun a =>
      match a.stage with
      | .starting => a.conn.map RpcConnection.id
      | _ => none
  | _ => none

def announce (id : Nat) (announced : Int) (s : UdpManager) : UdpManager :=
  { s with announcedPorts := s.announcedPorts.insert id (UInt16.ofInt announced) }

def step (s : UdpManager) : UdpManagerEvent → UdpManager
  | .rpc event announced =>
    let ports := (shakenConnection s.manager event).elim s fun id => s.announce id announced
    { ports with manager := s.manager.step event }
  | .handshake id announced => s.announce id announced

end UdpManager

end MeshNetwork
