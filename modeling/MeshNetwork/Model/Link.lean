import MeshNetwork.Model.Envelopes
import MeshNetwork.Model.Session

/-!
# Two connections over one stream

The node that has dialled and the node that has accepted run an `RpcConnection` each; the sessions
carry the messages of one to the other in order. The manager sends heartbeats and packets on a
connection that it has registered, and the sink is taken to be alive. The ends are those of
`Model/Connection.lean`, with the calls of `Model/Envelopes.lean`.
-/

namespace MeshNetwork

inductive LinkEnd where
  | initiator
  | acceptor
  deriving DecidableEq, Repr

def LinkEnd.other : LinkEnd → LinkEnd
  | .initiator => .acceptor
  | .acceptor => .initiator

structure Link where
  initiator : RpcConnection.State
  acceptor : RpcConnection.State

namespace Link

def get (link : Link) : LinkEnd → RpcConnection.State
  | .initiator => link.initiator
  | .acceptor => link.acceptor

def set (link : Link) (s : RpcConnection.State) : LinkEnd → Link
  | .initiator => { link with initiator := s }
  | .acceptor => { link with acceptor := s }

/-- What the program does at an end of its own accord. `send_tcp_message` and `send_heartbeats` find
the connection among the registered ones. -/
def allows (side : LinkEnd) (s : RpcConnection.State) : ProgramEvent → Bool
  | .message _ _ => false
  | .start initiator => initiator == (side == .initiator)
  | .dispatch sinkAlive => sinkAlive
  | .heartbeat _ | .forwardPacket _ _ _ _ | .triggeredUpdate _ _ _ _ _ | .fullTable _ _ _ _ _ =>
    match s.stage with
    | .registered _ => true
    | _ => false
  | _ => true

/-- The id in the frame of a message; a shorter id is read beyond its end. -/
def frameId (msgId beyond : Bytes) : Bytes := (msgId ++ beyond).take 16

/-- The next message for an end; one that is too long stops the reader. -/
def nextMessage (link : Link) (side : LinkEnd) : Option (Bytes × Bytes) :=
  ((link.get side.other).sent[(link.get side).received.length]?).filter fun m =>
    decide (m.2.length ≤ maxPayloadSize)

end Link

inductive LinkEvent where
  | act (side : LinkEnd) (event : ProgramEvent)
  /-- The session of an end has read the next frame. -/
  | deliver (side : LinkEnd) (beyond : Bytes)

def Link.step (codec : EnvelopeCodec) (link : Link) : LinkEvent → Link
  | .act side event =>
    if Link.allows side (link.get side) event then link.set
      ((link.get side).programStep codec event) side else link
  | .deliver side beyond =>
    match link.nextMessage side with
    | none => link
    | some m =>
      link.set ((link.get side).programStep codec (.message (Link.frameId m.1 beyond) m.2)) side

/-- Both connections have been created; the endpoints of one are those of the other. -/
def Link.create (initiatorId acceptorId : PeerId) (dialled accepted : Endpoint)
    (initiatorUdp acceptorUdp : Int) :
    Link where
  initiator := .create initiatorId dialled accepted initiatorUdp
  acceptor := .create acceptorId accepted dialled acceptorUdp

end MeshNetwork
