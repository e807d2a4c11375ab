import MeshNetwork.Model.Packet

/-!
# Framed sessions

`GenericSession` sends messages over a byte stream, each behind a header with its id and its length,
and reads the frames of the other side. Its handlers run one after the other on its strand; an event
is one of them, or a call by another thread. The session follows `src/mesh/net/Session.cpp`. The
stream is its environment: `async_read_fully` yields the requested number of bytes, or an error if
the stream has ended before them.
-/

namespace MeshNetwork

/-! ## Frames -/

/-- The limit of `do_read_header`. -/
def maxPayloadSize : Nat := 10 * 1024 * 1024

def frameHeaderSize : Nat := 20

/-- The four bytes of `htonl(n)`, as they lie in memory. -/
def htonl (n : UInt32) : Bytes :=
  [((n >>> 24) &&& 0xFF).toUInt8, ((n >>> 16) &&& 0xFF).toUInt8, ((n >>> 8) &&& 0xFF).toUInt8,
    (n &&& 0xFF).toUInt8]

def ntohl (bytes : Bytes) : UInt32 :=
  ((bytes.getD 0 0).toUInt32 <<< 24) ||| ((bytes.getD 1 0).toUInt32 <<< 16) |||
    ((bytes.getD 2 0).toUInt32 <<< 8) ||| (bytes.getD 3 0).toUInt32

/-- The frame that `async_send_message` puts together; the id is read as a `uuid`. -/
def frameOf (reqId message : Bytes) : Bytes :=
  reqId.take 16 ++ htonl (UInt32.ofNat message.length) ++ message

/-! ## State -/

/-- What is posted to the strand. -/
inductive StrandTask where
  | handshake
  | push (data : Bytes)
  | close
  deriving DecidableEq, Repr

/-- The asynchronous operation that the reading side waits for. -/
inductive ReadStage where
  /-- `start` has not run yet. -/
  | idle
  | handshake
  | header
  | payload (msgId : Bytes) (len : UInt32)
  /-- The reading side has called `stop` and waits for nothing. -/
  | stopped
  deriving DecidableEq, Repr

structure GenericSession where
  isOpen : Bool := true
  tasks : List StrandTask := []
  outbox : List Bytes := []
  /-- The writes in progress, oldest first. -/
  writes : List Bytes := []
  /-- All that was given to `async_write_fully`. -/
  output : Bytes := []
  reading : ReadStage := .idle
  /-- The calls of `response_handler_`. -/
  calls : List (Bytes × Bytes) := []

namespace GenericSession

def post (task : StrandTask) (s : GenericSession) : GenericSession :=
  { s with tasks := s.tasks ++ [task] }

def start (s : GenericSession) : GenericSession := s.post .handshake

def stop (s : GenericSession) : GenericSession := s.post .close

/-! ## Writing -/

def asyncSendMessage (reqId message : Bytes) (s : GenericSession) : GenericSession :=
  if message.length > 4294967295 then s else s.post (.push (frameOf reqId message))

def doWrite (s : GenericSession) : GenericSession :=
  match s.outbox with
  | [] => s
  | msg :: _ => { s with writes := s.writes ++ [msg], output := s.output ++ msg }

/-- The task that `async_send_message` posts. -/
def pushData (data : Bytes) (s : GenericSession) : GenericSession :=
  let writeInProgress := !s.outbox.isEmpty
  let s := { s with outbox := s.outbox ++ [data] }
  if writeInProgress then s else s.doWrite

/-- The task that `stop` posts. -/
def closeStream (s : GenericSession) : GenericSession :=
  if s.isOpen then { s with isOpen := false, outbox := [] } else s

/-- The oldest task of the strand runs. -/
def runTask (s : GenericSession) : GenericSession :=
  match s.tasks with
  | [] => s
  | task :: rest =>
    let s := { s with tasks := rest }
    match task with
    | .handshake => { s with reading := .handshake }
    | .push data => s.pushData data
    | .close => s.closeStream

/-- The handler of `async_write_fully` for one of the writes in progress. -/
def onWritten (index : Nat) (ec : Option String) (s : GenericSession) : GenericSession :=
  if index < s.writes.length then
    let s := { s with writes := s.writes.eraseIdx index }
    match ec with
    | some _ => s.stop
    | none => { s with outbox := s.outbox.tail }.doWrite
  else s

/-! ## Reading -/

/-- The number of bytes that the outstanding `async_read_fully` asks for. -/
def wanted (s : GenericSession) : Option Nat :=
  match s.reading with
  | .header => some frameHeaderSize
  | .payload _ len => some len.toNat
  | _ => none

/-- The handler of `async_handshake`. -/
def onHandshake (ec : Option String) (s : GenericSession) : GenericSession :=
  match s.reading with
  | .handshake =>
    match ec with
    | some _ => { s with reading := .stopped }.stop
    | none => { s with reading := .header }
  | _ => s

/-- The handlers of `do_read_header` and `do_read_payload`. -/
def onRead (result : Except String Bytes) (s : GenericSession) : GenericSession :=
  match s.reading, result with
  | .header, .ok headerBuf =>
    let len := ntohl (headerBuf.drop 16)
    if len.toNat > maxPayloadSize then { s with reading := .stopped }.stop
    else { s with reading := .payload (headerBuf.take 16) len }
  | .payload msgId _, .ok payload =>
    { s with calls := s.calls ++ [(msgId, payload)], reading := .header }
  | .header, .error _ => { s with reading := .stopped }.stop
  | .payload _ _, .error _ => { s with reading := .stopped }.stop
  | _, _ => s

end GenericSession

inductive SessionEvent where
  | start
  | stop
  | asyncSendMessage (reqId message : Bytes)
  | runTask
  | handshakeDone (ec : Option String)
  | writeDone (index : Nat) (ec : Option String)
  | readDone (result : Except String Bytes)

def GenericSession.step (s : GenericSession) : SessionEvent → GenericSession
  | .start => s.start
  | .stop => s.stop
  | .asyncSendMessage reqId message => s.asyncSendMessage reqId message
  | .runTask => s.runTask
  | .handshakeDone ec => s.onHandshake ec
  | .writeDone index ec => s.onWritten index ec
  | .readDone result => s.onRead result

/-- A session that has been started and whose stream is ready. -/
def GenericSession.started : GenericSession :=
  [SessionEvent.start, .runTask, .handshakeDone none].foldl GenericSession.step {}

/-! ## The stream that arrives -/

/-- The bytes that have arrived, how many of them have been read, and whether the stream has
ended. -/
structure ByteStream where
  received : Bytes := []
  taken : Nat := 0
  ended : Bool := false

/-- The result of `async_read_fully` for `n` bytes, if it can complete. -/
def ByteStream.readFully (stream : ByteStream) (n : Nat) : Option (Except String Bytes) :=
  if stream.taken + n ≤ stream.received.length then some
    (.ok ((stream.received.drop stream.taken).take n))
  else if stream.ended then some (.error "End of file")
  else none

/-- The stream ends, without the last `lost` bytes as far as they have not been read. -/
def ByteStream.truncate (lost : Nat) (stream : ByteStream) : ByteStream :=
  { stream with
    received := stream.received.take (max stream.taken (stream.received.length - lost))
    ended := true }

/-- A session with the stream that it reads. -/
structure Incoming where
  session : GenericSession
  stream : ByteStream := {}

inductive IncomingEvent where
  | arrive (bytes : Bytes)
  /-- The stream fails; the last `lost` bytes are not read any more. -/
  | ends (lost : Nat)
  /-- The outstanding read completes. -/
  | read
  | session (event : SessionEvent)

namespace Incoming

/-- The read that is outstanding completes, if it can. -/
def read (s : Incoming) : Incoming :=
  match s.session.wanted with
  | none => s
  | some n =>
    match s.stream.readFully n with
    | none => s
    | some result => ⟨s.session.onRead result, { s.stream with taken := s.stream.taken + n }⟩

def step (s : Incoming) : IncomingEvent → Incoming
  | .arrive bytes =>
    if s.stream.ended then s
    else { s with stream := { s.stream with received := s.stream.received ++ bytes } }
  | .ends lost => { s with stream := s.stream.truncate lost }
  | .read => s.read
  | .session event => { s with session := s.session.step event }

/-- The session waits for bytes that have not arrived, or for nothing. -/
def Settled (s : Incoming) : Prop := ∀ n, s.session.wanted = some n → s.stream.readFully n = none

end Incoming

/-! ## Two sessions -/

/-- A session that sends, and the other end of its stream. -/
structure SessionPair where
  sender : GenericSession
  receiver : Incoming

inductive PairEvent where
  | asyncSendMessage (reqId message : Bytes)
  /-- A task of the sender's strand runs. -/
  | runTask
  /-- A write of the sender has succeeded. -/
  | written (index : Nat)
  /-- Up to `n` further bytes of what the sender writes arrive. -/
  | carry (n : Nat)
  /-- A read of the receiver completes. -/
  | read
  deriving DecidableEq

namespace SessionPair

/-- The bytes on their way. -/
def inTransit (p : SessionPair) : Bytes := p.sender.output.drop p.receiver.stream.received.length

def step (p : SessionPair) : PairEvent → SessionPair
  | .asyncSendMessage reqId message => { p with sender := p.sender.asyncSendMessage reqId message }
  | .runTask => { p with sender := p.sender.runTask }
  | .written index => { p with sender := p.sender.onWritten index none }
  | .carry n => { p with receiver := p.receiver.step (.arrive (p.inTransit.take n)) }
  | .read => { p with receiver := p.receiver.read }

/-- Two sessions that have just been started. -/
def create : SessionPair := ⟨.started, { session := .started }⟩

/-- Everything that was sent has been written, has arrived and has been read. -/
structure Quiet (p : SessionPair) : Prop where
  noTask : p.sender.tasks = []
  noWrite : p.sender.writes = []
  arrived : p.inTransit = []
  settled : p.receiver.Settled

end SessionPair

end MeshNetwork
