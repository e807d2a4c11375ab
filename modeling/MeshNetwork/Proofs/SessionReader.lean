import MeshNetwork.Library.BigEndian
import MeshNetwork.Library.EventRuns
import MeshNetwork.Library.PrefixCode
import MeshNetwork.Model.Session

/-!
# What a session reads

The frames form a code in which a stream starts with at most one frame, and the reading side stays
at the boundaries of frames. The handler is therefore called with the longest list of frames that
the stream starts with.
-/

namespace MeshNetwork.Proofs

open PrefixCode

/-! ## The grammar -/

/-- An id of 16 bytes, the length of the payload and the payload. -/
def frameBytes (f : Bytes × Bytes) : Bytes := f.1 ++ htonl (UInt32.ofNat f.2.length) ++ f.2

def IsFrame (f : Bytes × Bytes) : Prop := f.1.length = 16 ∧ f.2.length ≤ maxPayloadSize

instance (f : Bytes × Bytes) : Decidable (IsFrame f) := inferInstanceAs (Decidable (_ ∧ _))

lemma ntohl_htonl (n : UInt32) : ntohl (htonl n) = n := BigEndian.uint32_of_bytes n

lemma htonl_injective : Function.Injective htonl := Function.LeftInverse.injective ntohl_htonl

lemma htonl_ntohl {bytes : Bytes} (h : bytes.length = 4) : htonl (ntohl bytes) = bytes := by
  match bytes, h with
  | [a, b, c, d], _ => exact BigEndian.bytes_of_uint32 a b c d

lemma header_eq {buf : Bytes} (h : buf.length = frameHeaderSize) :
    buf.take 16 ++ htonl (ntohl (buf.drop 16)) = buf := by
  rw [htonl_ntohl (by rw [List.length_drop, h]; rfl), List.take_append_drop]

lemma header_length {id : Bytes} (hid : id.length = 16) (len : UInt32) :
    (id ++ htonl len).length = frameHeaderSize := by
  rw [List.length_append, hid]
  rfl

lemma ofNat_toNat_length {f : Bytes × Bytes} (hf : IsFrame f) :
    (UInt32.ofNat f.2.length).toNat = f.2.length := by
  refine UInt32.toNat_ofNat_of_lt (hf.2.trans_lt ?_)
  decide

lemma frameBytes_length {f : Bytes × Bytes} (hf : IsFrame f) :
    (frameBytes f).length = frameHeaderSize + f.2.length := by
  unfold frameBytes
  rw [List.length_append, header_length hf.1]

lemma frameBytes_starts {f : Bytes × Bytes} (hf : IsFrame f) {s : Bytes} :
    frameBytes f <+: s ↔ f.1 ++ htonl (UInt32.ofNat f.2.length) <+: s ∧
      f.2 <+: s.drop frameHeaderSize := by
  unfold frameBytes
  rw [prefix_append_iff, header_length hf.1]

/-- Two headers at the start of a stream are the same. -/
lemma header_inj {id id' : Bytes} {len len' : UInt32} {s : Bytes} (hid : id.length = 16)
    (hid' : id'.length = 16) (h : id ++ htonl len <+: s) (h' : id' ++ htonl len' <+: s) :
    id = id' ∧ len = len' := by
  have hlen : (id ++ htonl len).length = (id' ++ htonl len').length := by
    rw [header_length hid, header_length hid']
  have heq := (List.prefix_of_prefix_length_le h h' hlen.le).eq_of_length hlen
  obtain ⟨hfirst, hsecond⟩ := List.append_inj heq (hid.trans hid'.symm)
  exact ⟨hfirst, htonl_injective hsecond⟩

theorem frames_unambiguous : Unambiguous frameBytes IsFrame := by
  intro a b s ha hb hsa hsb
  rw [frameBytes_starts ha] at hsa
  rw [frameBytes_starts hb] at hsb
  obtain ⟨hid, hlen⟩ := header_inj ha.1 hb.1 hsa.1 hsb.1
  have hsize : a.2.length = b.2.length := by
    rw [← ofNat_toNat_length ha, ← ofNat_toNat_length hb, hlen]
  have hpayload := (List.prefix_of_prefix_length_le hsa.2 hsb.2 hsize.le).eq_of_length hsize
  exact Prod.ext hid hpayload

/-! ## The reading side -/

/-- The bytes of the frames that the handler has been called with. -/
def framed (s : Incoming) : Bytes := s.session.calls.flatMap frameBytes

/-- What follows the frames that have been handled. -/
def unframed (s : Incoming) : Bytes := s.stream.received.drop (framed s).length

/-- The next header announces a payload above the limit. -/
def Oversized (s : Incoming) : Prop :=
  ∃ id len, id.length = 16 ∧ maxPayloadSize < len.toNat ∧ id ++ htonl len <+: unframed s

/-- `stop` has been called. -/
def Closing (s : GenericSession) : Prop := .close ∈ s.tasks ∨ s.isOpen = false

/-- Where the reading side stands in the stream. -/
def AtStage (s : Incoming) : ReadStage → Prop
  | .header => s.stream.taken = (framed s).length
  | .payload msgId len => s.stream.taken = (framed s).length + frameHeaderSize ∧ msgId.length = 16 ∧
      len.toNat ≤ maxPayloadSize ∧ msgId ++ htonl len <+: unframed s
  | .stopped => Closing s.session ∧
      (Oversized s ∨ s.stream.ended = true ∧ ∀ f, IsFrame f → ¬frameBytes f <+: unframed s)
  | _ => False

/-- The invariant of the reading side. -/
structure Aligned (s : Incoming) : Prop where
  parses : Parses frameBytes IsFrame s.stream.received s.session.calls
  behind : (framed s).length ≤ s.stream.taken
  stage : AtStage s s.session.reading
  notRestarted : .handshake ∉ s.session.tasks

section Stages

variable {s : Incoming} {msgId : Bytes} {len : UInt32}

lemma Oversized.no_frame (h : Oversized s) (f : Bytes × Bytes) (hf : IsFrame f) :
    ¬frameBytes f <+: unframed s := by
  obtain ⟨id, len, hid, hbig, hheader⟩ := h
  intro hframe
  obtain ⟨-, rfl⟩ := header_inj hf.1 hid ((frameBytes_starts hf).mp hframe).1 hheader
  rw [ofNat_toNat_length hf] at hbig
  exact absurd hf.2 (by omega)

/-- A frame at the start of the rest has the header that was read. -/
lemma payload_of_frame (hid : msgId.length = 16) (hheader : msgId ++ htonl len <+: unframed s)
    {f : Bytes × Bytes} (hf : IsFrame f) (hframe : frameBytes f <+: unframed s) :
    f.1 = msgId ∧ f.2.length = len.toNat ∧ f.2 <+: (unframed s).drop frameHeaderSize := by
  obtain ⟨hstart, hpayload⟩ := (frameBytes_starts hf).mp hframe
  obtain ⟨hfirst, rfl⟩ := header_inj hf.1 hid hstart hheader
  exact ⟨hfirst, (ofNat_toNat_length hf).symm, hpayload⟩

lemma length_unframed : (unframed s).length = s.stream.received.length - (framed s).length :=
  List.length_drop

lemma Aligned.framed_le (h : Aligned s) : (framed s).length ≤ s.stream.received.length :=
  h.parses.starts.length_le

lemma wanted_eq_some {session : GenericSession} {n : Nat} :
    session.wanted = some n ↔ session.reading = .header ∧ n = frameHeaderSize ∨
      ∃ msgId len, session.reading = .payload msgId len ∧ n = len.toNat := by
  unfold GenericSession.wanted
  cases session.reading with
  | idle | handshake | stopped => simp
  | header => simp [eq_comm]
  | payload msgId len => simp [eq_comm]

lemma short_of_settled (h : s.Settled) {n : Nat} (hwanted : s.session.wanted = some n) :
    s.stream.received.length < s.stream.taken + n ∧ ¬s.stream.ended = true := by
  have hnone := h n hwanted
  unfold ByteStream.readFully at hnone
  split_ifs at hnone with hle hended
  exact ⟨not_le.mp hle, hended⟩

/-- When the bytes that the session waits for have not arrived, no frame follows. -/
lemma Aligned.short_no_frame (h : Aligned s) {n : Nat} (hwanted : s.session.wanted = some n)
    (hshort : s.stream.received.length < s.stream.taken + n) (f : Bytes × Bytes) (hf : IsFrame f) :
    ¬frameBytes f <+: unframed s := by
  intro hframe
  have hstage := h.stage
  have hle := h.framed_le
  have hlen := hframe.length_le
  rw [frameBytes_length hf, length_unframed] at hlen
  rcases wanted_eq_some.mp hwanted with ⟨hreading, rfl⟩ | ⟨msgId, len, hreading, rfl⟩
  · rw [hreading] at hstage
    have htaken : s.stream.taken = (framed s).length := hstage
    omega
  · rw [hreading] at hstage
    obtain ⟨htaken, hid, -, hheader⟩ := hstage
    obtain ⟨-, hsize, -⟩ := payload_of_frame hid hheader hf hframe
    omega

lemma Aligned.no_frame (h : Aligned s) (hsettled : s.Settled) (f : Bytes × Bytes) (hf : IsFrame f) :
    ¬frameBytes f <+: unframed s := by
  have hstage := h.stage
  have hwaits : ∀ n, s.session.wanted = some n → ¬frameBytes f <+: unframed s := fun n hwanted =>
    h.short_no_frame hwanted (short_of_settled hsettled hwanted).1 f hf
  cases hreading : s.session.reading with
  | idle | handshake => exact (hreading ▸ hstage).elim
  | header => exact hwaits _ (wanted_eq_some.mpr (.inl ⟨hreading, rfl⟩))
  | payload msgId len => exact hwaits _ (wanted_eq_some.mpr (.inr ⟨msgId, len, hreading, rfl⟩))
  | stopped =>
    rw [hreading] at hstage
    rcases hstage.2 with hover | ⟨-, hnone⟩
    · exact hover.no_frame f hf
    · exact hnone f hf

end Stages

/-! ## Steps -/

/-- The reading side has called `stop`. -/
def halt (s : GenericSession) : GenericSession := GenericSession.stop { s with reading := .stopped }

/-- The next `n` bytes. -/
def nextBytes (s : Incoming) (n : Nat) : Bytes := (s.stream.received.drop s.stream.taken).take n

def skip (stream : ByteStream) (n : Nat) : ByteStream := { stream with taken := stream.taken + n }

/-- What the completion of a read can do. -/
inductive ReadMove (s : Incoming) : Incoming → Prop
  | waits (hsettled : s.Settled) : ReadMove s s
  | failed {n : Nat} (hwanted : s.session.wanted = some n)
      (hshort : s.stream.received.length < s.stream.taken + n)
      (hended : s.stream.ended = true) : ReadMove s ⟨halt s.session, skip s.stream n⟩
  | oversized (hreading : s.session.reading = .header)
      (henough : s.stream.taken + frameHeaderSize ≤ s.stream.received.length)
      (hbig : maxPayloadSize < (ntohl ((nextBytes s frameHeaderSize).drop 16)).toNat) :
      ReadMove s ⟨halt s.session, skip s.stream frameHeaderSize⟩
  | header (hreading : s.session.reading = .header)
      (henough : s.stream.taken + frameHeaderSize ≤ s.stream.received.length)
      (hsmall : (ntohl ((nextBytes s frameHeaderSize).drop 16)).toNat ≤ maxPayloadSize) :
      ReadMove s
        ⟨{ s.session with
            reading := .payload ((nextBytes s frameHeaderSize).take 16) (ntohl
              ((nextBytes s frameHeaderSize).drop 16)) },
          skip s.stream frameHeaderSize⟩
  | payload {msgId : Bytes} {len : UInt32} (hreading : s.session.reading = .payload msgId len)
      (henough : s.stream.taken + len.toNat ≤ s.stream.received.length) :
      ReadMove s
        ⟨{ s.session with
          calls := s.session.calls ++ [(msgId, nextBytes s len.toNat)], reading := .header },
        skip s.stream len.toNat⟩

lemma read_move (s : Incoming) : ReadMove s s.read := by
  have hdone : ∀ n result, s.session.wanted = some n → s.stream.readFully n = some result →
      s.read = ⟨s.session.onRead result, skip s.stream n⟩ := by
    intro n result hn hresult
    unfold Incoming.read
    rw [hn]
    dsimp only
    rw [hresult]
    rfl
  cases hwanted : s.session.wanted with
  | none =>
    have hsame : s.read = s := by
      unfold Incoming.read
      rw [hwanted]
    rw [hsame]
    exact .waits fun n hn => by rw [hwanted] at hn; cases hn
  | some n =>
    by_cases hle : s.stream.taken + n ≤ s.stream.received.length
    · have hok : s.stream.readFully n = some (.ok (nextBytes s n)) := if_pos hle
      rw [hdone n _ hwanted hok]
      rcases wanted_eq_some.mp hwanted with ⟨hreading, rfl⟩ | ⟨msgId, len, hreading, rfl⟩
      · simp only [GenericSession.onRead, hreading]
        split_ifs with hbig
        · exact .oversized hreading hle hbig
        · exact .header hreading hle (not_lt.mp hbig)
      · simp only [GenericSession.onRead, hreading]
        exact .payload hreading hle
    · by_cases hended : s.stream.ended = true
      · have herr : s.stream.readFully n = some (.error "End of file") := by
          unfold ByteStream.readFully
          rw [if_neg hle, if_pos hended]
        have hhalt : s.session.onRead (.error "End of file") = halt s.session := by
          rcases wanted_eq_some.mp hwanted with ⟨hreading, -⟩ | ⟨msgId, len, hreading, -⟩
          · simp only [GenericSession.onRead, hreading]
            rfl
          · simp only [GenericSession.onRead, hreading]
            rfl
        rw [hdone n _ hwanted herr, hhalt]
        exact .failed hwanted (not_le.mp hle) hended
      · have hnone : s.stream.readFully n = none := by
          unfold ByteStream.readFully
          rw [if_neg hle, if_neg hended]
        have hsame : s.read = s := by
          unfold Incoming.read
          rw [hwanted]
          dsimp only
          rw [hnone]
        rw [hsame]
        refine .waits fun m hm => ?_
        obtain rfl := Option.some.inj (hwanted.symm.trans hm)
        exact hnone

lemma halt_closing (s : GenericSession) : Closing (halt s) :=
  .inl (by simp [halt, GenericSession.stop, GenericSession.post])

lemma handshake_notMem_halt {s : GenericSession} (h : .handshake ∉ s.tasks) :
    .handshake ∉ (halt s).tasks := by
  simpa [halt, GenericSession.stop, GenericSession.post] using h

section Steps

variable {s s' : Incoming}

lemma Aligned.stopped (h : Aligned s) {n : Nat}
    (hend : Oversized s ∨ s.stream.ended = true ∧ ∀ f, IsFrame f → ¬frameBytes f <+: unframed s) :
    Aligned ⟨halt s.session, skip s.stream n⟩ :=
  ⟨h.parses, h.behind.trans (Nat.le_add_right _ n), ⟨halt_closing s.session, hend⟩,
    handshake_notMem_halt h.notRestarted⟩

/-- A header that has been read starts the rest of the stream. -/
lemma Aligned.header_starts (h : Aligned s) (hreading : s.session.reading = .header)
    (henough : s.stream.taken + frameHeaderSize ≤ s.stream.received.length) :
    ((nextBytes s frameHeaderSize).take 16).length = 16 ∧
      (nextBytes s frameHeaderSize).take 16 ++
        htonl (ntohl ((nextBytes s frameHeaderSize).drop 16)) <+: unframed s := by
  have hstage := h.stage
  rw [hreading] at hstage
  have htaken : s.stream.taken = (framed s).length := hstage
  have hbuf : nextBytes s frameHeaderSize = (unframed s).take frameHeaderSize := by
    unfold nextBytes unframed
    rw [htaken]
  have hlen : (nextBytes s frameHeaderSize).length = frameHeaderSize := by
    rw [hbuf, List.length_take, length_unframed]
    omega
  constructor
  · rw [List.length_take, hlen]
    rfl
  · rw [header_eq hlen, hbuf]
    exact List.take_prefix _ _

lemma Aligned.move (h : Aligned s) (hmove : ReadMove s s') : Aligned s' := by
  have hstage := h.stage
  cases hmove with
  | waits _ => exact h
  | failed hwanted hshort hended => exact h.stopped (.inr ⟨hended, h.short_no_frame hwanted hshort⟩)
  | oversized hreading henough hbig =>
    obtain ⟨hid, hheader⟩ := h.header_starts hreading henough
    exact h.stopped (.inl ⟨_, _, hid, hbig, hheader⟩)
  | header hreading henough hsmall =>
    obtain ⟨hid, hheader⟩ := h.header_starts hreading henough
    rw [hreading] at hstage
    have htaken : s.stream.taken = (framed s).length := hstage
    exact ⟨h.parses, h.behind.trans (Nat.le_add_right _ _),
      ⟨congrArg (· + frameHeaderSize) htaken, hid, hsmall, hheader⟩, h.notRestarted⟩
  | @payload msgId len hreading henough =>
    rw [hreading] at hstage
    obtain ⟨htaken, hid, hsmall, hheader⟩ := hstage
    have hdrop : (unframed s).drop frameHeaderSize = s.stream.received.drop s.stream.taken := by
      unfold unframed
      rw [List.drop_drop, htaken]
    have hlen : (nextBytes s len.toNat).length = len.toNat := by
      unfold nextBytes
      rw [List.length_take, List.length_drop]
      omega
    have hf : IsFrame (msgId, nextBytes s len.toNat) := ⟨hid, hlen.le.trans hsmall⟩
    have hframe : frameBytes (msgId, nextBytes s len.toNat) <+: unframed s := by
      rw [frameBytes_starts hf, hdrop]
      dsimp only
      rw [hlen, UInt32.ofNat_toNat]
      exact ⟨hheader, List.take_prefix _ _⟩
    have hnext : s.stream.taken + len.toNat =
        ((s.session.calls ++ [(msgId, nextBytes s len.toNat)]).flatMap frameBytes).length := by
      rw [List.flatMap_append, List.flatMap_singleton, List.length_append, frameBytes_length hf,
        hlen, htaken]
      unfold framed
      omega
    exact ⟨parses_concat.mpr ⟨h.parses, hf, hframe⟩, hnext.ge, hnext, h.notRestarted⟩

/-- More bytes arrive. -/
lemma Aligned.arrive (h : Aligned s) (hopen : s.stream.ended = false) (bytes : Bytes) :
    Aligned { s with stream := { s.stream with received := s.stream.received ++ bytes } } := by
  have hstage := h.stage
  have hrest :
      unframed { s with stream := { s.stream with received := s.stream.received ++ bytes } } =
      unframed s ++ bytes :=
    List.drop_append_of_le_length h.framed_le
  have hgrow : ∀ l, l <+: unframed s →
      l <+: unframed
        { s with stream := { s.stream with received := s.stream.received ++ bytes } } := by
    intro l hl
    rw [hrest]
    exact hl.trans (List.prefix_append _ _)
  refine ⟨h.parses.grow bytes, h.behind, ?_, h.notRestarted⟩
  dsimp only
  cases hreading : s.session.reading with
  | idle | handshake => exact (hreading ▸ hstage).elim
  | header =>
    rw [hreading] at hstage
    exact hstage
  | payload msgId len =>
    rw [hreading] at hstage
    obtain ⟨htaken, hid, hsmall, hheader⟩ := hstage
    exact ⟨htaken, hid, hsmall, hgrow _ hheader⟩
  | stopped =>
    rw [hreading] at hstage
    obtain ⟨hclosing, ⟨id, len, hid, hbig, hheader⟩ | ⟨hended, -⟩⟩ := hstage
    · exact ⟨hclosing, .inl ⟨id, len, hid, hbig, hgrow _ hheader⟩⟩
    · rw [hopen] at hended
      cases hended

/-- The stream ends, and with it what has not been read. -/
lemma Aligned.ends (h : Aligned s) (lost : Nat) :
    Aligned { s with stream := s.stream.truncate lost } := by
  have hstage := h.stage
  have hbehind := h.behind
  have hshorter : (s.stream.truncate lost).received <+: s.stream.received := List.take_prefix _ _
  have hkept : ∀ l, l <+: s.stream.received → l.length ≤ s.stream.taken →
      l <+: (s.stream.truncate lost).received := by
    intro l hl hle
    refine List.prefix_of_prefix_length_le hl hshorter ?_
    have hbound := hl.length_le
    simp only [ByteStream.truncate, List.length_take]
    omega
  have hparses : Parses frameBytes IsFrame (s.stream.truncate lost).received s.session.calls :=
    ⟨h.parses.admissible, hkept _ h.parses.starts hbehind⟩
  have hrest : unframed { s with stream := s.stream.truncate lost } <+: unframed s :=
    hshorter.drop _
  refine ⟨hparses, hbehind, ?_, h.notRestarted⟩
  dsimp only
  cases hreading : s.session.reading with
  | idle | handshake => exact (hreading ▸ hstage).elim
  | header =>
    rw [hreading] at hstage
    exact hstage
  | payload msgId len =>
    rw [hreading] at hstage
    obtain ⟨htaken, hid, hsmall, hheader⟩ := hstage
    refine ⟨htaken, hid, hsmall, ?_⟩
    have hboth : framed s ++ (msgId ++ htonl len) <+: s.stream.received :=
      prefix_append_iff.mpr ⟨h.parses.starts, hheader⟩
    have hlen : (framed s ++ (msgId ++ htonl len)).length ≤ s.stream.taken := by
      rw [List.length_append, header_length hid, htaken]
    exact (prefix_append_iff.mp (hkept _ hboth hlen)).2
  | stopped =>
    rw [hreading] at hstage
    refine ⟨hstage.1, .inr ⟨rfl, fun f hf hframe => ?_⟩⟩
    rcases hstage.2 with hover | ⟨-, hnone⟩
    · exact hover.no_frame f hf (hframe.trans hrest)
    · exact hnone f hf (hframe.trans hrest)

end Steps

/-! ## The writing side -/

/-- The events of the writing side that do not close the stream. -/
def Undisturbed : IncomingEvent → Prop
  | .session (.asyncSendMessage _ _) => True
  | .session .runTask => True
  | .session (.writeDone _ ec) => ec = none
  | .session _ => False
  | _ => True

instance : DecidablePred Undisturbed
  | .session (.asyncSendMessage _ _) => .isTrue trivial
  | .session .runTask => .isTrue trivial
  | .session (.writeDone _ ec) => inferInstanceAs (Decidable (ec = none))
  | .session .start | .session .stop | .session (.handshakeDone _) | .session (.readDone _) =>
    .isFalse id
  | .arrive _ | .ends _ | .read => .isTrue trivial

/-- The reading side is as it was, and a session that is closing stays so. -/
structure SameReader (s s' : GenericSession) : Prop where
  reading : s'.reading = s.reading
  calls : s'.calls = s.calls
  closing : Closing s → Closing s'
  notRestarted : .handshake ∉ s'.tasks

lemma doWrite_frame (s : GenericSession) :
    ∃ writes output, s.doWrite = { s with writes, output } := by
  unfold GenericSession.doWrite
  split <;> exact ⟨_, _, rfl⟩

lemma pushData_frame (data : Bytes) (s : GenericSession) :
    ∃ outbox writes output, s.pushData data = { s with outbox, writes, output } := by
  unfold GenericSession.pushData
  dsimp only
  split_ifs
  · exact ⟨_, _, _, rfl⟩
  · obtain ⟨writes, output, hwrite⟩ := doWrite_frame { s with outbox := s.outbox ++ [data] }
    exact ⟨_, writes, output, hwrite⟩

lemma runTask_sameReader {s : GenericSession} (h : .handshake ∉ s.tasks) :
    SameReader s s.runTask := by
  unfold GenericSession.runTask
  split
  · exact ⟨rfl, rfl, id, h⟩
  · rename_i task rest htasks
    rw [htasks, List.mem_cons, not_or] at h
    have hclosing : Closing s → task = .close ∨ .close ∈ rest ∨ s.isOpen = false := by
      rintro (hmem | hshut)
      · rw [htasks, List.mem_cons] at hmem
        exact hmem.imp Eq.symm .inl
      · exact .inr (.inr hshut)
    cases task with
    | handshake => exact absurd rfl h.1
    | push data =>
      dsimp only
      obtain ⟨outbox, writes, output, hpush⟩ := pushData_frame data { s with tasks := rest }
      rw [hpush]
      exact ⟨rfl, rfl, fun hc => (hclosing hc).resolve_left nofun, h.2⟩
    | close =>
      unfold GenericSession.closeStream
      dsimp only
      split_ifs with hopen
      · exact ⟨rfl, rfl, fun _ => .inr rfl, h.2⟩
      · exact ⟨rfl, rfl, fun _ => .inr (by simpa using hopen), h.2⟩

lemma onWritten_sameReader (index : Nat) {s : GenericSession} (h : .handshake ∉ s.tasks) :
    SameReader s (s.onWritten index none) := by
  unfold GenericSession.onWritten
  dsimp only
  split_ifs
  · obtain ⟨writes, output, hwrite⟩ :=
      doWrite_frame { s with writes := s.writes.eraseIdx index, outbox := s.outbox.tail }
    rw [hwrite]
    exact ⟨rfl, rfl, id, h⟩
  · exact ⟨rfl, rfl, id, h⟩

lemma asyncSendMessage_sameReader (reqId message : Bytes) {s : GenericSession}
    (h : .handshake ∉ s.tasks) :
    SameReader s (s.asyncSendMessage reqId message) := by
  unfold GenericSession.asyncSendMessage
  split_ifs
  · exact ⟨rfl, rfl, id, h⟩
  · exact ⟨rfl, rfl, fun hc => hc.imp_left (List.mem_append_left _),
      by simpa [GenericSession.post] using h⟩

lemma Aligned.sameReader {s : Incoming} (h : Aligned s) {session : GenericSession}
    (hsame : SameReader s.session session) : Aligned { s with session } := by
  have hstage := h.stage
  have hframed : framed { s with session } = framed s := by
    unfold framed
    rw [hsame.calls]
  have hrest : unframed { s with session } = unframed s := by
    unfold unframed
    rw [hframed]
  refine ⟨by rw [hsame.calls]; exact h.parses, by rw [hframed]; exact h.behind, ?_,
    hsame.notRestarted⟩
  dsimp only
  rw [hsame.reading]
  cases hreading : s.session.reading with
  | idle | handshake => exact (hreading ▸ hstage).elim
  | header =>
    rw [hreading] at hstage
    unfold AtStage
    rw [hframed]
    exact hstage
  | payload msgId len =>
    rw [hreading] at hstage
    unfold AtStage
    rw [hframed, hrest]
    exact hstage
  | stopped =>
    rw [hreading] at hstage
    unfold AtStage Oversized
    rw [hrest]
    exact ⟨hsame.closing hstage.1, hstage.2⟩

/-- One event of a session whose stream is not closed from outside. -/
theorem step_aligned {s : Incoming} (h : Aligned s) {event : IncomingEvent}
    (hevent : Undisturbed event) :
    Aligned (s.step event) := by
  cases event with
  | arrive bytes =>
    unfold Incoming.step
    split_ifs with hended
    · exact h
    · exact h.arrive (by simpa using hended) bytes
  | ends lost => exact h.ends lost
  | read => exact h.move (read_move s)
  | session event =>
    cases event with
    | asyncSendMessage reqId message =>
      exact h.sameReader (asyncSendMessage_sameReader reqId message h.notRestarted)
    | runTask => exact h.sameReader (runTask_sameReader h.notRestarted)
    | writeDone index ec =>
      obtain rfl : ec = none := hevent
      exact h.sameReader (onWritten_sameReader index h.notRestarted)
    | start | stop | handshakeDone | readDone => exact hevent.elim

lemma started_aligned : Aligned { session := .started } :=
  ⟨.nil, le_rfl, rfl, List.not_mem_nil⟩

/-! ## Runs -/

/-- How much is left to read. -/
def readable (s : Incoming) : Nat :=
  match s.session.reading with
  | .header => 2 * (s.stream.received.length - s.stream.taken) + 1
  | .payload _ _ => 2 * (s.stream.received.length - s.stream.taken) + 2
  | _ => 0

lemma ReadMove.settles {s s' : Incoming} (h : ReadMove s s') :
    s.Settled ∨ readable s' < readable s := by
  cases h with
  | waits hsettled => exact .inl hsettled
  | @failed n hwanted hshort hended =>
    right
    rcases wanted_eq_some.mp hwanted with ⟨hreading, -⟩ | ⟨msgId, len, hreading, -⟩
    · simp [readable, hreading, halt, GenericSession.stop, GenericSession.post]
    · simp [readable, hreading, halt, GenericSession.stop, GenericSession.post]
  | oversized hreading henough hbig =>
    right
    simp [readable, hreading, halt, GenericSession.stop, GenericSession.post]
  | header hreading henough hsmall =>
    right
    unfold frameHeaderSize at *
    simp only [readable, hreading, skip]
    omega
  | payload hreading henough =>
    right
    simp only [readable, hreading, skip]
    omega

/-- Reading goes on until the session waits for bytes that have not arrived. -/
lemma exists_settled (s : Incoming) :
    ∃ n, (EventRun.run Incoming.step s (List.replicate n .read)).Settled := by
  induction hfuel : readable s using Nat.strong_induction_on generalizing s with
  | _ fuel ih =>
    rcases (read_move s).settles with hsettled | hless
    · exact ⟨0, hsettled⟩
    · obtain ⟨n, hn⟩ := ih (readable s.read) (hfuel ▸ hless) s.read rfl
      exact ⟨n + 1, hn⟩

/-- A session that has stopped reading calls the handler no more. -/
lemma step_stopped {s : Incoming} (h : Aligned s) (hreading : s.session.reading = .stopped)
    {event : IncomingEvent} (hevent : Undisturbed event) :
    (s.step event).session.reading = .stopped ∧ (s.step event).session.calls = s.session.calls := by
  have hsame : ∀ {session : GenericSession}, SameReader s.session session →
      session.reading = .stopped ∧ session.calls = s.session.calls :=
    fun hsame => ⟨hsame.reading.trans hreading, hsame.calls⟩
  cases event with
  | arrive bytes =>
    unfold Incoming.step
    split_ifs <;> exact ⟨hreading, rfl⟩
  | ends lost => exact ⟨hreading, rfl⟩
  | read =>
    change s.read.session.reading = .stopped ∧ s.read.session.calls = s.session.calls
    unfold Incoming.read GenericSession.wanted
    rw [hreading]
    exact ⟨hreading, rfl⟩
  | session event =>
    cases event with
    | asyncSendMessage reqId message =>
      exact hsame (asyncSendMessage_sameReader reqId message h.notRestarted)
    | runTask => exact hsame (runTask_sameReader h.notRestarted)
    | writeDone index ec =>
      obtain rfl : ec = none := hevent
      exact hsame (onWritten_sameReader index h.notRestarted)
    | start | stop | handshakeDone | readDone => exact hevent.elim

/-- What the handler has been called with, for the bytes that have arrived. -/
structure ReadsFrames (s : Incoming) : Prop where
  parses : Parses frameBytes IsFrame s.stream.received s.session.calls
  longest : s.Settled → Longest frameBytes IsFrame s.stream.received s.session.calls
  stops : s.Settled → (s.session.reading = .stopped ↔ Oversized s ∨ s.stream.ended = true)
  closes : s.session.reading = .stopped → Closing s.session

lemma Aligned.readsFrames {s : Incoming} (h : Aligned s) : ReadsFrames s := by
  have hstage := h.stage
  refine ⟨h.parses, fun hsettled => ?_, fun hsettled => ?_, fun hreading => ?_⟩
  · exact (longest_iff frames_unambiguous h.parses).mpr (h.no_frame hsettled)
  · constructor
    · intro hreading
      rw [hreading] at hstage
      exact hstage.2.imp_right And.left
    · intro hend
      cases hreading : s.session.reading with
      | idle | handshake => exact (hreading ▸ hstage).elim
      | stopped => rfl
      | header =>
        obtain ⟨hshort, hopen⟩ :=
          short_of_settled hsettled (wanted_eq_some.mpr (.inl ⟨hreading, rfl⟩))
        rw [hreading] at hstage
        have htaken : s.stream.taken = (framed s).length := hstage
        obtain ⟨id, len, hid, -, hheader⟩ := hend.resolve_right hopen
        have hlen := hheader.length_le
        have hle := h.framed_le
        rw [header_length hid, length_unframed] at hlen
        omega
      | payload msgId len =>
        obtain ⟨-, hopen⟩ :=
          short_of_settled hsettled (wanted_eq_some.mpr (.inr ⟨msgId, len, hreading, rfl⟩))
        rw [hreading] at hstage
        obtain ⟨-, hid, hsmall, hheader⟩ := hstage
        obtain ⟨id, len', hid', hbig, hheader'⟩ := hend.resolve_right hopen
        obtain ⟨-, rfl⟩ := header_inj hid hid' hheader hheader'
        omega
  · rw [hreading] at hstage
    exact hstage.1

lemma run_aligned {events : List IncomingEvent} (h : ∀ event ∈ events, Undisturbed event)
    {s : Incoming} (hs : Aligned s) : Aligned (EventRun.run Incoming.step s events) := by
  induction events generalizing s with
  | nil => exact hs
  | cons event events ih =>
    exact ih (fun e he => h e (List.mem_cons_of_mem _ he))
      (step_aligned hs (h event List.mem_cons_self))

lemma run_stopped {events : List IncomingEvent} (h : ∀ event ∈ events, Undisturbed event)
    {s : Incoming} (hs : Aligned s) (hreading : s.session.reading = .stopped) :
    (EventRun.run Incoming.step s events).session.calls = s.session.calls := by
  induction events generalizing s with
  | nil => rfl
  | cons event events ih =>
    have hevent := h event List.mem_cons_self
    obtain ⟨hstill, hcalls⟩ := step_stopped hs hreading hevent
    rw [EventRun.run_cons, ih (fun e he => h e (List.mem_cons_of_mem _ he)) (step_aligned hs hevent)
      hstill, hcalls]

/-- In every run of a started session that nobody else stops, the handler is called with the longest
list of frames that the stream starts with; a header above the limit or the end of the stream stops
the session, and the handler is not called again. -/
theorem session_reads_frames (events more : List IncomingEvent)
    (hevents : ∀ event ∈ events, Undisturbed event) (hmore : ∀ event ∈ more, Undisturbed event) :
    ReadsFrames (EventRun.run Incoming.step { session := .started } events) ∧
      (∃ n, (EventRun.run Incoming.step { session := .started }
        (events ++ List.replicate n .read)).Settled) ∧
      ((EventRun.run Incoming.step { session := .started } events).session.reading = .stopped →
        (EventRun.run Incoming.step { session := .started } (events ++ more)).session.calls =
          (EventRun.run Incoming.step { session := .started } events).session.calls) := by
  have haligned := run_aligned hevents started_aligned
  refine ⟨haligned.readsFrames, ?_, fun hreading => ?_⟩
  · obtain ⟨n, hn⟩ := exists_settled (EventRun.run Incoming.step { session := .started } events)
    refine ⟨n, ?_⟩
    rw [EventRun.run_append]
    exact hn
  · rw [EventRun.run_append]
    exact run_stopped hmore haligned hreading

/-- Two frames, the second without payload, and the start of a third; they arrive in two pieces. -/
def twoFrames : List IncomingEvent :=
  [.arrive (frameBytes (List.replicate 16 7, [1, 2]) ++ [8, 8]), .read, .read, .read,
    .arrive (List.replicate 14 8 ++ [0, 0, 0, 0, 9]), .read, .read,
    .session (.asyncSendMessage [] []), .read]

theorem session_reads_frames_two :
    (EventRun.run Incoming.step { session := .started } twoFrames).session.calls =
        [(List.replicate 16 7, [1, 2]), (List.replicate 16 8, [])] ∧
      ReadsFrames (EventRun.run Incoming.step { session := .started } twoFrames) :=
  ⟨by decide, (session_reads_frames twoFrames [] (by decide) (by decide)).1⟩

end MeshNetwork.Proofs
