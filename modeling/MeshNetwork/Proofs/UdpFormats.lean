import MeshNetwork.Library.EventRuns
import MeshNetwork.Model.UdpSender
import MeshNetwork.Proofs.FecReceive
import MeshNetwork.Proofs.UdpSenders

/-!
# Raw packets and FEC frames

The receiver tells the two kinds of datagrams apart by the magic bytes. A serialized packet starts
with the tag of its first present field, and one of the fields up to `transport` is present if the
packet is for UDP, so no such packet starts with the magic. The frames of a sender carry its
configuration.
-/

namespace MeshNetwork.Proofs

open EventRun ProtobufWire

/-! ## The first byte of a packet -/

/-- A datagram that does not start with the first byte of the magic. -/
def Unmarked (bytes : Bytes) : Prop := ∃ first rest, bytes = first :: rest ∧ first ≠ 0x4D

lemma Unmarked.append {bytes : Bytes} (h : Unmarked bytes) (rest : Bytes) :
    Unmarked (bytes ++ rest) := by
  obtain ⟨first, tail, rfl, hfirst⟩ := h
  exact ⟨first, tail ++ rest, rfl, hfirst⟩

lemma Unmarked.ne_nil {bytes : Bytes} (h : Unmarked bytes) : bytes ≠ [] := by
  obtain ⟨first, rest, rfl, -⟩ := h
  exact List.cons_ne_nil first rest

lemma Unmarked.take {bytes : Bytes} (h : Unmarked bytes) {n : Nat} (hn : 0 < n) :
    Unmarked (bytes.take n) := by
  obtain ⟨first, rest, rfl, hfirst⟩ := h
  exact ⟨first, rest.take (n - 1), List.take_cons hn, hfirst⟩

lemma Unmarked.not_frame {bytes : Bytes} (h : Unmarked bytes) : isFecFrame bytes = false := by
  obtain ⟨first, rest, rfl, hfirst⟩ := h
  have hmagic : (first == 0x4D) = false := beq_eq_false_iff_ne.mpr hfirst
  simp [isFecFrame, hmagic]

/-- The first byte of the magic would be the tag of field 9 with the wire type 5. -/
lemma fieldTag_unmarked {field : Nat} (hfield : field ≤ 9) (wireType : WireType) :
    Unmarked (fieldTag field wireType) := by
  have hnumber : wireType.number ≤ 2 := by cases wireType <;> decide
  have hsmall : field * 8 + wireType.number < 128 := by omega
  refine ⟨UInt8.ofNat (field * 8 + wireType.number), [], if_pos hsmall, fun htag => ?_⟩
  have hnat := congrArg UInt8.toNat htag
  rw [UInt8.toNat_ofNat', Nat.mod_eq_of_lt (by omega)] at hnat
  change field * 8 + wireType.number = 77 at hnat
  omega

section Fields

variable {field : Nat} {rest : Bytes}

lemma Unmarked.bytesField (h : Unmarked rest) (hfield : field ≤ 9) (value : Bytes) :
    Unmarked (bytesField field value ++ rest) := by
  unfold ProtobufWire.bytesField setField
  split_ifs
  · exact h
  · exact (((fieldTag_unmarked hfield _).append _).append _).append _

lemma numberField_unmarked (hfield : field ≤ 9) {value : Nat} (hvalue : value ≠ 0) :
    Unmarked (numberField field value) := by
  unfold numberField
  rw [if_neg hvalue]
  exact (fieldTag_unmarked hfield _).append _

lemma Unmarked.numberField (h : Unmarked rest) (hfield : field ≤ 9) (value : Nat) :
    Unmarked (numberField field value ++ rest) := by
  by_cases hvalue : value = 0
  · rw [hvalue]
    exact h
  · exact (numberField_unmarked hfield hvalue).append rest

end Fields

/-- The transport of a packet for UDP is written, and only smaller fields stand before it. -/
lemma serializePacket_unmarked (ord : IterOrder PeerId) {pkt : RoutedPacket}
    (hudp : pkt.transport = .udp) (unknown : UnknownFields) :
    Unmarked (serializePacket ord pkt unknown) := by
  unfold serializePacket
  rw [hudp]
  have htransport : Unmarked (numberField 6 TransportProtocol.udp.number) :=
    numberField_unmarked (by omega) Nat.one_ne_zero
  apply Unmarked.bytesField _ (by omega)
  apply Unmarked.bytesField _ (by omega)
  apply Unmarked.bytesField _ (by omega)
  apply Unmarked.numberField _ (by omega)
  apply Unmarked.numberField _ (by omega)
  exact htransport.append _

lemma receive_raw {r : UdpTransport} (hopen : r.isOpen) (hcallback : r.hasCallback) {bytes : Bytes}
    (hne : bytes ≠ []) (hraw : isFecFrame bytes = false) (source : UdpEndpoint) :
    r.receive (source, bytes) = ([bytes], r) := by
  unfold UdpTransport.receive
  dsimp only
  rw [if_pos ⟨hopen, hne, hcallback⟩, hraw]
  rfl

/-! ## The frames of a sender -/

lemma frameConfig_makeHeader (h : FecHeader) (payload : Bytes) :
    isFecFrame (makeHeader h ++ payload) = true ∧
      frameConfig (makeHeader h ++ payload) = some (h.numData, h.numRoots) := by
  have hframe : isFecFrame (makeHeader h ++ payload) = true := by
    simp [isFecFrame, makeHeader, kHeaderSize]
  exact ⟨hframe, if_pos hframe⟩

/-- A datagram that announces the configuration `k`, `m`. -/
def Announces (k m : UInt8) (dg : Bytes) : Prop :=
  isFecFrame dg = true ∧ frameConfig dg = some (k, m)

lemma parityFrame_announces {cfg : FecConfig} {groupId : UInt32} {lens : List UInt16} {j : Nat}
    {row dg : Bytes} (h : parityFrame cfg groupId lens j row = .ok dg) :
    Announces cfg.k cfg.m dg := by
  unfold parityFrame at h
  dsimp only at h
  split_ifs at h
  cases h
  exact frameConfig_makeHeader _ _

lemma encode_announces {c : FecCodec} {payload : Bytes} {result : EncodeResult}
    (h : (c.encode payload).1 = .ok result) :
    ∀ dg ∈ result.dataFrame :: result.parityFrames, Announces c.cfg.k c.cfg.m dg := by
  unfold FecCodec.encode at h
  dsimp only at h
  split_ifs at h
  · split at h
    · cases h
    · rename_i hparity
      cases h
      exact List.forall_mem_cons.mpr
        ⟨frameConfig_makeHeader _ _, List.forall_of_mapM_ok hparity fun j dg =>
          parityFrame_announces⟩
  · cases h
    exact List.forall_mem_cons.mpr ⟨frameConfig_makeHeader _ _, by simp⟩

lemma create_cfg {k m : UInt8} {c : FecCodec} (h : FecCodec.create k m = .ok c) :
    c.cfg.k = k ∧ c.cfg.m = m := by
  unfold FecCodec.create at h
  split_ifs at h
  cases h
  exact ⟨rfl, rfl⟩

/-! ## Runs of a sender -/

/-- The options of a sender are `options`, and its encoders are made from them. -/
structure Configured (options : UdpFecOptions) (t : UdpSender) : Prop where
  options_eq : t.fecOptions = options
  encoders : ∀ key encoder, t.encodersByEndpoint.lookup key = some (some encoder) →
    encoder.cfg.k = options.dataShards ∧ encoder.cfg.m = options.roots

section Sending

variable {options : UdpFecOptions} {t : UdpSender}

lemma Configured.insert (h : Configured options t) (key : String) {entry : Option FecCodec}
    (hentry : ∀ encoder, entry = some encoder → encoder.cfg.k = options.dataShards ∧
      encoder.cfg.m = options.roots) :
    Configured options { t with encodersByEndpoint := t.encodersByEndpoint.insert key entry } := by
  refine ⟨h.options_eq, fun key' encoder hlookup => ?_⟩
  rw [UMap.lookup_insert_eq] at hlookup
  split_ifs at hlookup
  · exact hentry encoder (Option.some.inj hlookup)
  · exact h.encoders key' encoder hlookup

lemma Configured.makeDecoder (h : Configured options t) (key : String) {encoder : FecCodec}
    (hmake : UdpTransport.makeDecoder (t.encodersByEndpoint.lookup key) t.fecOptions.dataShards
      t.fecOptions.roots =
      .ok encoder) : encoder.cfg.k = options.dataShards ∧ encoder.cfg.m = options.roots := by
  unfold UdpTransport.makeDecoder at hmake
  split at hmake
  · rename_i stored hlookup
    cases hmake
    exact h.encoders key _ hlookup
  · rw [h.options_eq] at hmake
    exact create_cfg hmake

lemma entry_configured {encoder : FecCodec}
    (h : encoder.cfg.k = options.dataShards ∧ encoder.cfg.m = options.roots) (payload : Bytes) :
    ∀ encoder', some (encoder.encode payload).2 = some encoder' →
      encoder'.cfg.k = options.dataShards ∧ encoder'.cfg.m = options.roots := by
  intro encoder' heq
  rw [← Option.some.inj heq, (encode_receive encoder payload).1]
  exact h

/-- Sending keeps the encoders, and with FEC every datagram announces the options. -/
lemma Configured.sendPacket (h : Configured options t) (ord : IterOrder PeerId)
    (endpoint : Endpoint) (pkt : RoutedPacket) (unknown : UnknownFields) :
    Configured options (t.sendPacket ord endpoint pkt unknown).2 ∧
      (options.enabled = true → ∀ dg ∈ (t.sendPacket ord endpoint pkt unknown).1,
        Announces options.dataShards options.roots dg) := by
  have hnone : ∀ dg ∈ ([] : List Bytes), Announces options.dataShards options.roots dg := by simp
  unfold UdpSender.sendPacket
  dsimp only
  split_ifs with hopen henabled
  · unfold UdpSender.encoderFor
    dsimp only
    cases hmake : UdpTransport.makeDecoder (t.encodersByEndpoint.lookup
      (UdpTransport.endpointKey endpoint))
        t.fecOptions.dataShards t.fecOptions.roots with
    | error e => exact ⟨h.insert _ (by simp [Except.toOption]), fun _ => hnone⟩
    | ok encoder =>
      have hcfg := h.makeDecoder _ hmake
      dsimp only
      rw [AList.insert_insert]
      have hkept := h.insert (UdpTransport.endpointKey endpoint)
        (entry_configured hcfg (serializePacket ord pkt unknown))
      cases hencode : (encoder.encode (serializePacket ord pkt unknown)).1 with
      | error e => exact ⟨hkept, fun _ => hnone⟩
      | ok result =>
        refine ⟨hkept, fun _ => ?_⟩
        rw [← hcfg.1, ← hcfg.2]
        exact encode_announces hencode
  · refine ⟨h, fun hon => ?_⟩
    rw [h.options_eq] at henabled
    exact absurd hon henabled
  · exact ⟨h, fun _ => hnone⟩

lemma sendPacket_raw (hoff : t.fecOptions.enabled = false) (ord : IterOrder PeerId)
    (endpoint : Endpoint) (pkt : RoutedPacket) (unknown : UnknownFields) :
    (t.sendPacket ord endpoint pkt unknown).1 = if t.isOpen then [serializePacket ord pkt unknown]
    else [] := by
  have hnot : ¬t.fecOptions.enabled = true := by simp [hoff]
  unfold UdpSender.sendPacket
  dsimp only
  by_cases hopen : t.isOpen = true
  · rw [if_pos hopen, if_neg hnot, if_pos hopen]
  · rw [if_neg hopen, if_neg hopen]

lemma Configured.step (h : Configured options t) (event : UdpSenderEvent) :
    Configured options (t.step event) := by
  cases event with
  | sendPacket ord endpoint pkt unknown => exact (h.sendPacket ord endpoint pkt unknown).1
  | shutdown => exact ⟨h.options_eq, h.encoders⟩

lemma Configured.run (h : Configured options t) (events : List UdpSenderEvent) :
    Configured options (run UdpSender.step t events) := by
  induction events generalizing t with
  | nil => exact h
  | cons event events ih => exact ih (h.step event)

lemma configured_create {requested : UdpFecOptions} (h : UdpSender.create requested = .ok t) :
    Configured t.fecOptions t := by
  unfold UdpSender.create at h
  dsimp only at h
  split_ifs at h <;> cases h <;> exact ⟨rfl, fun key encoder hlookup => by cases hlookup⟩

/-- What a sender sends for a packet for UDP, after any calls before: without FEC the serialized
packet, which is no FEC frame, so that any receiver hands on what fits its buffer of it; with FEC
frames with the configuration of the sender. -/
theorem datagram_formats (requested : UdpFecOptions) (hcreate : UdpSender.create requested = .ok t)
    (events : List UdpSenderEvent) (ord : IterOrder PeerId) (endpoint : Endpoint)
    {pkt : RoutedPacket} (hudp : pkt.transport = .udp) (unknown : UnknownFields) :
    (t.fecOptions.enabled = false →
      ((run UdpSender.step t events).sendPacket ord endpoint pkt unknown).1 =
          (if (run UdpSender.step t events).isOpen then [serializePacket ord pkt unknown] else []) ∧
        isFecFrame (serializePacket ord pkt unknown) = false ∧
        ∀ (r : UdpTransport) (source : UdpEndpoint), r.isOpen → r.hasCallback →
          r.receive (source, serializePacket ord pkt unknown) =
            ([serializePacket ord pkt unknown], r) ∧
          r.asyncReceiveFrom (source, serializePacket ord pkt unknown) =
            ([(serializePacket ord pkt unknown).take UdpTransport.recvBufferSize], r) ∧
          ((serializePacket ord pkt unknown).length ≤ UdpTransport.recvBufferSize →
            r.asyncReceiveFrom (source, serializePacket ord pkt unknown) =
              ([serializePacket ord pkt unknown], r))) ∧
    (t.fecOptions.enabled = true →
      ∀ dg ∈ ((run UdpSender.step t events).sendPacket ord endpoint pkt unknown).1,
        isFecFrame dg = true ∧ frameConfig dg =
          some (t.fecOptions.dataShards, t.fecOptions.roots)) := by
  have hrun := (configured_create hcreate).run events
  have hunmarked := serializePacket_unmarked ord hudp unknown
  refine ⟨fun hoff => ⟨?_, hunmarked.not_frame, fun r source hopen hcallback => ?_⟩,
    (hrun.sendPacket ord endpoint pkt unknown).2⟩
  · exact sendPacket_raw (by rw [hrun.options_eq]; exact hoff) ord endpoint pkt unknown
  · have hcut := hunmarked.take (n := UdpTransport.recvBufferSize) (by decide)
    have hasync : r.asyncReceiveFrom (source, serializePacket ord pkt unknown) =
        ([(serializePacket ord pkt unknown).take UdpTransport.recvBufferSize], r) :=
      receive_raw hopen hcallback hcut.ne_nil hcut.not_frame source
    refine ⟨receive_raw hopen hcallback hunmarked.ne_nil hunmarked.not_frame source, hasync,
      fun hfits => ?_⟩
    rw [hasync, List.take_of_length_le hfits]

end Sending

/-- A packet for UDP of `a` to `b`. -/
def udpNote (content : Bytes) : RoutedPacket :=
  makeBinaryRoutedPacket [1, 2] "a" "b" 10 "Note" .udp content

/-- The sender with two data shards and one root has sent a first packet. -/
def secondNote : List Bytes :=
  ((run UdpSender.step { fecOptions := ⟨true, 2, 1⟩ }
    [.sendPacket (.stored PeerId) ⟨"10.0.0.2", 7000⟩ (udpNote [5]) {}]).sendPacket (.stored PeerId)
      ⟨"10.0.0.2", 7000⟩ (udpNote [6, 7]) {}).1

/-- With the second packet a data frame and a parity frame are sent; without FEC the packet
itself. -/
theorem datagram_formats_note :
    secondNote.length = 2 ∧ (∀ dg ∈ secondNote,
      isFecFrame dg = true ∧ frameConfig dg = some (2, 1)) ∧
      (UdpSender.sendPacket (.stored PeerId) ⟨"10.0.0.2", 7000⟩ (udpNote [6, 7]) {} {}).1 =
        [[0x0A, 2, 1, 2, 0x12, 1, 97, 0x1A, 1, 98, 0x20, 10, 0x28, 2, 0x30, 1, 0x3A, 4, 78,
          111, 116, 101, 0x6A, 2, 6, 7]] ∧
      isFecFrame (serializePacket (.stored PeerId) (udpNote [6, 7]) {}) = false :=
  ⟨by decide +kernel, (datagram_formats ⟨true, 2, 1⟩ rfl _ _ _ rfl _).2 rfl, by decide +kernel,
    ((datagram_formats {} (t := {}) rfl [] _ ⟨"10.0.0.2", 7000⟩ rfl _).1 rfl).2.1⟩

end MeshNetwork.Proofs
