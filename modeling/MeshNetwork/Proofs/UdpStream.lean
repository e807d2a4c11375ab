import MeshNetwork.Proofs.FecStream
import MeshNetwork.Proofs.UdpFormats

/-!
# Packets over UDP with forward error correction

The datagrams that a transport sends to one endpoint are the frames of one encoder, and what another
transport hands on for one sender is what one decoder makes of its frames. So the packets that one
transport sends to another come out there in order, although some frames are lost and both
transports talk to others at the same time.
-/

namespace MeshNetwork.Proofs

open KeyedMachine UdpTransport

/-! ## Sending -/

/-- A call of `send_packet`. -/
structure UdpSend where
  ord : IterOrder PeerId
  endpoint : UdpEndpoint
  pkt : RoutedPacket
  unknown : UnknownFields

def UdpSend.payload (call : UdpSend) : Bytes := serializePacket call.ord call.pkt call.unknown

def sendCall (t : UdpSender) (call : UdpSend) : List Bytes × UdpSender :=
  t.sendPacket call.ord call.endpoint call.pkt call.unknown

/-- What sending to an endpoint depends on. -/
def encoderView (t : UdpSender) (endpoint : UdpEndpoint) :
    Bool × UdpFecOptions × Option (Option FecCodec) :=
  (t.isOpen, t.fecOptions, t.encodersByEndpoint.lookup (endpointKey endpoint))

lemma endpointKey_inj {endpoint endpoint' : UdpEndpoint}
    (h : endpointKey endpoint = endpointKey endpoint') :
    endpoint = endpoint' := by
  have hkey : decoderKey endpoint 0 0 = decoderKey endpoint' 0 0 := by
    unfold decoderKey
    rw [h]
  exact (decoderKey_inj hkey).1

/-- The frames of a payload and the encoder afterwards. -/
def encodeFrames (encoder : FecCodec) (payload : Bytes) : List Bytes :=
  match (encoder.encode payload).1 with
  | .error _ => []
  | .ok result => result.dataFrame :: result.parityFrames

/-- What a call of `send_packet` can do. -/
inductive SendMove (t : UdpSender) (call : UdpSend) : List Bytes → UdpSender → Prop
  | closed (hopen : t.isOpen = false) : SendMove t call [] t
  | raw (hopen : t.isOpen = true) (hoff : t.fecOptions.enabled = false) :
      SendMove t call [call.payload] t
  | failed (hopen : t.isOpen = true) (hon : t.fecOptions.enabled = true) {message : String}
      (hencoder : makeDecoder (t.encodersByEndpoint.lookup (endpointKey call.endpoint))
        t.fecOptions.dataShards
        t.fecOptions.roots = .error message) :
      SendMove t call []
        { t with
          encodersByEndpoint := t.encodersByEndpoint.insert (endpointKey call.endpoint) none }
  | encoded (hopen : t.isOpen = true) (hon : t.fecOptions.enabled = true) {encoder : FecCodec}
      (hencoder : makeDecoder (t.encodersByEndpoint.lookup (endpointKey call.endpoint))
        t.fecOptions.dataShards
        t.fecOptions.roots = .ok encoder) :
      SendMove t call (encodeFrames encoder call.payload)
        { t with
          encodersByEndpoint :=
            t.encodersByEndpoint.insert (endpointKey call.endpoint)
              (some (encoder.encode call.payload).2) }

lemma sendCall_move (t : UdpSender) (call : UdpSend) :
    SendMove t call (sendCall t call).1 (sendCall t call).2 := by
  unfold sendCall UdpSender.sendPacket
  cases hopen : t.isOpen with
  | false => exact .closed hopen
  | true =>
    rw [if_pos rfl]
    cases hon : t.fecOptions.enabled with
    | false => exact .raw hopen hon
    | true =>
      dsimp only [UdpSender.encoderFor]
      rw [if_pos rfl]
      cases hencoder : makeDecoder (t.encodersByEndpoint.lookup (endpointKey call.endpoint))
        t.fecOptions.dataShards
          t.fecOptions.roots with
      | error message => exact .failed hopen hon hencoder
      | ok encoder =>
        have hmove := SendMove.encoded hopen hon hencoder
        unfold encodeFrames UdpSend.payload at hmove
        dsimp only
        rw [AList.insert_insert]
        cases hencode : (encoder.encode (serializePacket call.ord call.pkt call.unknown)).1 with
        | error message =>
          rw [hencode] at hmove
          exact hmove
        | ok result =>
          rw [hencode] at hmove
          exact hmove

/-- The frames that are sent depend on what is stored for the endpoint, and so does what is stored
afterwards. -/
def encoderAnswer (view : Bool × UdpFecOptions × Option (Option FecCodec)) (payload : Bytes) :
    List Bytes × Bool × UdpFecOptions × Option (Option FecCodec) :=
  if view.1 then
    if view.2.1.enabled then
      match makeDecoder view.2.2 view.2.1.dataShards view.2.1.roots with
      | .error _ => ([], view.1, view.2.1, some none)
      | .ok encoder =>
        (encodeFrames encoder payload, view.1, view.2.1, some (some (encoder.encode payload).2))
    else ([payload], view)
  else ([], view)

lemma sendCall_answer (t : UdpSender) (call : UdpSend) :
    ((sendCall t call).1, encoderView (sendCall t call).2 call.endpoint) =
      encoderAnswer (encoderView t call.endpoint) call.payload := by
  have hmove := sendCall_move t call
  generalize (sendCall t call).1 = frames, (sendCall t call).2 = t' at hmove
  unfold encoderAnswer encoderView
  cases hmove with
  | closed hopen => simp [hopen]
  | raw hopen hoff => simp [hopen, hoff]
  | failed hopen hon hencoder => simp [hopen, hon, hencoder]
  | encoded hopen hon hencoder => simp [hopen, hon, hencoder]

lemma sendCall_frame (t : UdpSender) (call : UdpSend) {endpoint : UdpEndpoint}
    (h : endpoint ≠ call.endpoint) :
    encoderView (sendCall t call).2 endpoint = encoderView t endpoint := by
  have hmove := sendCall_move t call
  have hkey : endpointKey endpoint ≠ endpointKey call.endpoint := fun heq => h (endpointKey_inj heq)
  generalize (sendCall t call).1 = frames, (sendCall t call).2 = t' at hmove
  unfold encoderView
  cases hmove with
  | closed | raw => rfl
  | failed | encoded =>
    dsimp only
    rw [AList.lookup_insert_ne hkey]

lemma sendCall_keyed : Keyed sendCall UdpSend.endpoint encoderView where
  local_output t t' call hview := by
    have h := sendCall_answer t call
    rw [hview, ← sendCall_answer t' call] at h
    exact (Prod.ext_iff.mp h).1
  local_step t t' call hview := by
    have h := sendCall_answer t call
    rw [hview, ← sendCall_answer t' call] at h
    exact (Prod.ext_iff.mp h).2
  frame t call _ h := sendCall_frame t call h

/-- The datagrams that a run sends to an endpoint. -/
def datagramsTo (t : UdpSender) (calls : List UdpSend) (dest : UdpEndpoint) : List Bytes :=
  ((outputs sendCall t calls).filter fun sent => sent.1.endpoint = dest).flatMap Prod.snd

/-- The serialized packets for an endpoint. -/
def payloadsTo (calls : List UdpSend) (dest : UdpEndpoint) : List Bytes :=
  (calls.filter fun call => call.endpoint = dest).map UdpSend.payload

lemma encodeAll_cons (encoder : FecCodec) (payload : Bytes) (payloads : List Bytes) :
    (encoder.encodeAll (payload :: payloads)).1 =
      encodeFrames encoder payload ++ ((encoder.encode payload).2.encodeAll payloads).1 := by
  rw [FecCodec.encodeAll, ← Prod.mk.eta (p := encoder.encode payload)]
  unfold encodeFrames
  cases (encoder.encode payload).1 with
  | error message => rfl
  | ok result => rfl

/-- An encoder with the payloads of its endpoint. -/
lemma outputs_encoded {t : UdpSender} {dest : UdpEndpoint} (hopen : t.isOpen = true)
    (hon : t.fecOptions.enabled = true) (calls : List UdpSend)
    (hcalls : ∀ call ∈ calls, call.endpoint = dest)
    {encoder : FecCodec}
    (hencoder : makeDecoder (t.encodersByEndpoint.lookup (endpointKey dest)) t.fecOptions.dataShards
      t.fecOptions.roots = .ok encoder) :
    (outputs sendCall t calls).flatMap Prod.snd =
      (encoder.encodeAll (calls.map UdpSend.payload)).1 := by
  induction calls generalizing t encoder with
  | nil => rfl
  | cons call calls ih =>
    obtain rfl : call.endpoint = dest := hcalls call List.mem_cons_self
    have hmove := sendCall_move t call
    rw [outputs, List.flatMap_cons, List.map_cons, encodeAll_cons]
    generalize (sendCall t call).1 = frames, (sendCall t call).2 = t' at hmove ⊢
    cases hmove with
    | closed hclosed =>
      rw [hopen] at hclosed
      cases hclosed
    | raw _ hoff =>
      rw [hon] at hoff
      cases hoff
    | failed _ _ hfailed =>
      rw [hencoder] at hfailed
      cases hfailed
    | encoded _ _ hencoder' =>
      rw [hencoder] at hencoder'
      cases hencoder'
      dsimp only
      congr 1
      refine ih (t := { t with encodersByEndpoint := t.encodersByEndpoint.insert _ _ }) hopen hon
        (fun call' hcall' => hcalls call' (List.mem_cons_of_mem _ hcall')) ?_
      dsimp only
      rw [AList.lookup_insert]
      rfl

/-! ## Receiving -/

/-- A decoder with the frames of its sender. -/
lemma receiveCalls_decoded {t : UdpTransport} {source : UdpEndpoint} {k m : UInt8}
    (hopen : t.isOpen = true) (hcallback : t.hasCallback = true)
    (datagrams : List (UdpEndpoint × Bytes))
    (hdatagrams : ∀ datagram ∈ datagrams, datagram.1 = source ∧ Announces k m datagram.2)
    {decoder : FecCodec}
    (hdecoder : makeDecoder (t.decodersByEndpoint.lookup (decoderKey source k m)) k m =
      .ok decoder) :
    receiveCalls t datagrams =
      (decoder.decodeAll (datagrams.map Prod.snd)).1.flatten.map fun payload =>
        (source, payload) := by
  induction datagrams generalizing t decoder with
  | nil => rfl
  | cons datagram datagrams ih =>
    obtain ⟨source', rawData⟩ := datagram
    obtain ⟨rfl, hframe, hconfig⟩ : source' = source ∧ Announces k m rawData :=
      hdatagrams _ List.mem_cons_self
    have hne : rawData ≠ [] := by
      rintro rfl
      cases hframe
    have hview : (t.isOpen && t.hasCallback) ∧ rawData ≠ [] := ⟨by rw [hopen, hcallback]; rfl, hne⟩
    have hmove := receive_move t source' rawData
    unfold receiveCalls datagramDeliveries outputs
    rw [List.flatMap_cons, List.map_cons, FecCodec.decodeAll]
    dsimp only
    generalize (t.receive (source', rawData)).1 = payloads,
      (t.receive (source', rawData)).2 = t' at hmove ⊢
    cases hmove with
    | ignored hignored => exact absurd hview hignored
    | raw _ hraw =>
      rw [hconfig] at hraw
      cases hraw
    | @frame k' m' entry _ _ hconfig' hanswer =>
      rw [hconfig] at hconfig'
      cases hconfig'
      unfold answer at hanswer
      rw [if_pos hview, hconfig] at hanswer
      dsimp only at hanswer
      rw [hdecoder] at hanswer
      cases hanswer
      rw [List.flatten_cons, List.map_append]
      congr 1
      refine ih (t := { t with decodersByEndpoint := t.decodersByEndpoint.insert _ _ })
        hopen hcallback
        (fun datagram hdatagram => hdatagrams datagram (List.mem_cons_of_mem _ hdatagram)) ?_
      dsimp only
      rw [AList.lookup_insert]
      rfl

/-! ## From one transport to another -/

lemma create_enabled (cfg : FecConfig) {sender : UdpSender}
    (hcreate : UdpSender.create ⟨true, cfg.k, cfg.m⟩ = .ok sender) :
    sender = { fecOptions := ⟨true, cfg.k, cfg.m⟩ } := by
  have hroots : cfg.m ≠ 0 := by
    intro hzero
    have hm := cfg.one_le_m
    rw [hzero] at hm
    exact absurd hm (by decide)
  have hk := cfg.one_le_k
  have hsum := cfg.sum_le
  unfold UdpSender.create at hcreate
  dsimp only at hcreate
  rw [if_neg hroots, if_pos rfl, if_neg (by dsimp only; omega),
    if_neg (by dsimp only; omega)] at hcreate
  exact (Except.ok.inj hcreate).symm

lemma datagramsTo_eq (cfg : FecConfig) (calls : List UdpSend) (dest : UdpEndpoint) :
    datagramsTo { fecOptions := ⟨true, cfg.k, cfg.m⟩ } calls dest =
      (FecCodec.encodeAll { cfg := cfg } (payloadsTo calls dest)).1 := by
  unfold datagramsTo payloadsTo
  rw [sendCall_keyed.outputs_filter (fun endpoint => endpoint = dest)]
  have hcalls : ∀ call ∈ calls.filter (fun call => call.endpoint = dest), call.endpoint = dest :=
    fun call hcall => of_decide_eq_true (List.mem_filter.mp hcall).2
  exact outputs_encoded rfl rfl _ hcalls (create_eq cfg)

lemma encodeAll_announces {cfg : FecConfig} {payloads : List Bytes}
    (hgroups : (acceptedPayloads cfg payloads).length / cfg.numData < 2 ^ 32) :
    ∀ f ∈ (FecCodec.encodeAll { cfg := cfg } payloads).1, Announces cfg.k cfg.m f := by
  intro f hf
  rw [encodeAll_groups hgroups] at hf
  obtain ⟨group, -, hf⟩ := List.mem_flatMap.mp hf
  obtain ⟨s, -, rfl⟩ := List.mem_map.mp hf
  exact frameConfig_makeHeader _ _

/-- The datagrams of one sender. -/
def datagramsFrom (datagrams : List (UdpEndpoint × Bytes)) (source : UdpEndpoint) : List Bytes :=
  (datagrams.filter fun datagram => datagram.1 = source).map Prod.snd

/-- A datagram as it stands in `recv_buffer_`. -/
def inBuffer (datagram : UdpEndpoint × Bytes) : UdpEndpoint × Bytes :=
  (datagram.1, datagram.2.take recvBufferSize)

/-- The calls of `on_receive_cb_` for the datagrams that reach the socket. -/
def socketCalls (t : UdpTransport) (datagrams : List (UdpEndpoint × Bytes)) :
    List (UdpEndpoint × Bytes) :=
  (outputs asyncReceiveFrom t datagrams).flatMap fun delivery => delivery.2.map fun payload =>
    (delivery.1.1, payload)

lemma socketCalls_eq (t : UdpTransport) (datagrams : List (UdpEndpoint × Bytes)) :
    socketCalls t datagrams = receiveCalls t (datagrams.map inBuffer) := by
  unfold socketCalls receiveCalls datagramDeliveries
  induction datagrams generalizing t with
  | nil => rfl
  | cons datagram datagrams ih =>
    rw [List.map_cons, outputs, outputs, List.flatMap_cons, List.flatMap_cons, ih]
    rfl

/-- The payloads that a transport hands on for one sender. -/
def receivedFrom (t : UdpTransport) (datagrams : List (UdpEndpoint × Bytes))
    (source : UdpEndpoint) : List Bytes :=
  ((socketCalls t datagrams).filter fun call => call.1 = source).map Prod.snd

lemma datagramsFrom_inBuffer {datagrams : List (UdpEndpoint × Bytes)} {source : UdpEndpoint}
    (hsize : ∀ dg ∈ datagramsFrom datagrams source, dg.length ≤ recvBufferSize) :
    (datagrams.map inBuffer).filter (fun datagram => datagram.1 = source) =
      datagrams.filter fun datagram => datagram.1 = source := by
  rw [List.filter_map]
  have hwhole : ∀ datagram ∈ datagrams.filter (fun datagram => datagram.1 = source),
      inBuffer datagram = datagram :=
    fun datagram hdatagram =>
      congrArg (Prod.mk datagram.1) (List.take_of_length_le
        (hsize _ (List.mem_map_of_mem hdatagram)))
  exact (List.map_congr_left hwhole).trans (List.map_id' _)

lemma receivedFrom_eq {cfg : FecConfig} {t : UdpTransport} {source : UdpEndpoint}
    (hopen : t.isOpen = true) (hcallback : t.hasCallback = true)
    (hnew : t.decodersByEndpoint.lookup (decoderKey source cfg.k cfg.m) = none)
    {datagrams : List (UdpEndpoint × Bytes)}
    (hsize : ∀ dg ∈ datagramsFrom datagrams source, dg.length ≤ recvBufferSize)
    (hannounce : ∀ dg ∈ datagramsFrom datagrams source, Announces cfg.k cfg.m dg) :
    receivedFrom t datagrams source =
      (FecCodec.decodeAll { cfg := cfg } (datagramsFrom datagrams source)).1.flatten := by
  have hown : ∀ datagram ∈ datagrams.filter (fun datagram => datagram.1 = source),
      datagram.1 = source ∧ Announces cfg.k cfg.m datagram.2 := fun datagram hdatagram =>
    ⟨of_decide_eq_true (List.mem_filter.mp hdatagram).2,
      hannounce _ (List.mem_map_of_mem hdatagram)⟩
  have hdecoder : makeDecoder (t.decodersByEndpoint.lookup (decoderKey source cfg.k cfg.m))
      cfg.k cfg.m =
      .ok { cfg := cfg } := by
    rw [hnew]
    exact create_eq cfg
  have halone :=
    datagramDeliveries_filter (fun sender => sender.1 = source) t (datagrams.map inBuffer)
  have hcalls : (receiveCalls t (datagrams.map inBuffer)).filter (fun call => call.1 = source) =
      receiveCalls t ((datagrams.map inBuffer).filter fun datagram => datagram.1 = source) := by
    rw [receiveCalls_filter]
    exact congrArg _ halone
  unfold receivedFrom
  rw [socketCalls_eq, hcalls, datagramsFrom_inBuffer hsize]
  unfold datagramsFrom
  rw [receiveCalls_decoded hopen hcallback _ hown hdecoder, List.map_map]
  exact List.map_id' _

/-- The packets that one transport sends to another over a channel that loses datagrams but keeps
their order, while both exchange any datagrams with others; no frame is longer than `recv_buffer_`,
as no UDP datagram is. The receiver hands on each group of `k` packets once for every `k` of its
frames that arrive; so if there are fewer parity frames than data frames and no group loses more
frames than it has parity frames, it hands on the packets of the complete groups exactly once and in
order. -/
theorem udp_stream_recovered (cfg : FecConfig) {sender : UdpSender}
    (hcreate : UdpSender.create ⟨true, cfg.k, cfg.m⟩ = .ok sender) (calls : List UdpSend)
    (dest source : UdpEndpoint) (receiver : UdpTransport) (hopen : receiver.isOpen = true)
    (hcallback : receiver.hasCallback = true)
    (hnew : receiver.decodersByEndpoint.lookup (decoderKey source cfg.k cfg.m) = none)
    (hgroups : (acceptedPayloads cfg (payloadsTo calls dest)).length / cfg.numData < 2 ^ 32)
    (datagrams : List (UdpEndpoint × Bytes))
    (hsize : ∀ dg ∈ datagramsFrom datagrams source, dg.length ≤ recvBufferSize)
    (harrivals : (datagramsFrom datagrams source).Sublist (datagramsTo sender calls dest)) :
    let packets := acceptedPayloads cfg (payloadsTo calls dest)
    receivedFrom receiver datagrams source =
      thinnedStream cfg packets (datagramsFrom datagrams source) ∧
      (cfg.numRoots < cfg.numData →
        (∀ g < packets.length / cfg.numData,
          cfg.numData ≤ groupArrivals (UInt32.ofNat g) (datagramsFrom datagrams source)) →
        receivedFrom receiver datagrams source =
          packets.take (packets.length / cfg.numData * cfg.numData)) := by
  intro packets
  rw [create_enabled cfg hcreate, datagramsTo_eq] at harrivals
  have hstream : receivedFrom receiver datagrams source =
      thinnedStream cfg packets (datagramsFrom datagrams source) := by
    rw [receivedFrom_eq hopen hcallback hnew hsize fun f hf => encodeAll_announces hgroups f
      (harrivals.mem hf)]
    exact decodeAll_thinned hgroups harrivals
  refine ⟨hstream, fun hroots hlost => ?_⟩
  rw [hstream]
  exact thinnedStream_complete hroots hgroups harrivals hlost

def hostEndpoint (host : UInt8) : UdpEndpoint := ⟨⟨dotted 10 0 0 host, 7000⟩, 10, 0, 0, host, rfl⟩

/-- Two packets for the second host, and one for the third in between. -/
def pairCalls : List UdpSend :=
  [⟨.stored PeerId, hostEndpoint 2, { id := [1], transport := .udp }, {}⟩,
    ⟨.stored PeerId, hostEndpoint 3, { id := [2], transport := .udp }, {}⟩,
    ⟨.stored PeerId, hostEndpoint 2, { id := [3], transport := .udp }, {}⟩]

def pairSender : UdpSender := { fecOptions := ⟨true, pairConfig.k, pairConfig.m⟩ }

/-- The first data frame is lost, and a datagram of the third host comes first. -/
def pairDatagrams : List (UdpEndpoint × Bytes) :=
  (hostEndpoint 3, [1]) ::
    ((datagramsTo pairSender pairCalls (hostEndpoint 2)).drop 1).map fun dg => (hostEndpoint 1, dg)

theorem udp_stream_recovered_pair :
    receivedFrom {} pairDatagrams (hostEndpoint 1) = [[10, 1, 1, 48, 1], [10, 1, 3, 48, 1]] := by
  have hothers : ∀ dgs : List Bytes, datagramsFrom
      ((hostEndpoint 3, [1]) :: dgs.map fun dg => (hostEndpoint 1, dg))
      (hostEndpoint 1) = dgs := by
    have hother : hostEndpoint 3 ≠ hostEndpoint 1 := by decide
    simp [datagramsFrom, hother, List.filter_map, Function.comp_def]
  have hown : datagramsFrom pairDatagrams (hostEndpoint 1) =
      (datagramsTo pairSender pairCalls (hostEndpoint 2)).drop 1 := hothers _
  have hframes : datagramsTo pairSender pairCalls (hostEndpoint 2) = [0, 1, 2].map
      (groupFrame pairConfig 0 (groupPayloads pairConfig
        (acceptedPayloads pairConfig (payloadsTo pairCalls (hostEndpoint 2))) 0)) := by
    unfold pairSender
    rw [datagramsTo_eq, encodeAll_groups (by decide)]
    rfl
  have hsize : ∀ dg ∈ datagramsFrom pairDatagrams (hostEndpoint 1), dg.length ≤ recvBufferSize := by
    rw [hown, hframes]
    decide +kernel
  have hrecovered := (udp_stream_recovered pairConfig rfl pairCalls (hostEndpoint 2)
    (hostEndpoint 1) {} rfl rfl rfl
    (by decide) pairDatagrams hsize (by rw [hown]; exact List.drop_sublist _ _)).2 (by decide)
    fun g hg => ?_
  · exact hrecovered.trans (by decide)
  · obtain rfl : g = 0 := Nat.lt_one_iff.mp hg
    rw [hown, hframes]
    exact (groupArrivals_own pairConfig 0 _ [1, 2]).ge

end MeshNetwork.Proofs
