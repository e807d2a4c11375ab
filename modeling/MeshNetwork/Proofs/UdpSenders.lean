import MeshNetwork.Library.KeyedMachine
import MeshNetwork.Library.Numerals
import MeshNetwork.Model.UdpTransport

/-!
# Senders of datagrams

The key of a decoder determines the sender and the configuration it is for, so a datagram touches
the decoder of its own sender and configuration only.
-/

namespace MeshNetwork.Proofs

open KeyedMachine UdpTransport

/-! ## Keys -/

lemma decoderKey_toList (a b c d : UInt8) (port : UInt16) (dataShards roots : UInt8) :
    (decoderKey ⟨dotted a b c d, port⟩ dataShards roots).toList =
      (toString a.toNat).toList ++ '.' :: ((toString b.toNat).toList ++ '.' ::
        ((toString c.toNat).toList ++
        '.' :: ((toString d.toNat).toList ++ ':' :: ((toString port.toNat).toList ++
          '/' :: ((toString dataShards.toNat).toList ++ '/' ::
            (toString roots.toNat).toList))))) := by
  simp [decoderKey, endpointKey, dotted, String.toList_append]

/-- The key of a decoder determines its sender and its configuration. -/
theorem decoderKey_inj {source source' : UdpEndpoint} {k m k' m' : UInt8}
    (h : decoderKey source k m = decoderKey source' k' m') :
    source = source' ∧ k = k' ∧ m = m' := by
  obtain ⟨⟨address, port⟩, a, b, c, d, haddress⟩ := source
  obtain ⟨⟨address', port'⟩, a', b', c', d', haddress'⟩ := source'
  dsimp only at haddress haddress' h
  subst haddress haddress'
  have hlist := congrArg String.toList h
  rw [decoderKey_toList, decoderKey_toList] at hlist
  obtain ⟨ha, hlist⟩ := Numerals.append_sep_inj (by decide) hlist
  obtain ⟨hb, hlist⟩ := Numerals.append_sep_inj (by decide) hlist
  obtain ⟨hc, hlist⟩ := Numerals.append_sep_inj (by decide) hlist
  obtain ⟨hd, hlist⟩ := Numerals.append_sep_inj (by decide) hlist
  obtain ⟨hport, hlist⟩ := Numerals.append_sep_inj (by decide) hlist
  obtain ⟨hk, hlist⟩ := Numerals.append_sep_inj (by decide) hlist
  have hm := Numerals.toString_inj hlist
  rw [UInt8.toNat_inj] at ha hb hc hd hk hm
  rw [UInt16.toNat_inj] at hport
  subst ha hb hc hd hport hk hm
  exact ⟨rfl, rfl, rfl⟩

/-! ## Decoders -/

/-- The sender of a datagram, with the configuration if it is an FEC frame. -/
def senderOf (datagram : UdpEndpoint × Bytes) : UdpEndpoint × Option (UInt8 × UInt8) :=
  (datagram.1, frameConfig datagram.2)

/-- What is stored for a sender and a configuration, and whether datagrams are taken at all. -/
def decoderView (t : UdpTransport) (sender : UdpEndpoint × Option (UInt8 × UInt8)) :
    Bool × Option (Option FecCodec) :=
  (t.isOpen && t.hasCallback,
    sender.2.bind fun config => t.decodersByEndpoint.lookup (decoderKey sender.1 config.1 config.2))

/-- The payloads of a datagram and what is stored for its sender afterwards. -/
def answer (view : Bool × Option (Option FecCodec)) (rawData : Bytes) :
    List Bytes × Bool × Option (Option FecCodec) :=
  if view.1 ∧ rawData ≠ [] then
    match frameConfig rawData with
    | none => ([rawData], view)
    | some (k, m) =>
      match makeDecoder view.2 k m with
      | .error _ => ([], view.1, some none)
      | .ok decoder => ((decoder.decode rawData).1, view.1, some (some (decoder.decode rawData).2))
  else ([], view)

lemma answer_ignored {view : Bool × Option (Option FecCodec)} {rawData : Bytes}
    (h : ¬(view.1 ∧ rawData ≠ [])) :
    answer view rawData = ([], view) :=
  if_neg h

lemma answer_raw {view : Bool × Option (Option FecCodec)} {rawData : Bytes}
    (h : view.1 ∧ rawData ≠ []) (hconfig : frameConfig rawData = none) :
    answer view rawData = ([rawData], view) := by
  unfold answer
  rw [if_pos h, hconfig]

/-- What a datagram can do. -/
inductive ReceiveMove (t : UdpTransport) (source : UdpEndpoint) (rawData : Bytes) :
    List Bytes → UdpTransport → Prop
  | ignored (hview : ¬((t.isOpen && t.hasCallback) ∧ rawData ≠ [])) :
      ReceiveMove t source rawData [] t
  | raw (hview : (t.isOpen && t.hasCallback) ∧ rawData ≠ [])
      (hconfig : frameConfig rawData = none) :
      ReceiveMove t source rawData [rawData] t
  | frame {k m : UInt8} {entry : Option FecCodec} {payloads : List Bytes}
      (hview : (t.isOpen && t.hasCallback) ∧ rawData ≠ [])
      (hconfig : frameConfig rawData = some (k, m))
      (hanswer : answer (t.isOpen && t.hasCallback,
        t.decodersByEndpoint.lookup (decoderKey source k m)) rawData =
        (payloads, t.isOpen && t.hasCallback, some entry)) :
      ReceiveMove t source rawData payloads
        { t with decodersByEndpoint := t.decodersByEndpoint.insert (decoderKey source k m) entry }

lemma receive_move (t : UdpTransport) (source : UdpEndpoint) (rawData : Bytes) :
    ReceiveMove t source rawData (t.receive (source, rawData)).1
      (t.receive (source, rawData)).2 := by
  have hiff : t.isOpen ∧ rawData ≠ [] ∧ t.hasCallback ↔ (t.isOpen && t.hasCallback) ∧
      rawData ≠ [] := by
    rw [Bool.and_eq_true]
    tauto
  unfold receive
  dsimp only
  by_cases hview : t.isOpen ∧ rawData ≠ [] ∧ t.hasCallback
  · rw [if_pos hview]
    have hview' := hiff.mp hview
    cases hframe : isFecFrame rawData with
    | false => exact .raw hview' (by simp [frameConfig, hframe])
    | true =>
      obtain ⟨config, hconfig⟩ : ∃ config, frameConfig rawData = some config := ⟨_, if_pos hframe⟩
      rw [if_pos rfl, hconfig]
      dsimp only [decoderFor]
      cases hdecoder : makeDecoder (t.decodersByEndpoint.lookup
        (decoderKey source config.1 config.2)) config.1 config.2 with
      | error message =>
        refine .frame hview' hconfig ?_
        unfold answer
        rw [if_pos hview', hconfig]
        dsimp only
        rw [hdecoder]
        rfl
      | ok decoder =>
        dsimp only
        rw [AList.insert_insert]
        refine .frame hview' hconfig ?_
        unfold answer
        rw [if_pos hview', hconfig]
        dsimp only
        rw [hdecoder]
  · rw [if_neg hview]
    exact .ignored (hiff.not.mp hview)

/-- The answer depends on what is stored for the sender, and is stored for it. -/
lemma receive_answer (t : UdpTransport) (datagram : UdpEndpoint × Bytes) :
    ((t.receive datagram).1, decoderView (t.receive datagram).2 (senderOf datagram)) =
      answer (decoderView t (senderOf datagram)) datagram.2 := by
  obtain ⟨source, rawData⟩ := datagram
  have hmove := receive_move t source rawData
  generalize (t.receive (source, rawData)).1 = payloads,
    (t.receive (source, rawData)).2 = t' at hmove
  cases hmove with
  | ignored hview => exact (answer_ignored hview).symm
  | raw hview hconfig => exact (answer_raw hview hconfig).symm
  | @frame k m entry payloads hview hconfig hanswer =>
    have hstored : ∀ t : UdpTransport, decoderView t (senderOf (source, rawData)) =
        (t.isOpen && t.hasCallback, t.decodersByEndpoint.lookup (decoderKey source k m)) := by
      intro t
      simp [decoderView, senderOf, hconfig]
    rw [hstored, hstored, hanswer]
    dsimp only
    rw [AList.lookup_insert]

/-- Nothing else that is stored changes. -/
lemma receive_frame (t : UdpTransport) (datagram : UdpEndpoint × Bytes)
    {sender : UdpEndpoint × Option (UInt8 × UInt8)} (h : sender ≠ senderOf datagram) :
    decoderView (t.receive datagram).2 sender = decoderView t sender := by
  obtain ⟨source, rawData⟩ := datagram
  have hmove := receive_move t source rawData
  generalize (t.receive (source, rawData)).1 = payloads,
    (t.receive (source, rawData)).2 = t' at hmove
  cases hmove with
  | ignored => rfl
  | raw => rfl
  | @frame k m entry payloads hview hconfig hanswer =>
    obtain ⟨source', config⟩ := sender
    cases config with
    | none => rfl
    | some config =>
      obtain ⟨k', m'⟩ := config
      refine congrArg (Prod.mk _) (AList.lookup_insert_ne fun hkey => h ?_)
      obtain ⟨rfl, rfl, rfl⟩ := decoderKey_inj hkey
      simp [senderOf, hconfig]

theorem receive_keyed : Keyed UdpTransport.receive senderOf decoderView where
  local_output t t' datagram hview := by
    have h := receive_answer t datagram
    rw [hview, ← receive_answer t' datagram] at h
    exact (Prod.ext_iff.mp h).1
  local_step t t' datagram hview := by
    have h := receive_answer t datagram
    rw [hview, ← receive_answer t' datagram] at h
    exact (Prod.ext_iff.mp h).2
  frame t datagram _ h := receive_frame t datagram h

/-! ## Runs -/

/-- The datagrams of a run, each with the payloads that `on_receive_cb_` is called with when it
arrives. -/
def datagramDeliveries (t : UdpTransport) (datagrams : List (UdpEndpoint × Bytes)) :
    List ((UdpEndpoint × Bytes) × List Bytes) :=
  outputs UdpTransport.receive t datagrams

/-- The calls of `on_receive_cb_`. -/
def receiveCalls (t : UdpTransport) (datagrams : List (UdpEndpoint × Bytes)) :
    List (UdpEndpoint × Bytes) :=
  (datagramDeliveries t datagrams).flatMap fun delivery => delivery.2.map fun payload =>
    (delivery.1.1, payload)

lemma datagramDeliveries_filter (p : UdpEndpoint × Option (UInt8 × UInt8) → Bool) (t : UdpTransport)
    (datagrams : List (UdpEndpoint × Bytes)) :
    (datagramDeliveries t datagrams).filter (fun delivery => p (senderOf delivery.1)) =
      datagramDeliveries t (datagrams.filter fun datagram => p (senderOf datagram)) :=
  receive_keyed.outputs_filter p t datagrams

/-- The calls for one endpoint come from its datagrams. -/
lemma receiveCalls_filter (t : UdpTransport) (datagrams : List (UdpEndpoint × Bytes))
    (source : UdpEndpoint) :
    (receiveCalls t datagrams).filter (fun call => call.1 = source) =
      ((datagramDeliveries t datagrams).filter fun delivery => delivery.1.1 = source).flatMap
        fun delivery =>
        delivery.2.map fun payload => (delivery.1.1, payload) := by
  unfold receiveCalls
  induction datagramDeliveries t datagrams with
  | nil => rfl
  | cons delivery rest ih =>
    rw [List.flatMap_cons, List.filter_append, ih, List.filter_cons]
    by_cases h : delivery.1.1 = source
    · simp [h, List.filter_map, Function.comp_def]
    · simp [h, List.filter_map, Function.comp_def]

/-- From any state of the transport, the calls for an endpoint are those that its own datagrams
cause alone, and the payloads of its frames of one configuration are those that these frames give
alone. -/
theorem senders_independent (t : UdpTransport) (datagrams : List (UdpEndpoint × Bytes))
    (source : UdpEndpoint) :
    (receiveCalls t datagrams).filter (fun call => call.1 = source) =
        receiveCalls t (datagrams.filter fun datagram => datagram.1 = source) ∧
      ∀ config, (datagramDeliveries t datagrams).filter (fun delivery =>
        senderOf delivery.1 = (source, some config)) =
        datagramDeliveries t (datagrams.filter fun datagram =>
          senderOf datagram = (source, some config)) := by
  refine ⟨?_, fun config => datagramDeliveries_filter (fun sender => sender = (source, some config))
    t datagrams⟩
  rw [receiveCalls_filter]
  exact congrArg _ (datagramDeliveries_filter (fun sender => sender.1 = source) t datagrams)

end MeshNetwork.Proofs
