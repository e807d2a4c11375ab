import MeshNetwork.Model.EnvelopeWire
import MeshNetwork.Model.Session

/-!
# Envelopes come back from the wire

Results about two connections hold for every codec that reads back the messages that they exchange.
Protobuf is one.
-/

namespace MeshNetwork.Proofs

open ProtobufWire

/-! ## Codecs -/

def IsInt32 (value : Int) : Prop := -2 ^ 31 ≤ value ∧ value < 2 ^ 31

/-- The ports of an address fit the wire. -/
structure OnWire (address : WireAddress) : Prop where
  tcpPort : IsInt32 address.tcpPort
  udpPort : IsInt32 address.udpPort

/-- An envelope such as the program builds. -/
structure Built (e : Envelope) : Prop where
  sender : OnWire e.sender
  recipient : OnWire e.recipient
  type : ∀ value, e.type ≠ .other value

/-- The envelope is not too long for a session. -/
def Fits (codec : EnvelopeCodec) (e : Envelope) : Prop :=
  (codec.serializeEnvelope e).length ≤ maxPayloadSize

/-- The messages that two ends exchange come back as they were, and so do the handshakes in them. -/
structure FaithfulCodec (codec : EnvelopeCodec) : Prop where
  envelope : ∀ e, Built e → Fits codec e → codec.parseEnvelope (codec.serializeEnvelope e) = some e
  handshake : ∀ e h, Built e → Fits codec e → e.payload = codec.serializeHandshake h →
    OnWire h.peerRecord.peerIp → codec.parseHandshake e.payload = some h

/-! ## Protobuf -/

lemma utf8_eq_nil {s : String} (h : utf8 s = []) : s = "" := by
  have hread := readText_utf8 s
  rw [h] at hread
  exact (Option.some.inj hread).symm

lemma IsInt32.read {value : Int} (h : IsInt32 value) : readInt32 (int32Number value) = value :=
  readInt32_int32Number h.1 h.2

lemma IsInt32.eq_zero {value : Int} (h : IsInt32 value)
    (hzero : int32Number value = 0) : value = 0 := by
  rw [← h.read, hzero]
  rfl

lemma merge_address {a : WireAddress} (ha : OnWire a)
    (hsize : (serializeAddress a).length < 2 ^ 31) :
    mergeMessage readAddressField {} (serializeAddress a) = some a := by
  have hip : (utf8 a.ip).length < 2 ^ 31 := by
    have hle := length_le_bytesField 1 (utf8 a.ip)
    rw [serializeAddress, List.length_append] at hsize
    omega
  have hreads : Reads (serializeAddress a)
      (bytesItem 1 (utf8 a.ip) ++ (numberItem 2 (int32Number a.tcpPort) ++
      (numberItem 3 (int32Number a.udpPort) ++ []))) := by
    apply Reads.bytesField (by decide) hip
    apply Reads.numberField (by decide) (int32Number_lt _)
    exact Reads.nil.numberField (by decide) (int32Number_lt _)
  have hfirst : (bytesItem 1 (utf8 a.ip)).foldlM readAddressField {} = some { ip := a.ip } :=
    foldlM_bytesItem (by rw [readAddressField, readText_utf8]; rfl) fun hnil => by
      rw [utf8_eq_nil hnil]
  have hsecond : (numberItem 2 (int32Number a.tcpPort)).foldlM readAddressField { ip := a.ip } =
      some { ip := a.ip, tcpPort := a.tcpPort } :=
    foldlM_numberItem (by rw [readAddressField, ha.tcpPort.read]) fun hzero => by
      rw [ha.tcpPort.eq_zero hzero]
  have hthird : (numberItem 3 (int32Number a.udpPort)).foldlM readAddressField
      { ip := a.ip, tcpPort := a.tcpPort } =
      some a :=
    foldlM_numberItem (by rw [readAddressField, ha.udpPort.read]) fun hzero => by
      rw [← ha.udpPort.eq_zero hzero]
  rw [mergeMessage_eq hreads, foldlM_append_some hfirst, foldlM_append_some hsecond,
    foldlM_append_some hthird]
  rfl

/-- A message of a string and another message. -/
lemma merge_text_message {α : Type} {read : α → Nat × FieldValue → Option α} {start m final : α}
    {text : String} {message : Bytes}
    (hsize : (bytesField 1 (utf8 text) ++ (setField 2 message ++ [])).length < 2 ^ 31)
    (htext : read start (1, .bytes (utf8 text)) = some m) (hdefault : text = "" → start = m)
    (hmessage : message.length < 2 ^ 31 → read m (2, .bytes message) = some final) :
    mergeMessage read start (bytesField 1 (utf8 text) ++ (setField 2 message ++ [])) =
      some final := by
  have hle := length_le_bytesField 1 (utf8 text)
  have hle' := length_le_setField 2 message
  rw [List.length_append, List.length_append] at hsize
  have hreads : Reads (bytesField 1 (utf8 text) ++ (setField 2 message ++ []))
      (bytesItem 1 (utf8 text) ++ [(2, .bytes message)]) := by
    apply Reads.bytesField (by decide) (by omega)
    exact Reads.nil.setField (by decide) (by omega)
  rw [mergeMessage_eq hreads, foldlM_append_some
    (foldlM_bytesItem htext fun hnil => hdefault (utf8_eq_nil hnil))]
  exact foldlM_cons_some (hmessage (by omega)) []

lemma merge_record {r : PeerRecord} (hr : OnWire r.peerIp)
    (hsize : (serializeRecord r).length < 2 ^ 31) :
    mergeMessage readRecordField ⟨"", {}⟩ (serializeRecord r) = some r := by
  refine merge_text_message (m := ⟨r.peerId, {}⟩) hsize ?_ (fun hempty => by rw [hempty])
    fun haddress => ?_
  · rw [readRecordField, readText_utf8]
    rfl
  · rw [readRecordField, merge_address hr haddress]
    rfl

lemma parseHandshake_serialize {h : Handshake} (hh : OnWire h.peerRecord.peerIp)
    (hsize : (serializeHandshake h).length < 2 ^ 31) :
    parseHandshake (serializeHandshake h) = some h := by
  refine merge_text_message (m := ⟨h.protoVersion, "", {}⟩) hsize ?_ (fun hempty => by rw [hempty])
    fun hrecord => ?_
  · rw [readHandshakeField, readText_utf8]
    rfl
  · rw [readHandshakeField, merge_record hh hrecord]
    rfl

lemma ofNumber_number {type : EnvelopeType} (h : ∀ value, type ≠ .other value) :
    EnvelopeType.ofNumber (readInt32 (int32Number type.number)) = type := by
  cases type with
  | other value => exact absurd rfl (h value)
  | _ => rfl

/-- Each part of an envelope is shorter than the envelope. -/
lemma envelope_parts {e : Envelope} (hsize : (serializeEnvelope e).length < 2 ^ 31) :
    e.msgId.length < 2 ^ 31 ∧ (serializeAddress e.sender).length < 2 ^ 31 ∧
      (serializeAddress e.recipient).length < 2 ^ 31 ∧ e.payload.length < 2 ^ 31 := by
  have hid := length_le_bytesField 1 e.msgId
  have hsender := length_le_setField 2 (serializeAddress e.sender)
  have hrecipient := length_le_setField 3 (serializeAddress e.recipient)
  have hpayload := length_le_bytesField 5 e.payload
  simp only [serializeEnvelope, List.length_append] at hsize
  omega

lemma parseEnvelope_serialize {e : Envelope} (he : Built e)
    (hsize : (serializeEnvelope e).length < 2 ^ 31) :
    parseEnvelope (serializeEnvelope e) = some e := by
  obtain ⟨hid, hsender, hrecipient, hpayload⟩ := envelope_parts hsize
  have hexpect : e.expectResponse.toNat < 2 ^ 64 := (Bool.toNat_le _).trans_lt (by decide)
  have hreads : Reads (serializeEnvelope e)
      (bytesItem 1 e.msgId ++ ((2, .bytes (serializeAddress e.sender)) ::
      ((3, .bytes (serializeAddress e.recipient)) :: (numberItem 4 (int32Number e.type.number) ++
        (bytesItem 5 e.payload ++ (numberItem 6 e.expectResponse.toNat ++ [])))))) := by
    apply Reads.bytesField (by decide) hid
    apply Reads.setField (by decide) hsender
    apply Reads.setField (by decide) hrecipient
    apply Reads.numberField (by decide) (int32Number_lt _)
    apply Reads.bytesField (by decide) hpayload
    exact Reads.nil.numberField (by decide) hexpect
  have hfirst : (bytesItem 1 e.msgId).foldlM readEnvelopeField ⟨[], {}, {}, .handshake, [], false⟩ =
      some ⟨e.msgId, {}, {}, .handshake, [], false⟩ := foldlM_bytesItem rfl fun hnil => by rw [hnil]
  have hsecond : readEnvelopeField ⟨e.msgId, {}, {}, .handshake, [], false⟩
      (2, .bytes (serializeAddress e.sender)) =
      some ⟨e.msgId, e.sender, {}, .handshake, [], false⟩ := by
    rw [readEnvelopeField, merge_address he.sender hsender]
    rfl
  have hthird : readEnvelopeField ⟨e.msgId, e.sender, {}, .handshake, [], false⟩
      (3, .bytes (serializeAddress e.recipient)) = some ⟨e.msgId, e.sender, e.recipient, .handshake,
        [], false⟩ := by
    rw [readEnvelopeField, merge_address he.recipient hrecipient]
    rfl
  have hfourth : (numberItem 4 (int32Number e.type.number)).foldlM readEnvelopeField
      ⟨e.msgId, e.sender, e.recipient, .handshake, [], false⟩ =
        some ⟨e.msgId, e.sender, e.recipient, e.type, [], false⟩ := by
    refine foldlM_numberItem (by rw [readEnvelopeField, ofNumber_number he.type]) fun hzero => ?_
    have htype := ofNumber_number he.type
    rw [hzero] at htype
    rw [← htype]
    rfl
  have hfifth : (bytesItem 5 e.payload).foldlM readEnvelopeField
      ⟨e.msgId, e.sender, e.recipient, e.type, [], false⟩ =
      some ⟨e.msgId, e.sender, e.recipient, e.type, e.payload, false⟩ :=
    foldlM_bytesItem rfl fun hnil => by rw [hnil]
  have hsixth : (numberItem 6 e.expectResponse.toNat).foldlM readEnvelopeField
      ⟨e.msgId, e.sender, e.recipient, e.type, e.payload, false⟩ = some e := by
    obtain ⟨msgId, sender, recipient, type, payload, expectResponse⟩ := e
    cases expectResponse <;> rfl
  rw [parseEnvelope, mergeMessage_eq hreads, foldlM_append_some hfirst, foldlM_cons_some hsecond,
    foldlM_cons_some hthird, foldlM_append_some hfourth, foldlM_append_some hfifth,
    foldlM_append_some hsixth]
  rfl

lemma protobufCodec_faithful : FaithfulCodec protobufCodec where
  envelope e he hfits := parseEnvelope_serialize he (Nat.lt_of_le_of_lt hfits (by decide))
  handshake e h he hfits hpayload hh := by
    obtain ⟨-, -, -, hsize⟩ := envelope_parts (Nat.lt_of_le_of_lt hfits (by decide))
    rw [hpayload] at hsize ⊢
    exact parseHandshake_serialize hh hsize

end MeshNetwork.Proofs
