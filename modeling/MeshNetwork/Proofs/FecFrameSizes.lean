import MeshNetwork.Model.UdpTransport
import MeshNetwork.Proofs.FecSequencing

/-!
# The sizes of the frames

The header and the length manifest come on top of the payloads that `encode` accepts, so the largest
frames do not fit into the receive buffer, and what is left of such a frame is rejected.
-/

namespace MeshNetwork.Proofs

open UdpTransport (recvBufferSize)

variable {cfg : FecConfig}

/-! ## Lengths -/

lemma groupFrame_length_data (cfg : FecConfig) (gid : UInt32) (ps : List Bytes) {seq : Nat}
    (hseq : seq < cfg.numData) :
    (groupFrame cfg gid ps seq).length = 14 + (ps.getD seq []).length := by
  unfold groupFrame
  rw [List.length_append, makeHeader_length, framePayload, if_pos hseq, slotContent, if_pos hseq]
  rfl

lemma groupFrame_length_parity (gid : UInt32) {ps : List Bytes} (hlen : ps.length = cfg.numData)
    {j : Nat} (hj : j < cfg.numRoots) :
    (groupFrame cfg gid ps (cfg.numData + j)).length = 14 + (2 * cfg.numData + maxLen ps) := by
  have hnot : ¬cfg.numData + j < cfg.numData := by omega
  unfold groupFrame
  rw [List.length_append, makeHeader_length, framePayload, if_neg hnot, List.length_append,
    lengthManifest_length, List.length_map, hlen, slotContent, if_neg hnot, Nat.add_sub_cancel_left,
    computeParity_length cfg ps hj]
  rfl

lemma add_maxLen_le_iff {ps : List Bytes} (hne : 0 < ps.length) (a n : Nat) :
    a + maxLen ps ≤ n ↔ ∀ p ∈ ps, a + p.length ≤ n := by
  constructor
  · intro h p hp
    exact (Nat.add_le_add_left (length_le_maxLen hp) a).trans h
  · intro h
    obtain ⟨p, hp⟩ := List.exists_mem_of_length_pos hne
    have hroom := h p hp
    have hmax : maxLen ps ≤ n - a := by
      rw [maxLen_le_iff]
      intro q hq
      have := h q hq
      omega
    omega

/-- The frames of one accepted payload. -/
lemma emitted_le_iff {H : List Bytes} {n : Nat} (hn : n < H.length) (size : Nat) :
    (∀ f ∈ emitted cfg H n, f.length ≤ 14 + size) ↔ (H.getD n []).length ≤ size ∧
      (n % cfg.numData + 1 = cfg.numData →
        ∀ p ∈ groupPayloads cfg H (n / cfg.numData), 2 * cfg.numData + p.length ≤ size) := by
  have hk := numData_pos cfg
  have hm : 0 < cfg.numRoots := cfg.one_le_m
  have hlt := Nat.mod_lt n hk
  have hdm := Nat.div_add_mod' n cfg.numData
  unfold emitted
  dsimp only
  rw [List.forall_mem_cons, groupFrame_length_data cfg _ _ hlt, groupPayloads_getD cfg H _ hlt, hdm,
    Nat.add_le_add_iff_left]
  refine and_congr_right fun _ => ?_
  by_cases hlast : n % cfg.numData + 1 = cfg.numData
  · have hlen : (groupPayloads cfg H (n / cfg.numData)).length = cfg.numData := by
      rw [groupPayloads_length]
      omega
    rw [if_pos hlast, List.forall_mem_map, ← add_maxLen_le_iff (by omega)]
    constructor
    · intro h _
      have hframe := h 0 (List.mem_range.mpr hm)
      rw [groupFrame_length_parity _ hlen hm] at hframe
      omega
    · intro h j hj
      rw [groupFrame_length_parity _ hlen (List.mem_range.mp hj)]
      exact Nat.add_le_add_left (h hlast) 14
  · rw [if_neg hlast]
    exact ⟨fun _ h => absurd h hlast, fun _ f hf => absurd hf List.not_mem_nil⟩

/-- The frames of a run have at most `14 + size` bytes if and only if its payloads, and those of its
complete groups together with a manifest, have at most `size`. -/
lemma frames_le_iff (cfg : FecConfig) (payloads : List Bytes) (size : Nat) :
    (∀ f ∈ (FecCodec.encodeAll { cfg := cfg } payloads).1, f.length ≤ 14 + size) ↔
      (∀ p ∈ acceptedPayloads cfg payloads, p.length ≤ size) ∧
      ∀ g, (g + 1) * cfg.numData ≤ (acceptedPayloads cfg payloads).length →
        ∀ p ∈ groupPayloads cfg (acceptedPayloads cfg payloads) g, 2 * cfg.numData + p.length ≤
          size := by
  have hk := numData_pos cfg
  generalize hH : acceptedPayloads cfg payloads = H
  have hframes : (∀ f ∈ (FecCodec.encodeAll { cfg := cfg } payloads).1, f.length ≤ 14 + size) ↔
      ∀ n, n < H.length → ∀ f ∈ emitted cfg H n, f.length ≤ 14 + size := by
    simp only [mem_encodeAll_iff, hH]
    exact ⟨fun h n hn f hf => h f ⟨n, hn, hf⟩, fun h f ⟨n, hn, hf⟩ => h n hn f hf⟩
  rw [hframes]
  constructor
  · intro h
    refine ⟨fun p hp => ?_, fun g hg => ?_⟩
    · obtain ⟨n, hn, rfl⟩ := List.mem_iff_getElem.mp hp
      have hdata := ((emitted_le_iff hn size).mp (h n hn)).1
      rw [List.getD_eq_getElem _ _ hn] at hdata
      exact hdata
    · -- the last payload of the group brings the parity frames
      rw [Nat.add_mul, Nat.one_mul] at hg
      have hn : g * cfg.numData + (cfg.numData - 1) < H.length := by omega
      have hparity := ((emitted_le_iff hn size).mp (h _ hn)).2
      have hsmall : cfg.numData - 1 < cfg.numData := by omega
      rw [Nat.mul_comm g, Nat.mul_add_div hk, Nat.mul_add_mod, Nat.div_eq_of_lt hsmall,
        Nat.mod_eq_of_lt hsmall] at hparity
      exact hparity (by omega)
  · rintro ⟨hdata, hparity⟩ n hn
    have hdm := Nat.div_add_mod' n cfg.numData
    refine (emitted_le_iff hn size).mpr ⟨?_, fun hlast => hparity _ ?_⟩
    · rw [List.getD_eq_getElem _ _ hn]
      exact hdata _ (List.getElem_mem hn)
    · rw [Nat.add_mul, Nat.one_mul]
      omega

/-! ## Frames that are cut off -/

lemma take_frame (h : FecHeader) (payload : Bytes) {size : Nat} (hheader : kHeaderSize ≤ size) :
    (makeHeader h ++ payload).take size = makeHeader h ++ payload.take (size - kHeaderSize) := by
  rw [List.take_append, makeHeader_length,
    List.take_of_length_le (by rw [makeHeader_length]; exact hheader)]

/-- No decoder takes a frame of which the end is missing. -/
lemma decode_truncated {h : FecHeader} {payload : Bytes} (hlen : h.dataLen.toNat = payload.length)
    {size : Nat} (hheader : kHeaderSize ≤ size) (hsize : size < (makeHeader h ++ payload).length)
    (c : FecCodec) :
    c.decode ((makeHeader h ++ payload).take size) = ([], c) := by
  rw [List.length_append, makeHeader_length] at hsize
  have hshort : (makeHeader h ++ payload.take (size - kHeaderSize)).length < kHeaderSize +
      h.dataLen.toNat := by
    rw [List.length_append, makeHeader_length, List.length_take, hlen]
    omega
  rw [take_frame h payload hheader]
  unfold FecCodec.decode
  rw [parseHeader_makeHeader]
  dsimp only
  rw [if_pos hshort, ite_self, ite_self]

/-- What the transport delivers from a datagram is the result of a decoder, or the datagram itself
if it is not a frame. -/
lemma receive_eq_nil {rawData : Bytes} (hframe : isFecFrame rawData = true)
    (hreject : ∀ c : FecCodec, c.decode rawData = ([], c)) (t : UdpTransport)
    (source : UdpEndpoint) :
    (t.receive (source, rawData)).1 = [] := by
  unfold UdpTransport.receive
  dsimp only
  rw [if_pos hframe]
  split_ifs
  · split
    · rfl
    · split
      · rfl
      · rw [hreject]
  · rfl

lemma isFecFrame_of_parseHeader {dg : Bytes} {h : FecHeader} (hparse : parseHeader dg = some h) :
    isFecFrame dg = true := by
  unfold parseHeader at hparse
  split_ifs at hparse with hshort hfec
  simpa using hfec

/-- The rest of an emitted frame that does not fit into the receive buffer. -/
lemma rejected_of_truncated {payloads : List Bytes} {f : Bytes}
    (hf : f ∈ (FecCodec.encodeAll { cfg := cfg } payloads).1) (hsize : recvBufferSize < f.length) :
    (∀ c : FecCodec, c.decode (f.take recvBufferSize) = ([], c)) ∧
      ∀ (t : UdpTransport) (source : UdpEndpoint), (t.asyncReceiveFrom (source, f)).1 = [] := by
  obtain ⟨n, hn, hf⟩ := mem_encodeAll_iff.mp hf
  obtain ⟨seq, hadm, rfl⟩ := mem_emitted hn hf
  have hps : GroupSent cfg (groupPayloads cfg (acceptedPayloads cfg payloads) (n / cfg.numData)) :=
    groupSent_groupPayloads acceptedPayloads_le _
  obtain ⟨h, -, hframe, -, -, -, -, hdataLen⟩ :=
    frameWith_groupFrame hps (n / cfg.numData) (hadm.lt hps)
  rw [hframe] at hsize ⊢
  have hreject := decode_truncated hdataLen (by decide) hsize
  refine ⟨hreject, fun t source => receive_eq_nil ?_ hreject t source⟩
  rw [take_frame h _ (by decide)]
  exact isFecFrame_of_parseHeader (parseHeader_makeHeader h _)

/-- The frames of a run all fit into the receive buffer if and only if no accepted payload has more
than 65522 bytes and no payload of a complete group more than `65522 - 2k`. A frame that does not
fit is lost for every receiver. -/
theorem frames_fit_iff (cfg : FecConfig) (payloads : List Bytes) :
    let frames := (FecCodec.encodeAll { cfg := cfg } payloads).1
    let accepted := acceptedPayloads cfg payloads
    ((∀ f ∈ frames, f.length ≤ recvBufferSize) ↔
      (∀ p ∈ accepted, p.length ≤ 65522) ∧
      ∀ g, (g + 1) * cfg.numData ≤ accepted.length → ∀ p ∈ groupPayloads cfg accepted g,
        p.length ≤ 65522 - 2 * cfg.numData) ∧
    ∀ f ∈ frames, recvBufferSize < f.length →
      (∀ c : FecCodec, c.decode (f.take recvBufferSize) = ([], c)) ∧
      ∀ (t : UdpTransport) (source : UdpEndpoint), (t.asyncReceiveFrom (source, f)).1 = [] := by
  intro frames accepted
  have hsum := numData_add_numRoots_le cfg
  have hmanifest : ∀ p : Bytes, p.length ≤ 65522 - 2 * cfg.numData ↔
      2 * cfg.numData + p.length ≤ 65522 := by
    intro p
    omega
  refine ⟨?_, fun f hf hsize => rejected_of_truncated hf hsize⟩
  simp only [hmanifest]
  exact frames_le_iff cfg payloads 65522

/-- One accepted payload, none of whose frames can be received. -/
theorem largest_payload_truncated :
    let cfg : FecConfig := ⟨1, 1, by decide, by decide, by decide⟩
    let payload : Bytes := List.replicate 65533 0
    (FecCodec.encode { cfg := cfg } payload).1.isOk = true ∧
      (FecCodec.encodeAll { cfg := cfg } [payload]).1 ≠ [] ∧
    ∀ f ∈ (FecCodec.encodeAll { cfg := cfg } [payload]).1, recvBufferSize < f.length ∧
      ∀ (t : UdpTransport) (source : UdpEndpoint), (t.asyncReceiveFrom (source, f)).1 = [] := by
  intro cfg payload
  have hlen : payload.length = 65533 := List.length_replicate
  have hmax : maxPayloadLen cfg = 65533 := by decide
  have hk : cfg.numData = 1 := rfl
  have haccepted : acceptedPayloads cfg [payload] = [payload] := by
    rw [acceptedPayloads, List.filter_cons_of_pos (by rw [hlen, hmax]; decide), List.filter_nil]
  refine ⟨?_, ?_, fun f hf => ?_⟩
  · rw [encode_isOk (sent_create cfg), hlen, hmax]
    decide
  · exact List.ne_nil_of_mem (mem_encodeAll_iff.mpr
      ⟨0, by rw [haccepted]; decide, List.mem_cons_self⟩)
  have hsize : recvBufferSize < f.length := by
    obtain ⟨n, hn, hmem⟩ := mem_encodeAll_iff.mp hf
    rw [haccepted] at hn hmem
    obtain rfl : n = 0 := Nat.lt_one_iff.mp hn
    have hgroup : groupPayloads cfg [payload] (0 / cfg.numData) = [payload] := by
      simp [groupPayloads, hk]
    obtain ⟨seq, hadm, rfl⟩ := mem_emitted hn hmem
    rw [hgroup] at hadm ⊢
    by_cases hseq : seq < cfg.numData
    · obtain rfl : seq = 0 := by omega
      rw [groupFrame_length_data cfg _ _ hseq, List.getD_cons_zero, hlen]
      decide
    · obtain ⟨j, rfl⟩ := Nat.exists_eq_add_of_le (not_lt.mp hseq)
      have hj : j < cfg.numRoots := by
        rcases hadm with hlt | ⟨-, hlt⟩
        · rw [List.length_singleton] at hlt
          omega
        · omega
      rw [groupFrame_length_parity _ rfl hj]
      have hle := length_le_maxLen (List.mem_singleton_self payload)
      unfold recvBufferSize
      omega
  exact ⟨hsize, (rejected_of_truncated hf hsize).2⟩

end MeshNetwork.Proofs
