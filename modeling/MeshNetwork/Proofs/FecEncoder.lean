import MeshNetwork.Proofs.FecFrames

/-!
# What the encoder emits

The send side of a codec is determined by the list of payloads it has accepted. The `n`-th
accepted payload is framed with group `n / k` and sequence number `n % k`, and the last payload
of a group is followed by the parity frames of the group.
-/

namespace MeshNetwork.Proofs

/-- The payloads of group `g` among the accepted payloads `H`. -/
def groupPayloads (cfg : FecConfig) (H : List Bytes) (g : Nat) : List Bytes :=
  (H.drop (g * cfg.numData)).take cfg.numData

/-- The frames emitted for the `n`-th accepted payload. -/
def emitted (cfg : FecConfig) (H : List Bytes) (n : Nat) : List Bytes :=
  let frame :=
    groupFrame cfg (UInt32.ofNat (n / cfg.numData)) (groupPayloads cfg H (n / cfg.numData))
  frame (n % cfg.numData) :: if n % cfg.numData + 1 = cfg.numData then
    (List.range cfg.numRoots).map fun j => frame (cfg.numData + j) else []

/-- The send side after the payloads `H` have been accepted. -/
structure Sent (cfg : FecConfig) (H : List Bytes) (c : FecCodec) : Prop where
  cfg_eq : c.cfg = cfg
  groupId : c.sendGroupId = UInt32.ofNat (H.length / cfg.numData)
  seq : c.sendSeq = UInt8.ofNat (H.length % cfg.numData)
  buf : c.sendBuf = H.drop (H.length / cfg.numData * cfg.numData)
  lens : c.sendLens = c.sendBuf.map len16
  accepted : ∀ p ∈ H, p.length ≤ maxPayloadLen cfg

/-- The payloads of the group that `p` belongs to are the buffered ones followed by `p`. -/
lemma groupPayloads_append (cfg : FecConfig) (H : List Bytes) (p : Bytes) :
    groupPayloads cfg (H ++ [p]) (H.length / cfg.numData) =
      H.drop (H.length / cfg.numData * cfg.numData) ++ [p] := by
  have hdm := Nat.div_add_mod' H.length cfg.numData
  have hlt := Nat.mod_lt H.length (numData_pos cfg)
  unfold groupPayloads
  rw [List.drop_append_of_le_length (by omega), List.take_of_length_le]
  rw [List.length_append, List.length_drop, List.length_singleton]
  omega

lemma groupPayloads_prefix (cfg : FecConfig) (H T : List Bytes) {g : Nat}
    (h : (g + 1) * cfg.numData ≤ H.length) :
    groupPayloads cfg (H ++ T) g = groupPayloads cfg H g := by
  unfold groupPayloads
  rw [Nat.add_mul, Nat.one_mul] at h
  rw [List.drop_append_of_le_length (by omega), List.take_append_of_le_length]
  rw [List.length_drop]
  omega

lemma groupPayloads_getD (cfg : FecConfig) (H : List Bytes) (g : Nat) {i : Nat}
    (hi : i < cfg.numData) :
    (groupPayloads cfg H g).getD i [] = H.getD (g * cfg.numData + i) [] := by
  unfold groupPayloads
  rw [List.getD_eq_getElem?_getD, List.getElem?_take, if_pos hi, List.getElem?_drop,
    ← List.getD_eq_getElem?_getD]

lemma emitted_prefix (cfg : FecConfig) (H T : List Bytes) {n : Nat} (hn : n < H.length) :
    emitted cfg (H ++ T) n = emitted cfg H n := by
  have hdm := Nat.div_add_mod' n cfg.numData
  have hlt := Nat.mod_lt n (numData_pos cfg)
  have hdata : groupFrame cfg (UInt32.ofNat (n / cfg.numData))
      (groupPayloads cfg (H ++ T) (n / cfg.numData)) (n % cfg.numData) =
      groupFrame cfg (UInt32.ofNat (n / cfg.numData)) (groupPayloads cfg H (n / cfg.numData))
        (n % cfg.numData) := by
    apply groupFrame_data_congr cfg _ hlt
    rw [groupPayloads_getD cfg _ _ hlt, groupPayloads_getD cfg _ _ hlt, hdm,
      List.getD_append _ _ _ _ hn]
  unfold emitted
  dsimp only
  rw [hdata]
  by_cases hlast : n % cfg.numData + 1 = cfg.numData
  · rw [if_pos hlast, if_pos hlast, groupPayloads_prefix cfg H T (by rw [Nat.add_mul]; omega)]
  · rw [if_neg hlast, if_neg hlast]

/-- The parity payload never exceeds the length field, so its exception is not reached. -/
lemma parityFrame_ok (cfg : FecConfig) (groupId : UInt32) {payloads : List Bytes}
    (hlen : payloads.length = cfg.numData) (hmax : ∀ p ∈ payloads, p.length ≤ maxPayloadLen cfg)
    {j : Nat} (hj : j < cfg.numRoots) :
    parityFrame cfg groupId (payloads.map len16) j ((computeParity cfg payloads).getD j []) =
      .ok (groupFrame cfg groupId payloads (cfg.numData + j)) := by
  have hpay : framePayload cfg payloads (cfg.numData + j) =
      lengthManifest (payloads.map len16) ++ (computeParity cfg payloads).getD j [] := by
    simp only [framePayload, slotContent, show ¬cfg.numData + j < cfg.numData by omega, if_false,
      Nat.add_sub_cancel_left]
  have hseq : cfg.numData + j < cfg.numData + cfg.numRoots := by omega
  have hle := framePayload_length_le cfg hlen.le hmax hseq
  rw [hpay] at hle
  unfold parityFrame
  rw [if_neg (by omega)]
  simp only [groupFrame, frameHeader, hpay]
  rfl

lemma uint8_ofNat_succ (n : Nat) : UInt8.ofNat n + 1 = UInt8.ofNat (n + 1) := by
  apply UInt8.toNat_inj.mp
  rw [UInt8.toNat_add, UInt8.toNat_ofNat', UInt8.toNat_ofNat', UInt8.toNat_one]
  omega

lemma uint32_ofNat_succ (n : Nat) : UInt32.ofNat n + 1 = UInt32.ofNat (n + 1) := by
  apply UInt32.toNat_inj.mp
  rw [UInt32.toNat_add, UInt32.toNat_ofNat', UInt32.toNat_ofNat', UInt32.toNat_one]
  omega

lemma uint8_ofNat_eq_k (cfg : FecConfig) {n : Nat} (hn : n < 256) :
    (UInt8.ofNat n == cfg.k) = decide (n = cfg.numData) := by
  rw [Bool.eq_iff_iff, beq_iff_eq, decide_eq_true_eq, ← UInt8.toNat_inj, UInt8.toNat_ofNat',
    Nat.mod_eq_of_lt hn]
  rfl

/-- The data frame of the next accepted payload carries this payload. -/
lemma framePayload_next (cfg : FecConfig) (H : List Bytes) (p : Bytes) :
    framePayload cfg (groupPayloads cfg (H ++ [p]) (H.length / cfg.numData))
      (H.length % cfg.numData) = p := by
  have hlt := Nat.mod_lt H.length (numData_pos cfg)
  rw [framePayload, if_pos hlt, slotContent, if_pos hlt, groupPayloads_getD cfg _ _ hlt,
    Nat.div_add_mod', List.getD_append_right _ _ _ _ le_rfl, Nat.sub_self]
  rfl

/-- The data frame of the next accepted payload. -/
lemma dataFrame_eq {cfg : FecConfig} {H : List Bytes} {c : FecCodec} (h : Sent cfg H c)
    (p : Bytes) :
    makeHeader ⟨c.sendGroupId, c.sendSeq, c.cfg.k, c.cfg.m, UInt16.ofNat p.length⟩ ++ p =
      groupFrame cfg (UInt32.ofNat (H.length / cfg.numData))
        (groupPayloads cfg (H ++ [p]) (H.length / cfg.numData)) (H.length % cfg.numData) := by
  rw [groupFrame, frameHeader, framePayload_next, h.groupId, h.seq, h.cfg_eq]
  rfl

/-- The parity frames of a complete group. -/
lemma parityFrames_ok (cfg : FecConfig) (groupId : UInt32) {payloads : List Bytes}
    (hlen : payloads.length = cfg.numData) (hmax : ∀ p ∈ payloads, p.length ≤ maxPayloadLen cfg) :
    (List.range cfg.numRoots).mapM (fun j =>
        parityFrame cfg groupId (payloads.map len16) j ((computeParity cfg payloads).getD j [])) =
      .ok ((List.range cfg.numRoots).map fun j => groupFrame cfg groupId payloads
        (cfg.numData + j)) :=
  List.mapM_ok _ _ _ fun _ hj => parityFrame_ok cfg groupId hlen hmax (List.mem_range.mp hj)

section Accepted

variable {cfg : FecConfig} {H : List Bytes} {c : FecCodec} {p : Bytes}

lemma Sent.encode_rejected (h : Sent cfg H c) (hp : ¬p.length ≤ maxPayloadLen cfg) :
    c.encode p = (.error "FEC payload is too large for the UDP FEC frame format", c) := by
  unfold maxPayloadLen at hp
  unfold FecCodec.encode
  rw [h.cfg_eq, if_pos (not_le.mp hp)]

lemma Sent.accepted_append (h : Sent cfg H c) (hp : p.length ≤ maxPayloadLen cfg) :
    ∀ q ∈ H ++ [p], q.length ≤ maxPayloadLen cfg := by
  intro q hq
  rcases List.mem_append.mp hq with hq | hq
  · exact h.accepted q hq
  · rw [List.mem_singleton.mp hq]
    exact hp

lemma Sent.buf_append (h : Sent cfg H c) (p : Bytes) :
    c.sendBuf ++ [p] = groupPayloads cfg (H ++ [p]) (H.length / cfg.numData) := by
  rw [groupPayloads_append cfg H p, h.buf]

lemma Sent.lens_append (h : Sent cfg H c) (p : Bytes) :
    c.sendLens ++ [UInt16.ofNat p.length] =
      (groupPayloads cfg (H ++ [p]) (H.length / cfg.numData)).map len16 := by
  rw [← h.buf_append, h.lens, List.map_append]
  rfl

/-- The encoder sees that a group is complete by its sequence number. -/
lemma Sent.seq_eq_k (h : Sent cfg H c) :
    (c.sendSeq + 1 == c.cfg.k) = decide (H.length % cfg.numData + 1 = cfg.numData) := by
  have hsum := numData_add_numRoots_le cfg
  have hlt := Nat.mod_lt H.length (numData_pos cfg)
  rw [h.seq, h.cfg_eq, uint8_ofNat_succ, uint8_ofNat_eq_k cfg (by omega)]

/-- A payload that does not complete its group. -/
lemma encode_fills (h : Sent cfg H c) (hp : p.length ≤ maxPayloadLen cfg)
    (hlast : ¬H.length % cfg.numData + 1 = cfg.numData) :
    ∃ r, (c.encode p).1 = .ok r ∧ r.dataFrame :: r.parityFrames = emitted cfg (H ++ [p]) H.length ∧
      Sent cfg (H ++ [p]) (c.encode p).2 := by
  have hdm := Nat.div_add_mod' H.length cfg.numData
  have hlt := Nat.mod_lt H.length (numData_pos cfg)
  have hnot : ¬p.length > 65535 - 2 * c.cfg.numData := by
    rw [h.cfg_eq]
    exact not_lt.mpr hp
  have hdiv : (H ++ [p]).length / cfg.numData = H.length / cfg.numData := by
    rw [List.length_append, List.length_singleton]
    exact Nat.div_eq_of_lt_le (by omega) (by rw [Nat.add_mul]; omega)
  have hmod : (H ++ [p]).length % cfg.numData = H.length % cfg.numData + 1 := by
    have hdm' := Nat.div_add_mod' (H ++ [p]).length cfg.numData
    rw [hdiv] at hdm'
    rw [List.length_append, List.length_singleton] at hdm' ⊢
    omega
  unfold FecCodec.encode
  rw [if_neg hnot]
  dsimp only
  rw [h.seq_eq_k, h.buf_append, h.lens_append, dataFrame_eq h p]
  simp only [hlast, decide_false, Bool.false_eq_true, if_false]
  refine ⟨_, rfl, ?_, ⟨h.cfg_eq, ?_, ?_, ?_, rfl, h.accepted_append hp⟩⟩
  · simp only [emitted, if_neg hlast]
  · rw [hdiv, h.groupId]
  · rw [hmod, h.seq, uint8_ofNat_succ]
  · rw [hdiv, groupPayloads_append cfg H p, List.drop_append_of_le_length (by omega)]

/-- The last payload of a group brings the parity frames and starts the next group. -/
lemma encode_completes (h : Sent cfg H c) (hp : p.length ≤ maxPayloadLen cfg)
    (hlast : H.length % cfg.numData + 1 = cfg.numData) :
    ∃ r, (c.encode p).1 = .ok r ∧ r.dataFrame :: r.parityFrames = emitted cfg (H ++ [p]) H.length ∧
      Sent cfg (H ++ [p]) (c.encode p).2 := by
  have hk := numData_pos cfg
  have hdm := Nat.div_add_mod' H.length cfg.numData
  have hnot : ¬p.length > 65535 - 2 * c.cfg.numData := by
    rw [h.cfg_eq]
    exact not_lt.mpr hp
  have hlen : (groupPayloads cfg (H ++ [p]) (H.length / cfg.numData)).length = cfg.numData := by
    rw [groupPayloads_append cfg H p, List.length_append, List.length_drop, List.length_singleton]
    omega
  have hsub : ∀ q ∈ groupPayloads cfg (H ++ [p]) (H.length / cfg.numData),
      q.length ≤ maxPayloadLen cfg :=
    fun q hq => h.accepted_append hp q (List.mem_of_mem_drop (List.mem_of_mem_take hq))
  have hdiv : (H ++ [p]).length = (H.length / cfg.numData + 1) * cfg.numData := by
    rw [List.length_append, List.length_singleton, Nat.add_mul]
    omega
  unfold FecCodec.encode
  rw [if_neg hnot]
  dsimp only
  rw [h.seq_eq_k, h.buf_append, h.lens_append, dataFrame_eq h p]
  simp only [hlast, decide_true, if_true, h.cfg_eq, h.groupId, parityFrames_ok cfg _ hlen hsub]
  refine ⟨_, rfl, ?_, ⟨rfl, ?_, ?_, ?_, rfl, h.accepted_append hp⟩⟩
  · simp only [emitted, if_pos hlast]
  · rw [hdiv, Nat.mul_div_cancel _ hk]
    exact uint32_ofNat_succ _
  · rw [hdiv, Nat.mul_mod_left]
    rfl
  · rw [hdiv, Nat.mul_div_cancel _ hk, ← hdiv, List.drop_length]

/-- One accepted call of `encode`. -/
theorem encode_accepted (h : Sent cfg H c) (hp : p.length ≤ maxPayloadLen cfg) :
    ∃ r, (c.encode p).1 = .ok r ∧ r.dataFrame :: r.parityFrames = emitted cfg (H ++ [p]) H.length ∧
      Sent cfg (H ++ [p]) (c.encode p).2 := by
  by_cases hlast : H.length % cfg.numData + 1 = cfg.numData
  · exact encode_completes h hp hlast
  · exact encode_fills h hp hlast

end Accepted

/-! ## Runs of the encoder -/

/-- The payloads of a sequence of `encode` calls that do not throw. -/
def acceptedPayloads (cfg : FecConfig) (payloads : List Bytes) : List Bytes :=
  payloads.filter fun p => p.length ≤ maxPayloadLen cfg

lemma acceptedPayloads_cons {cfg : FecConfig} {p : Bytes} (hp : p.length ≤ maxPayloadLen cfg)
    (ps : List Bytes) :
    acceptedPayloads cfg (p :: ps) = p :: acceptedPayloads cfg ps :=
  List.filter_cons_of_pos (by simpa using hp)

lemma acceptedPayloads_cons_rejected {cfg : FecConfig} {p : Bytes}
    (hp : ¬p.length ≤ maxPayloadLen cfg) (ps : List Bytes) :
    acceptedPayloads cfg (p :: ps) = acceptedPayloads cfg ps :=
  List.filter_cons_of_neg (by simpa using hp)

lemma acceptedPayloads_le {cfg : FecConfig} {payloads : List Bytes} :
    ∀ p ∈ acceptedPayloads cfg payloads, p.length ≤ maxPayloadLen cfg := by
  intro p hp
  simpa using (List.mem_filter.mp hp).2

lemma sent_create (cfg : FecConfig) : Sent cfg [] { cfg := cfg } := by
  refine ⟨rfl, ?_, ?_, List.drop_nil.symm, rfl, fun p hp => absurd hp List.not_mem_nil⟩
  · rw [List.length_nil, Nat.zero_div]
    rfl
  · rw [List.length_nil, Nat.zero_mod]
    rfl

lemma range_flatMap_emitted (cfg : FecConfig) (H T : List Bytes) (p : Bytes) :
    (List.range' H.length (T.length + 1)).flatMap (emitted cfg (H ++ p :: T)) =
      emitted cfg (H ++ [p]) H.length ++
        (List.range' (H ++ [p]).length T.length).flatMap (emitted cfg (H ++ [p] ++ T)) := by
  have hlen : (H ++ [p]).length = H.length + 1 := List.length_append
  have hfirst : emitted cfg (H ++ p :: T) H.length = emitted cfg (H ++ [p]) H.length := by
    rw [List.append_cons]
    exact emitted_prefix cfg (H ++ [p]) T (by omega)
  rw [List.range'_succ, List.flatMap_cons, hfirst, List.append_cons H p T, hlen]

/-- The frames of a run are those of the payloads it accepts, in order. -/
theorem encodeAll_spec {cfg : FecConfig} {H : List Bytes} {c : FecCodec} (h : Sent cfg H c)
    (ps : List Bytes) :
    (c.encodeAll ps).1 = (List.range' H.length (acceptedPayloads cfg ps).length).flatMap
        (emitted cfg (H ++ acceptedPayloads cfg ps)) ∧
      Sent cfg (H ++ acceptedPayloads cfg ps) (c.encodeAll ps).2 := by
  induction ps generalizing H c with
  | nil =>
    refine ⟨rfl, ?_⟩
    rw [show acceptedPayloads cfg [] = [] from rfl, List.append_nil]
    exact h
  | cons p ps ih =>
    by_cases hp : p.length ≤ maxPayloadLen cfg
    · obtain ⟨r, hr, hframes, hsent⟩ := encode_accepted h hp
      obtain ⟨hrest, hlast⟩ := ih hsent
      have hcall : c.encodeAll (p :: ps) = (r.dataFrame :: r.parityFrames ++
          ((c.encode p).2.encodeAll ps).1, ((c.encode p).2.encodeAll ps).2) := by
        rw [FecCodec.encodeAll, ← Prod.mk.eta (p := c.encode p), hr]
      rw [hcall, acceptedPayloads_cons hp, hframes]
      refine ⟨?_, ?_⟩
      · rw [List.length_cons, range_flatMap_emitted, hrest]
      · rw [List.append_cons]
        exact hlast
    · have hcall : c.encodeAll (p :: ps) = c.encodeAll ps := by
        rw [FecCodec.encodeAll, h.encode_rejected hp]
      rw [hcall, acceptedPayloads_cons_rejected hp]
      exact ih h

/-- The sequence numbers emitted for a group: its data frames so far, and the parity frames once
it is complete. -/
def Admissible (cfg : FecConfig) (payloads : List Bytes) (seq : Nat) : Prop :=
  seq < payloads.length ∨ payloads.length = cfg.numData ∧ seq < cfg.numData + cfg.numRoots

/-- The payloads of one group that an encoder may have accepted. -/
structure GroupSent (cfg : FecConfig) (ps : List Bytes) : Prop where
  length_le : ps.length ≤ cfg.numData
  accepted : ∀ p ∈ ps, p.length ≤ maxPayloadLen cfg

lemma Admissible.lt {cfg : FecConfig} {ps : List Bytes} (h : GroupSent cfg ps) {seq : Nat}
    (hs : Admissible cfg ps seq) : seq < cfg.numData + cfg.numRoots := by
  have hle := h.length_le
  rcases hs with hlt | ⟨-, hlt⟩
  · omega
  · exact hlt

lemma groupPayloads_length (cfg : FecConfig) (H : List Bytes) (g : Nat) :
    (groupPayloads cfg H g).length = min cfg.numData (H.length - g * cfg.numData) := by
  unfold groupPayloads
  rw [List.length_take, List.length_drop]

lemma groupSent_groupPayloads {cfg : FecConfig} {H : List Bytes}
    (hmax : ∀ p ∈ H, p.length ≤ maxPayloadLen cfg) (g : Nat) :
    GroupSent cfg (groupPayloads cfg H g) := by
  refine ⟨?_, fun p hp => hmax p (List.mem_of_mem_drop (List.mem_of_mem_take hp))⟩
  rw [groupPayloads_length]
  exact min_le_left _ _

lemma mem_emitted {cfg : FecConfig} {H : List Bytes} {n : Nat} (hn : n < H.length) {f : Bytes}
    (hf : f ∈ emitted cfg H n) :
    ∃ seq, Admissible cfg (groupPayloads cfg H (n / cfg.numData)) seq ∧
      f = groupFrame cfg (UInt32.ofNat (n / cfg.numData)) (groupPayloads cfg H
        (n / cfg.numData)) seq := by
  have hdm := Nat.div_add_mod' n cfg.numData
  have hlt := Nat.mod_lt n (numData_pos cfg)
  have hlen := groupPayloads_length cfg H (n / cfg.numData)
  rcases List.mem_cons.mp hf with rfl | hf
  · exact ⟨n % cfg.numData, .inl (by omega), rfl⟩
  · by_cases hlast : n % cfg.numData + 1 = cfg.numData
    · rw [if_pos hlast] at hf
      obtain ⟨j, hj, rfl⟩ := List.mem_map.mp hf
      have hj := List.mem_range.mp hj
      exact ⟨cfg.numData + j, .inr ⟨by omega, by omega⟩, rfl⟩
    · rw [if_neg hlast] at hf
      exact absurd hf List.not_mem_nil

lemma mem_encodeAll_iff {cfg : FecConfig} {payloads : List Bytes} {f : Bytes} :
    f ∈ (FecCodec.encodeAll { cfg := cfg } payloads).1 ↔
      ∃ n, n < (acceptedPayloads cfg payloads).length ∧
        f ∈ emitted cfg (acceptedPayloads cfg payloads) n := by
  rw [(encodeAll_spec (sent_create cfg) payloads).1, List.nil_append, List.mem_flatMap]
  refine exists_congr fun n => and_congr_left fun _ => ?_
  rw [List.mem_range'_1, List.length_nil]
  omega

/-! ## Reachable encoders -/

lemma tryDeliver_recv (c : FecCodec) (groupId : UInt32) :
    ∃ groups order, (c.tryDeliver groupId).2 =
      { c with recvGroups := groups, recvGroupOrder := order } := by
  unfold FecCodec.tryDeliver
  cases c.recvGroups.lookup groupId with
  | none => exact ⟨_, _, rfl⟩
  | some group =>
    dsimp only
    split_ifs <;> exact ⟨_, _, rfl⟩

lemma storeFrame_recv (c : FecCodec) (group : RecvGroup) (h : FecHeader) (payload : Bytes) :
    ∃ groups order,
      (c.storeFrame group h payload).2 =
        { c with recvGroups := groups, recvGroupOrder := order } := by
  unfold FecCodec.storeFrame
  dsimp only
  split_ifs
  · exact ⟨_, _, rfl⟩
  · exact ⟨_, _, rfl⟩
  · exact ⟨_, _, rfl⟩
  · obtain ⟨groups, order, heq⟩ := tryDeliver_recv _ h.groupId
    exact ⟨groups, order, heq⟩
  · obtain ⟨groups, order, heq⟩ := tryDeliver_recv _ h.groupId
    exact ⟨groups, order, heq⟩

lemma openGroup_recv (c : FecCodec) (h : FecHeader) (group : RecvGroup) :
    ∃ groups order, (c.openGroup h group).1 =
      { c with recvGroups := groups, recvGroupOrder := order } := by
  unfold FecCodec.openGroup
  split_ifs <;> exact ⟨_, _, rfl⟩

/-- `decode` touches the receive side only. -/
lemma decode_recv (c : FecCodec) (dg : Bytes) :
    ∃ groups order, (c.decode dg).2 = { c with recvGroups := groups, recvGroupOrder := order } := by
  unfold FecCodec.decode
  cases parseHeader dg with
  | none => exact ⟨_, _, rfl⟩
  | some h =>
    dsimp only
    split_ifs
    · exact ⟨_, _, rfl⟩
    · exact ⟨_, _, rfl⟩
    · exact ⟨_, _, rfl⟩
    · exact ⟨_, _, rfl⟩
    · obtain ⟨_, _, hopen⟩ := openGroup_recv
        { c with
          recvGroups := c.recvGroups.insert h.groupId ((c.recvGroups.lookup h.groupId).getD {}) }
        h ((c.recvGroups.lookup h.groupId).getD {})
      obtain ⟨groups, order, heq⟩ := storeFrame_recv _ _ h _
      rw [heq, hopen]
      exact ⟨groups, order, rfl⟩

lemma sent_of_reachable {cfg : FecConfig} {c : FecCodec} (h : FecReachable cfg c) :
    ∃ H, Sent cfg H c := by
  induction h with
  | create => exact ⟨[], sent_create cfg⟩
  | @encode c p _ ih =>
    obtain ⟨H, hH⟩ := ih
    by_cases hp : p.length ≤ maxPayloadLen cfg
    · obtain ⟨r, -, -, hsent⟩ := encode_accepted hH hp
      exact ⟨H ++ [p], hsent⟩
    · rw [hH.encode_rejected hp]
      exact ⟨H, hH⟩
  | @decode c dg _ ih =>
    obtain ⟨H, hH⟩ := ih
    obtain ⟨groups, order, heq⟩ := decode_recv c dg
    rw [heq]
    exact ⟨H, hH.cfg_eq, hH.groupId, hH.seq, hH.buf, hH.lens, hH.accepted⟩

lemma Sent.boundary {cfg : FecConfig} {H : List Bytes} {c : FecCodec} (h : Sent cfg H c)
    (hseq : c.sendSeq = 0) : H.length % cfg.numData = 0 := by
  have hlt := Nat.mod_lt H.length (numData_pos cfg)
  have hsum := numData_add_numRoots_le cfg
  have hzero := congrArg UInt8.toNat (h.seq.symm.trans hseq)
  rw [UInt8.toNat_ofNat', Nat.mod_eq_of_lt (by omega)] at hzero
  exact hzero

lemma groupPayloads_boundary {cfg : FecConfig} {H payloads : List Bytes}
    (hzero : H.length % cfg.numData = 0) (hlen : payloads.length = cfg.numData) :
    groupPayloads cfg (H ++ payloads) (H.length / cfg.numData) = payloads := by
  have hdm := Nat.div_add_mod' H.length cfg.numData
  unfold groupPayloads
  rw [List.drop_append, show H.length / cfg.numData * cfg.numData = H.length by omega, Nat.sub_self,
    List.drop_length, List.nil_append, List.drop_zero, ← hlen, List.take_length]

lemma groupFrame_mem_emitted {cfg : FecConfig} {H payloads : List Bytes}
    (hzero : H.length % cfg.numData = 0) (hlen : payloads.length = cfg.numData) {seq : Nat}
    (hseq : seq < cfg.numData + cfg.numRoots) :
    groupFrame cfg (UInt32.ofNat (H.length / cfg.numData)) payloads seq ∈
      emitted cfg (H ++ payloads) (H.length + min seq (cfg.numData - 1)) := by
  have hk := numData_pos cfg
  have hlt : min seq (cfg.numData - 1) < cfg.numData := by omega
  have hmod : (H.length + min seq (cfg.numData - 1)) % cfg.numData = min seq (cfg.numData - 1) := by
    rw [Nat.add_mod, hzero, Nat.zero_add, Nat.mod_mod, Nat.mod_eq_of_lt hlt]
  have hdiv : (H.length + min seq (cfg.numData - 1)) / cfg.numData = H.length / cfg.numData := by
    rw [Nat.add_div hk, hzero, Nat.div_eq_of_lt hlt, Nat.mod_eq_of_lt hlt, if_neg (by omega)]
    rfl
  unfold emitted
  dsimp only
  rw [hdiv, hmod, groupPayloads_boundary hzero hlen]
  by_cases hdata : seq < cfg.numData
  · rw [show min seq (cfg.numData - 1) = seq by omega]
    exact List.mem_cons_self ..
  · rw [if_pos (by omega)]
    apply List.mem_cons_of_mem
    exact List.mem_map.mpr ⟨seq - cfg.numData, List.mem_range.mpr (by omega), by
      rw [show cfg.numData + (seq - cfg.numData) = seq by omega]⟩

/-- The frames that an encoder at a group boundary emits for its next group. -/
theorem mem_encodeAll_group {cfg : FecConfig} {enc : FecCodec} (henc : FecReachable cfg enc)
    (hseq : enc.sendSeq = 0) {payloads : List Bytes} (hlen : payloads.length = cfg.numData)
    (hmax : ∀ p ∈ payloads, p.length ≤ maxPayloadLen cfg) {f : Bytes} :
    f ∈ (enc.encodeAll payloads).1 ↔
      ∃ seq, seq < cfg.numData + cfg.numRoots ∧
        f = groupFrame cfg enc.sendGroupId payloads seq := by
  obtain ⟨H, hH⟩ := sent_of_reachable henc
  have hk := numData_pos cfg
  have hzero := hH.boundary hseq
  have hdm := Nat.div_add_mod' H.length cfg.numData
  have hacc : acceptedPayloads cfg payloads = payloads :=
    List.filter_eq_self.mpr (by simpa using hmax)
  rw [(encodeAll_spec hH payloads).1, hacc, List.mem_flatMap, hH.groupId]
  constructor
  · rintro ⟨n, hn, hf⟩
    have hn := List.mem_range'_1.mp hn
    have hdiv : n / cfg.numData = H.length / cfg.numData := by
      apply Nat.div_eq_of_lt_le
      · omega
      · rw [Nat.add_mul]
        omega
    obtain ⟨seq, hadm, rfl⟩ := mem_emitted (by rw [List.length_append]; omega) hf
    rw [hdiv, groupPayloads_boundary hzero hlen] at hadm ⊢
    refine ⟨seq, ?_, rfl⟩
    rcases hadm with hlt | ⟨-, hlt⟩
    · omega
    · exact hlt
  · rintro ⟨seq, hlt, rfl⟩
    exact ⟨_, List.mem_range'_1.mpr (by omega), groupFrame_mem_emitted hzero hlen hlt⟩

/-! ## The groups of a run -/

lemma groupPayloads_snoc (cfg : FecConfig) (H : List Bytes) (p : Bytes) (g : Nat) :
    groupPayloads cfg (H ++ [p]) g =
      groupPayloads cfg H g ++ if H.length / cfg.numData = g then [p] else [] := by
  have hk := numData_pos cfg
  have hdm := Nat.div_add_mod' H.length cfg.numData
  have hlt := Nat.mod_lt H.length hk
  by_cases heq : H.length / cfg.numData = g
  · have hshort : (H.drop (g * cfg.numData)).length ≤ cfg.numData := by
      rw [List.length_drop, ← heq]
      omega
    have hsame : groupPayloads cfg H g = H.drop (g * cfg.numData) := List.take_of_length_le hshort
    rw [if_pos heq, hsame, ← heq]
    exact groupPayloads_append cfg H p
  · rw [if_neg heq, List.append_nil]
    by_cases hbefore : g < H.length / cfg.numData
    · have hle := Nat.mul_le_mul_right cfg.numData hbefore
      exact groupPayloads_prefix cfg H [p] (le_trans hle (by omega))
    · have hle : (H.length / cfg.numData + 1) * cfg.numData ≤ g * cfg.numData :=
        Nat.mul_le_mul_right cfg.numData (by omega)
      rw [Nat.add_mul] at hle
      unfold groupPayloads
      rw [List.drop_eq_nil_of_le (by rw [List.length_append, List.length_singleton]; omega),
        List.drop_eq_nil_of_le (by omega)]

lemma uint32_ofNat_eq_iff {n : Nat} (hn : n < 2 ^ 32) (gid : UInt32) :
    UInt32.ofNat n = gid ↔ n = gid.toNat := by
  rw [← UInt32.toNat_inj, UInt32.toNat_ofNat', Nat.mod_eq_of_lt hn]

/-- The payloads put into a group by the code are those between its multiples of `k`. -/
theorem encodedIn_eq {cfg : FecConfig} {H : List Bytes} {c : FecCodec} (h : Sent cfg H c)
    (gid : UInt32) (ps : List Bytes)
    (hgroups : (H ++ acceptedPayloads cfg ps).length / cfg.numData < 2 ^ 32) :
    groupPayloads cfg H gid.toNat ++ c.encodedIn gid ps =
      groupPayloads cfg (H ++ acceptedPayloads cfg ps) gid.toNat := by
  induction ps generalizing H c with
  | nil =>
    rw [show acceptedPayloads cfg [] = [] from rfl, List.append_nil]
    exact List.append_nil _
  | cons p ps ih =>
    by_cases hp : p.length ≤ maxPayloadLen cfg
    · obtain ⟨r, hr, -, hsent⟩ := encode_accepted h hp
      rw [acceptedPayloads_cons hp, List.append_cons] at hgroups ⊢
      have hrest := ih hsent hgroups
      have hcall : c.encodedIn gid (p :: ps) =
          (if c.sendGroupId = gid then [p] else []) ++ (c.encode p).2.encodedIn gid ps := by
        rw [FecCodec.encodedIn, ← Prod.mk.eta (p := c.encode p), hr]
      have hlt : H.length / cfg.numData < 2 ^ 32 := by
        refine lt_of_le_of_lt (Nat.div_le_div_right ?_) hgroups
        rw [List.append_assoc, List.length_append]
        omega
      have hsnoc := groupPayloads_snoc cfg H p gid.toNat
      simp only [← uint32_ofNat_eq_iff hlt, ← h.groupId] at hsnoc
      rw [hcall, ← List.append_assoc, ← hsnoc, hrest]
    · have hcall : c.encodedIn gid (p :: ps) = c.encodedIn gid ps := by
        rw [FecCodec.encodedIn, h.encode_rejected hp]
      rw [acceptedPayloads_cons_rejected hp] at hgroups ⊢
      rw [hcall]
      exact ih h hgroups

end MeshNetwork.Proofs
