import MeshNetwork.Proofs.FecEncoder

/-!
# The order of the frames of an encoder

What a call of `encode` does after any calls: which payloads it rejects, how it numbers the frames
of those that it accepts, and for how many groups the numbers of the frames are unique.
-/

namespace MeshNetwork.Proofs

/-- The number of the calls that do not throw. -/
def returned : FecCodec → List Bytes → Nat
  | _, [] => 0
  | c, p :: ps => (if (c.encode p).1.isOk then 1 else 0) + returned (c.encode p).2 ps

/-- A frame with a payload whose length its header tells. -/
def FrameWith (cfg : FecConfig) (group seq : Nat) (payload f : Bytes) : Prop :=
  ∃ h, parseHeader f = some h ∧ f = makeHeader h ++ payload ∧ h.groupId.toNat = group % 2 ^ 32 ∧
    h.seq.toNat = seq ∧ h.numData = cfg.k ∧ h.numRoots = cfg.m ∧ h.dataLen.toNat = payload.length

/-- What a frame is told apart by. -/
def frameKey (f : Bytes) : Option (UInt32 × UInt8) :=
  (parseHeader f).map fun h => (h.groupId, h.seq)

variable {cfg : FecConfig} {H : List Bytes} {c : FecCodec} {p : Bytes}

/-! ## One call -/

lemma encode_isOk (h : Sent cfg H c) (p : Bytes) :
    (c.encode p).1.isOk = decide (p.length ≤ maxPayloadLen cfg) := by
  by_cases hp : p.length ≤ maxPayloadLen cfg
  · obtain ⟨r, hr, -, -⟩ := encode_accepted h hp
    rw [hr, decide_eq_true hp]
    rfl
  · rw [h.encode_rejected hp, decide_eq_false hp]
    rfl

lemma returned_eq (h : Sent cfg H c) (ps : List Bytes) :
    returned c ps = (acceptedPayloads cfg ps).length := by
  induction ps generalizing H c with
  | nil => rfl
  | cons p ps ih =>
    unfold returned
    rw [encode_isOk h]
    by_cases hp : p.length ≤ maxPayloadLen cfg
    · obtain ⟨r, -, -, hsent⟩ := encode_accepted h hp
      rw [ih hsent, acceptedPayloads_cons hp, decide_eq_true hp, if_pos rfl, List.length_cons,
        Nat.add_comm]
    · rw [h.encode_rejected hp, ih h, acceptedPayloads_cons_rejected hp, decide_eq_false hp,
        if_neg (by decide), Nat.zero_add]

lemma Sent.buf_length (h : Sent cfg H c) : c.sendBuf.length = H.length % cfg.numData := by
  have hdm := Nat.div_add_mod' H.length cfg.numData
  rw [h.buf, List.length_drop]
  omega

/-- Between the calls the sequence number counts the buffered payloads of an incomplete group. -/
lemma Sent.counters (h : Sent cfg H c) :
    c.sendSeq.toNat = c.sendBuf.length ∧ c.sendBuf.length = c.sendLens.length ∧
      c.sendLens.length < cfg.numData := by
  have hsum := numData_add_numRoots_le cfg
  have hlt := Nat.mod_lt H.length (numData_pos cfg)
  have hlens : c.sendLens.length = c.sendBuf.length := by rw [h.lens, List.length_map]
  rw [hlens, h.buf_length, h.seq, UInt8.toNat_ofNat', Nat.mod_eq_of_lt (by omega)]
  exact ⟨rfl, rfl, hlt⟩

/-- A call throws for a payload that is too large, always in the same place and before it changes
anything. -/
lemma encode_error_iff (h : Sent cfg H c) (p : Bytes) :
    ((∃ e, (c.encode p).1 = .error e) ↔ maxPayloadLen cfg < p.length) ∧
      ∀ e, (c.encode p).1 = .error e →
        e = "FEC payload is too large for the UDP FEC frame format" ∧ (c.encode p).2 = c := by
  by_cases hp : p.length ≤ maxPayloadLen cfg
  · obtain ⟨r, hr, -, -⟩ := encode_accepted h hp
    rw [hr]
    refine ⟨⟨?_, fun hlt => absurd hp (not_le.mpr hlt)⟩, fun e he => by cases he⟩
    rintro ⟨e, he⟩
    cases he
  · rw [h.encode_rejected hp]
    refine ⟨⟨fun _ => not_le.mp hp, fun _ => ⟨_, rfl⟩⟩, fun e he => ?_⟩
    cases he
    exact ⟨rfl, rfl⟩

lemma frameWith_groupFrame {ps : List Bytes} (hps : GroupSent cfg ps) (group : Nat) {seq : Nat}
    (hseq : seq < cfg.numData + cfg.numRoots) :
    FrameWith cfg group seq (framePayload cfg ps seq)
      (groupFrame cfg (UInt32.ofNat group) ps seq) := by
  refine ⟨_, parseHeader_groupFrame .., rfl, UInt32.toNat_ofNat', frameHeader_seq hseq _ ps,
    rfl, rfl, ?_⟩
  exact frameHeader_dataLen hps.length_le hps.accepted hseq _

/-- The frames of an accepted payload. -/
lemma encode_frames (h : Sent cfg H c) {r : EncodeResult} (hr : (c.encode p).1 = .ok r) :
    FrameWith cfg (H.length / cfg.numData) (H.length % cfg.numData) p r.dataFrame ∧
      r.parityFrames.length = (if H.length % cfg.numData = cfg.numData -
        1 then cfg.numRoots else 0) ∧
      ∀ j f, r.parityFrames[j]? = some f →
        ∃ payload, FrameWith cfg (H.length / cfg.numData) (cfg.numData + j) payload f := by
  have hk := numData_pos cfg
  have hlt := Nat.mod_lt H.length hk
  have hp : p.length ≤ maxPayloadLen cfg := by
    have hok := encode_isOk h p
    rw [hr] at hok
    exact decide_eq_true_iff.mp hok.symm
  obtain ⟨r', hr', hframes, -⟩ := encode_accepted h hp
  obtain rfl : r' = r := Except.ok.inj (hr'.symm.trans hr)
  have hps := groupSent_groupPayloads (h.accepted_append hp) (H.length / cfg.numData)
  unfold emitted at hframes
  dsimp only at hframes
  obtain ⟨hdata, hparity⟩ := List.cons.inj hframes
  rw [hdata, hparity]
  refine ⟨?_, ?_, fun j f hf => ?_⟩
  · have hframe := frameWith_groupFrame hps (H.length / cfg.numData)
      (show H.length % cfg.numData < cfg.numData + cfg.numRoots by omega)
    rw [framePayload_next] at hframe
    exact hframe
  · by_cases hlast : H.length % cfg.numData + 1 = cfg.numData
    · rw [if_pos hlast, if_pos (by omega), List.length_map, List.length_range]
    · rw [if_neg hlast, if_neg (by omega), List.length_nil]
  · by_cases hlast : H.length % cfg.numData + 1 = cfg.numData
    · rw [if_pos hlast, List.getElem?_map] at hf
      obtain ⟨j', hj', rfl⟩ := Option.map_eq_some_iff.mp hf
      obtain ⟨hj, hj'⟩ := List.getElem?_eq_some_iff.mp hj'
      rw [List.length_range] at hj
      rw [List.getElem_range] at hj'
      subst hj'
      exact ⟨_, frameWith_groupFrame hps (H.length / cfg.numData) (by omega)⟩
    · rw [if_neg hlast] at hf
      cases hf

/-! ## The numbers of the frames -/

lemma frameKey_groupFrame (cfg : FecConfig) (gid : UInt32) (ps : List Bytes) (seq : Nat) :
    frameKey (groupFrame cfg gid ps seq) = some (gid, UInt8.ofNat seq) := by
  rw [frameKey, parseHeader_groupFrame]
  rfl

/-- The sequence numbers that are emitted with the `n`-th accepted payload. -/
def emittedSeqs (cfg : FecConfig) (n : Nat) : List Nat :=
  n % cfg.numData :: if n % cfg.numData + 1 = cfg.numData then
    (List.range cfg.numRoots).map fun j => cfg.numData + j else []

lemma map_frameKey_emitted (cfg : FecConfig) (H : List Bytes) (n : Nat) :
    (emitted cfg H n).map frameKey =
      (emittedSeqs cfg n).map fun seq => some
        (UInt32.ofNat (n / cfg.numData), UInt8.ofNat seq) := by
  unfold emitted emittedSeqs
  dsimp only
  split_ifs
  · simp [frameKey_groupFrame, Function.comp_def]
  · simp [frameKey_groupFrame]

lemma mem_emittedSeqs {n seq : Nat} (h : seq ∈ emittedSeqs cfg n) :
    seq = n % cfg.numData ∨
      n % cfg.numData + 1 = cfg.numData ∧ cfg.numData ≤ seq ∧ seq < cfg.numData + cfg.numRoots := by
  rcases List.mem_cons.mp h with rfl | h
  · exact .inl rfl
  · by_cases hlast : n % cfg.numData + 1 = cfg.numData
    · rw [if_pos hlast] at h
      obtain ⟨j, hj, rfl⟩ := List.mem_map.mp h
      have hj := List.mem_range.mp hj
      exact .inr ⟨hlast, by omega, by omega⟩
    · rw [if_neg hlast] at h
      cases h

lemma mem_emittedSeqs_lt {n seq : Nat} (h : seq ∈ emittedSeqs cfg n) : seq < 256 := by
  have hsum := numData_add_numRoots_le cfg
  have hlt := Nat.mod_lt n (numData_pos cfg)
  rcases mem_emittedSeqs h with rfl | ⟨-, -, hseq⟩
  · omega
  · omega

lemma emittedSeqs_nodup (cfg : FecConfig) (n : Nat) : (emittedSeqs cfg n).Nodup := by
  have hlt := Nat.mod_lt n (numData_pos cfg)
  unfold emittedSeqs
  refine List.nodup_cons.mpr ⟨?_, ?_⟩
  · split_ifs
    · intro hmem
      obtain ⟨j, -, hj⟩ := List.mem_map.mp hmem
      omega
    · exact List.not_mem_nil
  · split_ifs
    · exact List.nodup_range.map fun a b hab => Nat.add_left_cancel hab
    · exact List.nodup_nil

/-- Two accepted payloads with a frame of the same group and number are the same. -/
lemma emittedSeqs_inj {n n' seq : Nat} (hgroup : n / cfg.numData = n' / cfg.numData)
    (h : seq ∈ emittedSeqs cfg n) (h' : seq ∈ emittedSeqs cfg n') : n = n' := by
  have hdm := Nat.div_add_mod' n cfg.numData
  have hdm' := Nat.div_add_mod' n' cfg.numData
  have hlt := Nat.mod_lt n (numData_pos cfg)
  have hlt' := Nat.mod_lt n' (numData_pos cfg)
  rw [hgroup] at hdm
  rcases mem_emittedSeqs h with rfl | ⟨hlast, hle, -⟩
  · rcases mem_emittedSeqs h' with heq | ⟨-, hle', -⟩
    · omega
    · omega
  · rcases mem_emittedSeqs h' with rfl | ⟨hlast', -, -⟩
    · omega
    · omega

/-- Group ids repeat after `2 ^ 32` groups only. -/
lemma uint32_ofNat_inj {first a b : Nat} (ha : first ≤ a ∧ a < first + 2 ^ 32)
    (hb : first ≤ b ∧ b < first + 2 ^ 32) (h : UInt32.ofNat a = UInt32.ofNat b) : a = b := by
  have hnat := congrArg UInt32.toNat h
  rw [UInt32.toNat_ofNat', UInt32.toNat_ofNat'] at hnat
  omega

/-- The frames of at most `2 ^ 32` successive groups differ in their group or their number. -/
lemma emitted_nodup (cfg : FecConfig) (H : List Bytes) (first : Nat) (indices : List Nat)
    (hnd : indices.Nodup)
    (hgroups : ∀ n ∈ indices, first ≤ n / cfg.numData ∧ n / cfg.numData < first + 2 ^ 32) :
    ((indices.flatMap (emitted cfg H)).map frameKey).Nodup := by
  rw [List.map_flatMap, List.nodup_flatMap]
  simp only [map_frameKey_emitted]
  constructor
  · intro n _
    refine (emittedSeqs_nodup cfg n).map_on fun a ha b hb hab => ?_
    have hseq := (Prod.mk.inj (Option.some.inj hab)).2
    exact uint8_ofNat_inj (mem_emittedSeqs_lt ha) (mem_emittedSeqs_lt hb) hseq
  · refine hnd.imp_of_mem fun {n n'} hn hn' hne key hkey hkey' => hne ?_
    obtain ⟨a, ha, rfl⟩ := List.mem_map.mp hkey
    obtain ⟨b, hb, heq⟩ := List.mem_map.mp hkey'
    obtain ⟨hgid, hseq⟩ := Prod.mk.inj (Option.some.inj heq)
    obtain rfl := uint8_ofNat_inj (mem_emittedSeqs_lt hb) (mem_emittedSeqs_lt ha) hseq
    exact emittedSeqs_inj (uint32_ofNat_inj (hgroups n' hn') (hgroups n hn) hgid).symm ha hb

/-- After any calls: the counters agree and stay below `k`, a call throws for a payload of more than
`65535 - 2k` bytes only and then changes nothing, an accepted payload gets the next number, the last
of a group is followed by the parity frames of the group, and the numbers are unique within `2 ^ 32`
groups. -/
theorem encoder_sequencing (cfg : FecConfig) (before : List Bytes) :
    let c := (FecCodec.encodeAll { cfg := cfg } before).2
    let n := returned { cfg := cfg } before
    (c.sendSeq.toNat = c.sendBuf.length ∧ c.sendBuf.length = c.sendLens.length ∧
      c.sendLens.length < cfg.numData) ∧ (∀ p, (∃ e, (c.encode p).1 = .error e) ↔
        65535 - 2 * cfg.numData < p.length) ∧
    (∀ p e, (c.encode p).1 = .error e →
      e = "FEC payload is too large for the UDP FEC frame format" ∧ (c.encode p).2 = c) ∧
    (∀ p r, (c.encode p).1 = .ok r →
      FrameWith cfg (n / cfg.numData) (n % cfg.numData) p r.dataFrame ∧
      r.parityFrames.length = (if n % cfg.numData = cfg.numData - 1 then cfg.numRoots else 0) ∧
      ∀ j f, r.parityFrames[j]? = some f →
        ∃ payload, FrameWith cfg (n / cfg.numData) (cfg.numData + j) payload f) ∧
    ∀ after, n + returned c after ≤ (n / cfg.numData + 2 ^ 32) * cfg.numData →
      ((c.encodeAll after).1.map frameKey).Nodup := by
  intro c n
  have h := (encodeAll_spec (sent_create cfg) before).2
  have hn : n = (acceptedPayloads cfg before).length := returned_eq (sent_create cfg) before
  rw [List.nil_append] at h
  rw [hn]
  refine ⟨h.counters, fun p => (encode_error_iff h p).1, fun p => (encode_error_iff h p).2,
    fun p r hr =>
    encode_frames h hr, fun after hfew => ?_⟩
  rw [returned_eq h] at hfew
  rw [(encodeAll_spec h after).1]
  refine emitted_nodup cfg _ ((acceptedPayloads cfg before).length / cfg.numData) _
    List.nodup_range' fun i hi => ?_
  have hi := List.mem_range'_1.mp hi
  exact ⟨Nat.div_le_div_right hi.1, (Nat.div_lt_iff_lt_mul (numData_pos cfg)).mpr (by omega)⟩

end MeshNetwork.Proofs
