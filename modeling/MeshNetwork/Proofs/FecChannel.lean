import MeshNetwork.Proofs.FecDecoder

/-!
# The codec over a lossy channel

Runs of the decoder over copies of frames that an encoder emitted, with arbitrary losses,
duplicates and reorderings: recovery of one group from any `k` of its frames, integrity of every
delivery, and how often a group is delivered.
-/

namespace MeshNetwork.Proofs

lemma create_eq (cfg : FecConfig) : FecCodec.create cfg.k cfg.m = .ok { cfg := cfg } := by
  have hk := cfg.one_le_k
  have hm := cfg.one_le_m
  have hs := cfg.sum_le
  unfold FecCodec.create
  rw [dif_neg (by omega), dif_neg (by omega), dif_neg (by omega)]

lemma decoding_create (cfg : FecConfig) (P : UInt32 → List Bytes) :
    Decoding cfg P { cfg := cfg } := by
  refine ⟨rfl, fun gid g hg => ?_, fun gid => ?_⟩
  · exact absurd hg (by simp [AList.lookup_empty])
  · exact numData_pos cfg

/-! ## Recovery of one group -/

def frameSeq (dg : Bytes) : Option UInt8 := (parseHeader dg).map FecHeader.seq

lemma frameSeq_groupFrame (cfg : FecConfig) (gid : UInt32) (ps : List Bytes) (seq : Nat) :
    frameSeq (groupFrame cfg gid ps seq) = some (UInt8.ofNat seq) := by
  rw [frameSeq, parseHeader_groupFrame]
  rfl

lemma frameSeq_injOn (cfg : FecConfig) (gid : UInt32) (ps : List Bytes) {a b : Nat} (ha : a < 256)
    (hb : b < 256) (h : frameSeq (groupFrame cfg gid ps a) = frameSeq (groupFrame cfg gid ps b)) :
    a = b := by
  rw [frameSeq_groupFrame, frameSeq_groupFrame, Option.some_inj] at h
  exact uint8_ofNat_inj ha hb h

lemma decodeAll_append (c : FecCodec) (l₁ l₂ : List Bytes) :
    c.decodeAll (l₁ ++ l₂) = ((c.decodeAll l₁).1 ++ ((c.decodeAll l₁).2.decodeAll l₂).1,
      ((c.decodeAll l₁).2.decodeAll l₂).2) := by
  induction l₁ generalizing c with
  | nil => rfl
  | cons dg l₁ ih =>
    rw [List.cons_append, FecCodec.decodeAll, ih]
    rfl

/-- Frames of one group deliver nothing while fewer than `k` numbers of it have arrived. -/
lemma decodeAll_short {cfg : FecConfig} (P : UInt32 → List Bytes) (gid : UInt32)
    (hP : GroupSent cfg (P gid)) (seqs : List Nat) {c : FecCodec} (h : Decoding cfg P c)
    (hadm : ∀ s ∈ seqs, Admissible cfg (P gid) s)
    (hcard : (heldOf c gid ∪ seqs.toFinset).card < cfg.numData) :
    (c.decodeAll (seqs.map (groupFrame cfg gid (P gid)))).1 = List.replicate seqs.length [] ∧
      Decoding cfg P (c.decodeAll (seqs.map (groupFrame cfg gid (P gid)))).2 ∧
      heldOf (c.decodeAll (seqs.map (groupFrame cfg gid (P gid)))).2 gid =
        heldOf c gid ∪ seqs.toFinset := by
  induction seqs generalizing c with
  | nil =>
    refine ⟨rfl, h, ?_⟩
    rw [List.toFinset_nil, Finset.union_empty]
    rfl
  | cons s seqs ih =>
    obtain ⟨hnext, -, hout⟩ := decode_spec h hP (hadm s (List.mem_cons_self ..))
    have hsub : insert s (heldOf c gid) ⊆ heldOf c gid ∪ (s :: seqs).toFinset := by
      rw [List.toFinset_cons, Finset.union_insert]
      exact Finset.insert_subset_insert s Finset.subset_union_left
    have hstep : (c.decode (groupFrame cfg gid (P gid) s)).1 = [] ∧
        heldOf (c.decode (groupFrame cfg gid (P gid) s)).2 gid = insert s (heldOf c gid) := by
      generalize (c.decode (groupFrame cfg gid (P gid) s)).1 = res at hout ⊢
      cases hout with
      | duplicate hmem hafter => exact ⟨rfl, by rw [hafter, Finset.insert_eq_of_mem hmem]⟩
      | stored _ _ hafter => exact ⟨rfl, hafter⟩
      | delivered hnew hfull _ _ =>
        have hle := Finset.card_le_card hsub
        rw [Finset.card_insert_of_notMem hnew] at hle
        omega
    have hunion : heldOf (c.decode (groupFrame cfg gid (P gid) s)).2 gid ∪ seqs.toFinset =
        heldOf c gid ∪ (s :: seqs).toFinset := by
      rw [hstep.2, List.toFinset_cons, Finset.union_insert, Finset.insert_union]
    obtain ⟨hres, hdec, hheld⟩ := ih hnext (fun t ht => hadm t (List.mem_cons_of_mem s ht))
      (by rw [hunion]; exact hcard)
    rw [List.map_cons, FecCodec.decodeAll]
    refine ⟨?_, hdec, hheld.trans hunion⟩
    rw [hres, hstep.1]
    rfl

/-- The frame that brings the missing number delivers the group, the frames before it nothing. -/
lemma decodeAll_completes {cfg : FecConfig} {c : FecCodec} (P : UInt32 → List Bytes) (gid : UInt32)
    (hP : GroupSent cfg (P gid)) (seqs : List Nat) (s : Nat) (h : Decoding cfg P c)
    (hadm : ∀ t ∈ seqs ++ [s], Admissible cfg (P gid) t) (hfresh : s ∉ heldOf c gid ∪ seqs.toFinset)
    (hcard : (heldOf c gid ∪ seqs.toFinset).card + 1 = cfg.numData) :
    (c.decodeAll ((seqs ++ [s]).map (groupFrame cfg gid (P gid)))).1 =
      List.replicate seqs.length [] ++ [P gid] := by
  obtain ⟨hres, hdecoding, hheld⟩ := decodeAll_short P gid hP seqs h
    (fun t ht => hadm t (List.mem_append_left _ ht)) (by omega)
  obtain ⟨-, -, hout⟩ :=
    decode_spec hdecoding hP (hadm s (List.mem_append_right _ (List.mem_singleton_self s)))
  rw [hheld] at hout
  have hlast : ((c.decodeAll (seqs.map (groupFrame cfg gid (P gid)))).2.decode
      (groupFrame cfg gid (P gid) s)).1 =
      P gid := by
    generalize FecCodec.decode _ _ = res at hout ⊢
    obtain ⟨out, c'⟩ := res
    cases hout with
    | duplicate hmem _ => exact absurd hmem hfresh
    | stored _ hmore _ => omega
    | delivered _ _ _ _ => rfl
  rw [List.map_append, decodeAll_append, hres]
  simp only [List.map_cons, List.map_nil, FecCodec.decodeAll, hlast]

/-- Any `k` frames of a group recover its payloads, whatever came in between. -/
theorem decodeAll_recovers (cfg : FecConfig) (dec : FecCodec)
    (hdec : FecCodec.create cfg.k cfg.m = .ok dec) (enc : FecCodec) (henc : FecReachable cfg enc)
    (hboundary : enc.sendSeq = 0) (payloads : List Bytes) (hlen : payloads.length = cfg.numData)
    (hmax : ∀ p ∈ payloads, p.length ≤ 65535 - 2 * cfg.numData) (arrivals : List Bytes)
    (last : Bytes) (hsent : ∀ f ∈ arrivals ++ [last], f ∈ (enc.encodeAll payloads).1)
    (hnew : frameSeq last ∉ arrivals.map frameSeq)
    (hcount : ((arrivals ++ [last]).map frameSeq).toFinset.card = cfg.numData) :
    (dec.decodeAll (arrivals ++ [last])).1 = List.replicate arrivals.length [] ++ [payloads] := by
  have hsum := numData_add_numRoots_le cfg
  obtain rfl : { cfg := cfg } = dec := Except.ok.inj ((create_eq cfg).symm.trans hdec)
  have hP : GroupSent cfg payloads := ⟨hlen.le, hmax⟩
  have hframes : ∀ f ∈ arrivals ++ [last], ∃ seq, seq < cfg.numData + cfg.numRoots ∧
      f = groupFrame cfg enc.sendGroupId payloads seq :=
    fun f hf => (mem_encodeAll_group henc hboundary hlen hmax).mp (hsent f hf)
  obtain ⟨seqs, rfl, hlt⟩ :=
    List.exists_map_eq arrivals fun f hf => hframes f (List.mem_append_left _ hf)
  obtain ⟨s, hs, rfl⟩ := hframes last (List.mem_append_right _ (List.mem_singleton_self last))
  have hfresh : s ∉ seqs := by
    intro hmem
    exact hnew (List.mem_map_of_mem (List.mem_map_of_mem hmem))
  have hdistinct : (seqs ++ [s]).toFinset.card = cfg.numData := by
    have himage :
        ((seqs ++ [s]).map (frameSeq ∘ groupFrame cfg enc.sendGroupId payloads)).toFinset =
        (seqs ++ [s]).toFinset.image (frameSeq ∘ groupFrame cfg enc.sendGroupId payloads) := by
      ext x
      simp only [List.mem_toFinset, List.mem_map, Finset.mem_image]
    rw [← hcount, ← List.map_singleton, ← List.map_append, List.map_map, himage]
    refine (Finset.card_image_of_injOn fun a ha b hb hab => ?_).symm
    have hbound : ∀ t ∈ (seqs ++ [s]).toFinset, t < 256 := by
      intro t ht
      rw [List.mem_toFinset, List.mem_append, List.mem_singleton] at ht
      rcases ht with ht | rfl
      · exact lt_of_lt_of_le (hlt t ht) (by omega)
      · omega
    exact frameSeq_injOn cfg _ _ (hbound a ha) (hbound b hb) hab
  have hcard : seqs.toFinset.card + 1 = cfg.numData := by
    rw [← hdistinct, List.toFinset_append, List.toFinset_cons, List.toFinset_nil, insert_empty_eq,
      Finset.union_singleton, Finset.card_insert_of_notMem (by rwa [List.mem_toFinset])]
  have hempty : heldOf { cfg := cfg } enc.sendGroupId = ∅ := rfl
  have hres :=
    decodeAll_completes (fun _ => payloads) enc.sendGroupId hP seqs s
      (decoding_create cfg _) ?_ ?_ ?_
  · rw [List.map_append, List.map_singleton] at hres
    rw [hres, List.length_map]
  · intro t ht
    rw [List.mem_append, List.mem_singleton] at ht
    rcases ht with ht | rfl
    · exact .inr ⟨hlen, hlt t ht⟩
    · exact .inr ⟨hlen, hs⟩
  · rwa [hempty, Finset.empty_union, List.mem_toFinset]
  · rwa [hempty, Finset.empty_union]

/-- Two data packets and one parity packet. -/
def pairConfig : FecConfig := ⟨2, 1, by decide, by decide, by decide⟩

theorem decodeAll_recovers_pair :
    (FecCodec.decodeAll { cfg := pairConfig } ([groupFrame pairConfig 0 [[1], [2, 3]] 2,
      groupFrame pairConfig 0 [[1], [2, 3]] 2] ++ [groupFrame pairConfig 0 [[1], [2, 3]] 1])).1 =
      [[], [], [[1], [2, 3]]] := by
  have hmem : ∀ seq, seq < 3 → groupFrame pairConfig 0 [[1], [2, 3]] seq ∈
      (FecCodec.encodeAll { cfg := pairConfig } [[1], [2, 3]]).1 := fun seq hseq =>
    (mem_encodeAll_group .create rfl rfl (by decide)).mpr ⟨seq, hseq, rfl⟩
  apply decodeAll_recovers pairConfig _ (create_eq _) { cfg := pairConfig } .create rfl
    [[1], [2, 3]] rfl
    (by decide)
  · intro f hf
    simp only [List.cons_append, List.nil_append, List.mem_cons, List.not_mem_nil, or_false] at hf
    rcases hf with rfl | rfl | rfl
    · exact hmem 2 (by decide)
    · exact hmem 2 (by decide)
    · exact hmem 1 (by decide)
  · simp only [List.map_cons, List.map_nil, frameSeq_groupFrame]
    decide
  · simp only [List.cons_append, List.nil_append, List.map_cons, List.map_nil, frameSeq_groupFrame]
    decide

/-! ## Integrity -/

/-- `f` is a frame of a group with the payloads `P gid`. -/
def FrameOf (cfg : FecConfig) (P : UInt32 → List Bytes) (f : Bytes) : Prop :=
  ∃ gid seq, Admissible cfg (P gid) seq ∧ f = groupFrame cfg gid (P gid) seq

lemma encodedIn_fresh {cfg : FecConfig} {payloads : List Bytes}
    (hgroups : (acceptedPayloads cfg payloads).length / cfg.numData < 2 ^ 32) (gid : UInt32) :
    FecCodec.encodedIn { cfg := cfg } gid payloads =
      groupPayloads cfg (acceptedPayloads cfg payloads) gid.toNat := by
  have hnil : groupPayloads cfg [] gid.toNat = [] := by
    rw [groupPayloads, List.drop_nil, List.take_nil]
  have heq := encodedIn_eq (sent_create cfg) gid payloads (by rw [List.nil_append]; exact hgroups)
  rw [hnil, List.nil_append, List.nil_append] at heq
  exact heq

/-- Every frame of a run of the encoder belongs to the group named in its header. -/
lemma frameOf_encodeAll {cfg : FecConfig} {payloads : List Bytes}
    (hgroups : (acceptedPayloads cfg payloads).length / cfg.numData < 2 ^ 32) {f : Bytes}
    (hf : f ∈ (FecCodec.encodeAll { cfg := cfg } payloads).1) :
    FrameOf cfg (fun gid => FecCodec.encodedIn { cfg := cfg } gid payloads) f := by
  obtain ⟨n, hn, hf⟩ := mem_encodeAll_iff.mp hf
  obtain ⟨seq, hadm, rfl⟩ := mem_emitted hn hf
  have hlt : n / cfg.numData < 2 ^ 32 := lt_of_le_of_lt (Nat.div_le_div_right hn.le) hgroups
  have hpay := encodedIn_fresh hgroups (UInt32.ofNat (n / cfg.numData))
  rw [UInt32.toNat_ofNat', Nat.mod_eq_of_lt hlt] at hpay
  unfold FrameOf
  simp only
  exact ⟨UInt32.ofNat (n / cfg.numData), seq, by rw [hpay]; exact hadm, by rw [hpay]⟩

lemma groupSent_encodedIn {cfg : FecConfig} {payloads : List Bytes}
    (hgroups : (acceptedPayloads cfg payloads).length / cfg.numData < 2 ^ 32) (gid : UInt32) :
    GroupSent cfg (FecCodec.encodedIn { cfg := cfg } gid payloads) := by
  rw [encodedIn_fresh hgroups]
  exact groupSent_groupPayloads acceptedPayloads_le _

/-- Whatever copies of frames arrive, a delivery is the payloads of the group in the header. -/
lemma decodeAll_payloads {cfg : FecConfig} {P : UInt32 → List Bytes}
    (hP : ∀ gid, GroupSent cfg (P gid)) (arrivals : List Bytes) {c : FecCodec}
    (h : Decoding cfg P c) (hf : ∀ f ∈ arrivals, FrameOf cfg P f) :
    ∀ x ∈ arrivals.zip (c.decodeAll arrivals).1, x.2 ≠ [] →
      ∃ hdr, parseHeader x.1 = some hdr ∧ x.2 = P hdr.groupId ∧ x.2.length = cfg.numData := by
  induction arrivals generalizing c with
  | nil =>
    intro x hx
    exact absurd hx List.not_mem_nil
  | cons f arrivals ih =>
    obtain ⟨gid, seq, hadm, rfl⟩ := hf f (List.mem_cons_self ..)
    obtain ⟨hnext, -, hout⟩ := decode_spec h (hP gid) hadm
    intro x hx hne
    rw [FecCodec.decodeAll, List.zip_cons_cons] at hx
    rcases List.mem_cons.mp hx with rfl | hx
    · refine ⟨_, parseHeader_groupFrame cfg gid (P gid) seq, ?_⟩
      dsimp only at hne ⊢
      generalize (c.decode (groupFrame cfg gid (P gid) seq)).1 = res at hout hne ⊢
      cases hout with
      | duplicate _ _ => exact absurd rfl hne
      | stored _ _ _ => exact absurd rfl hne
      | delivered _ _ hlen _ => exact ⟨rfl, hlen⟩
    · exact ih hnext (fun g hg => hf g (List.mem_cons_of_mem _ hg)) x hx hne

/-- Every delivery over an arbitrary lossy channel is exactly what was encoded in the group. -/
theorem decodeAll_integrity (cfg : FecConfig) (enc dec : FecCodec)
    (henc : FecCodec.create cfg.k cfg.m = .ok enc) (hdec : FecCodec.create cfg.k cfg.m = .ok dec)
    (payloads : List Bytes)
    (hgroups : (acceptedPayloads cfg payloads).length / cfg.numData < 2 ^ 32)
    (arrivals : List Bytes) (hsent : ∀ f ∈ arrivals, f ∈ (enc.encodeAll payloads).1) :
    ∀ x ∈ arrivals.zip (dec.decodeAll arrivals).1, x.2 ≠ [] → ∃ hdr, parseHeader x.1 = some hdr ∧
      x.2 = enc.encodedIn hdr.groupId payloads ∧ x.2.length = cfg.numData := by
  obtain rfl : { cfg := cfg } = enc := Except.ok.inj ((create_eq cfg).symm.trans henc)
  obtain rfl : { cfg := cfg } = dec := Except.ok.inj ((create_eq cfg).symm.trans hdec)
  exact decodeAll_payloads (groupSent_encodedIn hgroups) arrivals (decoding_create cfg _)
    fun f hf => frameOf_encodeAll hgroups (hsent f hf)

theorem decodeAll_integrity_pair :
    (FecCodec.decodeAll { cfg := pairConfig }
      ([2, 0].map (groupFrame pairConfig 0 [[1], [2, 3]]))).1 =
      [[], [[1], [2, 3]]] ∧
    ∃ hdr, parseHeader (groupFrame pairConfig 0 [[1], [2, 3]] 0) = some hdr ∧
      [[1], [2, 3]] = FecCodec.encodedIn { cfg := pairConfig } hdr.groupId [[1], [2, 3]] ∧
      [([1] : Bytes), [2, 3]].length = 2 := by
  have hout : (FecCodec.decodeAll { cfg := pairConfig }
      ([2, 0].map (groupFrame pairConfig 0 [[1], [2, 3]]))).1 =
      [[], [[1], [2, 3]]] := by
    apply decodeAll_completes (fun _ => [[1], [2, 3]]) 0 ⟨by decide, by decide⟩ [2] 0
      (decoding_create pairConfig _)
    · intro t ht
      have hle : ∀ t ∈ [2, 0], t < 3 := by decide
      exact .inr ⟨rfl, hle t ht⟩
    · decide
    · decide
  refine ⟨hout, ?_⟩
  apply decodeAll_integrity pairConfig { cfg := pairConfig } { cfg := pairConfig } (create_eq _)
    (create_eq _)
    [[1], [2, 3]] (by decide) ([2, 0].map (groupFrame pairConfig 0 [[1], [2, 3]])) ?_
    (groupFrame pairConfig 0 [[1], [2, 3]] 0, [[1], [2, 3]])
  · rw [hout]
    simp
  · simp
  · intro f hf
    simp only [List.map_cons, List.map_nil, List.mem_cons, List.not_mem_nil, or_false] at hf
    rw [mem_encodeAll_group .create rfl rfl (by decide)]
    rcases hf with rfl | rfl
    · exact ⟨2, by decide, rfl⟩
    · exact ⟨0, by decide, rfl⟩

/-! ## Deliveries of one group -/

/-- The sequence numbers of group `gid` among some datagrams. -/
def groupSeqs (gid : UInt32) (dgs : List Bytes) : Finset Nat :=
  (((dgs.filterMap parseHeader).filter fun h => h.groupId = gid).map fun h => h.seq.toNat).toFinset

/-- How many datagrams of group `gid` have a non-empty result. -/
def deliveries (c : FecCodec) (gid : UInt32) (arrivals : List Bytes) : Nat :=
  (arrivals.zip (c.decodeAll arrivals).1).countP fun x =>
    (parseHeader x.1).any (fun h => h.groupId = gid) && !x.2.isEmpty

lemma groupSeqs_append (gid : UInt32) (l₁ l₂ : List Bytes) :
    groupSeqs gid (l₁ ++ l₂) = groupSeqs gid l₁ ∪ groupSeqs gid l₂ := by
  unfold groupSeqs
  rw [List.filterMap_append, List.filter_append, List.map_append, List.toFinset_append]

lemma groupSeqs_self {cfg : FecConfig} (gid : UInt32) {ps : List Bytes} {seq : Nat}
    (hseq : seq < 256) :
    groupSeqs gid [groupFrame cfg gid ps seq] = {seq} := by
  unfold groupSeqs
  rw [List.filterMap_cons_some (parseHeader_groupFrame cfg gid ps seq), List.filterMap_nil,
    List.filter_cons_of_pos (by simp [frameHeader]), List.filter_nil, List.map_cons, List.map_nil,
    frameHeader, UInt8.toNat_ofNat', Nat.mod_eq_of_lt hseq]
  rfl

lemma deliveries_cons {cfg : FecConfig} (gid gid' : UInt32) (ps : List Bytes) (seq : Nat)
    (c : FecCodec) (l : List Bytes) : deliveries c gid (groupFrame cfg gid' ps seq :: l) =
      deliveries (c.decode (groupFrame cfg gid' ps seq)).2 gid l +
        if gid' = gid ∧ (c.decode (groupFrame cfg gid' ps seq)).1 ≠ [] then 1 else 0 := by
  unfold deliveries
  rw [FecCodec.decodeAll, List.zip_cons_cons, List.countP_cons, parseHeader_groupFrame]
  simp [frameHeader]

/-- One frame either adds its number to the held ones of its group or completes the group. -/
lemma deliveries_step {cfg : FecConfig} {P : UInt32 → List Bytes}
    (hP : ∀ gid, GroupSent cfg (P gid)) (gid : UInt32) {f : Bytes} (hf : FrameOf cfg P f)
    (l : List Bytes) {c : FecCodec} (h : Decoding cfg P c) :
    Decoding cfg P (c.decode f).2 ∧
      (deliveries c gid (f :: l) = deliveries (c.decode f).2 gid l ∧
          heldOf (c.decode f).2 gid ⊆ heldOf c gid ∪ groupSeqs gid [f] ∨
        deliveries c gid (f :: l) = deliveries (c.decode f).2 gid l + 1 ∧
          heldOf (c.decode f).2 gid = ∅ ∧ cfg.numData ≤
            (heldOf c gid ∪ groupSeqs gid [f]).card) := by
  obtain ⟨gid', seq, hadm, rfl⟩ := hf
  have hsum := numData_add_numRoots_le cfg
  have hlt := hadm.lt (hP gid')
  obtain ⟨hnext, hkept, hout⟩ := decode_spec h (hP gid') hadm
  refine ⟨hnext, ?_⟩
  rw [deliveries_cons]
  by_cases hgid : gid' = gid
  · subst hgid
    rw [groupSeqs_self gid' (by omega), Finset.union_singleton]
    generalize (c.decode (groupFrame cfg gid' (P gid') seq)).1 = res at hout ⊢
    cases hout with
    | duplicate _ hafter =>
      left
      rw [if_neg (fun hand => hand.2 rfl), hafter]
      exact ⟨rfl, Finset.subset_insert _ _⟩
    | stored _ _ hafter =>
      left
      rw [if_neg (fun hand => hand.2 rfl), hafter]
      exact ⟨rfl, Finset.Subset.refl _⟩
    | delivered hnew hfull hlen hafter =>
      right
      have hne : P gid' ≠ [] := by
        intro hnil
        rw [hnil, List.length_nil] at hlen
        have hpos := numData_pos cfg
        omega
      rw [if_pos ⟨rfl, hne⟩, Finset.card_insert_of_notMem hnew]
      exact ⟨rfl, hafter, hfull.ge⟩
  · left
    rw [if_neg (fun hand => hgid hand.1)]
    refine ⟨rfl, ?_⟩
    rcases hkept.heldOf (Ne.symm hgid) with heq | hempty
    · rw [heq]
      exact Finset.subset_union_left
    · rw [hempty]
      exact Finset.empty_subset _

/-- A delivery needs `k` sequence numbers, of the held ones and those that arrive. -/
lemma card_of_delivery {cfg : FecConfig} {P : UInt32 → List Bytes}
    (hP : ∀ gid, GroupSent cfg (P gid)) (gid : UInt32) (arrivals : List Bytes) {c : FecCodec}
    (h : Decoding cfg P c) (hf : ∀ f ∈ arrivals, FrameOf cfg P f)
    (hdel : 1 ≤ deliveries c gid arrivals) :
    cfg.numData ≤ (heldOf c gid ∪ groupSeqs gid arrivals).card := by
  induction arrivals generalizing c with
  | nil => exact absurd hdel (by simp [deliveries])
  | cons f arrivals ih =>
    obtain ⟨hnext, hstep⟩ := deliveries_step hP gid (hf f (List.mem_cons_self ..)) arrivals h
    rw [← List.singleton_append, groupSeqs_append, ← Finset.union_assoc]
    rcases hstep with ⟨heq, hsub⟩ | ⟨-, -, hcard⟩
    · rw [heq] at hdel
      have hrest := ih hnext (fun g hg => hf g (List.mem_cons_of_mem _ hg)) hdel
      exact le_trans hrest (Finset.card_le_card (Finset.union_subset_union_left hsub))
    · exact le_trans hcard (Finset.card_le_card Finset.subset_union_left)

/-- A second delivery needs `k` sequence numbers that arrive after the first. -/
lemma split_of_deliveries {cfg : FecConfig} {P : UInt32 → List Bytes}
    (hP : ∀ gid, GroupSent cfg (P gid)) (gid : UInt32) (arrivals : List Bytes) {c : FecCodec}
    (h : Decoding cfg P c) (hf : ∀ f ∈ arrivals, FrameOf cfg P f)
    (hdel : 2 ≤ deliveries c gid arrivals) :
    ∃ l₁ l₂, arrivals = l₁ ++ l₂ ∧ cfg.numData ≤ (heldOf c gid ∪ groupSeqs gid l₁).card ∧
      cfg.numData ≤ (groupSeqs gid l₂).card := by
  induction arrivals generalizing c with
  | nil => exact absurd hdel (by simp [deliveries])
  | cons f arrivals ih =>
    have hrest : ∀ g ∈ arrivals, FrameOf cfg P g := fun g hg => hf g (List.mem_cons_of_mem _ hg)
    obtain ⟨hnext, hstep⟩ := deliveries_step hP gid (hf f (List.mem_cons_self ..)) arrivals h
    rcases hstep with ⟨heq, hsub⟩ | ⟨heq, hempty, hcard⟩
    · rw [heq] at hdel
      obtain ⟨l₁, l₂, rfl, hfirst, hsecond⟩ := ih hnext hrest hdel
      refine ⟨f :: l₁, l₂, rfl, le_trans hfirst (Finset.card_le_card ?_), hsecond⟩
      rw [← List.singleton_append, groupSeqs_append, ← Finset.union_assoc]
      exact Finset.union_subset_union_left hsub
    · rw [heq] at hdel
      have hsecond := card_of_delivery hP gid arrivals hnext hrest (by omega)
      rw [hempty, Finset.empty_union] at hsecond
      exact ⟨[f], arrivals, rfl, hcard, hsecond⟩

/-- A group is delivered at most once when no split of the arrivals has `k` of its sequence
numbers on both sides. -/
theorem deliveries_le_one (cfg : FecConfig) (enc dec : FecCodec)
    (henc : FecCodec.create cfg.k cfg.m = .ok enc) (hdec : FecCodec.create cfg.k cfg.m = .ok dec)
    (payloads : List Bytes)
    (hgroups : (acceptedPayloads cfg payloads).length / cfg.numData < 2 ^ 32)
    (arrivals : List Bytes) (hsent : ∀ f ∈ arrivals, f ∈ (enc.encodeAll payloads).1) (gid : UInt32)
    (hsplit : ∀ l₁ l₂, arrivals = l₁ ++ l₂ →
      (groupSeqs gid l₁).card < cfg.numData ∨ (groupSeqs gid l₂).card < cfg.numData) :
    deliveries dec gid arrivals ≤ 1 := by
  obtain rfl : { cfg := cfg } = enc := Except.ok.inj ((create_eq cfg).symm.trans henc)
  obtain rfl : { cfg := cfg } = dec := Except.ok.inj ((create_eq cfg).symm.trans hdec)
  by_contra hmore
  obtain ⟨l₁, l₂, heq, hfirst, hsecond⟩ := split_of_deliveries (groupSent_encodedIn hgroups)
    gid arrivals
    (decoding_create cfg _) (fun f hf => frameOf_encodeAll hgroups (hsent f hf)) (by omega)
  have hempty : heldOf { cfg := cfg } gid = ∅ := rfl
  rw [hempty, Finset.empty_union] at hfirst
  rcases hsplit l₁ l₂ heq with hlt | hlt
  · omega
  · omega

theorem deliveries_le_one_pair :
    deliveries { cfg := pairConfig } 0 [groupFrame pairConfig 0 [[1], [2, 3]] 2,
      groupFrame pairConfig 0 [[1], [2, 3]] 0, groupFrame pairConfig 0 [[1], [2, 3]] 1] ≤ 1 := by
  apply deliveries_le_one pairConfig { cfg := pairConfig } _ (create_eq _) (create_eq _)
    [[1], [2, 3]]
    (by decide)
  · intro f hf
    simp only [List.mem_cons, List.not_mem_nil, or_false] at hf
    rw [mem_encodeAll_group .create rfl rfl (by decide)]
    rcases hf with rfl | rfl | rfl
    · exact ⟨2, by decide, rfl⟩
    · exact ⟨0, by decide, rfl⟩
    · exact ⟨1, by decide, rfl⟩
  · intro l₁ l₂ hsplit
    have hcard : ∀ l : List Bytes, (groupSeqs 0 l).card ≤ l.length := by
      intro l
      refine le_trans (List.toFinset_card_le _) ?_
      rw [List.length_map]
      exact le_trans (List.length_filter_le _ _) (List.length_filterMap_le _ _)
    have hlen := congrArg List.length hsplit
    rw [List.length_append] at hlen
    have h₁ := hcard l₁
    have h₂ := hcard l₂
    have hk : pairConfig.numData = 2 := rfl
    simp only [List.length_cons, List.length_nil] at hlen
    omega

/-- One data packet and one parity packet. -/
def singleConfig : FecConfig := ⟨1, 1, by decide, by decide, by decide⟩

lemma decode_single {P : UInt32 → List Bytes} {c : FecCodec} (h : Decoding singleConfig P c)
    {gid : UInt32} (hP : GroupSent singleConfig (P gid)) {seq : Nat}
    (hadm : Admissible singleConfig (P gid) seq) :
    (c.decode (groupFrame singleConfig gid (P gid) seq)).1 = P gid := by
  obtain ⟨-, -, hout⟩ := decode_spec h hP hadm
  have hempty : heldOf c gid = ∅ := Finset.card_eq_zero.mp (Nat.lt_one_iff.mp (h.short gid))
  rw [hempty] at hout
  generalize (c.decode (groupFrame singleConfig gid (P gid) seq)).1 = res at hout ⊢
  cases hout with
  | duplicate hmem _ => exact absurd hmem (Finset.notMem_empty seq)
  | stored _ hmore _ => exact absurd hmore (by decide)
  | delivered _ _ _ _ => rfl

/-- On a perfect channel the parity frame delivers the group for a second time. -/
theorem perfect_channel_delivers_twice :
    deliveries { cfg := singleConfig } 0 (FecCodec.encodeAll { cfg := singleConfig }
      [[7]]).1 = 2 := by
  have hframes : (FecCodec.encodeAll { cfg := singleConfig } [[7]]).1 =
      [groupFrame singleConfig 0 [[7]] 0, groupFrame singleConfig 0 [[7]] 1] := by
    rw [(encodeAll_spec (sent_create singleConfig) [[7]]).1]
    rfl
  have hP : GroupSent singleConfig [[7]] := ⟨by decide, by decide⟩
  have hadm : ∀ seq, seq < 2 → Admissible singleConfig [[7]] seq := fun seq hseq => .inr ⟨rfl, hseq⟩
  have hfirst := decoding_create singleConfig fun _ => [[7]]
  have hsecond : Decoding singleConfig (fun _ => [[7]])
      (FecCodec.decode { cfg := singleConfig } (groupFrame singleConfig 0 [[7]] 0)).2 :=
    (decode_spec hfirst hP (hadm 0 (by decide))).1
  rw [hframes, deliveries_cons, deliveries_cons, decode_single hfirst hP (hadm 0 (by decide)),
    decode_single hsecond hP (hadm 1 (by decide))]
  rfl

end MeshNetwork.Proofs
