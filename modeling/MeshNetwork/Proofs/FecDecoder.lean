import MeshNetwork.Proofs.FecEncoder
import MeshNetwork.Proofs.FecSlots

/-!
# What the decoder holds

The decoder is described by the sets of sequence numbers it holds. A frame of a group adds its
number to the set of the group, the `k`-th number delivers the payloads of the group and clears
its set, and the sets of the other groups stay or are evicted.
-/

namespace MeshNetwork.Proofs

/-! ## A group in progress -/

/-- What the decoder has stored of the group with the payloads `ps`. -/
structure GroupHolds (cfg : FecConfig) (ps : List Bytes) (g : RecvGroup) : Prop where
  k_eq : g.k = cfg.k
  delivered : g.delivered = false
  slots_length : g.slots.length = cfg.numData + cfg.numRoots
  lens_length : g.dataLens.length = cfg.numData
  content : ∀ i b, g.slots.getD i none = some b → Admissible cfg ps i ∧ b = slotContent cfg ps i
  lens : ∀ i < cfg.numData, ∀ j ∈ heldSeqs g.slots, j = i ∨ cfg.numData ≤ j →
    g.dataLens.getD i 0 = len16 (ps.getD i [])
  received : g.received = (heldSeqs g.slots).card

lemma GroupHolds.admissible {cfg : FecConfig} {ps : List Bytes} {g : RecvGroup}
    (h : GroupHolds cfg ps g) {i : Nat} (hi : i ∈ heldSeqs g.slots) : Admissible cfg ps i := by
  obtain ⟨b, hb⟩ := Option.isSome_iff_exists.mp (mem_heldSeqs.mp hi)
  exact (h.content i b hb).1

/-- A group of which `k` frames have arrived is complete. -/
lemma GroupHolds.complete {cfg : FecConfig} {ps : List Bytes} {g : RecvGroup}
    (h : GroupHolds cfg ps g) (hps : ps.length ≤ cfg.numData)
    (hfull : (heldSeqs g.slots).card = cfg.numData) :
    ps.length = cfg.numData := by
  by_contra hne
  have hsub : heldSeqs g.slots ⊆ Finset.range ps.length := by
    intro i hi
    rcases h.admissible hi with hlt | ⟨heq, -⟩
    · exact Finset.mem_range.mpr hlt
    · exact absurd heq hne
  have hcard := Finset.card_le_card hsub
  rw [Finset.card_range] at hcard
  omega

/-- Among `k` sequence numbers there is a parity number unless every data number is there. -/
lemma exists_data_or_parity {s : Finset Nat} {k : Nat} (hfull : s.card = k) {i : Nat} (hi : i < k) :
    ∃ j ∈ s, j = i ∨ k ≤ j := by
  by_contra! hno
  have hsub : s ⊆ (Finset.range k).erase i := by
    intro j hj
    rw [Finset.mem_erase, Finset.mem_range]
    exact hno j hj
  have hcard := Finset.card_le_card hsub
  rw [Finset.card_erase_of_mem (Finset.mem_range.mpr hi), Finset.card_range] at hcard
  omega

lemma GroupHolds.filled_eq {cfg : FecConfig} {ps : List Bytes} {g : RecvGroup}
    (h : GroupHolds cfg ps g) :
    g.filled = (heldList g.slots).map fun i => (i, slotContent cfg ps i) := by
  unfold RecvGroup.filled
  rw [zipIdx_eq_map, List.filterMap_map]
  exact filterMap_eq_map_filter (fun i => g.slots.getD i none) _ fun i b hb => (h.content i b hb).2

lemma GroupHolds.symbolLen_eq {cfg : FecConfig} {ps : List Bytes} {g : RecvGroup}
    (h : GroupHolds cfg ps g) (hps : GroupSent cfg ps)
    (hfull : (heldSeqs g.slots).card = cfg.numData) :
    maxLen (g.filled.map Prod.snd) = maxLen ps := by
  have hsnd : g.filled.map Prod.snd = (heldList g.slots).map (slotContent cfg ps) := by
    rw [h.filled_eq, List.map_map]
    rfl
  rw [hsnd]
  apply le_antisymm
  · rw [maxLen_le_iff]
    intro d hd
    obtain ⟨i, hi, rfl⟩ := List.mem_map.mp hd
    have hadm := h.admissible (mem_heldSeqs.mpr (mem_heldList.mp hi))
    exact slotContent_length_le cfg ps (hadm.lt hps)
  · rw [maxLen_le_iff]
    intro p hp
    obtain ⟨i, hi, rfl⟩ := List.getElem_of_mem hp
    have hlen := h.complete hps.length_le hfull
    obtain ⟨j, hj, hcase⟩ := exists_data_or_parity hfull (i := i) (by omega)
    have hmem : slotContent cfg ps j ∈ (heldList g.slots).map (slotContent cfg ps) :=
      List.mem_map.mpr ⟨j, mem_heldList.mpr (mem_heldSeqs.mp hj), rfl⟩
    have hlt := (h.admissible hj).lt hps
    refine le_trans ?_ (length_le_maxLen hmem)
    rcases hcase with rfl | hparity
    · rw [slotContent, if_pos (by omega), List.getD_eq_getElem _ _ hi]
    · rw [slotContent, if_neg (by omega), computeParity_length cfg ps (by omega)]
      exact length_le_maxLen hp

lemma take_padTo (L : Nat) (p : Bytes) : (padTo L p).take p.length = p := by
  unfold padTo
  exact List.take_left

/-- A complete group is decoded to its payloads. -/
lemma GroupHolds.recovered {cfg : FecConfig} {ps : List Bytes} {g : RecvGroup}
    (h : GroupHolds cfg ps g) (hps : GroupSent cfg ps)
    (hfull : (heldSeqs g.slots).card = cfg.numData) :
    gaussDecode cfg ((g.filled.take cfg.numData).map Prod.fst)
      ((g.filled.take cfg.numData).map fun s => padTo (maxLen ps) s.2) (maxLen ps) =
        ps.map (padTo (maxLen ps)) := by
  have hlen : (heldList g.slots).length = cfg.numData := by rw [← card_heldSeqs, hfull]
  have htake : g.filled.take cfg.numData = (heldList g.slots).map fun i =>
      (i, slotContent cfg ps i) := by
    rw [h.filled_eq, List.take_of_length_le (by rw [List.length_map, hlen])]
  have hlt : ∀ i ∈ heldList g.slots, i < cfg.numData + cfg.numRoots := by
    intro i hi
    exact (h.admissible (mem_heldSeqs.mpr (mem_heldList.mp hi))).lt hps
  have hgauss :=
    gaussDecode_slots cfg (h.complete hps.length_le hfull) hlen hlt (heldList_nodup g.slots)
  rw [htake, List.map_map, List.map_map]
  rw [show (heldList g.slots).map (Prod.fst ∘ fun i => (i, slotContent cfg ps i)) =
    heldList g.slots from
    List.map_id _]
  exact hgauss

lemma GroupHolds.truncate {cfg : FecConfig} {ps : List Bytes} {g : RecvGroup}
    (h : GroupHolds cfg ps g) (hps : GroupSent cfg ps)
    (hfull : (heldSeqs g.slots).card = cfg.numData) :
    ((List.range cfg.numData).map fun i => ((ps.map (padTo (maxLen ps))).getD i []).take
      (min (g.dataLens.getD i 0).toNat ((ps.map (padTo (maxLen ps))).getD i []).length)) = ps := by
  have hlen := h.complete hps.length_le hfull
  apply List.ext_getElem
  · rw [List.length_map, List.length_range, hlen]
  · intro i _ hi
    have hrow : (ps.map (padTo (maxLen ps))).getD i [] = padTo (maxLen ps) ps[i] := by
      rw [List.getD_eq_getElem _ _ (by rwa [List.length_map]), List.getElem_map]
    have hle : ps[i].length ≤ maxLen ps := length_le_maxLen (List.getElem_mem hi)
    have hmax := hps.accepted ps[i] (List.getElem_mem hi)
    unfold maxPayloadLen at hmax
    obtain ⟨j, hj, hcase⟩ := exists_data_or_parity hfull (i := i) (by omega)
    have hannounced : (g.dataLens.getD i 0).toNat = ps[i].length := by
      rw [h.lens i (by omega) j hj hcase, List.getD_eq_getElem _ _ hi, len16_toNat (by omega)]
    rw [List.getElem_map, List.getElem_range, hrow, hannounced, padTo_length hle, min_eq_left hle,
      take_padTo]

lemma tryDeliver_short {cfg : FecConfig} {c : FecCodec} {gid : UInt32} {g : RecvGroup}
    (hg : c.recvGroups.lookup gid = some g) (hk : g.k = cfg.k) (hshort : g.received < cfg.numData) :
    c.tryDeliver gid = ([], c) := by
  have hlt : g.received < g.k.toNat := by
    rw [hk]
    exact hshort
  unfold FecCodec.tryDeliver
  rw [hg]
  simp only [hlt, decide_true, Bool.or_true, if_true]

lemma tryDeliver_full {cfg : FecConfig} {ps : List Bytes} {c : FecCodec} {gid : UInt32}
    {g : RecvGroup} (hc : c.cfg = cfg) (hg : c.recvGroups.lookup gid = some g)
    (h : GroupHolds cfg ps g) (hps : GroupSent cfg ps)
    (hfull : (heldSeqs g.slots).card = cfg.numData) :
    c.tryDeliver gid = (ps, { c with recvGroups := c.recvGroups.erase gid }) := by
  have hk : g.k.toNat = cfg.numData := by
    rw [h.k_eq]
    rfl
  have hge : ¬g.received < cfg.numData := by
    rw [h.received, hfull]
    exact lt_irrefl _
  have hne : (ps.map (padTo (maxLen ps))).isEmpty = false := by
    have hlen := h.complete hps.length_le hfull
    have hpos := numData_pos cfg
    cases ps with
    | nil => rw [← hlen] at hpos; exact absurd hpos (lt_irrefl 0)
    | cons p ps => rfl
  unfold FecCodec.tryDeliver
  rw [hg]
  simp only [h.delivered, hk, hge, decide_false, Bool.or_false, Bool.false_eq_true, if_false,
    h.symbolLen_eq hps hfull, hc, h.recovered hps hfull, hne, h.truncate hps hfull]

/-! ## Storing a frame -/

/-- The group after the frame with sequence number `seq` has been stored. -/
def storedGroup (cfg : FecConfig) (ps : List Bytes) (seq : Nat) (g : RecvGroup) : RecvGroup :=
  { g with
    dataLens := if cfg.numData ≤ seq then g.dataLens.mapIdx fun i len =>
      if i < cfg.numData then len16 (ps.getD i []) else len
        else g.dataLens.set seq (len16 (ps.getD seq []))
    slots := g.slots.set seq (some (slotContent cfg ps seq))
    received := g.received + 1 }

lemma storedGroup_dataLens {cfg : FecConfig} {ps : List Bytes} {seq : Nat} {g : RecvGroup}
    (hlens : g.dataLens.length = cfg.numData) {i : Nat} (hi : i < cfg.numData) :
    (storedGroup cfg ps seq g).dataLens.getD i 0 =
      if seq = i ∨ cfg.numData ≤ seq then len16 (ps.getD i []) else g.dataLens.getD i 0 := by
  unfold storedGroup
  dsimp only
  by_cases hparity : cfg.numData ≤ seq
  · rw [if_pos hparity, if_pos (.inr hparity), List.getD_mapIdx _ (by omega) 0, if_pos hi]
  · rw [if_neg hparity, List.getD_eq_getElem?_getD, List.getElem?_set]
    by_cases hsi : seq = i
    · subst hsi
      rw [if_pos rfl, if_pos (by omega), if_pos (.inl rfl)]
      rfl
    · rw [if_neg hsi, if_neg (by tauto), List.getD_eq_getElem?_getD]

lemma storedGroup_holds {cfg : FecConfig} {ps : List Bytes} {seq : Nat} {g : RecvGroup}
    (h : GroupHolds cfg ps g) (hps : GroupSent cfg ps) (hadm : Admissible cfg ps seq)
    (hnew : seq ∉ heldSeqs g.slots) :
    GroupHolds cfg ps (storedGroup cfg ps seq g) ∧
      heldSeqs (storedGroup cfg ps seq g).slots = insert seq (heldSeqs g.slots) := by
  have hlt := hadm.lt hps
  have hheld : heldSeqs (storedGroup cfg ps seq g).slots = insert seq (heldSeqs g.slots) :=
    heldSeqs_set (by rw [h.slots_length]; exact hlt) _
  refine ⟨⟨h.k_eq, h.delivered, ?_, ?_, ?_, ?_, ?_⟩, hheld⟩
  · unfold storedGroup
    rw [List.length_set, h.slots_length]
  · unfold storedGroup
    dsimp only
    split_ifs
    · rw [List.length_mapIdx, h.lens_length]
    · rw [List.length_set, h.lens_length]
  · intro i b hb
    unfold storedGroup at hb
    rw [List.getD_eq_getElem?_getD, List.getElem?_set] at hb
    by_cases hsi : seq = i
    · subst hsi
      rw [if_pos rfl, if_pos (by rw [h.slots_length]; exact hlt)] at hb
      exact ⟨hadm, (Option.some.inj hb).symm⟩
    · rw [if_neg hsi, ← List.getD_eq_getElem?_getD] at hb
      exact h.content i b hb
  · intro i hi j hj hcase
    rw [storedGroup_dataLens h.lens_length hi]
    by_cases hsi : seq = i ∨ cfg.numData ≤ seq
    · rw [if_pos hsi]
    · rw [if_neg hsi]
      rw [hheld, Finset.mem_insert] at hj
      rcases hj with rfl | hj
      · exact absurd hcase hsi
      · exact h.lens i hi j hj hcase
  · rw [hheld, Finset.card_insert_of_notMem hnew, ← h.received]
    rfl

lemma manifestLen_framePayload {cfg : FecConfig} {ps : List Bytes} {seq : Nat}
    (hparity : cfg.numData ≤ seq) (hlen : ps.length = cfg.numData) {i : Nat}
    (hi : i < cfg.numData) :
    manifestLen (framePayload cfg ps seq) i = len16 (ps.getD i []) := by
  rw [framePayload, if_neg (by omega), manifestLen_append _ _ (by rw [List.length_map]; omega),
    List.getD_eq_getElem _ _ (by rw [List.length_map]; omega), List.getElem_map,
    List.getD_eq_getElem _ _ (by omega)]

lemma drop_framePayload {cfg : FecConfig} {ps : List Bytes} {seq : Nat}
    (hparity : cfg.numData ≤ seq) (hlen : ps.length = cfg.numData) :
    (framePayload cfg ps seq).drop (2 * cfg.numData) = slotContent cfg ps seq := by
  have hmanifest : (lengthManifest (ps.map len16)).length = 2 * cfg.numData := by
    rw [lengthManifest_length, List.length_map, hlen]
  rw [framePayload, if_neg (by omega), ← hmanifest, List.drop_left]

section StoreFrame

variable {cfg : FecConfig} {ps : List Bytes} {seq : Nat} {g : RecvGroup} (h : GroupHolds cfg ps g)
  (hps : GroupSent cfg ps) (hadm : Admissible cfg ps seq) (c : FecCodec) (gid : UInt32)
include hps hadm

/-- The frames of an encoder pass all checks on the header. -/
lemma admitted_groupFrame :
    admitted cfg (groupFrame cfg gid ps seq) = some (frameHeader cfg gid ps seq) ∧
      announced (groupFrame cfg gid ps seq) (frameHeader cfg gid ps seq) =
        framePayload cfg ps seq := by
  have hlt := hadm.lt hps
  have hlen := frameHeader_dataLen hps.length_le hps.accepted hlt gid
  constructor
  · refine admitted_eq_some.mpr ⟨parseHeader_groupFrame .., rfl, rfl, ?_, ?_⟩
    · rw [frameHeader_seq (hadm.lt hps) gid ps]
      exact hlt
    · unfold groupFrame
      rw [hlen, List.length_append, makeHeader_length]
  · unfold announced groupFrame
    rw [hlen, ← makeHeader_length, List.drop_left, List.take_length]

lemma parity_complete (hparity : cfg.numData ≤ seq) : ps.length = cfg.numData := by
  have hle := hps.length_le
  rcases hadm with hlt | ⟨heq, -⟩
  · omega
  · exact heq

lemma not_shortParity : ¬ShortParity cfg (frameHeader cfg gid ps seq) := by
  rintro ⟨hparity, hshort⟩
  rw [frameHeader_seq (hadm.lt hps) gid ps] at hparity
  have hlen := frameHeader_dataLen hps.length_le hps.accepted (hadm.lt hps) gid
  rw [hlen, framePayload, if_neg (by omega), List.length_append, lengthManifest_length,
    List.length_map, parity_complete hps hadm hparity] at hshort
  omega

lemma fillSlot_groupFrame :
    fillSlot (frameHeader cfg gid ps seq) (framePayload cfg ps seq) g =
      storedGroup cfg ps seq g := by
  have hseq := frameHeader_seq (hadm.lt hps) gid ps
  have hk : (frameHeader cfg gid ps seq).numData.toNat = cfg.numData := rfl
  have hside : (frameHeader cfg gid ps seq).seq ≥ (frameHeader cfg gid ps seq).numData ↔
      cfg.numData ≤ seq := by
    rw [ge_iff_le, UInt8.le_iff_toNat_le, hseq, hk]
  unfold fillSlot storedGroup
  rw [hseq, hk]
  by_cases hparity : cfg.numData ≤ seq
  · have hlen := parity_complete hps hadm hparity
    have hlens : (g.dataLens.mapIdx fun i len =>
        if i < cfg.numData then manifestLen (framePayload cfg ps seq) i else len) =
        g.dataLens.mapIdx fun i len => if i < cfg.numData then len16 (ps.getD i []) else len := by
      congr 1
      funext i len
      by_cases hi : i < cfg.numData
      · rw [if_pos hi, if_pos hi, manifestLen_framePayload hparity hlen hi]
      · rw [if_neg hi, if_neg hi]
    rw [if_pos (hside.mpr hparity), hlens, drop_framePayload hparity hlen, if_pos hparity]
  · have hpay : framePayload cfg ps seq = slotContent cfg ps seq := by
      rw [framePayload, if_pos (by omega)]
    have hlen : (frameHeader cfg gid ps seq).dataLen = len16 (ps.getD seq []) := by
      rw [frameHeader, hpay, slotContent, if_pos (by omega)]
    rw [if_neg (fun hge => hparity (hside.mp hge)), if_neg hparity, hlen, hpay]

include h

/-- A frame whose slot is filled is dropped, and any other one is stored before the group is
tried. -/
lemma storeFrame_groupFrame :
    (seq ∈ heldSeqs g.slots →
      c.storeFrame g (frameHeader cfg gid ps seq) (framePayload cfg ps seq) = ([], c)) ∧
    (seq ∉ heldSeqs g.slots → c.storeFrame g (frameHeader cfg gid ps seq)
      (framePayload cfg ps seq) =
      FecCodec.tryDeliver
        { c with recvGroups := c.recvGroups.insert gid (storedGroup cfg ps seq g) } gid) := by
  obtain ⟨hadmitted, hannounced⟩ := admitted_groupFrame hps hadm gid
  obtain ⟨hdrop, hstore⟩ := storeFrame_eq hadmitted h.slots_length c
  rw [hannounced, frameHeader_seq (hadm.lt hps) gid ps] at hdrop hstore
  rw [fillSlot_groupFrame hps hadm gid] at hstore
  exact ⟨fun hdup => hdrop (.inl hdup), fun hnew => hstore hnew (not_shortParity hps hadm gid)⟩

end StoreFrame

/-! ## Opening a group -/

/-- Eviction spares the group that is being opened. -/
lemma lookup_evictStale (gid : UInt32) (order : List UInt32) (groups : UMap UInt32 RecvGroup) :
    (evictStale gid order groups).2.lookup gid = groups.lookup gid ∧
      ∀ g, (evictStale gid order groups).2.lookup g = groups.lookup g ∨
        (evictStale gid order groups).2.lookup g = none := by
  induction order generalizing groups with
  | nil => exact ⟨rfl, fun g => .inl rfl⟩
  | cons stale rest ih =>
    unfold evictStale
    by_cases hlong : (stale :: rest).length > kMaxReceiveGroups
    · rw [if_pos hlong]
      by_cases hstale : stale = gid
      · rw [if_neg (not_not.mpr hstale)]
        exact ih groups
      · rw [if_pos hstale]
        obtain ⟨hself, hother⟩ := ih (groups.erase stale)
        refine ⟨?_, fun g => ?_⟩
        · rw [hself, UMap.lookup_erase_eq, if_neg (Ne.symm hstale)]
        · rcases hother g with heq | hnone
          · rw [UMap.lookup_erase_eq] at heq
            by_cases hg : g = stale
            · rw [if_pos hg] at heq
              exact .inr heq
            · rw [if_neg hg] at heq
              exact .inl heq
          · exact .inr hnone
    · rw [if_neg hlong]
      exact ⟨rfl, fun g => .inl rfl⟩

/-- The groups other than `gid` are kept or evicted. -/
def OthersKept (gid : UInt32) (c c' : FecCodec) : Prop :=
  ∀ g, g ≠ gid → c'.recvGroups.lookup g = c.recvGroups.lookup g ∨ c'.recvGroups.lookup g = none

lemma OthersKept.insert {gid : UInt32} {c c' : FecCodec} (h : OthersKept gid c c')
    (group : RecvGroup) :
    OthersKept gid c { c' with recvGroups := c'.recvGroups.insert gid group } := by
  intro g hg
  dsimp only
  rw [UMap.lookup_insert_eq, if_neg hg]
  exact h g hg

lemma OthersKept.erase {gid : UInt32} {c c' : FecCodec} (h : OthersKept gid c c') :
    OthersKept gid c { c' with recvGroups := c'.recvGroups.erase gid } := by
  intro g hg
  dsimp only
  rw [UMap.lookup_erase_eq, if_neg hg]
  exact h g hg

/-- A group that has just been opened. -/
def freshGroup (cfg : FecConfig) : RecvGroup :=
  { k := cfg.k, m := cfg.m, slots := List.replicate (cfg.numData + cfg.numRoots) none,
    dataLens := List.replicate cfg.numData 0 }

lemma freshGroup_holds (cfg : FecConfig) (ps : List Bytes) :
    GroupHolds cfg ps (freshGroup cfg) := by
  refine ⟨rfl, rfl, List.length_replicate, List.length_replicate, ?_, ?_, ?_⟩
  · intro i b hb
    unfold freshGroup at hb
    rw [List.getD_eq_getElem?_getD, List.getElem?_getD_replicate_default_eq] at hb
    exact absurd hb (by simp)
  · intro i _ j hj
    unfold freshGroup at hj
    rw [heldSeqs_replicate] at hj
    exact absurd hj (Finset.notMem_empty j)
  · unfold freshGroup
    rw [heldSeqs_replicate]
    rfl

/-- The sequence numbers that the decoder holds of a group. -/
def heldOf (c : FecCodec) (gid : UInt32) : Finset Nat :=
  ((c.recvGroups.lookup gid).map fun g => heldSeqs g.slots).getD ∅

/-- The receive side holds parts of groups with the payloads `P gid`, none of them complete. -/
structure Decoding (cfg : FecConfig) (P : UInt32 → List Bytes) (c : FecCodec) : Prop where
  cfg_eq : c.cfg = cfg
  holds : ∀ gid g, c.recvGroups.lookup gid = some g → GroupHolds cfg (P gid) g
  short : ∀ gid, (heldOf c gid).card < cfg.numData

/-- The receive side holds a part of group `gid`, with the payloads `ps`, or nothing of it. -/
structure HoldsPart (cfg : FecConfig) (gid : UInt32) (ps : List Bytes) (c : FecCodec) : Prop where
  cfg_eq : c.cfg = cfg
  holds : ∀ g, c.recvGroups.lookup gid = some g → GroupHolds cfg ps g
  short : (heldOf c gid).card < cfg.numData

lemma Decoding.part {cfg : FecConfig} {P : UInt32 → List Bytes} {c : FecCodec}
    (h : Decoding cfg P c) (gid : UInt32) : HoldsPart cfg gid (P gid) c :=
  ⟨h.cfg_eq, h.holds gid, h.short gid⟩

/-- A group that is not held is opened empty. -/
lemma openGroup_fresh (cfg : FecConfig) (c : FecCodec) {hdr : FecHeader} (hk : hdr.numData = cfg.k)
    (hm : hdr.numRoots = cfg.m) : c.openGroup hdr {} =
      (FecCodec.rememberReceiveGroup
        { c with recvGroups := c.recvGroups.insert hdr.groupId (freshGroup cfg) }
        hdr.groupId, freshGroup cfg) := by
  unfold FecCodec.openGroup freshGroup
  rw [if_pos (show (({} : RecvGroup).k == 0) = true from rfl), hk, hm]
  simp only [resizeList, List.take_nil, List.length_nil, Nat.sub_zero, List.nil_append]
  rfl

lemma openGroup_held (cfg : FecConfig) (c : FecCodec) (hdr : FecHeader) {group : RecvGroup}
    (hk : group.k = cfg.k) : c.openGroup hdr group = (c, group) := by
  have hknz : (cfg.k == 0) = false := by
    rw [beq_eq_false_iff_ne]
    intro hzero
    have hpos := cfg.one_le_k
    rw [hzero] at hpos
    exact absurd hpos (by decide)
  unfold FecCodec.openGroup
  rw [hk, hknz, if_neg (by decide)]

/-- The group that a frame with header group `gid` is stored in, and the codec around it. -/
lemma openGroup_spec {cfg : FecConfig} {ps : List Bytes} {c : FecCodec} (hdr : FecHeader)
    (h : HoldsPart cfg hdr.groupId ps c) (hk : hdr.numData = cfg.k) (hm : hdr.numRoots = cfg.m) :
    let group := (c.recvGroups.lookup hdr.groupId).getD {}
    let s :=
      FecCodec.openGroup { c with recvGroups := c.recvGroups.insert hdr.groupId group } hdr group
    group.delivered = false ∧ s.1.cfg = cfg ∧ GroupHolds cfg ps s.2 ∧
      heldSeqs s.2.slots = heldOf c hdr.groupId ∧ s.1.recvGroups.lookup hdr.groupId = some s.2 ∧
      OthersKept hdr.groupId c s.1 := by
  have hrefl : OthersKept hdr.groupId c c := fun g _ => .inl rfl
  cases hl : c.recvGroups.lookup hdr.groupId with
  | none =>
    have hheld : heldOf c hdr.groupId = ∅ := by
      rw [heldOf, hl]
      rfl
    have hkept := (hrefl.insert {}).insert (freshGroup cfg)
    obtain ⟨hself, hother⟩ := lookup_evictStale hdr.groupId (c.recvGroupOrder ++ [hdr.groupId])
      ((c.recvGroups.insert hdr.groupId {}).insert hdr.groupId (freshGroup cfg))
    dsimp only
    rw [Option.getD_none, openGroup_fresh cfg _ hk hm, hheld]
    refine ⟨rfl, h.cfg_eq, freshGroup_holds cfg _, heldSeqs_replicate _, ?_, ?_⟩
    · exact hself.trans (AList.lookup_insert _)
    · intro g hg
      rcases hother g with heq | hnone
      · unfold FecCodec.rememberReceiveGroup
        dsimp only
        rw [heq]
        exact hkept g hg
      · exact .inr hnone
  | some group =>
    have hgroup := h.holds group hl
    have hheld : heldOf c hdr.groupId = heldSeqs group.slots := by
      rw [heldOf, hl]
      rfl
    dsimp only
    rw [Option.getD_some, openGroup_held cfg _ hdr hgroup.k_eq, hheld]
    exact ⟨hgroup.delivered, h.cfg_eq, hgroup, rfl, AList.lookup_insert _, hrefl.insert group⟩

/-! ## One frame -/

lemma decode_groupFrame {cfg : FecConfig} {gid : UInt32} {ps : List Bytes} {c : FecCodec}
    (h : HoldsPart cfg gid ps c) (hsent : GroupSent cfg ps) {seq : Nat}
    (hadm : Admissible cfg ps seq) :
    let hdr := frameHeader cfg gid ps seq
    let group := (c.recvGroups.lookup gid).getD {}
    let s := FecCodec.openGroup { c with recvGroups := c.recvGroups.insert gid group } hdr group
    c.decode (groupFrame cfg gid ps seq) = s.1.storeFrame s.2 hdr (framePayload cfg ps seq) := by
  obtain ⟨hadmitted, hannounced⟩ := admitted_groupFrame hsent hadm gid
  have hopened := (openGroup_spec (frameHeader cfg gid ps seq) h rfl rfl).1
  have hdecode := decode_admitted h.cfg_eq hadmitted hopened
  rw [hannounced] at hdecode
  exact hdecode

/-- The outcome of one frame at a decoder that holds the numbers `before` of its group. -/
inductive FrameOutcome (cfg : FecConfig) (payloads : List Bytes) (seq : Nat)
    (before after : Finset Nat) :
    List Bytes → Prop
  | duplicate : seq ∈ before → after = before → FrameOutcome cfg payloads seq before after []
  | stored : seq ∉ before → before.card + 1 < cfg.numData → after = insert seq before →
      FrameOutcome cfg payloads seq before after []
  | delivered : seq ∉ before → before.card + 1 = cfg.numData → payloads.length = cfg.numData →
      after = ∅ → FrameOutcome cfg payloads seq before after payloads

lemma heldOf_eq {c : FecCodec} {gid : UInt32} {g : RecvGroup}
    (h : c.recvGroups.lookup gid = some g) :
    heldOf c gid = heldSeqs g.slots := by
  rw [heldOf, h]
  rfl

lemma heldOf_none {c : FecCodec} {gid : UInt32} (h : c.recvGroups.lookup gid = none) :
    heldOf c gid = ∅ := by
  rw [heldOf, h]
  rfl

lemma OthersKept.heldOf {gid : UInt32} {c c' : FecCodec} (h : OthersKept gid c c') {g : UInt32}
    (hg : g ≠ gid) : heldOf c' g = heldOf c g ∨ heldOf c' g = ∅ := by
  rcases h g hg with heq | hnone
  · left
    unfold Proofs.heldOf
    rw [heq]
  · exact .inr (heldOf_none hnone)

/-- The invariant carries over to a codec whose group `gid` is right. -/
lemma Decoding.update {cfg : FecConfig} {P : UInt32 → List Bytes} {c c' : FecCodec}
    (h : Decoding cfg P c) {gid : UInt32} (hkept : OthersKept gid c c')
    (hself : HoldsPart cfg gid (P gid) c') :
    Decoding cfg P c' := by
  refine ⟨hself.cfg_eq, fun gid' g hg => ?_, fun gid' => ?_⟩
  · by_cases hgid : gid' = gid
    · subst hgid
      exact hself.holds g hg
    · rcases hkept gid' hgid with heq | hnone
      · exact h.holds gid' g (heq ▸ hg)
      · rw [hnone] at hg
        exact absurd hg (by simp)
  · by_cases hgid : gid' = gid
    · subst hgid
      exact hself.short
    · rcases hkept.heldOf hgid with heq | hempty
      · rw [heq]
        exact h.short gid'
      · rw [hempty]
        exact numData_pos cfg

/-- What one frame of the encoder does to a decoder, whatever this holds of other groups. -/
lemma HoldsPart.decode {cfg : FecConfig} {gid : UInt32} {ps : List Bytes} {c : FecCodec}
    (h : HoldsPart cfg gid ps c) (hsent : GroupSent cfg ps) {seq : Nat}
    (hadm : Admissible cfg ps seq) :
    HoldsPart cfg gid ps (c.decode (groupFrame cfg gid ps seq)).2 ∧
      OthersKept gid c (c.decode (groupFrame cfg gid ps seq)).2 ∧
      FrameOutcome cfg ps seq (heldOf c gid) (heldOf (c.decode (groupFrame cfg gid ps seq)).2 gid)
        (c.decode (groupFrame cfg gid ps seq)).1 := by
  have hdecode := decode_groupFrame h hsent hadm
  obtain ⟨-, hcfg, hgroup, hheld, hlookup, hkept⟩ :=
    openGroup_spec (frameHeader cfg gid ps seq) h rfl rfl
  have hgid : (frameHeader cfg gid ps seq).groupId = gid := rfl
  have hshort := h.short
  rw [hgid] at hcfg hgroup hheld hlookup hkept
  dsimp only at hdecode
  rw [hdecode]
  generalize FecCodec.openGroup _ (frameHeader cfg gid ps seq) _ =
    s at hcfg hgroup hheld hlookup hkept ⊢
  obtain ⟨hdrop, hstore⟩ := storeFrame_groupFrame hgroup hsent hadm s.1 gid
  by_cases hdup : seq ∈ heldSeqs s.2.slots
  · have hs : heldOf s.1 gid = heldOf c gid := (heldOf_eq hlookup).trans hheld
    rw [hdrop hdup]
    refine ⟨⟨hcfg, fun g hg => ?_, hs ▸ hshort⟩, hkept, .duplicate (hheld ▸ hdup) hs⟩
    rw [hlookup] at hg
    exact Option.some.inj hg ▸ hgroup
  · obtain ⟨hstored, hinsert⟩ := storedGroup_holds hgroup hsent hadm hdup
    have hnew : seq ∉ heldOf c gid := hheld ▸ hdup
    have hcard : (heldSeqs (storedGroup cfg ps seq s.2).slots).card = (heldOf c gid).card + 1 := by
      rw [hinsert, hheld, Finset.card_insert_of_notMem hnew]
    obtain ⟨c₁, hc₁⟩ : ∃ c₁, c₁ = { s.1 with
      recvGroups := s.1.recvGroups.insert gid (storedGroup cfg ps seq s.2) } := ⟨_, rfl⟩
    have hcfg₁ : c₁.cfg = cfg := by
      rw [hc₁]
      exact hcfg
    have hput : c₁.recvGroups.lookup gid = some (storedGroup cfg ps seq s.2) := by
      rw [hc₁]
      exact AList.lookup_insert _
    have hs : OthersKept gid c c₁ := by
      rw [hc₁]
      exact hkept.insert _
    rw [hstore hdup, ← hc₁]
    by_cases hlast : (heldOf c gid).card + 1 = cfg.numData
    · rw [tryDeliver_full hcfg₁ hput hstored hsent (hcard.trans hlast)]
      have hgone : (c₁.recvGroups.erase gid).lookup gid = none := AList.lookup_erase _ _
      refine ⟨⟨hcfg₁, fun g hg => ?_, ?_⟩, hs.erase, .delivered hnew hlast ?_ (heldOf_none hgone)⟩
      · rw [hgone] at hg
        exact absurd hg (by simp)
      · rw [heldOf_none hgone]
        exact numData_pos cfg
      · exact hstored.complete hsent.length_le (hcard.trans hlast)
    · have hfew : (storedGroup cfg ps seq s.2).received < cfg.numData := by
        rw [hstored.received]
        omega
      rw [tryDeliver_short hput hstored.k_eq hfew]
      have hafter := (heldOf_eq hput).trans hinsert
      refine ⟨⟨hcfg₁, fun g hg => ?_, ?_⟩, hs, .stored hnew (by omega) (hheld ▸ hafter)⟩
      · rw [hput] at hg
        exact Option.some.inj hg ▸ hstored
      · rw [heldOf_eq hput]
        omega

/-- What one frame of the encoder does to a decoder. -/
theorem decode_spec {cfg : FecConfig} {P : UInt32 → List Bytes} {c : FecCodec}
    (h : Decoding cfg P c) {gid : UInt32} (hP : GroupSent cfg (P gid)) {seq : Nat}
    (hadm : Admissible cfg (P gid) seq) :
    Decoding cfg P (c.decode (groupFrame cfg gid (P gid) seq)).2 ∧
      OthersKept gid c (c.decode (groupFrame cfg gid (P gid) seq)).2 ∧
      FrameOutcome cfg (P gid) seq (heldOf c gid)
        (heldOf (c.decode (groupFrame cfg gid (P gid) seq)).2 gid)
        (c.decode (groupFrame cfg gid (P gid) seq)).1 := by
  obtain ⟨hpart, hkept, hout⟩ := (h.part gid).decode hP hadm
  exact ⟨h.update hkept hpart, hkept, hout⟩

end MeshNetwork.Proofs
