import MeshNetwork.Library.BigEndian
import MeshNetwork.Proofs.GaussDecode
import Mathlib.Tactic.Linarith

/-!
# Frames of a group

The frame of a group with a given sequence number, what its header parses to, what its payload
carries, and which frames the encoder emits.
-/

namespace MeshNetwork.Proofs

open BigEndian

/-! ## Headers -/

lemma makeHeader_length (h : FecHeader) : (makeHeader h).length = kHeaderSize := rfl

/-- A frame parses to the header it was made with. -/
theorem parseHeader_makeHeader (h : FecHeader) (payload : Bytes) :
    parseHeader (makeHeader h ++ payload) = some h := by
  have hlen : ¬(makeHeader h ++ payload).length < kHeaderSize := by
    rw [List.length_append, makeHeader_length]
    omega
  have hfec : isFecFrame (makeHeader h ++ payload) = true := by
    simp [isFecFrame, makeHeader, kHeaderSize]
  unfold parseHeader
  rw [if_neg hlen, hfec]
  obtain ⟨groupId, seq, numData, numRoots, dataLen⟩ := h
  simp only [makeHeader, List.cons_append, List.nil_append, List.getD_cons_succ,
    List.getD_cons_zero, uint32_of_bytes, uint16_of_bytes]
  rfl

/-! ## The length manifest -/

lemma lengthManifest_cons (len : UInt16) (lens : List UInt16) :
    lengthManifest (len :: lens) = ((len >>> 8) &&& 0xFF).toUInt8 :: (len &&& 0xFF).toUInt8 ::
      lengthManifest lens := rfl

lemma lengthManifest_length (lens : List UInt16) :
    (lengthManifest lens).length = 2 * lens.length := by
  induction lens with
  | nil => rfl
  | cons len lens ih =>
    rw [lengthManifest_cons, List.length_cons, List.length_cons, ih, List.length_cons]
    omega

/-- The decoder reads back the lengths that the encoder wrote. -/
lemma manifestLen_append (lens : List UInt16) (row : Bytes) {i : Nat} (hi : i < lens.length) :
    manifestLen (lengthManifest lens ++ row) i = lens.getD i 0 := by
  induction lens generalizing i with
  | nil => exact absurd hi (Nat.not_lt_zero i)
  | cons len lens ih =>
    cases i with
    | zero =>
      unfold manifestLen
      rw [lengthManifest_cons]
      exact uint16_of_bytes len
    | succ i =>
      have hrec := ih (i := i) (by simpa using hi)
      unfold manifestLen at hrec ⊢
      rw [lengthManifest_cons, List.cons_append, List.cons_append,
        show 2 * (i + 1) = 2 * i + 1 + 1 by omega]
      simp only [List.getD_cons_succ]
      exact hrec

/-! ## Contents of the slots -/

lemma foldl_max_le_iff (data : List Bytes) (a n : Nat) :
    data.foldl (fun acc d => max acc d.length) a ≤ n ↔ a ≤ n ∧ ∀ d ∈ data, d.length ≤ n := by
  induction data generalizing a with
  | nil => simp
  | cons d data ih =>
    rw [List.foldl_cons, ih]
    simp only [List.mem_cons, forall_eq_or_imp, sup_le_iff, and_assoc]

lemma maxLen_le_iff (data : List Bytes) (n : Nat) : maxLen data ≤ n ↔ ∀ d ∈ data, d.length ≤ n := by
  unfold maxLen
  rw [foldl_max_le_iff]
  simp

lemma length_le_maxLen {data : List Bytes} {d : Bytes} (h : d ∈ data) : d.length ≤ maxLen data :=
  (maxLen_le_iff data _).mp le_rfl d h

lemma getD_length_le_maxLen (data : List Bytes) (i : Nat) :
    (data.getD i []).length ≤ maxLen data := by
  by_cases hi : i < data.length
  · rw [List.getD_eq_getElem _ _ hi]
    exact length_le_maxLen (List.getElem_mem hi)
  · rw [List.getD_eq_default _ _ (by omega)]
    exact Nat.zero_le _

/-- Accumulating one data packet into a parity row. -/
def addPacket (cfg : FecConfig) (data : List Bytes) (j : Nat) (row : Bytes) (i : Nat) : Bytes :=
  row.mapIdx fun b v => v ^^^ gfMul (((buildEncMatrix cfg).getD j []).getD i 0)
    ((data.getD i []).getD b 0)

lemma addPacket_fold (cfg : FecConfig) (data : List Bytes) (j L n : Nat) :
    ((List.range n).foldl (addPacket cfg data j) (List.replicate L 0)).length = L ∧
      ∀ b < L, (⟨((List.range n).foldl (addPacket cfg data j) (List.replicate L 0)).getD b
        0⟩ : GF256) =
        ∑ i ∈ Finset.range n, ⟨((buildEncMatrix cfg).getD j []).getD i 0⟩ *
          ⟨(data.getD i []).getD b 0⟩ := by
  induction n with
  | zero =>
    refine ⟨List.length_replicate, fun b hb => ?_⟩
    rw [List.range_zero, List.foldl_nil, List.getD_replicate _ hb, Finset.range_zero,
      Finset.sum_empty]
    rfl
  | succ n ih =>
    obtain ⟨hlen, hsum⟩ := ih
    rw [List.range_succ, List.foldl_append, List.foldl_cons, List.foldl_nil]
    refine ⟨by rw [addPacket, List.length_mapIdx, hlen], fun b hb => ?_⟩
    rw [addPacket, List.getD_mapIdx _ (by rw [hlen]; exact hb) 0, GF256.mk_xor, GF256.mk_gfMul,
      hsum b hb, Finset.sum_range_succ]

lemma computeParity_getD (cfg : FecConfig) (data : List Bytes) {j : Nat} (hj : j < cfg.numRoots) :
    (computeParity cfg data).getD j [] =
      (List.range cfg.numData).foldl (addPacket cfg data j) (List.replicate (maxLen data) 0) := by
  unfold computeParity
  rw [List.getD_eq_getElem _ _ (by rwa [List.length_map, List.length_range]), List.getElem_map,
    List.getElem_range]
  rfl

lemma computeParity_length (cfg : FecConfig) (data : List Bytes) {j : Nat} (hj : j < cfg.numRoots) :
    ((computeParity cfg data).getD j []).length = maxLen data := by
  rw [computeParity_getD cfg data hj]
  exact (addPacket_fold cfg data j _ _).1

/-- What the decoder keeps of the frame with sequence number `seq` of a group. -/
def slotContent (cfg : FecConfig) (payloads : List Bytes) (seq : Nat) : Bytes :=
  if seq < cfg.numData then payloads.getD seq []
    else (computeParity cfg payloads).getD (seq - cfg.numData) []

lemma slotContent_length_le (cfg : FecConfig) (payloads : List Bytes) {seq : Nat}
    (hseq : seq < cfg.numData + cfg.numRoots) :
    (slotContent cfg payloads seq).length ≤ maxLen payloads := by
  unfold slotContent
  split_ifs with h
  · exact getD_length_le_maxLen payloads seq
  · exact (computeParity_length cfg payloads (by omega)).le

lemma getD_padTo (L : Nat) (s : Bytes) (b : Nat) : (padTo L s).getD b 0 = s.getD b 0 := by
  unfold padTo
  by_cases hb : b < s.length
  · rw [List.getD_append _ _ _ _ hb]
  · rw [List.getD_append_right _ _ _ _ (by omega), List.getD_eq_default s 0 (by omega),
      List.getD_eq_getElem?_getD]
    exact List.getElem?_getD_replicate_default_eq _ _ _

lemma padTo_length {L : Nat} {s : Bytes} (h : s.length ≤ L) : (padTo L s).length = L := by
  unfold padTo
  rw [List.length_append, List.length_replicate]
  omega

/-- Every slot of a group is the combination of the zero-padded payloads by its row of the full
encoding matrix. -/
theorem slotContent_encodes (cfg : FecConfig) (payloads : List Bytes) {seq : Nat}
    (hseq : seq < cfg.numData + cfg.numRoots) {b : Nat} (hb : b < maxLen payloads) :
    ∑ c : Fin cfg.numData, encodingRow cfg seq c * ⟨(payloads.getD c []).getD b 0⟩ =
      (⟨(slotContent cfg payloads seq).getD b 0⟩ : GF256) := by
  unfold encodingRow slotContent
  by_cases hd : seq < cfg.numData
  · simp only [if_pos hd]
    rw [Finset.sum_eq_single_of_mem (⟨seq, hd⟩ : Fin cfg.numData) (Finset.mem_univ _)]
    · rw [if_pos rfl, one_mul]
    · intro c _ hc
      rw [if_neg (fun h => hc (Fin.ext h.symm)), zero_mul]
  · simp only [if_neg hd]
    rw [computeParity_getD cfg payloads (by omega), (addPacket_fold cfg payloads _ _ _).2 b hb,
      Finset.sum_range]
    refine Finset.sum_congr rfl fun c _ => ?_
    rw [encMatrix_entry cfg c.isLt (by omega),
      show cfg.numData + (seq - cfg.numData) = seq by omega]

lemma rect_map_padTo {ι : Type} (l : List ι) (f : ι → Bytes) {L : Nat}
    (h : ∀ i ∈ l, (f i).length ≤ L) :
    Rect (l.map fun i => padTo L (f i)) l.length L := by
  refine ⟨by rw [List.length_map], fun r hr => ?_⟩
  obtain ⟨i, hi, rfl⟩ := List.mem_map.mp hr
  exact padTo_length (h i hi)

lemma matrixEntry_map_padTo {ι : Type} (l : List ι) (f : ι → Bytes) (L : Nat) {r : Nat}
    (hr : r < l.length) (b : Nat) :
    matrixEntry (l.map fun i => padTo L (f i)) r b = (f l[r]).getD b 0 := by
  have hrow : (l.map fun i => padTo L (f i)).getD r [] = padTo L (f l[r]) := by
    rw [List.getD_eq_getElem _ _ (by rwa [List.length_map]), List.getElem_map]
  rw [matrixEntry, hrow, getD_padTo]

/-- The elimination decoder recovers the padded payloads from any `k` slots of their group. -/
theorem gaussDecode_slots (cfg : FecConfig) {payloads : List Bytes}
    (hlen : payloads.length = cfg.numData) {indices : List Nat} (hi : indices.length = cfg.numData)
    (hlt : ∀ i ∈ indices, i < cfg.numData + cfg.numRoots) (hnd : indices.Nodup) :
    gaussDecode cfg indices (indices.map fun i => padTo (maxLen payloads)
      (slotContent cfg payloads i))
      (maxLen payloads) = payloads.map (padTo (maxLen payloads)) := by
  have hdata := rect_map_padTo indices (slotContent cfg payloads)
    (fun i him => slotContent_length_le cfg payloads (hlt i him))
  have hX := rect_map_padTo payloads id (fun p hp => length_le_maxLen hp)
  rw [hi] at hdata
  rw [hlen] at hX
  refine gaussDecode_solves cfg hi hlt hnd hdata hX fun r b => ?_
  have hr : r.val < indices.length := by rw [hi]; exact r.isLt
  rw [matrixEntry_map_padTo _ _ _ hr, List.getD_eq_getElem _ _ hr,
    ← slotContent_encodes cfg payloads (hlt _ (List.getElem_mem hr)) b.isLt]
  refine Finset.sum_congr rfl fun c _ => ?_
  have hc : c.val < payloads.length := by rw [hlen]; exact c.isLt
  have hentry := matrixEntry_map_padTo payloads id (maxLen payloads) hc b
  rw [← List.getD_eq_getElem payloads [] hc] at hentry
  exact congrArg _ (GF256.ext hentry)

/-! ## Frames -/

/-- The two-byte length field of a payload. -/
def len16 (p : Bytes) : UInt16 := UInt16.ofNat p.length

/-- The payload of the frame with sequence number `seq` of a group. -/
def framePayload (cfg : FecConfig) (payloads : List Bytes) (seq : Nat) : Bytes :=
  if seq < cfg.numData then slotContent cfg payloads seq
  else lengthManifest (payloads.map len16) ++ slotContent cfg payloads seq

def frameHeader (cfg : FecConfig) (groupId : UInt32) (payloads : List Bytes)
    (seq : Nat) : FecHeader :=
  ⟨groupId, UInt8.ofNat seq, cfg.k, cfg.m, len16 (framePayload cfg payloads seq)⟩

/-- The frame with sequence number `seq` of a group. -/
def groupFrame (cfg : FecConfig) (groupId : UInt32) (payloads : List Bytes) (seq : Nat) : Bytes :=
  makeHeader (frameHeader cfg groupId payloads seq) ++ framePayload cfg payloads seq

/-- The largest payload that `encode` accepts. -/
def maxPayloadLen (cfg : FecConfig) : Nat := 65535 - 2 * cfg.numData

lemma framePayload_length_le (cfg : FecConfig) {payloads : List Bytes}
    (hlen : payloads.length ≤ cfg.numData) (hmax : ∀ p ∈ payloads, p.length ≤ maxPayloadLen cfg)
    {seq : Nat} (hseq : seq < cfg.numData + cfg.numRoots) :
    (framePayload cfg payloads seq).length ≤ 65535 := by
  have hslot := slotContent_length_le cfg payloads hseq
  have hm := (maxLen_le_iff payloads _).mpr hmax
  have hsum := numData_add_numRoots_le cfg
  unfold maxPayloadLen at hm
  unfold framePayload
  split_ifs
  · omega
  · rw [List.length_append, lengthManifest_length, List.length_map]
    omega

lemma len16_toNat {p : Bytes} (h : p.length ≤ 65535) : (len16 p).toNat = p.length := by
  unfold len16
  rw [UInt16.toNat_ofNat', Nat.mod_eq_of_lt (by omega)]

lemma parseHeader_groupFrame (cfg : FecConfig) (groupId : UInt32) (payloads : List Bytes)
    (seq : Nat) :
    parseHeader (groupFrame cfg groupId payloads seq) =
      some (frameHeader cfg groupId payloads seq) :=
  parseHeader_makeHeader _ _

lemma frameHeader_seq {cfg : FecConfig} {seq : Nat} (hseq : seq < cfg.numData + cfg.numRoots)
    (groupId : UInt32) (payloads : List Bytes) :
    (frameHeader cfg groupId payloads seq).seq.toNat = seq := by
  have hsum := numData_add_numRoots_le cfg
  rw [frameHeader, UInt8.toNat_ofNat', Nat.mod_eq_of_lt (by omega)]

lemma frameHeader_dataLen {cfg : FecConfig} {payloads : List Bytes}
    (hlen : payloads.length ≤ cfg.numData) (hmax : ∀ p ∈ payloads, p.length ≤ maxPayloadLen cfg)
    {seq : Nat} (hseq : seq < cfg.numData + cfg.numRoots) (groupId : UInt32) :
    (frameHeader cfg groupId payloads seq).dataLen.toNat = (framePayload cfg payloads seq).length :=
  len16_toNat (framePayload_length_le cfg hlen hmax hseq)

/-- A data frame depends on its own payload only. -/
lemma groupFrame_data_congr (cfg : FecConfig) (groupId : UInt32) {ps qs : List Bytes} {seq : Nat}
    (hseq : seq < cfg.numData) (h : ps.getD seq [] = qs.getD seq []) :
    groupFrame cfg groupId ps seq = groupFrame cfg groupId qs seq := by
  simp only [groupFrame, frameHeader, framePayload, slotContent, if_pos hseq, h]

end MeshNetwork.Proofs
