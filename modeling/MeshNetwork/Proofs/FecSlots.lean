import MeshNetwork.Proofs.FecFrames

/-!
# Storing a frame

The slots of a group, the checks that a datagram has to pass before its group is looked up, and what
becomes of the frame in the group that it finds.
-/

namespace MeshNetwork.Proofs

/-! ## Slots -/

def heldList (slots : List (Option Bytes)) : List Nat :=
  (List.range slots.length).filter fun i => (slots.getD i none).isSome

/-- The sequence numbers of the filled slots. -/
def heldSeqs (slots : List (Option Bytes)) : Finset Nat := (heldList slots).toFinset

lemma mem_heldList {slots : List (Option Bytes)} {i : Nat} :
    i ∈ heldList slots ↔ (slots.getD i none).isSome := by
  unfold heldList
  rw [List.mem_filter, List.mem_range]
  constructor
  · intro h
    exact h.2
  · intro h
    refine ⟨?_, h⟩
    by_contra hlt
    rw [List.getD_eq_default _ _ (by omega)] at h
    exact absurd h (by decide)

lemma mem_heldSeqs {slots : List (Option Bytes)} {i : Nat} :
    i ∈ heldSeqs slots ↔ (slots.getD i none).isSome := by
  rw [heldSeqs, List.mem_toFinset, mem_heldList]

lemma heldList_nodup (slots : List (Option Bytes)) : (heldList slots).Nodup :=
  List.nodup_range.filter _

lemma card_heldSeqs (slots : List (Option Bytes)) :
    (heldSeqs slots).card = (heldList slots).length :=
  List.toFinset_card_of_nodup (heldList_nodup slots)

lemma heldSeqs_set {slots : List (Option Bytes)} {i : Nat} (hi : i < slots.length) (b : Bytes) :
    heldSeqs (slots.set i (some b)) = insert i (heldSeqs slots) := by
  ext j
  rw [mem_heldSeqs, Finset.mem_insert, mem_heldSeqs, List.getD_eq_getElem?_getD, List.getElem?_set,
    List.getD_eq_getElem?_getD]
  by_cases hij : i = j
  · subst hij
    simp [hi]
  · rw [if_neg hij]
    simp [Ne.symm hij]

lemma heldSeqs_replicate (n : Nat) : heldSeqs (List.replicate n none) = ∅ := by
  apply Finset.eq_empty_of_forall_notMem
  intro i hi
  rw [mem_heldSeqs, List.getD_eq_getElem?_getD, List.getElem?_getD_replicate_default_eq] at hi
  exact absurd hi (by decide)

lemma zipIdx_eq_map (slots : List (Option Bytes)) :
    slots.zipIdx = (List.range slots.length).map fun i => (slots.getD i none, i) := by
  apply List.ext_getElem
  · rw [List.length_zipIdx, List.length_map, List.length_range]
  · intro i hi _
    rw [List.length_zipIdx] at hi
    rw [List.getElem_zipIdx, List.getElem_map, List.getElem_range, List.getD_eq_getElem _ _ hi,
      Nat.zero_add]

lemma filterMap_eq_map_filter {F : Nat → Bytes} (s : Nat → Option Bytes) (l : List Nat)
    (h : ∀ i b, s i = some b → b = F i) :
    l.filterMap (fun i => (s i).map fun b => (i, b)) =
      (l.filter fun i => (s i).isSome).map fun i => (i, F i) := by
  induction l with
  | nil => rfl
  | cons i l ih =>
    cases hi : s i with
    | none =>
      rw [List.filterMap_cons_none (by rw [hi]; rfl), List.filter_cons_of_neg (by simp [hi]), ih]
    | some b =>
      rw [List.filterMap_cons_some (b := (i, b)) (by rw [hi]; rfl),
        List.filter_cons_of_pos (by simp [hi]), List.map_cons, ih, h i b hi]

/-! ## The header checks -/

/-- The header of a datagram that passes the checks made before its group is looked up. -/
def admitted (cfg : FecConfig) (dg : Bytes) : Option FecHeader :=
  (parseHeader dg).filter fun h => h.numData = cfg.k ∧ h.numRoots = cfg.m ∧
    h.seq.toNat < cfg.numData + cfg.numRoots ∧ kHeaderSize + h.dataLen.toNat ≤ dg.length

/-- A parity payload that is shorter than the length manifest. -/
def ShortParity (cfg : FecConfig) (h : FecHeader) : Prop :=
  cfg.numData ≤ h.seq.toNat ∧ h.dataLen.toNat < 2 * cfg.numData

/-- The payload that the header announces. -/
def announced (dg : Bytes) (h : FecHeader) : Bytes := (dg.drop kHeaderSize).take h.dataLen.toNat

variable {cfg : FecConfig} {c c' : FecCodec} {dg : Bytes} {h : FecHeader} {g : RecvGroup}
  {gid : UInt32}

lemma admitted_eq_some : admitted cfg dg = some h ↔
    parseHeader dg = some h ∧ h.numData = cfg.k ∧ h.numRoots = cfg.m ∧
      h.seq.toNat < cfg.numData + cfg.numRoots ∧ kHeaderSize + h.dataLen.toNat ≤ dg.length := by
  unfold admitted
  rw [Option.filter_eq_some_iff, decide_eq_true_iff]

lemma announced_length (hadm : admitted cfg dg = some h) :
    (announced dg h).length = h.dataLen.toNat := by
  obtain ⟨-, -, -, -, hfits⟩ := admitted_eq_some.mp hadm
  unfold announced
  rw [List.length_take, List.length_drop]
  omega

/-- The sum of the two counts of a header does not overflow. -/
lemma toNat_add_counts (cfg : FecConfig) : (cfg.k + cfg.m).toNat = cfg.numData + cfg.numRoots := by
  have hsum := cfg.sum_le
  rw [UInt8.toNat_add, Nat.mod_eq_of_lt (by omega)]
  rfl

lemma admitted_of_checks (hparse : parseHeader dg = some h)
    (hconfig : ¬(h.numData ≠ cfg.k ∨ h.numRoots ≠ cfg.m)) (hrange : ¬h.seq ≥ h.numData + h.numRoots)
    (hsize : ¬dg.length < kHeaderSize + h.dataLen.toNat) :
    admitted cfg dg = some h := by
  obtain ⟨hk, hm⟩ := not_or.mp hconfig
  rw [not_not] at hk hm
  rw [hk, hm, ge_iff_le, UInt8.le_iff_toNat_le, toNat_add_counts, not_le] at hrange
  exact admitted_eq_some.mpr ⟨hparse, hk, hm, hrange, not_lt.mp hsize⟩

/-- A datagram that passes the checks is stored in its group. -/
lemma decode_admitted (hc : c.cfg = cfg) (hadm : admitted cfg dg = some h)
    (hopen : ((c.recvGroups.lookup h.groupId).getD {}).delivered = false) :
    let group := (c.recvGroups.lookup h.groupId).getD {}
    let s := FecCodec.openGroup { c with recvGroups := c.recvGroups.insert h.groupId group } h group
    c.decode dg = s.1.storeFrame s.2 h (announced dg h) := by
  obtain ⟨hparse, hk, hm, hlt, hfits⟩ := admitted_eq_some.mp hadm
  have hconfig : ¬(h.numData ≠ c.cfg.k ∨ h.numRoots ≠ c.cfg.m) := by
    rw [hc, hk, hm]
    simp
  have hrange : ¬h.seq ≥ h.numData + h.numRoots := by
    rw [hk, hm, ge_iff_le, UInt8.le_iff_toNat_le, toNat_add_counts]
    omega
  dsimp only
  unfold FecCodec.decode
  rw [hparse]
  dsimp only
  rw [if_neg hconfig, if_neg hrange, if_neg (not_lt.mpr hfits), hopen, if_neg (by decide)]
  rfl

/-! ## Filling a slot -/

/-- The group after a frame has been stored in its slot. -/
def fillSlot (h : FecHeader) (payload : Bytes) (g : RecvGroup) : RecvGroup :=
  if h.seq ≥ h.numData then
    { g with
      dataLens :=
        g.dataLens.mapIdx fun i len => if i < h.numData.toNat then manifestLen payload i else len
      slots := g.slots.set h.seq.toNat (some (payload.drop (2 * h.numData.toNat)))
      received := g.received + 1 }
  else
    { g with
      dataLens := g.dataLens.set h.seq.toNat h.dataLen
      slots := g.slots.set h.seq.toNat (some payload)
      received := g.received + 1 }

/-- An admitted frame is dropped if its slot is filled or its manifest is cut, and stored
otherwise. -/
lemma storeFrame_eq (hadm : admitted cfg dg = some h)
    (hslots : g.slots.length = cfg.numData + cfg.numRoots) (c : FecCodec) :
    (h.seq.toNat ∈ heldSeqs g.slots ∨ ShortParity cfg h →
      c.storeFrame g h (announced dg h) = ([], c)) ∧
    (h.seq.toNat ∉ heldSeqs g.slots → ¬ShortParity cfg h → c.storeFrame g h (announced dg h) =
      FecCodec.tryDeliver { c with
        recvGroups := c.recvGroups.insert h.groupId (fillSlot h (announced dg h) g) }
          h.groupId) := by
  obtain ⟨-, hk, -, hlt, -⟩ := admitted_eq_some.mp hadm
  have hsum := numData_add_numRoots_le cfg
  have hkn : h.numData.toNat = cfg.numData := by
    rw [hk]
    rfl
  have hin : ¬h.seq ≥ UInt8.ofNat g.slots.length := by
    rw [hslots, ge_iff_le, UInt8.le_iff_toNat_le, UInt8.toNat_ofNat', Nat.mod_eq_of_lt (by omega)]
    omega
  have hside : h.seq ≥ h.numData ↔ cfg.numData ≤ h.seq.toNat := by
    rw [ge_iff_le, UInt8.le_iff_toNat_le, hkn]
  have hcut : (announced dg h).length < 2 * h.numData.toNat ↔
      h.dataLen.toNat < 2 * cfg.numData := by
    rw [announced_length hadm, hkn]
  unfold FecCodec.storeFrame
  rw [if_neg hin]
  constructor
  · rintro (hheld | hshort)
    · rw [if_pos (mem_heldSeqs.mp hheld)]
    · rw [if_pos (hside.mpr hshort.1), if_pos (hcut.mpr hshort.2), ite_self]
  · intro hnew hlong
    rw [if_neg (fun hheld => hnew (mem_heldSeqs.mpr hheld))]
    unfold fillSlot
    by_cases hparity : h.seq ≥ h.numData
    · have hwhole : ¬(announced dg h).length < 2 * h.numData.toNat := fun hlen =>
        hlong ⟨hside.mp hparity, hcut.mp hlen⟩
      simp only [if_pos hparity, if_neg hwhole]
    · simp only [if_neg hparity]

end MeshNetwork.Proofs
