import MeshNetwork.Proofs.FecReceive
import MeshNetwork.Proofs.FecRestart

/-!
# How long a group is held

A datagram that is not stored can still open a group, and every group that is opened moves the
others one place towards eviction. A group that is never delivered has one place in the order, so
it is held until 256 groups have been opened after it.
-/

namespace MeshNetwork.Proofs

variable {cfg : FecConfig} {c c' : FecCodec} {dg : Bytes} {gid : UInt32}

lemma opened_held (hheld : c.recvGroups.lookup gid ≠ none) : opened c gid = c := by
  unfold opened
  rw [if_pos (Option.isSome_iff_ne_none.mpr hheld)]

lemma opened_new (hnone : c.recvGroups.lookup gid = none) :
    opened c gid = c.rememberReceiveGroup gid := by
  unfold opened
  rw [hnone, Option.isSome_none, if_neg (by decide)]

/-! ## Datagrams that are not stored -/

/-- The datagrams that `decode` does not store in a slot. -/
inductive Rejected (cfg : FecConfig) (c : FecCodec) (dg : Bytes) : Prop
  | header : parseHeader dg = none → Rejected cfg c dg
  | config {h : FecHeader} : parseHeader dg = some h → h.numData ≠ cfg.k ∨ h.numRoots ≠ cfg.m →
      Rejected cfg c dg
  | range {h : FecHeader} : parseHeader dg = some h → cfg.numData + cfg.numRoots ≤ h.seq.toNat →
      Rejected cfg c dg
  | truncated {h : FecHeader} : parseHeader dg = some h →
      dg.length < kHeaderSize + h.dataLen.toNat → Rejected cfg c dg
  | duplicate {h : FecHeader} : parseHeader dg = some h → h.seq.toNat ∈ heldOf c h.groupId →
      Rejected cfg c dg
  | manifest {h : FecHeader} : parseHeader dg = some h → ShortParity cfg h → Rejected cfg c dg

lemma rejected_iff : Rejected cfg c dg ↔
    ∀ h, admitted cfg dg = some h → h.seq.toNat ∈ heldOf c h.groupId ∨ ShortParity cfg h := by
  constructor
  · intro hrej h hadm
    obtain ⟨hparse, hk, hm, hlt, hfits⟩ := admitted_eq_some.mp hadm
    cases hrej with
    | header hnone =>
      rw [hparse] at hnone
      cases hnone
    | config hparse' hconfig =>
      cases hparse.symm.trans hparse'
      exact absurd hconfig (by simp [hk, hm])
    | range hparse' hrange =>
      cases hparse.symm.trans hparse'
      omega
    | truncated hparse' hcut =>
      cases hparse.symm.trans hparse'
      omega
    | duplicate hparse' hdup =>
      cases hparse.symm.trans hparse'
      exact .inl hdup
    | manifest hparse' hshort =>
      cases hparse.symm.trans hparse'
      exact .inr hshort
  · intro hall
    cases hparse : parseHeader dg with
    | none => exact .header hparse
    | some h =>
      by_cases hconfig : h.numData ≠ cfg.k ∨ h.numRoots ≠ cfg.m
      · exact .config hparse hconfig
      by_cases hrange : cfg.numData + cfg.numRoots ≤ h.seq.toNat
      · exact .range hparse hrange
      by_cases hcut : dg.length < kHeaderSize + h.dataLen.toNat
      · exact .truncated hparse hcut
      obtain ⟨hk, hm⟩ := not_or.mp hconfig
      have hadm : admitted cfg dg = some h :=
        admitted_eq_some.mpr ⟨hparse, not_not.mp hk, not_not.mp hm, not_le.mp hrange,
          not_lt.mp hcut⟩
      rcases hall h hadm with hdup | hshort
      · exact .duplicate hparse hdup
      · exact .manifest hparse hshort

/-- What is not rejected is stored: its number is held afterwards, or its group is complete. -/
theorem stored_of_not_rejected (hr : ReceiveSide cfg c) (hrej : ¬Rejected cfg c dg) :
    ∃ h, parseHeader dg = some h ∧ h.seq.toNat ∉ heldOf c h.groupId ∧
      (heldOf (c.decode dg).2 h.groupId = insert h.seq.toNat (heldOf c h.groupId) ∨
        (c.decode dg).1.length = cfg.numData) := by
  rw [rejected_iff, not_forall] at hrej
  obtain ⟨h, hrej⟩ := hrej
  obtain ⟨hadm, hnew⟩ := Classical.not_imp.mp hrej
  refine ⟨h, (admitted_eq_some.mp hadm).1, fun hheld => hnew (.inl hheld), ?_⟩
  have hrec := decode_received hr dg
  generalize c.decode dg = out at hrec ⊢
  obtain ⟨res, c'⟩ := out
  dsimp only at hrec ⊢
  cases hrec with
  | rejected hnone =>
    rw [hadm] at hnone
    cases hnone
  | dropped hadm' hout _ =>
    cases hadm.symm.trans hadm'
    exact absurd hout hnew
  | stored hadm' _ _ _ hheld _ ht =>
    cases hadm.symm.trans hadm'
    exact .inl ((heldOf_eq ht.self).trans hheld)
  | delivered hadm' _ _ _ hlen _ => exact .inr hlen

/-- A datagram that is not stored leaves the groups and their order as they were, except for a
parity frame with a cut manifest whose group is not held: this one is opened. -/
theorem rejected_unchanged_iff (cfg : FecConfig) (c : FecCodec) (hreach : FecReachable cfg c)
    (dg : Bytes) (hrej : Rejected cfg c dg) :
    (c.decode dg).1 = [] ∧
    (((c.decode dg).2.recvGroupOrder = c.recvGroupOrder ∧
        ∀ gid, (c.decode dg).2.recvGroups.lookup gid = c.recvGroups.lookup gid) ↔
      ¬∃ h, admitted cfg dg = some h ∧ ShortParity cfg h ∧
        c.recvGroups.lookup h.groupId = none) := by
  have hr := receiveSide_of_reachable hreach
  rw [rejected_iff] at hrej
  have hrec := decode_received hr dg
  generalize c.decode dg = out at hrec ⊢
  obtain ⟨res, c'⟩ := out
  dsimp only at hrec ⊢
  cases hrec with
  | rejected hnone =>
    refine ⟨rfl, iff_of_true ⟨rfl, fun _ => rfl⟩ ?_⟩
    rintro ⟨h, hadm, -⟩
    rw [hnone] at hadm
    cases hadm
  | @dropped h _ hadm hout ht =>
    refine ⟨rfl, ?_⟩
    cases hl : c.recvGroups.lookup h.groupId with
    | none =>
      have hshort : ShortParity cfg h := by
        rw [heldOf_none hl] at hout
        exact hout.resolve_left (Finset.notMem_empty _)
      refine iff_of_false (fun hsame => ?_) (not_not.mpr ⟨h, hadm, hshort, hl⟩)
      have hself := hsame.2 h.groupId
      rw [ht.self, hl] at hself
      cases hself
    | some g =>
      have hopened : opened c h.groupId = c := opened_held (by simp [hl])
      refine iff_of_true ⟨by rw [ht.order, hopened], fun gid => ?_⟩ ?_
      · by_cases hgid : gid = h.groupId
        · rw [hgid, ht.self, current, hl, Option.getD_some]
        · rw [ht.other gid hgid, hopened]
      · rintro ⟨h', hadm', -, hnone⟩
        cases hadm.symm.trans hadm'
        rw [hl] at hnone
        cases hnone
  | stored hadm hnew hlong _ _ _ _ => exact absurd (hrej _ hadm) (not_or.mpr ⟨hnew, hlong⟩)
  | delivered hadm hnew hlong _ _ _ => exact absurd (hrej _ hadm) (not_or.mpr ⟨hnew, hlong⟩)

/-- A parity frame of group `gid` without any payload. -/
def bareParity (cfg : FecConfig) (gid : UInt32) : Bytes := makeHeader ⟨gid, cfg.k, cfg.k, cfg.m, 0⟩

/-- A decoder that holds the first frame of group 7. -/
def partDecoder : FecCodec :=
  (FecCodec.decode { cfg := pairConfig } (groupFrame pairConfig 7 [[1], [2]] 0)).2

/-- The same frame once more, and a parity frame of that group with a cut manifest. -/
theorem rejected_unchanged_held :
    heldOf partDecoder 7 = {0} ∧ partDecoder.recvGroupOrder = [7] ∧
    ∀ dg ∈ [groupFrame pairConfig 7 [[1], [2]] 0, bareParity pairConfig 7],
      (partDecoder.decode dg).1 = [] ∧ (partDecoder.decode dg).2.recvGroupOrder = [7] ∧
        ∀ gid, (partDecoder.decode dg).2.recvGroups.lookup gid =
          partDecoder.recvGroups.lookup gid := by
  have hheld : heldOf partDecoder 7 = {0} := by decide
  have horder : partDecoder.recvGroupOrder = [7] := by decide
  have hreach : FecReachable pairConfig partDecoder := .decode _ .create
  refine ⟨hheld, horder, fun dg hdg => ?_⟩
  have hin : ∀ dg ∈ [groupFrame pairConfig 7 [[1], [2]] 0, bareParity pairConfig 7],
      ((parseHeader dg).map (·.groupId)) = some 7 := by decide
  have hrej : Rejected pairConfig partDecoder dg := by
    simp only [List.mem_cons, List.not_mem_nil, or_false] at hdg
    rcases hdg with rfl | rfl
    · exact .duplicate (parseHeader_groupFrame ..)
        (show 0 ∈ heldOf partDecoder 7 from hheld ▸ by decide)
    · exact .manifest (parseHeader_makeHeader _ []) ⟨by decide, by decide⟩
  obtain ⟨hres, hiff⟩ := rejected_unchanged_iff pairConfig partDecoder hreach dg hrej
  have hsame := hiff.mpr <| by
    rintro ⟨h, hadm, -, hnone⟩
    have hparse := hin dg hdg
    rw [(admitted_eq_some.mp hadm).1] at hparse
    have hgid : h.groupId = 7 := Option.some.inj hparse
    rw [hgid] at hnone
    rw [heldOf_none hnone] at hheld
    exact absurd hheld (by decide)
  exact ⟨hres, hsame.1.trans horder, hsame.2⟩

/-- The bare parity frame is not stored, but its group is held from then on. -/
theorem bare_parity_opens_group :
    FecReachable pairConfig { cfg := pairConfig } ∧
      Rejected pairConfig { cfg := pairConfig } (bareParity pairConfig 7) ∧
      (FecCodec.decode { cfg := pairConfig } (bareParity pairConfig 7)).1 = [] ∧
      (FecCodec.decode { cfg := pairConfig } (bareParity pairConfig 7)).2.recvGroupOrder = [7] ∧
      heldOf (FecCodec.decode { cfg := pairConfig } (bareParity pairConfig 7)).2 7 = ∅ ∧
      7 ∈ (FecCodec.decode { cfg := pairConfig } (bareParity pairConfig 7)).2.recvGroups := by
  refine ⟨.create, .manifest (parseHeader_makeHeader _ []) ⟨by decide, by decide⟩, ?_, ?_, ?_, ?_⟩
  · decide
  · decide
  · decide
  · decide

/-! ## The place of a group in the order -/

/-- Group `gid` is not held and has no place, or it is held, has one place, and so many groups have
been opened since. -/
inductive Standing (c : FecCodec) (gid : UInt32) : Option Nat → Prop
  | absent : c.recvGroups.lookup gid = none → gid ∉ c.recvGroupOrder → Standing c gid none
  | held {pre post : List UInt32} : c.recvGroups.lookup gid ≠ none →
      c.recvGroupOrder = pre ++ gid :: post →
      gid ∉ pre → gid ∉ post → Standing c gid (some post.length)

lemma standing_create (cfg : FecConfig) (gid : UInt32) : Standing { cfg := cfg } gid none :=
  .absent (AList.lookup_empty gid) List.not_mem_nil

variable {gid' : UInt32} {entry : Option RecvGroup} {n : Nat}

lemma Standing.lt (hr : ReceiveSide cfg c) (hs : Standing c gid (some n)) :
    n < kMaxReceiveGroups := by
  have hle := hr.order_le
  cases hs with
  | held _ horder _ _ =>
    rw [horder, List.length_append, List.length_cons] at hle
    omega

lemma Standing.lookup_ne (hs : Standing c gid (some n)) : c.recvGroups.lookup gid ≠ none := by
  cases hs with
  | held hheld _ _ _ => exact hheld

lemma Standing.touched (hs : Standing c gid (some n)) (ht : Touches c c' gid' entry)
    (hheld : c.recvGroups.lookup gid' ≠ none) (hentry : gid' = gid → entry ≠ none) :
    Standing c' gid (some n) := by
  have hopened := opened_held hheld
  have horder := ht.order
  have hother := ht.other
  rw [hopened] at horder hother
  cases hs with
  | held hkept hplace hpre hpost =>
    refine .held ?_ (horder.trans hplace) hpre hpost
    by_cases hgid : gid' = gid
    · rw [← hgid, ht.self]
      exact hentry hgid
    · rw [hother gid (Ne.symm hgid)]
      exact hkept

/-- Opening another group moves `gid` one place on, and over the end from the last one. -/
lemma Standing.moved (hr : ReceiveSide cfg c) (hs : Standing c gid (some n))
    (ht : Touches c c' gid' entry) (hnone : c.recvGroups.lookup gid' = none) :
    n + 1 < kMaxReceiveGroups ∧ Standing c' gid (some (n + 1)) ∨
      n + 1 = kMaxReceiveGroups ∧ Standing c' gid none := by
  have hopened := opened_new hnone
  have horder := ht.order
  have hother := ht.other
  rw [hopened] at horder hother
  cases hs with
  | @held pre post hkept hplace hpre hpost =>
    have hgid : gid ≠ gid' := by
      intro heq
      rw [heq] at hkept
      exact hkept hnone
    have hpost' : gid ∉ post ++ [gid'] := by simp [hpost, hgid]
    have hlen : (post ++ [gid']).length = post.length + 1 := by simp
    have hsize := congrArg List.length hplace
    rw [List.length_append, List.length_cons] at hsize
    rw [← hlen]
    rcases rememberReceiveGroup_eq hr.order_le gid' with ⟨hroom, heq⟩ |
      ⟨stale, rest, hfull, hrest, heq⟩
    · rw [heq] at horder hother
      refine .inl ⟨by omega, .held ?_ (by rw [horder, hplace]; simp) hpre hpost'⟩
      rw [hother gid hgid]
      exact hkept
    · rw [heq] at horder hother
      rw [hplace] at hfull
      cases pre with
      | nil =>
        -- its own place is the oldest one
        obtain ⟨rfl, rfl⟩ := List.cons.inj hfull
        refine .inr ⟨by omega, .absent ?_ (by rw [horder]; exact hpost')⟩
        rw [hother gid hgid]
        dsimp only
        rw [if_pos hgid]
        exact AList.lookup_erase _ _
      | cons p pre =>
        rw [List.cons_append] at hfull
        obtain ⟨rfl, rfl⟩ := List.cons.inj hfull
        have hstale : gid ≠ p := fun heq => hpre (heq ▸ List.mem_cons_self)
        have hlong : post.length + 1 < kMaxReceiveGroups := by
          rw [List.length_append, List.length_cons] at hrest
          omega
        refine .inl ⟨by omega, .held ?_ (by rw [horder]; simp)
          (fun hmem => hpre (List.mem_cons_of_mem p hmem)) hpost'⟩
        rw [hother gid hgid]
        dsimp only
        split_ifs
        · rw [UMap.lookup_erase_eq, if_neg hstale]
          exact hkept
        · exact hkept

/-- A group without a place gets the newest one when it is opened. -/
lemma Standing.entered (hr : ReceiveSide cfg c) (hs : Standing c gid none)
    (ht : Touches c c' gid entry) (hentry : entry ≠ none) : Standing c' gid (some 0) := by
  cases hs with
  | absent hnone hunlisted =>
    have horder := ht.order
    rw [opened_new hnone] at horder
    have hself : c'.recvGroups.lookup gid ≠ none := by
      rw [ht.self]
      exact hentry
    rcases rememberReceiveGroup_eq hr.order_le gid with ⟨-, heq⟩ | ⟨stale, rest, hfull, -, heq⟩
    · rw [heq] at horder
      exact .held hself horder hunlisted List.not_mem_nil
    · rw [heq] at horder
      rw [hfull] at hunlisted
      exact .held hself horder (fun hmem => hunlisted (List.mem_cons_of_mem _ hmem))
        List.not_mem_nil

lemma Touches.absent (ht : Touches c c' gid' entry) (hr : ReceiveSide cfg c) (hgid : gid ≠ gid')
    (hnone : c.recvGroups.lookup gid = none) : c'.recvGroups.lookup gid = none := by
  rw [ht.other gid hgid]
  cases hl : (opened c gid').recvGroups.lookup gid with
  | none => rfl
  | some g =>
    have hold := ((hr.opened_listed gid').2 gid g hgid hl).1
    rw [hnone] at hold
    cases hold

lemma Standing.passed_by (hr : ReceiveSide cfg c) (hs : Standing c gid none)
    (ht : Touches c c' gid' entry) (hgid : gid ≠ gid') : Standing c' gid none := by
  cases hs with
  | absent hnone hunlisted =>
    refine .absent (ht.absent hr hgid hnone) ?_
    · rw [ht.order]
      unfold opened
      split_ifs
      · exact hunlisted
      · rcases rememberReceiveGroup_eq hr.order_le gid' with ⟨-, heq⟩ | ⟨stale, rest, hfull, -, heq⟩
        · rw [heq]
          simp [hunlisted, hgid]
        · rw [hfull] at hunlisted
          rw [heq]
          simp only [List.mem_append, List.mem_singleton, not_or]
          exact ⟨fun hmem => hunlisted (List.mem_cons_of_mem _ hmem), hgid⟩

lemma bareParity_touches (hr : ReceiveSide cfg c) (gid : UInt32) :
    Rejected cfg c (bareParity cfg gid) ∧
      Touches c (c.decode (bareParity cfg gid)).2 gid (some (current cfg c gid)) := by
  have hroots := cfg.one_le_m
  have hdata := cfg.one_le_k
  have hparse : parseHeader (bareParity cfg gid) = some ⟨gid, cfg.k, cfg.k, cfg.m, 0⟩ := by
    rw [bareParity, ← List.append_nil (makeHeader _)]
    exact parseHeader_makeHeader _ []
  have hshort : ShortParity cfg ⟨gid, cfg.k, cfg.k, cfg.m, 0⟩ := by
    refine ⟨le_rfl, ?_⟩
    change 0 < 2 * cfg.k.toNat
    omega
  have hadm : admitted cfg (bareParity cfg gid) = some ⟨gid, cfg.k, cfg.k, cfg.m, 0⟩ := by
    refine admitted_eq_some.mpr ⟨hparse, rfl, rfl, ?_, ?_⟩
    · change cfg.k.toNat < cfg.k.toNat + cfg.m.toNat
      omega
    · rw [bareParity, makeHeader_length]
      rfl
  refine ⟨.manifest hparse hshort, ?_⟩
  have hrec := decode_received hr (bareParity cfg gid)
  generalize c.decode (bareParity cfg gid) = out at hrec ⊢
  obtain ⟨res, c'⟩ := out
  dsimp only at hrec ⊢
  cases hrec with
  | rejected hnone =>
    rw [hadm] at hnone
    cases hnone
  | dropped hadm' _ ht =>
    cases hadm.symm.trans hadm'
    exact ht
  | stored hadm' _ hlong _ _ _ _ =>
    cases hadm.symm.trans hadm'
    exact absurd hshort hlong
  | delivered hadm' _ hlong _ _ _ =>
    cases hadm.symm.trans hadm'
    exact absurd hshort hlong

/-- Bare parity frames alone push a group out of the decoder, though none of them is stored. -/
theorem bareParities_evict (gids : List UInt32) (hnd : gids.Nodup) (hr : ReceiveSide cfg c)
    (hs : Standing c gid (some n)) (hlen : n + gids.length = kMaxReceiveGroups)
    (hnew : ∀ gid' ∈ gids, c.recvGroups.lookup gid' = none) :
    Standing (c.decodeAll (gids.map (bareParity cfg))).2 gid none := by
  induction gids generalizing c n with
  | nil => exact absurd (hs.lt hr) (by rw [← hlen]; exact lt_irrefl n)
  | cons gid' gids ih =>
    obtain ⟨hnotin, hnd⟩ := List.nodup_cons.mp hnd
    obtain ⟨-, ht⟩ := bareParity_touches hr gid'
    rw [List.length_cons] at hlen
    rcases hs.moved hr ht (hnew gid' List.mem_cons_self) with ⟨-, hnext⟩ | ⟨hend, hgone⟩
    · refine ih hnd (hr.decode _) hnext (by omega) fun gid'' hgid'' => ?_
      exact ht.absent hr (fun heq => hnotin (heq ▸ hgid''))
        (hnew gid'' (List.mem_cons_of_mem gid' hgid''))
    · obtain rfl : gids = [] := List.length_eq_zero_iff.mp (by omega)
      exact hgone

/-! ## Frames of an encoder -/

/-- A frame that is stored if its slot is free. -/
def Storable (cfg : FecConfig) (gid : UInt32) (seq : Nat) (f : Bytes) : Prop :=
  ∃ h, admitted cfg f = some h ∧ ¬ShortParity cfg h ∧ h.groupId = gid ∧ h.seq.toNat = seq

lemma storable_groupFrame {ps : List Bytes} (hps : GroupSent cfg ps) {seq : Nat}
    (hadm : Admissible cfg ps seq) (gid : UInt32) :
    Storable cfg gid seq (groupFrame cfg gid ps seq) := by
  obtain ⟨hadmitted, -⟩ := admitted_groupFrame hps hadm gid
  exact ⟨frameHeader cfg gid ps seq, hadmitted, not_shortParity hps hadm gid, rfl,
    frameHeader_seq (hadm.lt hps) gid ps⟩

lemma storable_of_encodeAll {payloads : List Bytes} {f : Bytes}
    (hf : f ∈ (FecCodec.encodeAll { cfg := cfg } payloads).1) :
    ∃ gid seq, Storable cfg gid seq f := by
  obtain ⟨n, hn, hf⟩ := mem_encodeAll_iff.mp hf
  obtain ⟨seq, hadm, rfl⟩ := mem_emitted hn hf
  exact ⟨_, seq, storable_groupFrame (groupSent_groupPayloads acceptedPayloads_le _) hadm _⟩

lemma Storable.inGroup {seq : Nat} {f : Bytes} (hf : Storable cfg gid seq f) :
    InGroup gid' f ↔ gid = gid' := by
  obtain ⟨h, hadm, -, hgid, -⟩ := hf
  obtain ⟨hparse, -⟩ := admitted_eq_some.mp hadm
  simp [InGroup, hparse, hgid]

lemma Storable.groupSeqs {seq : Nat} {f : Bytes} (hf : Storable cfg gid seq f) :
    groupSeqs gid' [f] = if gid = gid' then {seq} else ∅ := by
  obtain ⟨h, hadm, -, hgid, hseq⟩ := hf
  obtain ⟨hparse, -⟩ := admitted_eq_some.mp hadm
  unfold Proofs.groupSeqs
  rw [List.filterMap_cons_some hparse, List.filterMap_nil]
  by_cases heq : gid = gid'
  · simp [hgid, heq, hseq]
  · simp [hgid, heq]

/-- A frame of an encoder adds its number to its group, or completes and removes the group. -/
lemma Storable.decode {seq : Nat} {f : Bytes} (hf : Storable cfg gid seq f)
    (hr : ReceiveSide cfg c) :
    (∃ g, Touches c (c.decode f).2 gid (some g) ∧ heldSeqs g.slots = insert seq (heldOf c gid) ∧
        (c.decode f).1 = []) ∨
      Touches c (c.decode f).2 gid none ∧ seq ∉ heldOf c gid ∧
        (heldOf c gid).card + 1 = cfg.numData ∧ (c.decode f).1.length = cfg.numData := by
  obtain ⟨h, hadm, hlong, rfl, rfl⟩ := hf
  have hrec := decode_received hr f
  generalize c.decode f = out at hrec ⊢
  obtain ⟨res, c'⟩ := out
  dsimp only at hrec ⊢
  cases hrec with
  | rejected hnone =>
    rw [hadm] at hnone
    cases hnone
  | dropped hadm' hout ht =>
    cases hadm.symm.trans hadm'
    refine .inl ⟨_, ht, ?_, rfl⟩
    rw [heldSeqs_current, Finset.insert_eq_of_mem (hout.resolve_right hlong)]
  | stored hadm' _ _ _ hheld _ ht =>
    cases hadm.symm.trans hadm'
    exact .inl ⟨_, ht, hheld, rfl⟩
  | delivered hadm' hnew _ hlast hlen ht =>
    cases hadm.symm.trans hadm'
    exact .inr ⟨ht, hnew, hlast, hlen⟩

lemma Storable.touches {seq : Nat} {f : Bytes} (hf : Storable cfg gid seq f)
    (hr : ReceiveSide cfg c) :
    ∃ entry, Touches c (c.decode f).2 gid entry := by
  rcases hf.decode hr with ⟨g, ht, -⟩ | ⟨ht, -⟩
  · exact ⟨_, ht⟩
  · exact ⟨_, ht⟩

/-! ## Openings -/

/-- The datagram finds its group not held, so the group is opened. -/
def opensGroup (c : FecCodec) (dg : Bytes) : Bool :=
  (admitted c.cfg dg).any fun h => (c.recvGroups.lookup h.groupId).isNone

/-- How many of the datagrams open a group. -/
def openings (c : FecCodec) : List Bytes → Nat
  | [] => 0
  | dg :: dgs => (if opensGroup c dg then 1 else 0) + openings (c.decode dg).2 dgs

lemma openings_append (c : FecCodec) (l₁ l₂ : List Bytes) :
    openings c (l₁ ++ l₂) = openings c l₁ + openings (c.decodeAll l₁).2 l₂ := by
  induction l₁ generalizing c with
  | nil => exact (Nat.zero_add _).symm
  | cons f l₁ ih =>
    rw [List.cons_append, openings, openings, ih, Nat.add_assoc]
    rfl

lemma Storable.opens {seq : Nat} {f : Bytes} (hf : Storable cfg gid seq f)
    (hr : ReceiveSide cfg c) :
    opensGroup c f = (c.recvGroups.lookup gid).isNone := by
  obtain ⟨h, hadm, -, hgid, -⟩ := hf
  unfold opensGroup
  rw [hr.cfg_eq, hadm, Option.any_some, hgid]

lemma deliveries_eq_zero_cons (c : FecCodec) (gid : UInt32) (f : Bytes) (l : List Bytes) :
    deliveries c gid (f :: l) = 0 ↔
      (InGroup gid f → (c.decode f).1 = []) ∧ deliveries (c.decode f).2 gid l = 0 := by
  unfold deliveries
  rw [FecCodec.decodeAll, List.zip_cons_cons, List.countP_cons]
  cases hparse : parseHeader f with
  | none => simp [InGroup, hparse]
  | some h =>
    by_cases hgid : h.groupId = gid
    · by_cases hres : (c.decode f).1 = []
      · simp [InGroup, hparse, hgid, hres]
      · simp [InGroup, hparse, hgid, hres]
    · simp [InGroup, hparse, hgid]

lemma deliveries_eq_zero_append (c : FecCodec) (gid : UInt32) (l₁ l₂ : List Bytes) :
    deliveries c gid (l₁ ++ l₂) = 0 ↔ deliveries c gid l₁ = 0 ∧
      deliveries (c.decodeAll l₁).2 gid l₂ = 0 := by
  induction l₁ generalizing c with
  | nil => exact ⟨fun h => ⟨rfl, h⟩, fun h => h.2⟩
  | cons f l₁ ih =>
    rw [List.cons_append, deliveries_eq_zero_cons, deliveries_eq_zero_cons, ih, and_assoc]
    rfl

lemma deliveries_of_not_inGroup (c : FecCodec) {l : List Bytes} (hl : ∀ f ∈ l, ¬InGroup gid f) :
    deliveries c gid l = 0 := by
  induction l generalizing c with
  | nil => rfl
  | cons f l ih =>
    rw [deliveries_eq_zero_cons]
    exact ⟨fun hin => absurd hin (hl f List.mem_cons_self),
      ih _ fun f' hf' => hl f' (List.mem_cons_of_mem f hf')⟩

/-- One frame of an encoder at a decoder that holds `gid`. -/
lemma Standing.frame (hr : ReceiveSide cfg c) (hs : Standing c gid (some n)) {seq : Nat} {f : Bytes}
    (hf : Storable cfg gid' seq f) (hnot : InGroup gid f → (c.decode f).1 = []) :
    n + (if opensGroup c f then 1 else 0) < kMaxReceiveGroups ∧
        Standing (c.decode f).2 gid (some (n + if opensGroup c f then 1 else 0)) ∧
        heldOf (c.decode f).2 gid = heldOf c gid ∪ groupSeqs gid [f] ∨
      n + (if opensGroup c f then 1 else 0) = kMaxReceiveGroups ∧
        Standing (c.decode f).2 gid none := by
  rw [hf.opens hr, hf.groupSeqs]
  by_cases hgid : gid' = gid
  · subst hgid
    rw [if_pos rfl, if_neg (by simpa using hs.lookup_ne), Nat.add_zero]
    rcases hf.decode hr with ⟨g, ht, hheld, -⟩ | ⟨-, -, -, hlen⟩
    · left
      refine ⟨hs.lt hr, hs.touched ht hs.lookup_ne (fun _ => by simp), ?_⟩
      rw [heldOf_eq ht.self, hheld, Finset.union_comm]
      rfl
    · have hpos := numData_pos cfg
      rw [hnot (hf.inGroup.mpr rfl), List.length_nil] at hlen
      omega
  · rw [if_neg hgid, Finset.union_empty]
    obtain ⟨entry, ht⟩ := hf.touches hr
    -- while the group stays held, its entry is not touched
    have hsame : ∀ {m}, Standing (c.decode f).2 gid (some m) →
        heldOf (c.decode f).2 gid = heldOf c gid := by
      intro m hm
      obtain ⟨g, hg⟩ := Option.ne_none_iff_exists'.mp hm.lookup_ne
      have hold := hg
      rw [ht.other gid (Ne.symm hgid)] at hold
      rw [heldOf_eq hg, heldOf_eq ((hr.opened_listed gid').2 gid g (Ne.symm hgid) hold).1]
    by_cases hnone : c.recvGroups.lookup gid' = none
    · rw [hnone, Option.isNone_none, if_pos rfl]
      rcases hs.moved hr ht hnone with ⟨hlt, hnext⟩ | ⟨hend, hgone⟩
      · exact .inl ⟨hlt, hnext, hsame hnext⟩
      · exact .inr ⟨hend, hgone⟩
    · rw [if_neg (by simpa using hnone), Nat.add_zero]
      have hnext := hs.touched ht hnone fun heq => absurd heq hgid
      exact .inl ⟨hs.lt hr, hnext, hsame hnext⟩

/-- A group that is not delivered keeps its slots until 256 groups have been opened after it. -/
lemma Standing.kept {l : List Bytes} (hr : ReceiveSide cfg c) (hs : Standing c gid (some n))
    (hl : ∀ f ∈ l, ∃ gid seq, Storable cfg gid seq f) (hnot : deliveries c gid l = 0)
    (hfew : n + openings c l < kMaxReceiveGroups) :
    Standing (c.decodeAll l).2 gid (some (n + openings c l)) ∧
      heldOf (c.decodeAll l).2 gid = heldOf c gid ∪ groupSeqs gid l := by
  induction l generalizing c n with
  | nil => exact ⟨hs, (Finset.union_empty _).symm⟩
  | cons f l ih =>
    obtain ⟨gid', seq, hf⟩ := hl f List.mem_cons_self
    obtain ⟨hnow, hlater⟩ := (deliveries_eq_zero_cons c gid f l).mp hnot
    rw [openings, ← Nat.add_assoc] at hfew ⊢
    rcases hs.frame hr hf hnow with ⟨-, hnext, hheld⟩ | ⟨hend, -⟩
    · obtain ⟨hrest, hseqs⟩ :=
        ih (hr.decode f) hnext (fun f' hf' => hl f' (List.mem_cons_of_mem f hf')) hlater hfew
      refine ⟨hrest, hseqs.trans ?_⟩
      rw [hheld, Finset.union_assoc, ← groupSeqs_append, List.singleton_append]
    · omega

/-- The group has been evicted by the time 256 groups have been opened after it. -/
lemma Standing.evicted {l : List Bytes} (hr : ReceiveSide cfg c) (hs : Standing c gid (some n))
    (hl : ∀ f ∈ l, ∃ gid seq, Storable cfg gid seq f) (hnot : deliveries c gid l = 0)
    (hmany : kMaxReceiveGroups ≤ n + openings c l) :
    ∃ mid, mid <+: l ∧ mid ≠ [] ∧ Standing (c.decodeAll mid).2 gid none := by
  induction l generalizing c n with
  | nil => exact absurd (hs.lt hr) (not_lt.mpr hmany)
  | cons f l ih =>
    obtain ⟨gid', seq, hf⟩ := hl f List.mem_cons_self
    obtain ⟨hnow, hlater⟩ := (deliveries_eq_zero_cons c gid f l).mp hnot
    rw [openings, ← Nat.add_assoc] at hmany
    rcases hs.frame hr hf hnow with ⟨-, hnext, -⟩ | ⟨-, hgone⟩
    · obtain ⟨mid, hmid, -, hgone⟩ := ih (hr.decode f) hnext
        (fun f' hf' => hl f' (List.mem_cons_of_mem f hf')) hlater
        hmany
      exact ⟨f :: mid, (List.prefix_cons_inj f).mpr hmid, List.cons_ne_nil f mid, hgone⟩
    · exact ⟨[f], by simp, by simp, hgone⟩

/-- A group that is not held and was never delivered has no place in the order. -/
lemma standing_run {l : List Bytes} (hr : ReceiveSide cfg c) {place : Option Nat}
    (hs : Standing c gid place) (hl : ∀ f ∈ l, ∃ gid seq, Storable cfg gid seq f)
    (hnot : deliveries c gid l = 0) :
    ∃ place', Standing (c.decodeAll l).2 gid place' := by
  induction l generalizing c place with
  | nil => exact ⟨place, hs⟩
  | cons f l ih =>
    obtain ⟨gid', seq, hf⟩ := hl f List.mem_cons_self
    obtain ⟨hnow, hlater⟩ := (deliveries_eq_zero_cons c gid f l).mp hnot
    obtain ⟨next, hnext⟩ : ∃ next, Standing (c.decode f).2 gid next := by
      cases place with
      | some n =>
        rcases hs.frame hr hf hnow with ⟨-, hnext, -⟩ | ⟨-, hgone⟩
        · exact ⟨_, hnext⟩
        · exact ⟨_, hgone⟩
      | none =>
        rcases hf.decode hr with ⟨g, ht, -⟩ | ⟨ht, -, -, hlen⟩
        · by_cases hgid : gid = gid'
          · subst hgid
            exact ⟨_, hs.entered hr ht (by simp)⟩
          · exact ⟨_, hs.passed_by hr ht hgid⟩
        · by_cases hgid : gid = gid'
          · have hpos := numData_pos cfg
            rw [hnow (hf.inGroup.mpr hgid.symm), List.length_nil] at hlen
            omega
          · exact ⟨_, hs.passed_by hr ht hgid⟩
    exact ih (hr.decode f) hnext (fun f' hf' => hl f' (List.mem_cons_of_mem f hf')) hlater

/-- A frame of a group of two zero bytes. -/
def zeroFrame (gid : UInt32) (seq : Nat) : Bytes := groupFrame pairConfig gid [[0], [0]] seq

lemma zeroFrame_storable (gid : UInt32) {seq : Nat} (hseq : seq < 3) :
    Storable pairConfig gid seq (zeroFrame gid seq) :=
  storable_groupFrame ⟨by decide, by decide⟩ (.inr ⟨rfl, hseq⟩) gid

lemma zeroFrame_mem (g groups : Nat) {seq : Nat} (hg : g < groups) (hseq : seq < 3) :
    zeroFrame (UInt32.ofNat g) seq ∈
      (FecCodec.encodeAll { cfg := pairConfig } (List.replicate (2 * groups) [0])).1 := by
  have hacc : acceptedPayloads pairConfig (List.replicate (2 * groups) [0]) =
      List.replicate (2 * groups) [0] :=
    List.filter_eq_self.mpr fun p hp => by
      rw [List.eq_of_mem_replicate hp]
      decide
  have hsplit : (List.replicate (2 * groups) [0] : List Bytes) =
      (List.replicate (2 * g) [0] ++ [[0], [0]]) ++ List.replicate (2 * (groups - g - 1)) [0] := by
    rw [show ([[0], [0]] : List Bytes) = List.replicate 2 [0] from rfl, ← List.replicate_add,
      ← List.replicate_add]
    congr 1
    omega
  have hk : pairConfig.numData = 2 := rfl
  have hboundary : (List.replicate (2 * g) [0] : List Bytes).length % pairConfig.numData = 0 := by
    rw [List.length_replicate, hk]
    omega
  have hmem :=
    groupFrame_mem_emitted hboundary (show [([0] : Bytes), [0]].length = pairConfig.numData
      from rfl) hseq
  rw [List.length_replicate, hk, Nat.mul_div_cancel_left g (by decide)] at hmem
  refine mem_encodeAll_iff.mpr ⟨2 * g + min seq (2 - 1), ?_, ?_⟩
  · rw [hacc, List.length_replicate]
    omega
  · rw [hacc, hsplit, emitted_prefix _ _ _ (by simp)]
    exact hmem

/-- All frames of a group open it twice: the last one comes after the delivery. -/
lemma openings_zeroFrames (hr : ReceiveSide pairConfig c) (hnone : c.recvGroups.lookup gid = none) :
    openings c ([0, 1, 2].map (zeroFrame gid)) = 2 ∧
      ∀ gid', gid' ≠ gid → c.recvGroups.lookup gid' = none →
      (c.decodeAll ([0, 1, 2].map (zeroFrame gid))).2.recvGroups.lookup gid' = none := by
  have h0 := zeroFrame_storable gid (show 0 < 3 by decide)
  have h1 := zeroFrame_storable gid (show 1 < 3 by decide)
  have h2 := zeroFrame_storable gid (show 2 < 3 by decide)
  have hr₁ := hr.decode (zeroFrame gid 0)
  have hr₂ := hr₁.decode (zeroFrame gid 1)
  have hk : pairConfig.numData = 2 := rfl
  obtain ⟨g, ht₀, hheld₀, -⟩ | ⟨-, -, hcard, -⟩ := h0.decode hr
  · rw [heldOf_none hnone] at hheld₀
    obtain ⟨g', ht₁, hheld₁, -⟩ | ⟨ht₁, -⟩ := h1.decode hr₁
    · -- two frames are enough, so the second one cannot merely be stored
      have hshort := hr₂.held_short gid
      rw [heldOf_eq ht₁.self, hheld₁, heldOf_eq ht₀.self, hheld₀] at hshort
      exact absurd hshort (by decide)
    · obtain ⟨entry, ht₂⟩ := h2.touches hr₂
      refine ⟨?_, fun gid' hgid habsent => ?_⟩
      · simp only [List.map_cons, List.map_nil, openings, h0.opens hr, h1.opens hr₁, h2.opens hr₂,
          hnone, ht₀.self, ht₁.self]
        rfl
      · have hkept := ht₂.absent hr₂ hgid (ht₁.absent hr₁ hgid (ht₀.absent hr hgid habsent))
        simp only [List.map_cons, List.map_nil, FecCodec.decodeAll]
        exact hkept
  · rw [heldOf_none hnone] at hcard
    exact absurd hcard (by decide)

/-- From the frame that opens it on, a group that is not delivered keeps its slots exactly as long
as fewer than 256 groups are opened after it, delivered ones that are opened again included. In that
span it is delivered when its `k`-th distinct frame arrives. -/
theorem kept_iff_openings (cfg : FecConfig) (payloads before : List Bytes) (first : Bytes)
    (after : List Bytes) (gid : UInt32)
    (hframes : ∀ f ∈ before ++ first :: after, f ∈ (FecCodec.encodeAll { cfg := cfg } payloads).1)
    (hfirst : InGroup gid first)
    (hnew : (FecCodec.decodeAll { cfg := cfg } before).2.recvGroups.lookup gid = none)
    (hnot : deliveries { cfg := cfg } gid (before ++ first :: after) = 0) :
    let c := (FecCodec.decodeAll { cfg := cfg } (before ++ [first])).2
    ((∀ mid, mid <+: after → heldOf (c.decodeAll mid).2 gid = groupSeqs gid (first :: mid)) ↔
      openings c after < kMaxReceiveGroups) ∧
    (openings c after < kMaxReceiveGroups →
      ∀ f ∈ (FecCodec.encodeAll { cfg := cfg } payloads).1, InGroup gid f →
      (groupSeqs gid (first :: (after ++ [f]))).card = cfg.numData →
      ((c.decodeAll after).2.decode f).1.length = cfg.numData) := by
  have hstorable : ∀ f ∈ before ++ first :: after, ∃ gid seq, Storable cfg gid seq f := fun f hf =>
    storable_of_encodeAll (hframes f hf)
  obtain ⟨hbefore, hrest⟩ := (deliveries_eq_zero_append _ gid before (first :: after)).mp hnot
  obtain ⟨hstored, hlater⟩ := (deliveries_eq_zero_cons _ gid first after).mp hrest
  have hr₀ := (receiveSide_create cfg).decodeAll before
  obtain ⟨place, hplace⟩ := standing_run (receiveSide_create cfg) (standing_create cfg gid)
    (fun f hf => hstorable f (List.mem_append_left _ hf)) hbefore
  have habsent : Standing (FecCodec.decodeAll { cfg := cfg } before).2 gid none := by
    cases hplace with
    | absent hnone hunlisted => exact .absent hnone hunlisted
    | held hheld _ _ _ => exact absurd hnew hheld
  -- the first frame opens the group and is stored in it
  obtain ⟨gid', seq, hf⟩ := hstorable first (by simp)
  obtain rfl := hf.inGroup.mp hfirst
  have hc : (FecCodec.decodeAll { cfg := cfg } (before ++ [first])).2 =
      ((FecCodec.decodeAll { cfg := cfg } before).2.decode first).2 := by
    rw [decodeAll_append]
    rfl
  rw [hc]
  have hr := hr₀.decode first
  have hstart : Standing ((FecCodec.decodeAll { cfg := cfg } before).2.decode first).2 gid'
      (some 0) ∧
      heldOf ((FecCodec.decodeAll { cfg := cfg } before).2.decode first).2 gid' = {seq} := by
    rcases hf.decode hr₀ with ⟨g, ht, hheld, -⟩ | ⟨-, -, -, hlen⟩
    · refine ⟨habsent.entered hr₀ ht (by simp), ?_⟩
      rw [heldOf_eq ht.self, hheld, heldOf_none hnew]
      rfl
    · have hpos := numData_pos cfg
      rw [hstored hfirst, List.length_nil] at hlen
      omega
  have hseqs : ∀ mid, groupSeqs gid' (first :: mid) = {seq} ∪ groupSeqs gid' mid := by
    intro mid
    rw [← List.singleton_append, groupSeqs_append, hf.groupSeqs, if_pos rfl]
  have hafter : ∀ f ∈ after, ∃ gid seq, Storable cfg gid seq f :=
    fun f hf => hstorable f (by simp [hf])
  have hkept : ∀ mid, mid <+: after →
      openings ((FecCodec.decodeAll { cfg := cfg } before).2.decode first).2 after <
        kMaxReceiveGroups →
      heldOf (((FecCodec.decodeAll { cfg := cfg } before).2.decode first).2.decodeAll mid).2 gid' =
        groupSeqs gid' (first :: mid) := by
    rintro mid ⟨tail, rfl⟩ hfew
    rw [openings_append] at hfew
    obtain ⟨hmid, -⟩ := (deliveries_eq_zero_append _ gid' mid tail).mp hlater
    rw [(hstart.1.kept hr (fun f hf => hafter f (List.mem_append_left _ hf)) hmid (by omega)).2,
      hstart.2, hseqs]
  refine ⟨⟨fun hall => ?_, fun hfew mid hmid => hkept mid hmid hfew⟩,
    fun hfew f hf' hin hcard => ?_⟩
  · by_contra hmany
    obtain ⟨mid, hmid, -, hgone⟩ := hstart.1.evicted hr hafter hlater (by omega)
    cases hgone with
    | absent hnone _ =>
      have hheld := hall mid hmid
      rw [heldOf_none hnone, hseqs] at hheld
      exact absurd hheld.symm (Finset.nonempty_iff_ne_empty.mp ⟨seq, by simp⟩)
  · obtain ⟨gid'', s, hs⟩ := storable_of_encodeAll hf'
    obtain rfl := hs.inGroup.mp hin
    have hheld := hkept after (List.prefix_refl after) hfew
    have hr₁ := hr.decodeAll after
    rcases hs.decode hr₁ with ⟨g, ht, hinsert, -⟩ | ⟨-, -, -, hlen⟩
    · have hshort := (hr₁.decode f).held_short gid''
      rw [heldOf_eq ht.self, hinsert, hheld] at hshort
      rw [← List.cons_append, groupSeqs_append, hs.groupSeqs, if_pos rfl,
        Finset.union_comm] at hcard
      exact absurd hcard hshort.ne
    · exact hlen

/-- Group 1 is opened, delivered and opened again while group 0 waits for its second frame. -/
theorem kept_iff_openings_pair :
    let c := (FecCodec.decodeAll { cfg := pairConfig } ([zeroFrame 2 0] ++ [zeroFrame 0 0])).2
    let c' := (c.decodeAll ([0, 1, 2].map (zeroFrame 1))).2
    openings c ([0, 1, 2].map (zeroFrame 1)) = 2 ∧ heldOf c' 0 = {0} ∧
      (c'.decode (zeroFrame 0 1)).1.length = 2 := by
  have hr := receiveSide_create pairConfig
  have hr₁ := hr.decode (zeroFrame 2 0)
  have h0 := zeroFrame_storable 0 (show 0 < 3 by decide)
  have h1 := zeroFrame_storable 0 (show 1 < 3 by decide)
  have h2 := zeroFrame_storable 2 (show 0 < 3 by decide)
  have hmem : ∀ g seq, g < 3 → seq < 3 → zeroFrame (UInt32.ofNat g) seq ∈
      (FecCodec.encodeAll { cfg := pairConfig } (List.replicate (2 * 3) [0])).1 :=
    fun g seq hg hseq => zeroFrame_mem g 3 hg hseq
  have hothers : ∀ f ∈ [0, 1, 2].map (zeroFrame 1), ∃ seq, seq < 3 ∧ f = zeroFrame 1 seq := by
    intro f hf
    obtain ⟨seq, hseq, rfl⟩ := List.mem_map.mp hf
    have hlt : ∀ seq ∈ [0, 1, 2], seq < 3 := by decide
    exact ⟨seq, hlt seq hseq, rfl⟩
  obtain ⟨entry, ht₂⟩ := h2.touches hr
  have habsent : ∀ gid, gid ≠ 2 →
      (FecCodec.decode { cfg := pairConfig } (zeroFrame 2 0)).2.recvGroups.lookup gid = none :=
    fun gid hgid => ht₂.absent hr hgid (AList.lookup_empty gid)
  -- the first frame of group 0 is stored and leaves group 1 alone
  obtain ⟨g, ht₀, -, hstored⟩ | ⟨-, -, hcard, -⟩ := h0.decode hr₁
  · have hnot : deliveries { cfg := pairConfig } 0
        ([zeroFrame 2 0] ++ zeroFrame 0 0 :: [0, 1, 2].map (zeroFrame 1)) = 0 := by
      refine (deliveries_eq_zero_append ..).mpr ⟨deliveries_of_not_inGroup _ fun f hf hin => ?_,
        (deliveries_eq_zero_cons ..).mpr ⟨fun _ => hstored,
          deliveries_of_not_inGroup _ fun f hf hin => ?_⟩⟩
      · obtain rfl := List.mem_singleton.mp hf
        exact absurd (h2.inGroup.mp hin) (by decide)
      · obtain ⟨seq, hseq, rfl⟩ := hothers f hf
        exact absurd ((zeroFrame_storable 1 hseq).inGroup.mp hin) (by decide)
    have hopenings := (openings_zeroFrames (hr₁.decode (zeroFrame 0 0))
      (ht₀.absent hr₁ (by decide) (habsent 1 (by decide)))).1
    have hrun := kept_iff_openings pairConfig (List.replicate (2 * 3) [0]) [zeroFrame 2 0]
      (zeroFrame 0 0)
      ([0, 1, 2].map (zeroFrame 1)) 0 ?_ (h0.inGroup.mpr rfl) (habsent 0 (by decide)) hnot
    · have hfew : openings (FecCodec.decodeAll { cfg := pairConfig }
          ([zeroFrame 2 0] ++ [zeroFrame 0 0])).2
          ([0, 1, 2].map (zeroFrame 1)) < kMaxReceiveGroups := lt_of_eq_of_lt hopenings (by decide)
      have hseqs : groupSeqs 0 (zeroFrame 0 0 :: [0, 1, 2].map (zeroFrame 1)) = {0} := by decide
      refine ⟨hopenings, (hrun.1.mpr hfew _ (List.prefix_refl _)).trans hseqs,
        hrun.2 hfew (zeroFrame 0 1) (hmem 0 1 (by decide) (by decide)) (h1.inGroup.mpr rfl) ?_⟩
      rw [← List.cons_append, groupSeqs_append, hseqs, h1.groupSeqs]
      decide
    · intro f hf
      simp only [List.mem_append, List.mem_cons, List.not_mem_nil, or_false] at hf
      rcases hf with rfl | rfl | hf
      · exact hmem 2 0 (by decide) (by decide)
      · exact hmem 0 0 (by decide) (by decide)
      · obtain ⟨seq, hseq, rfl⟩ := hothers f hf
        exact hmem 1 seq (by decide) hseq
  · rw [heldOf_none (habsent 0 (by decide))] at hcard
    exact absurd hcard (by decide)

/-! ## Groups that are opened again -/

lemma Standing.stays_absent {l : List Bytes} (hr : ReceiveSide cfg c) (hs : Standing c gid none)
    (hl : ∀ f ∈ l, ∃ gid seq, Storable cfg gid seq f) (hout : ∀ f ∈ l, ¬InGroup gid f) :
    Standing (c.decodeAll l).2 gid none := by
  induction l generalizing c with
  | nil => exact hs
  | cons f l ih =>
    obtain ⟨gid', seq, hf⟩ := hl f List.mem_cons_self
    obtain ⟨entry, ht⟩ := hf.touches hr
    have hgid : gid ≠ gid' := fun heq => hout f List.mem_cons_self (hf.inGroup.mpr heq.symm)
    exact ih (hr.decode f) (hs.passed_by hr ht hgid)
      (fun f' hf' => hl f' (List.mem_cons_of_mem f hf'))
      fun f' hf' => hout f' (List.mem_cons_of_mem f hf')

lemma openings_zeroGroups (gids : List UInt32) (hnd : gids.Nodup) (hr : ReceiveSide pairConfig c)
    (hnone : ∀ gid ∈ gids, c.recvGroups.lookup gid = none) :
    openings c (gids.flatMap fun gid => [0, 1, 2].map (zeroFrame gid)) = 2 * gids.length := by
  induction gids generalizing c with
  | nil => rfl
  | cons gid gids ih =>
    obtain ⟨hfirst, hothers⟩ := openings_zeroFrames hr (hnone gid List.mem_cons_self)
    obtain ⟨hnotin, hnd⟩ := List.nodup_cons.mp hnd
    rw [List.flatMap_cons, openings_append, hfirst, ih hnd (hr.decodeAll _), List.length_cons]
    · omega
    · intro gid' hgid'
      exact hothers gid' (fun heq => hnotin (heq ▸ hgid'))
        (hnone gid' (List.mem_cons_of_mem gid hgid'))

/-- The groups 1 to 128. -/
def otherGroups : List UInt32 := (List.range' 1 128).map UInt32.ofNat

def otherFrames : List Bytes := otherGroups.flatMap fun gid => [0, 1, 2].map (zeroFrame gid)

lemma mem_otherFrames {f : Bytes} (hf : f ∈ otherFrames) :
    ∃ g seq, 1 ≤ g ∧ g < 129 ∧ seq < 3 ∧ f = zeroFrame (UInt32.ofNat g) seq := by
  obtain ⟨gid, hgid, hf⟩ := List.mem_flatMap.mp hf
  obtain ⟨g, hg, rfl⟩ := List.mem_map.mp hgid
  obtain ⟨seq, hseq, rfl⟩ := List.mem_map.mp hf
  have hlt : ∀ seq ∈ [0, 1, 2], seq < 3 := by decide
  have hrange := List.mem_range'_1.mp hg
  exact ⟨g, seq, hrange.1, hrange.2, hlt seq hseq, rfl⟩

lemma otherGroups_nodup : otherGroups.Nodup := by
  refine List.Nodup.map_on (fun a ha b hb heq => ?_) List.nodup_range'
  have hlta := (List.mem_range'_1.mp ha).2
  have hltb := (List.mem_range'_1.mp hb).2
  have hnat := congrArg UInt32.toNat heq
  rw [UInt32.toNat_ofNat', UInt32.toNat_ofNat', Nat.mod_eq_of_lt (by omega),
    Nat.mod_eq_of_lt (by omega)] at hnat
  exact hnat

/-- The first frame of group 0, and then all frames of the 128 groups after it, each of them
once. -/
theorem late_frames_evict :
    (∀ f ∈ zeroFrame 0 0 :: otherFrames,
      f ∈ (FecCodec.encodeAll { cfg := pairConfig } (List.replicate 258 [0])).1) ∧
    heldOf (FecCodec.decode { cfg := pairConfig } (zeroFrame 0 0)).2 0 = {0} ∧
    (∀ f ∈ otherFrames, ¬InGroup 0 f) ∧
    (∀ f ∈ otherFrames, ∃ gid ∈ otherGroups, InGroup gid f) ∧ otherGroups.length = 128 ∧
    (FecCodec.decodeAll { cfg := pairConfig } (zeroFrame 0 0 :: otherFrames)).2.recvGroups.lookup
      0 = none := by
  have hr := receiveSide_create pairConfig
  have h0 := zeroFrame_storable 0 (show 0 < 3 by decide)
  have hstorable : ∀ f ∈ otherFrames, ∃ gid seq, Storable pairConfig gid seq f := by
    intro f hf
    obtain ⟨g, seq, -, -, hseq, rfl⟩ := mem_otherFrames hf
    exact ⟨_, seq, zeroFrame_storable _ hseq⟩
  have hout : ∀ f ∈ otherFrames, ¬InGroup 0 f := by
    intro f hf hin
    obtain ⟨g, seq, hpos, hlt, hseq, rfl⟩ := mem_otherFrames hf
    have hzero := congrArg UInt32.toNat ((zeroFrame_storable _ hseq).inGroup.mp hin)
    rw [UInt32.toNat_ofNat', Nat.mod_eq_of_lt (by omega)] at hzero
    exact absurd hzero (by simp; omega)
  obtain ⟨g, ht, hheld, -⟩ | ⟨-, -, hcard, -⟩ := h0.decode hr
  · have hfirst : heldOf (FecCodec.decode { cfg := pairConfig } (zeroFrame 0 0)).2 0 = {0} := by
      rw [heldOf_eq ht.self, hheld]
      rfl
    have hstart := (standing_create pairConfig 0).entered hr ht (by simp)
    have hr₁ := hr.decode (zeroFrame 0 0)
    have hlength : otherGroups.length = 128 := by simp [otherGroups]
    have hopenings := openings_zeroGroups otherGroups otherGroups_nodup hr₁ fun gid hgid => by
      refine ht.absent hr (fun heq => ?_) (AList.lookup_empty gid)
      obtain ⟨n, hn, rfl⟩ := List.mem_map.mp hgid
      have hrange := List.mem_range'_1.mp hn
      have hzero := congrArg UInt32.toNat heq
      rw [UInt32.toNat_ofNat', Nat.mod_eq_of_lt (by omega)] at hzero
      exact absurd hzero (by simp; omega)
    obtain ⟨mid, ⟨tail, htail⟩, -, hgone⟩ := hstart.evicted hr₁ hstorable
      (deliveries_of_not_inGroup _ hout)
      (by rw [otherFrames, hopenings, hlength]; decide)
    have hend : Standing (FecCodec.decodeAll { cfg := pairConfig } (zeroFrame 0 0 :: otherFrames)).2
        0 none := by
      have hlast := hgone.stays_absent (hr₁.decodeAll mid)
        (fun f hf => hstorable f (htail ▸ List.mem_append_right mid hf))
        (fun f hf => hout f (htail ▸ List.mem_append_right mid hf))
      rw [FecCodec.decodeAll, ← htail, decodeAll_append]
      exact hlast
    refine ⟨fun f hf => ?_, hfirst, hout, fun f hf => ?_, hlength, ?_⟩
    · rcases List.mem_cons.mp hf with rfl | hf
      · exact zeroFrame_mem 0 129 (by decide) (by decide)
      · obtain ⟨g, seq, -, hlt, hseq, rfl⟩ := mem_otherFrames hf
        exact zeroFrame_mem g 129 hlt hseq
    · obtain ⟨gid, hgid, hf⟩ := List.mem_flatMap.mp hf
      obtain ⟨seq, -, rfl⟩ := List.mem_map.mp hf
      exact ⟨gid, hgid, inGroup_groupFrame.mpr rfl⟩
    · cases hend with
      | absent hnone _ => exact hnone
  · exact absurd hcard (by decide)

end MeshNetwork.Proofs
