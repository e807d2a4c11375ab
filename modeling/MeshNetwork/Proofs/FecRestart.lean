import MeshNetwork.Proofs.FecChannel
import MeshNetwork.Proofs.FecReceive

/-!
# Sender restarts

Frames of an encoder followed by frames of a freshly constructed one, at one decoder. Group ids
start again at zero and a frame does not say which encoder it is of, so what matters is which
groups the decoder still holds when the frames of the second encoder reach them.
-/

namespace MeshNetwork.Proofs

variable {cfg : FecConfig} {c : FecCodec}

/-- The frame `f` belongs to group `gid`. -/
def InGroup (gid : UInt32) (f : Bytes) : Prop := ∃ hdr, parseHeader f = some hdr ∧ hdr.groupId = gid

lemma inGroup_groupFrame {gid gid' : UInt32} {ps : List Bytes} {seq : Nat} :
    InGroup gid' (groupFrame cfg gid ps seq) ↔ gid = gid' := by
  simp [InGroup, parseHeader_groupFrame, frameHeader]

lemma holdsPart_of_none {gid : UInt32} (hcfg : c.cfg = cfg) (hnone : c.recvGroups.lookup gid = none)
    (ps : List Bytes) : HoldsPart cfg gid ps c := by
  refine ⟨hcfg, fun g hg => ?_, ?_⟩
  · rw [hnone] at hg
    cases hg
  · rw [heldOf_none hnone]
    exact numData_pos cfg

/-- Datagrams of other groups do not add to what is held of a group. -/
lemma HoldsPart.of_othersKept {gid gid' : UInt32} {ps : List Bytes} {c' : FecCodec}
    (h : HoldsPart cfg gid ps c) (hcfg : c'.cfg = cfg) (hkept : OthersKept gid' c c')
    (hne : gid ≠ gid') :
    HoldsPart cfg gid ps c' := by
  rcases hkept gid hne with heq | hnone
  · refine ⟨hcfg, fun g hg => h.holds g (heq ▸ hg), ?_⟩
    unfold heldOf
    rw [heq]
    exact h.short
  · exact holdsPart_of_none hcfg hnone ps

/-- What one encoder sends reaches a decoder that may hold anything of groups other than `gid`. -/
lemma decodeAll_part {Q : UInt32 → List Bytes} (hQ : ∀ gid, GroupSent cfg (Q gid)) (gid : UInt32)
    (arrivals : List Bytes) (hr : ReceiveSide cfg c) (h : HoldsPart cfg gid (Q gid) c)
    (hf : ∀ f ∈ arrivals, FrameOf cfg Q f) :
    ∀ x ∈ arrivals.zip (c.decodeAll arrivals).1, x.2 ≠ [] → InGroup gid x.1 →
      x.2 = Q gid ∧ x.2.length = cfg.numData := by
  induction arrivals generalizing c with
  | nil =>
    intro x hx
    exact absurd hx List.not_mem_nil
  | cons f arrivals ih =>
    obtain ⟨gid', seq, hadm, rfl⟩ := hf f List.mem_cons_self
    have hrest : ∀ f ∈ arrivals, FrameOf cfg Q f := fun g hg => hf g (List.mem_cons_of_mem _ hg)
    have hr' := hr.decode (groupFrame cfg gid' (Q gid') seq)
    intro x hx hne hgroup
    rw [FecCodec.decodeAll, List.zip_cons_cons] at hx
    by_cases hgid : gid = gid'
    · subst hgid
      obtain ⟨hnext, -, hout⟩ := h.decode (hQ gid) hadm
      rcases List.mem_cons.mp hx with rfl | hx
      · dsimp only at hne ⊢
        generalize (c.decode (groupFrame cfg gid (Q gid) seq)).1 = res at hout hne ⊢
        cases hout with
        | duplicate _ _ => exact absurd rfl hne
        | stored _ _ _ => exact absurd rfl hne
        | delivered _ _ hlen _ => exact ⟨rfl, hlen⟩
      · exact ih hr' hnext hrest x hx hne hgroup
    · have hkept := hr.decode_othersKept (parseHeader_groupFrame cfg gid' (Q gid') seq)
      rcases List.mem_cons.mp hx with rfl | hx
      · exact absurd (inGroup_groupFrame.mp hgroup).symm hgid
      · exact ih hr' (h.of_othersKept hr'.cfg_eq hkept hgid) hrest x hx hne hgroup

/-- Frames of an encoder and then of a second one are never combined in a group of which the decoder
has let go since the second one sends, whatever it still holds of other groups. -/
theorem decodeAll_restart (cfg : FecConfig) (enc dec : FecCodec)
    (henc : FecCodec.create cfg.k cfg.m = .ok enc) (hdec : FecCodec.create cfg.k cfg.m = .ok dec)
    (payloads₁ payloads₂ : List Bytes)
    (hgroups₁ : (acceptedPayloads cfg payloads₁).length / cfg.numData < 2 ^ 32)
    (hgroups₂ : (acceptedPayloads cfg payloads₂).length / cfg.numData < 2 ^ 32)
    (first second : List Bytes)
    (hfirst : ∀ f ∈ first, f ∈ (enc.encodeAll payloads₁).1)
    (hsecond : ∀ f ∈ second, f ∈ (enc.encodeAll payloads₂).1) :
    (∀ x ∈ first.zip (dec.decodeAll first).1, x.2 ≠ [] → ∃ hdr, parseHeader x.1 = some hdr ∧
      x.2 = enc.encodedIn hdr.groupId payloads₁ ∧ x.2.length = cfg.numData) ∧
    ∀ gid before after, second = before ++ after →
      (dec.decodeAll (first ++ before)).2.recvGroups.lookup gid = none →
      ∀ x ∈ after.zip ((dec.decodeAll (first ++ before)).2.decodeAll after).1, x.2 ≠ [] →
        InGroup gid x.1 → x.2 = enc.encodedIn gid payloads₂ ∧ x.2.length = cfg.numData := by
  obtain rfl : { cfg := cfg } = enc := Except.ok.inj ((create_eq cfg).symm.trans henc)
  obtain rfl : { cfg := cfg } = dec := Except.ok.inj ((create_eq cfg).symm.trans hdec)
  constructor
  · exact decodeAll_payloads (groupSent_encodedIn hgroups₁) first (decoding_create cfg _)
      fun f hf => frameOf_encodeAll hgroups₁ (hfirst f hf)
  · rintro gid before after rfl hnone
    have hr := (receiveSide_create cfg).decodeAll (first ++ before)
    exact decodeAll_part (groupSent_encodedIn hgroups₂) gid after hr
      (holdsPart_of_none hr.cfg_eq hnone _)
      fun f hf => frameOf_encodeAll hgroups₂ (hsecond f (List.mem_append_right before hf))

/-- Group 0 as it is put together from the frames of two encoders, and group 1 of the second one. -/
def restartGroups (gid : UInt32) : List Bytes := if gid = 0 then [[1], [6]] else [[7], [8]]

/-- Group 0 is mixed, since the decoder still holds `[1]` of it; group 1 is not affected by that. -/
theorem decodeAll_restart_pair :
    (FecCodec.decodeAll { cfg := pairConfig } ([groupFrame pairConfig 0 [[1], [2]] 0] ++
      [groupFrame pairConfig 0 [[5], [6]] 1, groupFrame pairConfig 1 [[7], [8]] 0,
        groupFrame pairConfig 1 [[7], [8]] 1])).1 = [[], [[1], [6]], [], [[7], [8]]] ∧
    [[7], [8]] = FecCodec.encodedIn { cfg := pairConfig } 1 [[5], [6], [7], [8]] ∧
      [([7] : Bytes), [8]].length = 2 := by
  have h0 : groupFrame pairConfig 0 [[1], [2]] 0 = groupFrame pairConfig 0 (restartGroups 0) 0 :=
    groupFrame_data_congr pairConfig 0 (by decide) rfl
  have h1 : groupFrame pairConfig 0 [[5], [6]] 1 = groupFrame pairConfig 0 (restartGroups 0) 1 :=
    groupFrame_data_congr pairConfig 0 (by decide) rfl
  have hsent : ∀ gid, GroupSent pairConfig (restartGroups gid) := by
    intro gid
    unfold restartGroups
    split_ifs <;> exact ⟨by decide, by decide⟩
  have hadm : ∀ seq < 2, ∀ gid, Admissible pairConfig (restartGroups gid) seq := by
    intro seq hseq gid
    unfold restartGroups
    split_ifs <;> exact .inl hseq
  have hcreate := decoding_create pairConfig restartGroups
  obtain ⟨hdecoding₁, hkept₁, -⟩ := decode_spec hcreate (hsent 0) (hadm 0 (by decide) 0)
  obtain ⟨hdecoding₂, hkept₂, -⟩ := decode_spec hdecoding₁ (hsent 0) (hadm 1 (by decide) 0)
  have hnone₁ := (hkept₁ 1 (by decide)).elim (·.trans (AList.lookup_empty 1)) id
  have hempty := heldOf_none ((hkept₂ 1 (by decide)).elim (·.trans hnone₁) id)
  have hmixed := decodeAll_completes restartGroups 0 (hsent 0) [0] 1 hcreate
    (fun t ht => hadm t (by revert t; decide) 0) (by decide) (by decide)
  have hclean := decodeAll_completes restartGroups 1 (hsent 1) [0] 1 hdecoding₂
    (fun t ht => hadm t (by revert t; decide) 1) (hempty ▸ by decide) (hempty ▸ by decide)
  have hmem : ∀ f ∈ [groupFrame pairConfig 0 [[5], [6]] 1, groupFrame pairConfig 1 [[7], [8]] 0,
      groupFrame pairConfig 1 [[7], [8]] 1],
      f ∈ (FecCodec.encodeAll { cfg := pairConfig } [[5], [6], [7], [8]]).1 := by
    intro f hf
    simp only [List.mem_cons, List.not_mem_nil, or_false] at hf
    rcases hf with rfl | rfl | rfl
    · exact mem_encodeAll_iff.mpr ⟨1, by decide, List.mem_cons_self⟩
    · exact mem_encodeAll_iff.mpr ⟨2, by decide, List.mem_cons_self⟩
    · exact mem_encodeAll_iff.mpr ⟨3, by decide, List.mem_cons_self⟩
  have hrestart := (decodeAll_restart pairConfig _ _ (create_eq _) (create_eq _) [[1], [2]]
    [[5], [6], [7], [8]] (by decide) (by decide) [groupFrame pairConfig 0 [[1], [2]] 0] _
    (fun f hf => List.mem_singleton.mp hf ▸ mem_encodeAll_iff.mpr ⟨0, by decide,
      List.mem_cons_self⟩)
    hmem).2 1 [] _ rfl
  have hg : restartGroups 1 = [[7], [8]] := rfl
  rw [h0, h1, ← hg] at hrestart ⊢
  simp only [List.append_nil, List.cons_append, List.nil_append, List.map_cons, List.map_nil,
    FecCodec.decodeAll, List.replicate, List.length_cons,
    List.length_nil] at hmixed hclean hrestart ⊢
  simp only [List.cons.injEq, and_true] at hmixed hclean
  rw [hmixed.2, hclean.1, hclean.2] at hrestart
  rw [hmixed.1, hmixed.2, hclean.1, hclean.2]
  exact ⟨rfl, hrestart hnone₁ (groupFrame pairConfig 1 (restartGroups 1) 1,
    restartGroups 1) (by simp)
    (by decide) (inGroup_groupFrame.mpr rfl)⟩

lemma mem_of_encodedIn {payloads : List Bytes}
    (hgroups : (acceptedPayloads cfg payloads).length / cfg.numData < 2 ^ 32) {gid : UInt32}
    {p : Bytes} (hp : p ∈ FecCodec.encodedIn { cfg := cfg } gid payloads) : p ∈ payloads := by
  rw [encodedIn_fresh hgroups] at hp
  exact List.mem_of_mem_filter (List.mem_of_mem_drop (List.mem_of_mem_take hp))

/-- The first encoder stops in the middle of group 0, and the second one continues the group. -/
theorem restart_mixes_payloads :
    ¬∀ payloads₁ payloads₂ first second : List Bytes,
      (∀ f ∈ first, f ∈ (FecCodec.encodeAll { cfg := pairConfig } payloads₁).1) →
      (∀ f ∈ second, f ∈ (FecCodec.encodeAll { cfg := pairConfig } payloads₂).1) →
      ∀ out ∈ (FecCodec.decodeAll { cfg := pairConfig } (first ++ second)).1, out ≠ [] →
        ∃ gid, out = FecCodec.encodedIn { cfg := pairConfig } gid payloads₁ ∨
          out = FecCodec.encodedIn { cfg := pairConfig } gid payloads₂ := by
  intro h
  have hmem : ∀ (ps : List Bytes) (seq : Nat), seq < 3 → ps.length = 2 →
      (∀ p ∈ ps, p.length ≤ 65531) →
      groupFrame pairConfig 0 ps seq ∈ (FecCodec.encodeAll { cfg := pairConfig } ps).1 :=
    fun ps seq hseq hlen hmax => (mem_encodeAll_group .create rfl hlen hmax).mpr ⟨seq, hseq, rfl⟩
  -- together the two frames are those of a group with `[1]` and `[4]`
  have h0 : groupFrame pairConfig 0 [[1], [2]] 0 = groupFrame pairConfig 0 [[1], [4]] 0 :=
    groupFrame_data_congr pairConfig 0 (by decide) rfl
  have h1 : groupFrame pairConfig 0 [[3], [4]] 1 = groupFrame pairConfig 0 [[1], [4]] 1 :=
    groupFrame_data_congr pairConfig 0 (by decide) rfl
  have hout : (FecCodec.decodeAll { cfg := pairConfig }
      ([groupFrame pairConfig 0 [[1], [2]] 0] ++ [groupFrame pairConfig 0 [[3], [4]] 1])).1 =
        [[], [[1], [4]]] := by
    rw [h0, h1]
    change (FecCodec.decodeAll _ (([0] ++ [1]).map (groupFrame pairConfig 0 [[1], [4]]))).1 = _
    apply decodeAll_completes (fun _ => [[1], [4]]) 0 ⟨by decide, by decide⟩ [0] 1
      (decoding_create pairConfig _)
    · intro t ht
      have hle : ∀ t ∈ [0] ++ [1], t < 3 := by decide
      exact .inr ⟨rfl, hle t ht⟩
    · decide
    · decide
  obtain ⟨gid, hgid⟩ := h [[1], [2]] [[3], [4]] [groupFrame pairConfig 0 [[1], [2]] 0]
    [groupFrame pairConfig 0 [[3], [4]] 1]
    (fun f hf => List.mem_singleton.mp hf ▸ hmem _ 0 (by decide) rfl (by decide))
    (fun f hf => List.mem_singleton.mp hf ▸ hmem _ 1 (by decide) rfl (by decide))
    [[1], [4]] (by rw [hout]; simp) (by simp)
  rcases hgid with hgid | hgid
  · have hmem : ([4] : Bytes) ∈ [[1], [2]] :=
      mem_of_encodedIn (by decide) (hgid ▸ List.mem_cons_of_mem _ List.mem_cons_self)
    exact absurd hmem (by decide)
  · have hmem : ([1] : Bytes) ∈ [[3], [4]] :=
      mem_of_encodedIn (by decide) (hgid ▸ List.mem_cons_self)
    exact absurd hmem (by decide)

end MeshNetwork.Proofs
