import MeshNetwork.Proofs.FecChannel

/-!
# A stream of groups over a channel that loses frames

The frames of an encoder arrive in the order in which they were sent, some of them not at all. Each
group is then delivered once for every `k` of its frames that arrive, and the deliveries are in the
order of the groups.
-/

namespace MeshNetwork.Proofs

/-! ## One group -/

lemma OthersKept.trans {gid : UInt32} {c c' c'' : FecCodec} (h : OthersKept gid c c')
    (h' : OthersKept gid c' c'') :
    OthersKept gid c c'' := by
  intro g hg
  rcases h' g hg with heq | hnone
  · rw [heq]
    exact h g hg
  · exact .inr hnone

/-- Every `k` frames of a group deliver it. -/
lemma decodeAll_group {cfg : FecConfig} {P : UInt32 → List Bytes} (gid : UInt32)
    (hP : GroupSent cfg (P gid)) (seqs : List Nat) (hdistinct : seqs.Nodup) {c : FecCodec}
    (h : Decoding cfg P c) (hadm : ∀ s ∈ seqs, Admissible cfg (P gid) s)
    (hnew : ∀ s ∈ seqs, s ∉ heldOf c gid) :
    (c.decodeAll (seqs.map (groupFrame cfg gid (P gid)))).1.flatten =
        (List.replicate (((heldOf c gid).card + seqs.length) / cfg.numData) (P gid)).flatten ∧
      Decoding cfg P (c.decodeAll (seqs.map (groupFrame cfg gid (P gid)))).2 ∧
      OthersKept gid c (c.decodeAll (seqs.map (groupFrame cfg gid (P gid)))).2 := by
  induction seqs generalizing c with
  | nil =>
    refine ⟨?_, h, fun g _ => .inl rfl⟩
    rw [List.length_nil, Nat.add_zero, Nat.div_eq_of_lt (h.short gid)]
    rfl
  | cons s seqs ih =>
    obtain ⟨hs, hdistinct⟩ := List.nodup_cons.mp hdistinct
    obtain ⟨hnext, hkept, hout⟩ := decode_spec h hP (hadm s List.mem_cons_self)
    rw [List.map_cons, FecCodec.decodeAll]
    have hadm' : ∀ t ∈ seqs, Admissible cfg (P gid) t :=
      fun t ht => hadm t (List.mem_cons_of_mem s ht)
    have hlater : ∀ t ∈ seqs, t ∉ insert s (heldOf c gid) := by
      intro t ht hmem
      rcases Finset.mem_insert.mp hmem with rfl | hheld
      · exact hs ht
      · exact hnew t (List.mem_cons_of_mem s ht) hheld
    dsimp only
    generalize (c.decode (groupFrame cfg gid (P gid) s)).1 = res at hout ⊢
    rw [List.flatten_cons]
    cases hout with
    | duplicate hmem _ => exact absurd hmem (hnew s List.mem_cons_self)
    | stored hfresh _ hafter =>
      obtain ⟨hrest, hdec, hkept'⟩ := ih hdistinct hnext hadm' (by rw [hafter]; exact hlater)
      refine ⟨?_, hdec, hkept.trans hkept'⟩
      rw [hrest, hafter, Finset.card_insert_of_notMem hfresh, List.length_cons, List.nil_append]
      congr 3
      omega
    | delivered hfresh hfull _ hafter =>
      obtain ⟨hrest, hdec, hkept'⟩ :=
        ih hdistinct hnext hadm' (by rw [hafter]; exact fun t _ => Finset.notMem_empty t)
      refine ⟨?_, hdec, hkept.trans hkept'⟩
      have hcount : ((heldOf c gid).card + (s :: seqs).length) / cfg.numData = seqs.length /
          cfg.numData + 1 := by
        rw [List.length_cons, ← Nat.add_div_right _ (numData_pos cfg)]
        congr 1
        omega
      rw [hrest, hafter, hcount, Finset.card_empty, Nat.zero_add, List.replicate_succ,
        List.flatten_cons]

/-! ## Groups in order -/

/-- How many of the datagrams belong to a group. -/
def groupArrivals (gid : UInt32) (datagrams : List Bytes) : Nat :=
  datagrams.countP fun dg => (parseHeader dg).any fun h => h.groupId = gid

lemma groupArrivals_append (gid : UInt32) (l₁ l₂ : List Bytes) :
    groupArrivals gid (l₁ ++ l₂) = groupArrivals gid l₁ + groupArrivals gid l₂ :=
  List.countP_append

lemma groupArrivals_own (cfg : FecConfig) (gid : UInt32) (ps : List Bytes) (seqs : List Nat) :
    groupArrivals gid (seqs.map (groupFrame cfg gid ps)) = seqs.length := by
  unfold groupArrivals
  rw [List.countP_map, List.countP_eq_length.mpr]
  intro s _
  rw [Function.comp_apply, parseHeader_groupFrame]
  exact decide_eq_true rfl

lemma groupArrivals_other (cfg : FecConfig) {gid gid' : UInt32} (hne : gid' ≠ gid) (ps : List Bytes)
    (seqs : List Nat) :
    groupArrivals gid (seqs.map (groupFrame cfg gid' ps)) = 0 := by
  unfold groupArrivals
  rw [List.countP_map, List.countP_eq_zero]
  intro s _ hs
  rw [Function.comp_apply, parseHeader_groupFrame] at hs
  exact hne (of_decide_eq_true hs)

/-- The frames of a list of groups, each with its sequence numbers. -/
def groupsFrames (cfg : FecConfig) (P : UInt32 → List Bytes)
    (groups : List (UInt32 × List Nat)) : List Bytes :=
  groups.flatMap fun group => group.2.map (groupFrame cfg group.1 (P group.1))

lemma groupArrivals_absent {cfg : FecConfig} {P : UInt32 → List Bytes} {gid : UInt32}
    {groups : List (UInt32 × List Nat)} (hgid : gid ∉ groups.map Prod.fst) {arrivals : List Bytes}
    (harrivals : arrivals.Sublist (groupsFrames cfg P groups)) :
    groupArrivals gid arrivals = 0 := by
  have hall : groupArrivals gid (groupsFrames cfg P groups) = 0 := by
    refine List.countP_eq_zero.mpr fun dg hdg hin => ?_
    obtain ⟨group, hgroup, hdg⟩ := List.mem_flatMap.mp hdg
    obtain ⟨s, -, rfl⟩ := List.mem_map.mp hdg
    rw [parseHeader_groupFrame] at hin
    have heq : group.1 = gid := of_decide_eq_true hin
    exact hgid (heq ▸ List.mem_map_of_mem hgroup)
  have hle : groupArrivals gid arrivals ≤ groupArrivals gid (groupsFrames cfg P groups) :=
    harrivals.countP_le
  omega

/-- No frame arrives twice. -/
lemma groupArrivals_le {cfg : FecConfig} {P : UInt32 → List Bytes}
    {groups : List (UInt32 × List Nat)} (hids : (groups.map Prod.fst).Nodup)
    {group : UInt32 × List Nat} (hgroup : group ∈ groups) {arrivals : List Bytes}
    (harrivals : arrivals.Sublist (groupsFrames cfg P groups)) :
    groupArrivals group.1 arrivals ≤ group.2.length := by
  obtain ⟨before, after, rfl⟩ := List.append_of_mem hgroup
  rw [List.map_append, List.map_cons, List.nodup_append, List.nodup_cons] at hids
  obtain ⟨-, ⟨hafter, -⟩, hdisjoint⟩ := hids
  have hbefore : group.1 ∉ before.map Prod.fst :=
    fun hmem => hdisjoint _ hmem _ List.mem_cons_self rfl
  have hle : groupArrivals group.1 arrivals ≤
      groupArrivals group.1 (groupsFrames cfg P (before ++ group :: after)) :=
    harrivals.countP_le
  have hall : groupsFrames cfg P (before ++ group :: after) = groupsFrames cfg P before ++
      (group.2.map (groupFrame cfg group.1 (P group.1)) ++ groupsFrames cfg P after) := by
    unfold groupsFrames
    rw [List.flatMap_append, List.flatMap_cons]
  rw [hall, groupArrivals_append, groupArrivals_append, groupArrivals_own,
    groupArrivals_absent hbefore (List.Sublist.refl _),
    groupArrivals_absent hafter (List.Sublist.refl _)] at hle
  omega

/-- What arrives of a list of groups delivers each of them once for every `k` frames. -/
lemma decodeAll_groups {cfg : FecConfig} {P : UInt32 → List Bytes}
    (hP : ∀ gid, GroupSent cfg (P gid)) (groups : List (UInt32 × List Nat))
    (hids : (groups.map Prod.fst).Nodup)
    (hseqs : ∀ group ∈ groups, group.2.Nodup ∧ ∀ s ∈ group.2, Admissible cfg (P group.1) s)
    {c : FecCodec} (h : Decoding cfg P c) (hfresh : ∀ group ∈ groups, heldOf c group.1 = ∅)
    {arrivals : List Bytes} (harrivals : arrivals.Sublist (groupsFrames cfg P groups)) :
    (c.decodeAll arrivals).1.flatten = groups.flatMap fun group =>
      (List.replicate (groupArrivals group.1 arrivals / cfg.numData) (P group.1)).flatten := by
  induction groups generalizing c arrivals with
  | nil =>
    obtain rfl : arrivals = [] := List.sublist_nil.mp harrivals
    rfl
  | cons group groups ih =>
    obtain ⟨hid, hids⟩ := List.nodup_cons.mp hids
    obtain ⟨hdistinct, hadm⟩ := hseqs group List.mem_cons_self
    have hsplit : arrivals.Sublist (group.2.map (groupFrame cfg group.1 (P group.1)) ++
        groupsFrames cfg P groups) :=
      harrivals
    obtain ⟨l₁, rest, rfl, hfirst, hrest⟩ := List.sublist_append_iff.mp hsplit
    obtain ⟨seqs, hsub, rfl⟩ := List.sublist_map_iff.mp hfirst
    have hheld := hfresh group List.mem_cons_self
    obtain ⟨hout, hdec, hkept⟩ := decodeAll_group group.1 (hP group.1) seqs
      (hdistinct.sublist hsub) h
      (fun s hs => hadm s (hsub.mem hs)) (by rw [hheld]; exact fun s _ => Finset.notMem_empty s)
    have hne : ∀ other ∈ groups, other.1 ≠ group.1 := fun other hother heq =>
      hid (heq ▸ List.mem_map_of_mem hother)
    have hfresh' : ∀ other ∈ groups, heldOf
        (c.decodeAll (seqs.map (groupFrame cfg group.1 (P group.1)))).2
        other.1 = ∅ := by
      intro other hother
      rcases hkept.heldOf (hne other hother) with heq | hempty
      · rw [heq]
        exact hfresh other (List.mem_cons_of_mem _ hother)
      · exact hempty
    have hlater :=
      ih hids (fun other hother => hseqs other (List.mem_cons_of_mem _ hother)) hdec hfresh' hrest
    rw [decodeAll_append, List.flatten_append, hout, hlater, List.flatMap_cons,
      groupArrivals_append, groupArrivals_own, groupArrivals_absent hid hrest, hheld,
      Finset.card_empty, Nat.zero_add, Nat.add_zero]
    congr 1
    refine List.flatMap_congr fun other hother => ?_
    rw [groupArrivals_append, groupArrivals_other cfg (Ne.symm (hne other hother)), Nat.zero_add]

/-! ## The frames of an encoder -/

section Frames

variable (cfg : FecConfig) (H : List Bytes)

/-- The groups of `n` payloads: complete ones with their parity frames, and what there is of the
next one. -/
def sentGroups (n : Nat) : List (UInt32 × List Nat) :=
  (List.range (n / cfg.numData)).map (fun g =>
    (UInt32.ofNat g, List.range (cfg.numData + cfg.numRoots))) ++
    [(UInt32.ofNat (n / cfg.numData), List.range (n % cfg.numData))]

lemma emitted_at (g : Nat) {i : Nat} (hi : i < cfg.numData) :
    emitted cfg H (g * cfg.numData + i) = groupFrame cfg (UInt32.ofNat g)
      (groupPayloads cfg H g) i ::
      if i + 1 = cfg.numData then
        (List.range cfg.numRoots).map fun j =>
          groupFrame cfg (UInt32.ofNat g) (groupPayloads cfg H g) (cfg.numData + j)
      else [] := by
  have hdiv : (g * cfg.numData + i) / cfg.numData = g := by
    rw [Nat.add_comm, Nat.add_mul_div_right _ _ (numData_pos cfg), Nat.div_eq_of_lt hi,
      Nat.zero_add]
  have hmod : (g * cfg.numData + i) % cfg.numData = i := by
    rw [Nat.mul_add_mod_self_right, Nat.mod_eq_of_lt hi]
  unfold emitted
  rw [hdiv, hmod]

/-- Data frames alone, until the group is complete. -/
lemma emitted_incomplete (g : Nat) {r : Nat} (hr : r < cfg.numData) :
    ((List.range r).flatMap fun i => emitted cfg H (g * cfg.numData + i)) =
      (List.range r).map (groupFrame cfg (UInt32.ofNat g) (groupPayloads cfg H g)) := by
  rw [List.map_eq_flatMap]
  refine List.flatMap_congr fun i hi => ?_
  have hlt := List.mem_range.mp hi
  rw [emitted_at cfg H g (by omega), if_neg (by omega)]

/-- A complete group: its data frames and its parity frames. -/
lemma emitted_complete (g : Nat) :
    ((List.range cfg.numData).flatMap fun i => emitted cfg H (g * cfg.numData + i)) =
      (List.range (cfg.numData + cfg.numRoots)).map
        (groupFrame cfg (UInt32.ofNat g) (groupPayloads cfg H g)) := by
  obtain ⟨r, hr⟩ := Nat.exists_eq_add_one.mpr (numData_pos cfg)
  have hlast := emitted_at cfg H g (i := r) (by omega)
  rw [if_pos hr.symm] at hlast
  have hrange : List.range cfg.numData = List.range r ++ [r] := by rw [hr, List.range_succ]
  rw [List.range_add, List.map_append, List.map_map, hrange, List.flatMap_append,
    List.flatMap_singleton, hlast, emitted_incomplete cfg H g (by omega), List.map_append,
    List.map_singleton, List.append_assoc]
  rfl

lemma emitted_groups (hgroups : H.length / cfg.numData < 2 ^ 32) :
    (List.range H.length).flatMap (emitted cfg H) =
      groupsFrames cfg (fun gid => groupPayloads cfg H gid.toNat) (sentGroups cfg H.length) := by
  have hself : ∀ g, g ≤ H.length / cfg.numData → (UInt32.ofNat g).toNat = g := by
    intro g hg
    rw [UInt32.toNat_ofNat', Nat.mod_eq_of_lt (by omega)]
  have hsplit : H.length = H.length / cfg.numData * cfg.numData + H.length % cfg.numData :=
    (Nat.div_add_mod' _ _).symm
  unfold groupsFrames sentGroups
  rw [List.flatMap_append, List.flatMap_map, List.flatMap_singleton]
  dsimp only
  rw [hself _ le_rfl, ← emitted_incomplete cfg H _ (Nat.mod_lt _ (numData_pos cfg))]
  nth_rewrite 1 [hsplit]
  rw [List.range_add, List.flatMap_append, List.flatMap_range_mul, List.flatMap_map]
  congr 1
  refine List.flatMap_congr fun g hg => ?_
  rw [emitted_complete, hself g (List.mem_range.mp hg).le]

end Frames

/-! ## The stream -/

section Stream

variable {cfg : FecConfig} {payloads arrivals : List Bytes}

/-- The payloads that a decoder delivers of the groups of `H`, if it gets these frames of them. -/
def thinnedStream (cfg : FecConfig) (H arrivals : List Bytes) : List Bytes :=
  (List.range (H.length / cfg.numData)).flatMap fun g =>
    (List.replicate (groupArrivals (UInt32.ofNat g) arrivals / cfg.numData)
      (groupPayloads cfg H g)).flatten

lemma sentGroups_ids {n : Nat} (hgroups : n / cfg.numData < 2 ^ 32) :
    ((sentGroups cfg n).map Prod.fst).Nodup := by
  have hids : (sentGroups cfg n).map Prod.fst =
      (List.range (n / cfg.numData + 1)).map UInt32.ofNat := by
    simp [sentGroups, List.range_succ, Function.comp_def]
  rw [hids]
  refine List.Nodup.map_on (fun a ha b hb hab => ?_) List.nodup_range
  have ha := List.mem_range.mp ha
  have hb := List.mem_range.mp hb
  rw [uint32_ofNat_eq_iff (by omega), UInt32.toNat_ofNat', Nat.mod_eq_of_lt (by omega)] at hab
  exact hab

lemma sentGroups_admissible {H : List Bytes} (hgroups : H.length / cfg.numData < 2 ^ 32) :
    ∀ group ∈ sentGroups cfg H.length, group.2.Nodup ∧
      ∀ s ∈ group.2, Admissible cfg (groupPayloads cfg H group.1.toNat) s := by
  have hsplit := Nat.div_add_mod' H.length cfg.numData
  intro group hgroup
  rcases List.mem_append.mp hgroup with hcomplete | hlast
  · obtain ⟨g, hg, rfl⟩ := List.mem_map.mp hcomplete
    have hg := List.mem_range.mp hg
    refine ⟨List.nodup_range, fun s hs => .inr ⟨?_, List.mem_range.mp hs⟩⟩
    have hmul := Nat.mul_le_mul_right cfg.numData (Nat.succ_le_of_lt hg)
    rw [groupPayloads_length, UInt32.toNat_ofNat', Nat.mod_eq_of_lt (by omega)]
    rw [Nat.succ_mul] at hmul
    omega
  · rw [List.mem_singleton.mp hlast]
    refine ⟨List.nodup_range, fun s hs => .inl ?_⟩
    have hs := List.mem_range.mp hs
    have hlt := Nat.mod_lt H.length (numData_pos cfg)
    rw [groupPayloads_length, UInt32.toNat_ofNat', Nat.mod_eq_of_lt hgroups]
    omega

lemma encodeAll_groups (hgroups : (acceptedPayloads cfg payloads).length / cfg.numData < 2 ^ 32) :
    (FecCodec.encodeAll { cfg := cfg } payloads).1 =
      groupsFrames cfg (fun gid => groupPayloads cfg (acceptedPayloads cfg payloads) gid.toNat)
        (sentGroups cfg (acceptedPayloads cfg payloads).length) := by
  rw [(encodeAll_spec (sent_create cfg) payloads).1, List.length_nil, ← List.range_eq_range',
    List.nil_append, emitted_groups cfg _ hgroups]

/-- The frames of a new encoder, some of them lost, at a new decoder. -/
lemma decodeAll_thinned (hgroups : (acceptedPayloads cfg payloads).length / cfg.numData < 2 ^ 32)
    (harrivals : arrivals.Sublist (FecCodec.encodeAll { cfg := cfg } payloads).1) :
    (FecCodec.decodeAll { cfg := cfg } arrivals).1.flatten =
      thinnedStream cfg (acceptedPayloads cfg payloads) arrivals := by
  rw [encodeAll_groups hgroups] at harrivals
  have hsent : ∀ gid : UInt32, GroupSent cfg
      (groupPayloads cfg (acceptedPayloads cfg payloads) gid.toNat) :=
    fun gid => groupSent_groupPayloads acceptedPayloads_le _
  have hlast : groupArrivals (UInt32.ofNat ((acceptedPayloads cfg payloads).length / cfg.numData))
      arrivals <
      cfg.numData := by
    have hle := groupArrivals_le (sentGroups_ids hgroups) List.mem_concat_self harrivals
    rw [List.length_range] at hle
    exact lt_of_le_of_lt hle (Nat.mod_lt _ (numData_pos cfg))
  rw [decodeAll_groups hsent _ (sentGroups_ids hgroups) (sentGroups_admissible hgroups)
    (decoding_create cfg _)
    (fun _ _ => rfl) harrivals]
  unfold sentGroups thinnedStream
  rw [List.flatMap_append, List.flatMap_map, List.flatMap_singleton]
  dsimp only
  rw [Nat.div_eq_of_lt hlast, List.replicate_zero, List.flatten_nil, List.append_nil]
  refine List.flatMap_congr fun g hg => ?_
  have hg := List.mem_range.mp hg
  rw [UInt32.toNat_ofNat', Nat.mod_eq_of_lt (by omega)]

lemma flatMap_groupPayloads (H : List Bytes) (G : Nat) (hG : G * cfg.numData ≤ H.length) :
    (List.range G).flatMap (groupPayloads cfg H) = H.take (G * cfg.numData) := by
  induction G with
  | zero => simp
  | succ G ih =>
    rw [Nat.succ_mul] at hG
    rw [List.range_succ, List.flatMap_append, ih (by omega), List.flatMap_singleton, Nat.succ_mul,
      List.take_add]
    rfl

/-- With fewer parity frames than data frames, and at most `m` of the frames of each group lost, the
stream is that of the complete groups. -/
lemma thinnedStream_complete (hroots : cfg.numRoots < cfg.numData)
    (hgroups : (acceptedPayloads cfg payloads).length / cfg.numData < 2 ^ 32)
    (harrivals : arrivals.Sublist (FecCodec.encodeAll { cfg := cfg } payloads).1)
    (hlost : ∀ g < (acceptedPayloads cfg payloads).length / cfg.numData,
      cfg.numData ≤ groupArrivals (UInt32.ofNat g) arrivals) :
    thinnedStream cfg (acceptedPayloads cfg payloads) arrivals =
      (acceptedPayloads cfg payloads).take
      ((acceptedPayloads cfg payloads).length / cfg.numData * cfg.numData) := by
  rw [encodeAll_groups hgroups] at harrivals
  rw [← flatMap_groupPayloads _ _ (Nat.div_mul_le_self _ _)]
  refine List.flatMap_congr fun g hg => ?_
  have hcomplete : (UInt32.ofNat g, List.range (cfg.numData + cfg.numRoots)) ∈
      sentGroups cfg (acceptedPayloads cfg payloads).length :=
    List.mem_append_left _ (List.mem_map_of_mem hg)
  have hmost := groupArrivals_le (sentGroups_ids hgroups) hcomplete harrivals
  have hleast := hlost g (List.mem_range.mp hg)
  dsimp only at hmost
  rw [List.length_range] at hmost
  have hone : groupArrivals (UInt32.ofNat g) arrivals / cfg.numData = 1 :=
    Nat.div_eq_of_lt_le (by omega) (by omega)
  rw [hone, List.replicate_one, List.flatten_singleton]

end Stream

end MeshNetwork.Proofs
