import MeshNetwork.Proofs.FecDecoder

/-!
# The receive side under arbitrary datagrams

What `decode` does to the groups when the datagrams may come from anyone: which datagrams reach a
group, when a group is opened and another one evicted for it, and when a group leaves the map.
-/

namespace MeshNetwork.Proofs

variable {cfg : FecConfig} {c c' : FecCodec} {dg : Bytes} {h : FecHeader} {g : RecvGroup}
  {gid : UInt32}

/-! ## Groups -/

/-- The form of a group that is held, whatever its slots contain. -/
structure GroupShape (cfg : FecConfig) (g : RecvGroup) : Prop where
  k_eq : g.k = cfg.k
  m_eq : g.m = cfg.m
  delivered : g.delivered = false
  slots_length : g.slots.length = cfg.numData + cfg.numRoots
  lens_length : g.dataLens.length = cfg.numData
  received : g.received = (heldSeqs g.slots).card

lemma freshGroup_shape (cfg : FecConfig) : GroupShape cfg (freshGroup cfg) := by
  refine ⟨rfl, rfl, rfl, List.length_replicate, List.length_replicate, ?_⟩
  unfold freshGroup
  rw [heldSeqs_replicate]
  rfl

lemma fillSlot_shape (hg : GroupShape cfg g) (hlt : h.seq.toNat < cfg.numData + cfg.numRoots)
    (hnew : h.seq.toNat ∉ heldSeqs g.slots) (payload : Bytes) :
    GroupShape cfg (fillSlot h payload g) ∧
      heldSeqs (fillSlot h payload g).slots = insert h.seq.toNat (heldSeqs g.slots) := by
  have hin : h.seq.toNat < g.slots.length := by
    rw [hg.slots_length]
    exact hlt
  have hcard (b : Bytes) : g.received + 1 = (heldSeqs (g.slots.set h.seq.toNat (some b))).card := by
    rw [heldSeqs_set hin, Finset.card_insert_of_notMem hnew, hg.received]
  unfold fillSlot
  split_ifs
  · refine ⟨⟨hg.k_eq, hg.m_eq, hg.delivered, ?_, ?_, hcard _⟩, heldSeqs_set hin _⟩
    · rw [List.length_set, hg.slots_length]
    · rw [List.length_mapIdx, hg.lens_length]
  · refine ⟨⟨hg.k_eq, hg.m_eq, hg.delivered, ?_, ?_, hcard _⟩, heldSeqs_set hin _⟩
    · rw [List.length_set, hg.slots_length]
    · rw [List.length_set, hg.lens_length]

/-! ## Completing a group -/

lemma filled_fst (g : RecvGroup) : g.filled.map Prod.fst = heldList g.slots := by
  have hfilled := filterMap_eq_map_filter (F := fun i => ((g.slots.getD i none)).getD [])
    (fun i => g.slots.getD i none) (List.range g.slots.length) (fun i b hb => by rw [hb]; rfl)
  unfold RecvGroup.filled heldList
  rw [zipIdx_eq_map, List.filterMap_map]
  refine (congrArg (List.map Prod.fst) hfilled).trans ?_
  rw [List.map_map]
  exact List.map_id _

lemma filled_length (g : RecvGroup) : g.filled.length = (heldSeqs g.slots).card := by
  rw [card_heldSeqs, ← filled_fst, List.length_map]

/-- The system of the first `k` filled slots of a group. -/
lemma GroupShape.system (hg : GroupShape cfg g) (hfull : g.received = cfg.numData) :
    let taken := g.filled.take cfg.numData
    let symbolLen := maxLen (g.filled.map Prod.snd)
    (taken.map Prod.fst).length = cfg.numData ∧
      (∀ i ∈ taken.map Prod.fst, i < cfg.numData + cfg.numRoots) ∧ (taken.map Prod.fst).Nodup ∧
      Rect (taken.map fun s => padTo symbolLen s.2) cfg.numData symbolLen := by
  have hlen : g.filled.length = cfg.numData := by rw [filled_length, ← hg.received, hfull]
  dsimp only
  rw [List.take_of_length_le hlen.le]
  refine ⟨by rw [List.length_map, hlen], fun i hi => ?_, ?_, by rw [List.length_map, hlen],
    fun r hr => ?_⟩
  · rw [filled_fst] at hi
    rw [← hg.slots_length]
    exact List.mem_range.mp (List.mem_filter.mp hi).1
  · rw [filled_fst]
    exact heldList_nodup g.slots
  · obtain ⟨s, hs, rfl⟩ := List.mem_map.mp hr
    exact padTo_length (length_le_maxLen (List.mem_map_of_mem hs))

/-- A group with `k` filled slots always leaves the map: the elimination cannot fail. -/
lemma tryDeliver_complete (hc : c.cfg = cfg) (hlookup : c.recvGroups.lookup gid = some g)
    (hg : GroupShape cfg g) (hfull : g.received = cfg.numData) :
    ∃ payloads : List Bytes, payloads.length = cfg.numData ∧
      c.tryDeliver gid = (payloads, { c with recvGroups := c.recvGroups.erase gid }) := by
  have hk : g.k.toNat = cfg.numData := by
    rw [hg.k_eq]
    rfl
  obtain ⟨hlen, hlt, hnd, hrect⟩ := hg.system hfull
  have hsolved := gaussDecode_rect cfg hlen hlt hnd hrect
  have hne : (gaussDecode cfg ((g.filled.take cfg.numData).map Prod.fst)
      ((g.filled.take cfg.numData).map fun s => padTo (maxLen (g.filled.map Prod.snd)) s.2)
      (maxLen (g.filled.map Prod.snd))).isEmpty = false := by
    have hpos := numData_pos cfg
    rw [List.isEmpty_eq_false_iff, ← List.length_pos_iff, hsolved.1]
    exact hpos
  unfold FecCodec.tryDeliver
  rw [hlookup]
  simp only [hg.delivered, hk, hfull, lt_irrefl, decide_false, Bool.or_false, Bool.false_eq_true,
    if_false, hc, hne]
  exact ⟨_, by rw [List.length_map, List.length_range], rfl⟩

/-! ## Opening a group -/

/-- The codec once a frame of group `gid` has found its group; the entry of `gid` itself is left
aside. -/
def opened (c : FecCodec) (gid : UInt32) : FecCodec :=
  if (c.recvGroups.lookup gid).isSome then c else c.rememberReceiveGroup gid

/-- The group that a frame of group `gid` finds. -/
def current (cfg : FecConfig) (c : FecCodec) (gid : UInt32) : RecvGroup :=
  (c.recvGroups.lookup gid).getD (freshGroup cfg)

lemma heldSeqs_current (cfg : FecConfig) (c : FecCodec) (gid : UInt32) :
    heldSeqs (current cfg c gid).slots = heldOf c gid := by
  unfold current heldOf
  cases c.recvGroups.lookup gid with
  | none => exact heldSeqs_replicate _
  | some g => rfl

/-- The oldest entry of the order is dropped when there is no room for a new one. -/
lemma rememberReceiveGroup_eq (hle : c.recvGroupOrder.length ≤ kMaxReceiveGroups) (gid : UInt32) :
    c.recvGroupOrder.length < kMaxReceiveGroups ∧
        c.rememberReceiveGroup gid = { c with recvGroupOrder := c.recvGroupOrder ++ [gid] } ∨
      ∃ stale rest, c.recvGroupOrder = stale :: rest ∧ rest.length + 1 = kMaxReceiveGroups ∧
        c.rememberReceiveGroup gid = { c with
          recvGroupOrder := rest ++ [gid]
          recvGroups := if stale ≠ gid then c.recvGroups.erase stale else c.recvGroups } := by
  have hkeep : ∀ (l : List UInt32) (groups : UMap UInt32 RecvGroup), l.length ≤ kMaxReceiveGroups →
      evictStale gid l groups = (l, groups) := by
    intro l groups hl
    cases l with
    | nil => rfl
    | cons a l =>
      unfold evictStale
      rw [if_neg (not_lt.mpr hl)]
  unfold FecCodec.rememberReceiveGroup
  rcases Nat.lt_or_eq_of_le hle with hroom | hfull
  · left
    refine ⟨hroom, ?_⟩
    rw [hkeep _ _ (by rw [List.length_append, List.length_singleton]; omega)]
  · right
    cases horder : c.recvGroupOrder with
    | nil =>
      rw [horder] at hfull
      exact absurd hfull (by decide)
    | cons stale rest =>
      rw [horder, List.length_cons] at hfull
      refine ⟨stale, rest, rfl, hfull, ?_⟩
      rw [List.cons_append, evictStale, if_pos
        (by simp only [List.length_cons, List.length_append]; omega),
        hkeep _ _ (by rw [List.length_append, List.length_singleton]; omega)]

/-- The entry of the group that is being opened does not matter for the others. -/
lemma evictStale_congr (gid : UInt32) (order : List UInt32) (groups groups' : UMap UInt32 RecvGroup)
    (hsame : ∀ gid', gid' ≠ gid → groups'.lookup gid' = groups.lookup gid') :
    (evictStale gid order groups').1 = (evictStale gid order groups).1 ∧ ∀ gid', gid' ≠ gid →
      (evictStale gid order groups').2.lookup gid' =
        (evictStale gid order groups).2.lookup gid' := by
  induction order generalizing groups groups' with
  | nil => exact ⟨rfl, hsame⟩
  | cons stale rest ih =>
    unfold evictStale
    by_cases hlong : (stale :: rest).length > kMaxReceiveGroups
    · rw [if_pos hlong, if_pos hlong]
      refine ih _ _ fun gid' hne => ?_
      split_ifs
      · rw [UMap.lookup_erase_eq, UMap.lookup_erase_eq, hsame gid' hne]
      · exact hsame gid' hne
    · rw [if_neg hlong, if_neg hlong]
      exact ⟨rfl, hsame⟩

/-- `c'` is `c` after a frame of group `gid` that leaves `entry` as the group. -/
structure Touches (c c' : FecCodec) (gid : UInt32) (entry : Option RecvGroup) : Prop where
  cfg_eq : c'.cfg = c.cfg
  order : c'.recvGroupOrder = (opened c gid).recvGroupOrder
  self : c'.recvGroups.lookup gid = entry
  other : ∀ gid', gid' ≠ gid → c'.recvGroups.lookup gid' = (opened c gid).recvGroups.lookup gid'

lemma Touches.insert {entry : Option RecvGroup} (ht : Touches c c' gid entry) (g : RecvGroup) :
    Touches c { c' with recvGroups := c'.recvGroups.insert gid g } gid (some g) := by
  refine ⟨ht.cfg_eq, ht.order, AList.lookup_insert _, fun gid' hne => ?_⟩
  rw [← ht.other gid' hne]
  exact AList.lookup_insert_ne hne

lemma Touches.erase {entry : Option RecvGroup} (ht : Touches c c' gid entry) :
    Touches c { c' with recvGroups := c'.recvGroups.erase gid } gid none := by
  refine ⟨ht.cfg_eq, ht.order, AList.lookup_erase _ _, fun gid' hne => ?_⟩
  rw [← ht.other gid' hne]
  exact AList.lookup_erase_ne hne

/-! ## The invariant -/

/-- The receive side after any datagrams. -/
structure ReceiveSide (cfg : FecConfig) (c : FecCodec) : Prop where
  cfg_eq : c.cfg = cfg
  order_le : c.recvGroupOrder.length ≤ kMaxReceiveGroups
  listed : ∀ gid g, c.recvGroups.lookup gid = some g → gid ∈ c.recvGroupOrder
  shape : ∀ gid g, c.recvGroups.lookup gid = some g → GroupShape cfg g
  short : ∀ gid g, c.recvGroups.lookup gid = some g → g.received < cfg.numData

lemma receiveSide_create (cfg : FecConfig) : ReceiveSide cfg { cfg := cfg } := by
  refine ⟨rfl, Nat.zero_le _, ?_, ?_, ?_⟩ <;>
  · intro gid g hg
    rw [AList.lookup_empty] at hg
    cases hg

lemma ReceiveSide.current_shape (hr : ReceiveSide cfg c) (gid : UInt32) :
    GroupShape cfg (current cfg c gid) := by
  unfold current
  cases hl : c.recvGroups.lookup gid with
  | none => exact freshGroup_shape cfg
  | some g => exact hr.shape gid g hl

lemma ReceiveSide.held_short (hr : ReceiveSide cfg c) (gid : UInt32) :
    (heldOf c gid).card < cfg.numData := by
  cases hl : c.recvGroups.lookup gid with
  | none =>
    rw [heldOf_none hl]
    exact numData_pos cfg
  | some g =>
    rw [heldOf_eq hl, ← (hr.shape gid g hl).received]
    exact hr.short gid g hl

/-- The group of an admitted frame is found or opened. -/
lemma openGroup_touches (hr : ReceiveSide cfg c) (hdr : FecHeader) (hk : hdr.numData = cfg.k)
    (hm : hdr.numRoots = cfg.m) :
    let group := (c.recvGroups.lookup hdr.groupId).getD {}
    let s :=
      FecCodec.openGroup { c with recvGroups := c.recvGroups.insert hdr.groupId group } hdr group
    group.delivered = false ∧ s.2 = current cfg c hdr.groupId ∧
      Touches c s.1 hdr.groupId (some (current cfg c hdr.groupId)) := by
  unfold current
  cases hl : c.recvGroups.lookup hdr.groupId with
  | none =>
    dsimp only [Option.getD_none]
    rw [openGroup_fresh cfg _ hk hm]
    have hopened : opened c hdr.groupId = c.rememberReceiveGroup hdr.groupId := by
      unfold opened
      rw [hl, Option.isSome_none, if_neg (by decide)]
    obtain ⟨horder, hother⟩ := evictStale_congr hdr.groupId (c.recvGroupOrder ++ [hdr.groupId])
      c.recvGroups ((c.recvGroups.insert hdr.groupId {}).insert hdr.groupId (freshGroup cfg))
      fun gid' hne => by
        rw [AList.lookup_insert_ne hne, AList.lookup_insert_ne hne]
    refine ⟨rfl, rfl, rfl, ?_, ?_, fun gid' hne => ?_⟩
    · rw [hopened]
      exact horder
    · exact (lookup_evictStale hdr.groupId _ _).1.trans (AList.lookup_insert _)
    · rw [hopened]
      exact hother gid' hne
  | some group =>
    have hgroup := hr.shape hdr.groupId group hl
    dsimp only [Option.getD_some]
    rw [openGroup_held cfg _ hdr hgroup.k_eq]
    have hopened : opened c hdr.groupId = c := by
      unfold opened
      rw [hl, Option.isSome_some, if_pos rfl]
    refine ⟨hgroup.delivered, rfl, rfl, by rw [hopened], AList.lookup_insert _, fun gid' hne => ?_⟩
    rw [hopened]
    exact AList.lookup_insert_ne hne

/-- What one datagram does. -/
inductive Received (cfg : FecConfig) (c : FecCodec) (dg : Bytes) : List Bytes → FecCodec → Prop
  | rejected : admitted cfg dg = none → Received cfg c dg [] c
  | dropped {h : FecHeader} {c' : FecCodec} : admitted cfg dg = some h →
      h.seq.toNat ∈ heldOf c h.groupId ∨ ShortParity cfg h →
      Touches c c' h.groupId (some (current cfg c h.groupId)) → Received cfg c dg [] c'
  | stored {h : FecHeader} {c' : FecCodec} {g : RecvGroup} : admitted cfg dg = some h →
      h.seq.toNat ∉ heldOf c h.groupId → ¬ShortParity cfg h → GroupShape cfg g →
      heldSeqs g.slots = insert h.seq.toNat (heldOf c h.groupId) →
        (heldOf c h.groupId).card + 1 < cfg.numData →
      Touches c c' h.groupId (some g) → Received cfg c dg [] c'
  | delivered {h : FecHeader} {c' : FecCodec} {payloads : List Bytes} : admitted cfg dg = some h →
      h.seq.toNat ∉ heldOf c h.groupId → ¬ShortParity cfg h →
        (heldOf c h.groupId).card + 1 = cfg.numData →
      payloads.length = cfg.numData → Touches c c' h.groupId none → Received cfg c dg payloads c'

lemma decode_of_not_admitted (hr : ReceiveSide cfg c) (hadm : admitted cfg dg = none) :
    c.decode dg = ([], c) := by
  unfold FecCodec.decode
  cases hparse : parseHeader dg with
  | none => rfl
  | some h =>
    dsimp only
    split_ifs with hconfig hrange hsize
    · rfl
    · rfl
    · rfl
    all_goals
      rw [hr.cfg_eq] at hconfig
      rw [admitted_of_checks hparse hconfig hrange hsize] at hadm
      cases hadm

lemma decode_of_admitted (hr : ReceiveSide cfg c) (hadm : admitted cfg dg = some h) :
    ∃ c₁, Touches c c₁ h.groupId (some (current cfg c h.groupId)) ∧
      c.decode dg = c₁.storeFrame (current cfg c h.groupId) h (announced dg h) := by
  obtain ⟨-, hk, hm, -, -⟩ := admitted_eq_some.mp hadm
  obtain ⟨hdelivered, hcurrent, htouches⟩ := openGroup_touches hr h hk hm
  have hdecode := decode_admitted hr.cfg_eq hadm hdelivered
  dsimp only at hdecode hcurrent
  rw [hcurrent] at hdecode
  exact ⟨_, htouches, hdecode⟩

theorem decode_received (hr : ReceiveSide cfg c) (dg : Bytes) :
    Received cfg c dg (c.decode dg).1 (c.decode dg).2 := by
  cases hadm : admitted cfg dg with
  | none =>
    rw [decode_of_not_admitted hr hadm]
    exact .rejected hadm
  | some h =>
    obtain ⟨-, -, -, hlt, -⟩ := admitted_eq_some.mp hadm
    obtain ⟨c₁, htouches, hdecode⟩ := decode_of_admitted hr hadm
    have hshape := hr.current_shape h.groupId
    have hheld := heldSeqs_current cfg c h.groupId
    obtain ⟨hdrop, hstore⟩ := storeFrame_eq hadm hshape.slots_length c₁
    rw [hheld] at hdrop hstore
    rw [hdecode]
    by_cases hout : h.seq.toNat ∈ heldOf c h.groupId ∨ ShortParity cfg h
    · rw [hdrop hout]
      exact .dropped hadm hout htouches
    · obtain ⟨hnew, hlong⟩ := not_or.mp hout
      rw [hstore hnew hlong]
      obtain ⟨hfilled, hinsert⟩ := fillSlot_shape hshape hlt (by rwa [hheld]) (announced dg h)
      rw [hheld] at hinsert
      have hcount : (fillSlot h (announced dg h) (current cfg c h.groupId)).received =
          (heldOf c h.groupId).card + 1 := by
        rw [hfilled.received, hinsert, Finset.card_insert_of_notMem hnew]
      have hput := htouches.insert (fillSlot h (announced dg h) (current cfg c h.groupId))
      have hshort := hr.held_short h.groupId
      by_cases hlast : (heldOf c h.groupId).card + 1 = cfg.numData
      · obtain ⟨payloads, hlen, hdelivers⟩ := tryDeliver_complete (hput.cfg_eq.trans hr.cfg_eq)
          hput.self hfilled
          (hcount.trans hlast)
        rw [hdelivers]
        exact .delivered hadm hnew hlong hlast hlen hput.erase
      · rw [tryDeliver_short hput.self hfilled.k_eq (by omega)]
        exact .stored hadm hnew hlong hfilled hinsert (by omega) hput

/-! ## Runs -/

lemma ReceiveSide.opened_order_le (hr : ReceiveSide cfg c) (gid : UInt32) :
    (opened c gid).recvGroupOrder.length ≤ kMaxReceiveGroups := by
  unfold opened
  split_ifs
  · exact hr.order_le
  · rcases rememberReceiveGroup_eq hr.order_le gid with ⟨hroom, heq⟩ | ⟨stale, rest, -, hlen, heq⟩
    · rw [heq, List.length_append, List.length_singleton]
      omega
    · rw [heq, List.length_append, List.length_singleton]
      omega

lemma ReceiveSide.opened_listed (hr : ReceiveSide cfg c) (gid : UInt32) :
    gid ∈ (opened c gid).recvGroupOrder ∧ ∀ gid' g, gid' ≠ gid →
      (opened c gid).recvGroups.lookup gid' = some g →
      c.recvGroups.lookup gid' = some g ∧ gid' ∈ (opened c gid).recvGroupOrder := by
  unfold opened
  split_ifs with hheld
  · obtain ⟨g, hg⟩ := Option.isSome_iff_exists.mp hheld
    exact ⟨hr.listed gid g hg, fun gid' g' _ hg' => ⟨hg', hr.listed gid' g' hg'⟩⟩
  · rcases rememberReceiveGroup_eq hr.order_le gid with ⟨-, heq⟩ | ⟨stale, rest, horder, -, heq⟩
    · rw [heq]
      exact ⟨by simp, fun gid' g' _ hg' => ⟨hg', List.mem_append_left _ (hr.listed gid' g' hg')⟩⟩
    · rw [heq]
      refine ⟨by simp, fun gid' g' hne hg' => ?_⟩
      -- an entry that survives is not the one whose place in the order is dropped
      have hkept : c.recvGroups.lookup gid' = some g' ∧ gid' ≠ stale := by
        dsimp only at hg'
        split_ifs at hg' with hstale
        · rw [UMap.lookup_erase_eq] at hg'
          split_ifs at hg' with hout
          exact ⟨hg', hout⟩
        · rw [not_not] at hstale
          exact ⟨hg', hstale ▸ hne⟩
      have hlisted := hr.listed gid' g' hkept.1
      rw [horder] at hlisted
      exact ⟨hkept.1, List.mem_append_left _ ((List.mem_cons.mp hlisted).resolve_left hkept.2)⟩

lemma ReceiveSide.touches (hr : ReceiveSide cfg c) {entry : Option RecvGroup}
    (ht : Touches c c' gid entry)
    (hentry : ∀ g, entry = some g → GroupShape cfg g ∧ g.received < cfg.numData) :
    ReceiveSide cfg c' := by
  obtain ⟨hself, hothers⟩ := hr.opened_listed gid
  have hcases : ∀ gid' g, c'.recvGroups.lookup gid' = some g →
      gid' ∈ (opened c gid).recvGroupOrder ∧ GroupShape cfg g ∧ g.received < cfg.numData := by
    intro gid' g hg
    by_cases hgid : gid' = gid
    · rw [hgid, ht.self] at hg
      rw [hgid]
      exact ⟨hself, hentry g hg⟩
    · rw [ht.other gid' hgid] at hg
      obtain ⟨hold, hmem⟩ := hothers gid' g hgid hg
      exact ⟨hmem, hr.shape gid' g hold, hr.short gid' g hold⟩
  refine ⟨ht.cfg_eq.trans hr.cfg_eq, ?_, fun gid' g hg => ?_,
    fun gid' g hg => (hcases gid' g hg).2.1, fun gid' g hg => (hcases gid' g hg).2.2⟩
  · rw [ht.order]
    exact hr.opened_order_le gid
  · rw [ht.order]
    exact (hcases gid' g hg).1

lemma ReceiveSide.received (hr : ReceiveSide cfg c) {res : List Bytes}
    (hrec : Received cfg c dg res c') :
    ReceiveSide cfg c' := by
  cases hrec with
  | rejected _ => exact hr
  | dropped _ _ ht =>
    refine hr.touches ht fun g hg => ?_
    cases hg
    have hshape := hr.current_shape ‹FecHeader›.groupId
    refine ⟨hshape, ?_⟩
    rw [hshape.received, heldSeqs_current]
    exact hr.held_short _
  | stored _ hnew _ hshape hheld hfew ht =>
    refine hr.touches ht fun g hg => ?_
    cases hg
    refine ⟨hshape, ?_⟩
    rw [hshape.received, hheld, Finset.card_insert_of_notMem hnew]
    exact hfew
  | delivered _ _ _ _ _ ht => exact hr.touches ht fun g hg => by cases hg

lemma ReceiveSide.decode (hr : ReceiveSide cfg c) (dg : Bytes) : ReceiveSide cfg (c.decode dg).2 :=
  hr.received (decode_received hr dg)

lemma ReceiveSide.decodeAll (hr : ReceiveSide cfg c) (dgs : List Bytes) :
    ReceiveSide cfg (c.decodeAll dgs).2 := by
  induction dgs generalizing c with
  | nil => exact hr
  | cons dg dgs ih => exact ih (hr.decode dg)

/-- A datagram leaves the groups other than its own as they are, or evicts them. -/
lemma ReceiveSide.touches_othersKept (hr : ReceiveSide cfg c) {entry : Option RecvGroup}
    (ht : Touches c c' gid entry) : OthersKept gid c c' := by
  intro gid' hne
  rw [ht.other gid' hne]
  cases hl : (opened c gid).recvGroups.lookup gid' with
  | none => exact .inr rfl
  | some g => exact .inl ((hr.opened_listed gid).2 gid' g hne hl).1.symm

lemma ReceiveSide.decode_othersKept (hr : ReceiveSide cfg c) (hparse : parseHeader dg = some h) :
    OthersKept h.groupId c (c.decode dg).2 := by
  have hsame : ∀ {h' : FecHeader}, admitted cfg dg = some h' → h' = h := fun hadm =>
    Option.some.inj ((admitted_eq_some.mp hadm).1.symm.trans hparse)
  have hrec := decode_received hr dg
  generalize c.decode dg = out at hrec ⊢
  obtain ⟨res, c'⟩ := out
  dsimp only at hrec ⊢
  cases hrec with
  | rejected _ => exact fun _ _ => .inl rfl
  | dropped hadm _ ht => exact hsame hadm ▸ hr.touches_othersKept ht
  | stored hadm _ _ _ _ _ ht => exact hsame hadm ▸ hr.touches_othersKept ht
  | delivered hadm _ _ _ _ ht => exact hsame hadm ▸ hr.touches_othersKept ht

lemma encode_receive (c : FecCodec) (payload : Bytes) :
    (c.encode payload).2.cfg = c.cfg ∧ (c.encode payload).2.recvGroups = c.recvGroups ∧
      (c.encode payload).2.recvGroupOrder = c.recvGroupOrder := by
  unfold FecCodec.encode
  dsimp only
  split_ifs
  · exact ⟨rfl, rfl, rfl⟩
  · split <;> exact ⟨rfl, rfl, rfl⟩
  · exact ⟨rfl, rfl, rfl⟩

/-- Every codec that calls lead to, sending or receiving. -/
theorem receiveSide_of_reachable (hreach : FecReachable cfg c) : ReceiveSide cfg c := by
  induction hreach with
  | create => exact receiveSide_create cfg
  | @encode c payload _ ih =>
    obtain ⟨hcfg, hgroups, horder⟩ := encode_receive c payload
    exact ⟨hcfg.trans ih.cfg_eq, horder ▸ ih.order_le, hgroups ▸ horder ▸ ih.listed,
      hgroups ▸ ih.shape, hgroups ▸ ih.short⟩
  | decode dg _ ih => exact ih.decode dg

end MeshNetwork.Proofs
