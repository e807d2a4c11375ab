import MeshNetwork.Library.CauchySystem
import MeshNetwork.Library.Elimination
import MeshNetwork.Library.Lists
import MeshNetwork.Proofs.GaloisField
import Mathlib.Data.List.GetD

/-!
# The elimination decoder solves its system

`gaussDecode` works in place on two lists of byte vectors. Each round of its loop is a pivot
step on the matrices these lists stand for, so for `k` distinct received indices it never meets
the singular case and returns the solution of the system.
-/

namespace MeshNetwork.Proofs
open Elimination

/-- A list of `rows` byte vectors of length `cols`. -/
def Rect (M : List Bytes) (rows cols : Nat) : Prop := M.length = rows ∧ ∀ r ∈ M, r.length = cols

/-- The matrix over GF(2^8) that a list of byte vectors stands for. -/
def gfMatrix (M : List Bytes) (rows cols : Nat) : Fin rows → Fin cols → GF256 :=
  fun r c => ⟨matrixEntry M r c⟩

lemma Rect.getD_length {M : List Bytes} {rows cols r : Nat} (h : Rect M rows cols) (hr : r < rows) :
    (M.getD r []).length = cols := by
  have hr' : r < M.length := by rw [h.1]; exact hr
  rw [List.getD_eq_getElem _ _ hr']
  exact h.2 _ (List.getElem_mem hr')

lemma Rect.set {M : List Bytes} {rows cols : Nat} (h : Rect M rows cols) (i : Nat) {row : Bytes}
    (hrow : row.length = cols) : Rect (M.set i row) rows cols := by
  refine ⟨by rw [List.length_set, h.1], fun r hr => ?_⟩
  rcases List.mem_or_eq_of_mem_set hr with hmem | rfl
  · exact h.2 r hmem
  · exact hrow

lemma matrixEntry_set {M : List Bytes} {i : Nat} (hi : i < M.length) (row : Bytes) (r c : Nat) :
    matrixEntry (M.set i row) r c = if r = i then row.getD c 0 else matrixEntry M r c := by
  unfold matrixEntry
  rw [List.getD_eq_getElem?_getD (l := M.set i row), List.getElem?_set]
  by_cases hr : r = i
  · rw [if_pos hr.symm, if_pos hi, if_pos hr, Option.getD_some]
  · rw [if_neg (Ne.symm hr), if_neg hr, ← List.getD_eq_getElem?_getD]

lemma swapRows_rect {M : List Bytes} {rows cols i j : Nat} (h : Rect M rows cols) (hi : i < rows)
    (hj : j < rows) : Rect (swapRows M i j) rows cols :=
  (h.set i (h.getD_length hj)).set j (h.getD_length hi)

lemma matrixEntry_swapRows {M : List Bytes} {k : Nat} (hlen : M.length = k) (i j r : Fin k)
    (c : Nat) :
    matrixEntry (swapRows M i j) r c = matrixEntry M (Equiv.swap i j r) c := by
  have hi : i.val < M.length := by rw [hlen]; exact i.isLt
  have hj : j.val < M.length := by rw [hlen]; exact j.isLt
  unfold swapRows
  rw [matrixEntry_set (by rwa [List.length_set]), matrixEntry_set hi]
  by_cases hrj : r = j
  · subst hrj
    rw [if_pos rfl, Equiv.swap_apply_right]
    rfl
  · rw [if_neg (fun h => hrj (Fin.ext h))]
    by_cases hri : r = i
    · subst hri
      rw [if_pos rfl, Equiv.swap_apply_left]
      rfl
    · rw [if_neg (fun h => hri (Fin.ext h)), Equiv.swap_apply_of_ne_of_ne hri hrj]

lemma scaleRow_rect {M : List Bytes} {rows cols row : Nat} (h : Rect M rows cols)
    (hrow : row < rows) (start stop : Nat) (scale : UInt8) :
    Rect (scaleRow M row start stop scale) rows cols := by
  refine h.set row ?_
  rw [List.length_mapIdx]
  exact h.getD_length hrow

lemma matrixEntry_scaleRow {M : List Bytes} {rows cols row r c : Nat} (h : Rect M rows cols)
    (hrow : row < rows) (hc : c < cols) (start stop : Nat) (scale : UInt8) :
    matrixEntry (scaleRow M row start stop scale) r c =
      if r = row ∧ start ≤ c ∧ c < stop then gfMul (matrixEntry M r c) scale
      else matrixEntry M r c := by
  have hlen := h.getD_length hrow
  unfold scaleRow
  rw [matrixEntry_set (by rw [h.1]; exact hrow), List.getD_mapIdx _ (by rw [hlen]; exact hc) 0]
  by_cases hr : r = row
  · subst hr
    by_cases hs : start ≤ c ∧ c < stop
    · rw [if_pos rfl, if_pos hs, if_pos ⟨rfl, hs⟩]
      rfl
    · rw [if_pos rfl, if_neg hs, if_neg (fun hh => hs hh.2)]
      rfl
  · rw [if_neg hr, if_neg (fun hh => hr hh.1)]

lemma eliminateRows_rect {A : List Bytes} {rows cols : Nat} (h : Rect A rows cols) (M : List Bytes)
    (col start stop : Nat) : Rect (eliminateRows M A col start stop) rows cols := by
  refine ⟨by rw [eliminateRows, List.length_mapIdx, h.1], fun r hr => ?_⟩
  unfold eliminateRows at hr
  obtain ⟨i, hi, rfl⟩ := List.mem_iff_getElem.mp hr
  rw [List.length_mapIdx] at hi
  rw [List.getElem_mapIdx]
  split_ifs
  · exact h.2 _ (List.getElem_mem hi)
  · rw [List.length_mapIdx]
    exact h.2 _ (List.getElem_mem hi)

lemma matrixEntry_eliminateRows {A : List Bytes} {rows cols r c : Nat} (h : Rect A rows cols)
    (M : List Bytes) (hr : r < rows) (hc : c < cols) (col start stop : Nat) :
    matrixEntry (eliminateRows M A col start stop) r c =
      if r ≠ col ∧ start ≤ c ∧ c < stop then
        matrixEntry A r c ^^^ gfMul (matrixEntry M r col) (matrixEntry A col c)
      else matrixEntry A r c := by
  have hlen := h.getD_length hr
  rw [matrixEntry, eliminateRows, List.getD_mapIdx _ (by rw [h.1]; exact hr) []]
  by_cases hcol : r = col
  · rw [if_pos (Or.inl hcol), if_neg (fun hh => hh.1 hcol)]
    rfl
  · by_cases hz : matrixEntry M r col = 0
    · rw [if_pos (Or.inr hz), hz]
      split_ifs
      · rw [gfMul, if_pos (by simp), UInt8.xor_zero]
        rfl
      · rfl
    · rw [if_neg (by tauto), List.getD_mapIdx _ (by rw [hlen]; exact hc) 0]
      by_cases hs : start ≤ c ∧ c < stop
      · rw [if_pos hs, if_pos ⟨hcol, hs⟩]
        rfl
      · rw [if_neg hs, if_neg (fun hh => hs hh.2)]
        rfl

/-- The row operations of one round, on the matrix itself (`start = col`, where the columns
before `col` are already cleared) or on the right-hand side (`start = 0`). -/
lemma gfMatrix_round {k cols : Nat} {M A : List Bytes} (hM : Rect M k k) (hA : Rect A k cols)
    (col s : Fin k) (hs : matrixEntry M s col ≠ 0) (start stop : Nat) (hstop : cols ≤ stop)
    (hclear : ∀ c : Fin cols, c.val < start → matrixEntry A s c = 0) :
    let M₁ := swapRows M col s
    let M₂ := scaleRow M₁ col col k (gfInv (matrixEntry M₁ col col))
    let A₂ := scaleRow (swapRows A col s) col start stop (gfInv (matrixEntry M₁ col col))
    gfMatrix (eliminateRows M₂ A₂ col start stop) k cols =
      pivotStep (gfMatrix M k k) col s (gfMatrix A k cols) := by
  intro M₁ M₂ A₂
  have hM₁ : Rect M₁ k k := swapRows_rect hM col.isLt s.isLt
  have hA₁ : Rect (swapRows A col s) k cols := swapRows_rect hA col.isLt s.isLt
  have hA₂ : Rect A₂ k cols := scaleRow_rect hA₁ col.isLt _ _ _
  have hpivot : matrixEntry M₁ col col = matrixEntry M s col := by
    rw [matrixEntry_swapRows hM.1 col s col, Equiv.swap_apply_left]
  have hentryA : ∀ (r : Fin k) (c : Fin cols), matrixEntry A₂ r c =
      if r = col ∧ start ≤ c.val then gfMul (matrixEntry A s c) (gfInv (matrixEntry M s col))
      else matrixEntry A (Equiv.swap col s r) c := by
    intro r c
    have hcs : c.val < stop := by have := c.isLt; omega
    rw [matrixEntry_scaleRow hA₁ col.isLt c.isLt, matrixEntry_swapRows hA.1, hpivot]
    by_cases hr : r = col
    · subst hr
      rw [Equiv.swap_apply_left]
      simp only [true_and, hcs, and_true]
    · rw [if_neg (fun h => hr (Fin.ext h.1)), if_neg (fun h => hr h.1)]
  have hentryM : ∀ r : Fin k, r ≠ col → matrixEntry M₂ r col =
      matrixEntry M (Equiv.swap col s r) col := by
    intro r hr
    rw [matrixEntry_scaleRow hM₁ col.isLt col.isLt, if_neg (fun h => hr (Fin.ext h.1)),
      matrixEntry_swapRows hM.1]
  have hinv := GF256.mk_gfInv hs
  funext r c
  have hcs : c.val < stop := by have := c.isLt; omega
  have hAsc : ¬start ≤ c.val → (⟨matrixEntry A s c⟩ : GF256) = 0 := by
    intro hc
    rw [hclear c (not_le.mp hc), GF256.mk_zero]
  simp only [gfMatrix, pivotStep]
  rw [matrixEntry_eliminateRows hA₂ M₂ r.isLt c.isLt]
  by_cases hr : r = col
  · subst hr
    rw [if_neg (fun h => h.1 rfl), if_pos rfl, hentryA]
    by_cases hc : start ≤ c.val
    · rw [if_pos ⟨rfl, hc⟩, GF256.mk_gfMul, hinv, mul_comm]
    · rw [if_neg (fun h => hc h.2), Equiv.swap_apply_left, hAsc hc, mul_zero]
  · have hrc : r.val ≠ col.val := fun h => hr (Fin.ext h)
    rw [if_neg hr, GF256.sub_eq_add]
    by_cases hc : start ≤ c.val
    · rw [if_pos ⟨hrc, hc, hcs⟩, hentryA, hentryA, if_neg (fun h => hr h.1), if_pos ⟨rfl, hc⟩,
        hentryM r hr, GF256.mk_xor, GF256.mk_gfMul, GF256.mk_gfMul, hinv,
        mul_comm (⟨matrixEntry A s c⟩ : GF256)]
    · rw [if_neg (fun h => hc h.2.1), hentryA, if_neg (fun h => hr h.1), hAsc hc,
        mul_zero, mul_zero, add_zero]

lemma swapRows_self {M : List Bytes} {i : Nat} (hi : i < M.length) : swapRows M i i = M := by
  unfold swapRows
  rw [List.getD_eq_getElem _ _ hi, List.set_getElem_self, List.set_getElem_self]

lemma ite_swapRows {M : List Bytes} {i j : Nat} (hi : i < M.length) :
    (if j ≠ i then swapRows M i j else M) = swapRows M i j := by
  by_cases h : j = i
  · subst h
    rw [if_neg (fun hh => hh rfl), swapRows_self hi]
  · rw [if_pos h]

/-- The state of the elimination loop after `n` rounds on a system that `X` solves. -/
structure EliminationInv (k symbolLen n : Nat) (X : Fin k → Fin symbolLen → GF256)
    (s : List Bytes × List Bytes) : Prop where
  rectM : Rect s.1 k k
  rectB : Rect s.2 k symbolLen
  unit : UnitColumns (gfMatrix s.1 k k) n
  kernel : TrivialKernel (gfMatrix s.1 k k)
  solves : Solves (gfMatrix s.1 k k) (gfMatrix s.2 k symbolLen) X

lemma eliminateColumn_step {k symbolLen : Nat} {X : Fin k → Fin symbolLen → GF256}
    {s : List Bytes × List Bytes} {n : Nat} (hn : n < k) (h : EliminationInv k symbolLen n X s) :
    ∃ s', eliminateColumn k symbolLen s n = some s' ∧ EliminationInv k symbolLen (n + 1) X s' := by
  let col : Fin k := ⟨n, hn⟩
  have hunit : UnitColumns (gfMatrix s.1 k k) col := h.unit
  obtain ⟨p, hple, hp⟩ := exists_pivot h.kernel hunit
  have hfind : ((List.range' n (k - n)).find? (fun row => matrixEntry s.1 row n != 0)).isSome := by
    rw [List.find?_isSome]
    refine ⟨p, ?_, ?_⟩
    · rw [List.mem_range'_1]
      have : n ≤ p.val := hple
      omega
    · rw [bne_iff_ne]
      exact fun hz => hp (GF256.mk_eq_zero.mpr hz)
  obtain ⟨pivot, hpivot⟩ := Option.isSome_iff_exists.mp hfind
  have hmem := List.mem_range'_1.mp (List.mem_of_find?_eq_some hpivot)
  have hlt : pivot < k := by omega
  have hne : matrixEntry s.1 pivot n ≠ 0 := by
    have hsome := List.find?_some hpivot
    exact bne_iff_ne.mp hsome
  let q : Fin k := ⟨pivot, hlt⟩
  have hq : gfMatrix s.1 k k q col ≠ 0 := fun hz => hne (GF256.mk_eq_zero.mp hz)
  have hclear : ∀ c : Fin k, c.val < n → matrixEntry s.1 q c = 0 := by
    intro c hc
    have hqcol := h.unit c hc q
    have hqc : q ≠ c := fun he => by rw [← he] at hc; exact absurd hmem.1 (not_le.mpr hc)
    rw [if_neg hqc] at hqcol
    exact GF256.mk_eq_zero.mp hqcol
  have hroundM := gfMatrix_round h.rectM h.rectM col q hne n k le_rfl hclear
  have hroundB := gfMatrix_round h.rectM h.rectB col q hne 0 symbolLen le_rfl
    (fun c hc => absurd hc (Nat.not_lt_zero _))
  have hswapM := swapRows_rect h.rectM hn hlt
  have hswapB := swapRows_rect h.rectB hn hlt
  let scale := gfInv (matrixEntry (swapRows s.1 n pivot) n n)
  let M' := scaleRow (swapRows s.1 n pivot) n n k scale
  let B' := scaleRow (swapRows s.2 n pivot) n 0 symbolLen scale
  refine ⟨(eliminateRows M' M' n n k, eliminateRows M' B' n 0 symbolLen), ?_, ⟨?_, ?_, ?_, ?_, ?_⟩⟩
  · unfold eliminateColumn
    rw [hpivot]
    simp only
    rw [ite_swapRows (by rw [h.rectM.1]; exact hn), ite_swapRows (by rw [h.rectB.1]; exact hn)]
  · exact eliminateRows_rect (scaleRow_rect hswapM hn _ _ _) _ _ _ _
  · exact eliminateRows_rect (scaleRow_rect hswapB hn _ _ _) _ _ _ _
  · exact hroundM ▸ unitColumns_pivotStep h.unit (Fin.le_def.mpr hmem.1) hq
  · exact hroundM ▸ trivialKernel_pivotStep h.kernel hq
  · exact hroundM ▸ hroundB ▸ solves_pivotStep h.solves col q

lemma eliminateColumn_fold {k symbolLen : Nat} {X : Fin k → Fin symbolLen → GF256}
    {s : List Bytes × List Bytes} (h : EliminationInv k symbolLen 0 X s) {n : Nat} (hn : n ≤ k) :
    ∃ s', (List.range n).foldlM (eliminateColumn k symbolLen) s = some s' ∧
      EliminationInv k symbolLen n X s' := by
  induction n with
  | zero => exact ⟨s, rfl, h⟩
  | succ n ih =>
    obtain ⟨t, ht, hinv⟩ := ih (by omega)
    obtain ⟨s', hs', hinv'⟩ := eliminateColumn_step (by omega) hinv
    refine ⟨s', ?_, hinv'⟩
    rw [List.range_succ, List.foldlM_append, ht]
    simp [hs']

/-! ## The matrix of the received indices -/

lemma numData_pos (cfg : FecConfig) : 1 ≤ cfg.numData := cfg.one_le_k

lemma numData_add_numRoots_le (cfg : FecConfig) : cfg.numData + cfg.numRoots ≤ 254 := cfg.sum_le

lemma buildEncMatrix_getD (cfg : FecConfig) {j : Nat} (hj : j < cfg.numRoots) :
    (buildEncMatrix cfg).getD j [] = (List.range cfg.numData).map fun i =>
      gfInv (UInt8.ofNat i ^^^ UInt8.ofNat (cfg.numData + j)) := by
  unfold buildEncMatrix
  rw [List.getD_eq_getElem _ _ (by rwa [List.length_map, List.length_range]), List.getElem_map,
    List.getElem_range]

lemma decodeMatrix_rect (cfg : FecConfig) (indices : List Nat)
    (hlt : ∀ i ∈ indices, i < cfg.numData + cfg.numRoots) (hlen : indices.length = cfg.numData) :
    Rect (decodeMatrix cfg indices) cfg.numData cfg.numData := by
  refine ⟨by simp [decodeMatrix], fun r hr => ?_⟩
  obtain ⟨row, hrow, rfl⟩ := List.mem_map.mp hr
  have hrow' : row < indices.length := by rw [hlen]; exact List.mem_range.mp hrow
  have hidx := hlt _ (List.getElem_mem hrow')
  dsimp only
  rw [List.getD_eq_getElem _ _ hrow']
  split_ifs with hd
  · simp
  · rw [buildEncMatrix_getD cfg (by omega), List.length_map, List.length_range]

/-- The point of GF(2^8) that belongs to index `i` of the full encoding matrix. -/
def gfPoint (i : Nat) : GF256 := ⟨UInt8.ofNat i⟩

lemma uint8_ofNat_inj {a b : Nat} (ha : a < 256) (hb : b < 256)
    (h : UInt8.ofNat a = UInt8.ofNat b) : a = b := by
  have hnat := congrArg UInt8.toNat h
  rw [UInt8.toNat_ofNat', UInt8.toNat_ofNat', Nat.mod_eq_of_lt ha, Nat.mod_eq_of_lt hb] at hnat
  exact hnat

lemma gfPoint_inj {i j : Nat} (hi : i < 256) (hj : j < 256) (h : gfPoint i = gfPoint j) : i = j :=
  uint8_ofNat_inj hi hj (congrArg GF256.byte h)

lemma encMatrix_entry (cfg : FecConfig) {i j : Nat} (hi : i < cfg.numData) (hj : j < cfg.numRoots) :
    (⟨((buildEncMatrix cfg).getD j []).getD i 0⟩ : GF256) =
      (gfPoint i - gfPoint (cfg.numData + j))⁻¹ := by
  have hsum := numData_add_numRoots_le cfg
  have hentry : ((buildEncMatrix cfg).getD j []).getD i 0 =
      gfInv (UInt8.ofNat i ^^^ UInt8.ofNat (cfg.numData + j)) := by
    rw [buildEncMatrix_getD cfg hj, List.getD_eq_getElem _ _
      (by rwa [List.length_map, List.length_range]), List.getElem_map, List.getElem_range]
  have hne : UInt8.ofNat i ^^^ UInt8.ofNat (cfg.numData + j) ≠ 0 := by
    intro h
    have heq : gfPoint i - gfPoint (cfg.numData + j) = 0 := by
      rw [GF256.sub_eq_add]
      exact GF256.ext h
    have := gfPoint_inj (by omega) (by omega) (sub_eq_zero.mp heq)
    omega
  rw [hentry, GF256.mk_gfInv hne, GF256.mk_xor, GF256.sub_eq_add]
  rfl

/-- Row `idx` of the full encoding matrix: a unit vector for a data packet, a Cauchy row for a
parity packet. -/
def encodingRow (cfg : FecConfig) (idx c : Nat) : GF256 :=
  if idx < cfg.numData then (if idx = c then 1 else 0) else (gfPoint c - gfPoint idx)⁻¹

lemma decodeMatrix_entry (cfg : FecConfig) {indices : List Nat}
    (hlen : indices.length = cfg.numData) (hlt : ∀ i ∈ indices, i < cfg.numData + cfg.numRoots)
    (r c : Fin cfg.numData) :
    gfMatrix (decodeMatrix cfg indices) cfg.numData cfg.numData r c =
      encodingRow cfg (indices.getD r 0) c := by
  have hr : r.val < indices.length := by rw [hlen]; exact r.isLt
  have hidx := hlt _ (List.getElem_mem hr)
  have hrow : (decodeMatrix cfg indices).getD r [] =
      if indices.getD r 0 < cfg.numData then (List.replicate cfg.numData 0).set (indices.getD r 0) 1
      else (buildEncMatrix cfg).getD (indices.getD r 0 - cfg.numData) [] := by
    unfold decodeMatrix
    rw [List.getD_eq_getElem _ _ (by simp), List.getElem_map, List.getElem_range]
  unfold gfMatrix matrixEntry encodingRow
  rw [hrow, List.getD_eq_getElem _ _ hr]
  by_cases hd : indices[r.val] < cfg.numData
  · rw [if_pos hd, if_pos hd, List.getD_eq_getElem?_getD, List.getElem?_set]
    by_cases hic : indices[r.val] = c.val
    · rw [if_pos hic, if_pos hic, if_pos (by simpa using hd)]
      rfl
    · rw [if_neg hic, if_neg hic, ← List.getD_eq_getElem?_getD, List.getD_replicate _ c.isLt]
      rfl
  · rw [if_neg hd, if_neg hd, encMatrix_entry cfg c.isLt (by omega)]
    rw [show cfg.numData + (indices[r.val] - cfg.numData) = indices[r.val] by omega]

/-- The row of a data packet picks its own entry. -/
lemma sum_encodingRow_data (cfg : FecConfig) (v : Fin cfg.numData → GF256) (c : Fin cfg.numData) :
    ∑ b : Fin cfg.numData, encodingRow cfg c b * v b = v c := by
  simp only [encodingRow, c.isLt, if_true]
  rw [Finset.sum_eq_single_of_mem c (Finset.mem_univ c)]
  · simp
  · intro b _ hb
    rw [if_neg (fun he => hb (Fin.ext he.symm)), zero_mul]

/-- Among `k` distinct indices there are as many parity indices as data indices are missing. -/
lemma card_missing_eq (cfg : FecConfig) {indices : List Nat} (hlen : indices.length = cfg.numData)
    (hnd : indices.Nodup) :
    (Finset.univ.filter fun c : Fin cfg.numData => c.val ∉ indices).card =
      (indices.toFinset.filter fun i => cfg.numData ≤ i).card := by
  let D : Finset Nat := indices.toFinset.filter fun i => ¬cfg.numData ≤ i
  have hparity : (indices.toFinset.filter fun i => cfg.numData ≤ i).card + D.card =
      cfg.numData := by
    rw [Finset.card_filter_add_card_filter_not, List.toFinset_card_of_nodup hnd, hlen]
  have hD : D = (Finset.univ.filter fun c : Fin cfg.numData => ¬c.val ∉ indices).map
      Fin.valEmbedding := by
    ext i
    simp only [D, Finset.mem_filter, List.mem_toFinset, Finset.mem_map, Finset.mem_univ, true_and,
      not_not, Fin.valEmbedding_apply, not_le]
    constructor
    · rintro ⟨hi, hik⟩
      exact ⟨⟨i, hik⟩, hi, rfl⟩
    · rintro ⟨c, hc, rfl⟩
      exact ⟨hc, c.isLt⟩
  have hdata : (Finset.univ.filter fun c : Fin cfg.numData => c.val ∉ indices).card + D.card =
      cfg.numData := by
    rw [hD, Finset.card_map, Finset.card_filter_add_card_filter_not, Finset.card_univ,
      Fintype.card_fin]
  omega

/-- The rows of `k` distinct received indices determine the data: the missing data positions
and the received parity positions form a square Cauchy system. -/
theorem decodeMatrix_trivialKernel (cfg : FecConfig) {indices : List Nat}
    (hlen : indices.length = cfg.numData) (hlt : ∀ i ∈ indices, i < cfg.numData + cfg.numRoots)
    (hnd : indices.Nodup) :
    TrivialKernel (gfMatrix (decodeMatrix cfg indices) cfg.numData cfg.numData) := by
  intro v hv
  have hsum := numData_add_numRoots_le cfg
  have hrow : ∀ i ∈ indices, ∑ c : Fin cfg.numData, encodingRow cfg i c * v c = 0 := by
    intro i hi
    obtain ⟨r, hr, rfl⟩ := List.mem_iff_getElem.mp hi
    have hvr := hv ⟨r, by rw [← hlen]; exact hr⟩
    simp only [decodeMatrix_entry cfg hlen hlt, List.getD_eq_getElem _ _ hr] at hvr
    exact hvr
  have hdata : ∀ c : Fin cfg.numData, c.val ∈ indices → v c = 0 := by
    intro c hc
    rw [← sum_encodingRow_data cfg v c]
    exact hrow c hc
  let I : Finset (Fin cfg.numData) := Finset.univ.filter fun c => c.val ∉ indices
  let P : Finset Nat := indices.toFinset.filter fun i => cfg.numData ≤ i
  have hPlt : ∀ i ∈ P, cfg.numData ≤ i ∧ i < 256 ∧ i ∈ indices := by
    intro i hi
    have hmem := List.mem_toFinset.mp (Finset.mem_filter.mp hi).1
    have := hlt i hmem
    exact ⟨(Finset.mem_filter.mp hi).2, by omega, hmem⟩
  have hcard : I.card ≤ (P.image gfPoint).card := by
    rw [Finset.card_image_of_injOn fun i hi j hj h => gfPoint_inj (hPlt i hi).2.1 (hPlt j hj).2.1 h]
    exact (card_missing_eq cfg hlen hnd).le
  have hmissing : ∀ c ∈ I, v c = 0 := by
    apply CauchySystem.eq_zero_of_forall_sum_eq_zero (fun c : Fin cfg.numData => gfPoint c) v I
      (fun a _ b _ h => Fin.ext (gfPoint_inj (by omega) (by omega) h)) (P.image gfPoint) hcard
    · intro c _ t ht hz
      obtain ⟨i, hi, rfl⟩ := Finset.mem_image.mp ht
      have := gfPoint_inj (by omega) (hPlt i hi).2.1 (sub_eq_zero.mp hz)
      have := (hPlt i hi).1
      omega
    · intro t ht
      obtain ⟨i, hi, rfl⟩ := Finset.mem_image.mp ht
      obtain ⟨hki, -, hmem⟩ := hPlt i hi
      have h := hrow i hmem
      simp only [encodingRow, if_neg (not_lt.mpr hki)] at h
      rw [← h, Finset.sum_filter]
      refine Finset.sum_congr rfl fun c _ => ?_
      by_cases hc : c.val ∈ indices
      · rw [if_neg (not_not.mpr hc), hdata c hc, mul_zero]
      · rw [if_pos hc, mul_comm]
  funext c
  by_cases hc : c.val ∈ indices
  · exact hdata c hc
  · exact hmissing c (Finset.mem_filter.mpr ⟨Finset.mem_univ c, hc⟩)

lemma eq_of_gfMatrix_eq {A B : List Bytes} {rows cols : Nat} (hA : Rect A rows cols)
    (hB : Rect B rows cols) (h : gfMatrix A rows cols = gfMatrix B rows cols) : A = B := by
  apply List.ext_getElem (by rw [hA.1, hB.1])
  intro r hrA hrB
  have hr : r < rows := by rw [← hA.1]; exact hrA
  have hrowA := hA.2 _ (List.getElem_mem hrA)
  have hrowB := hB.2 _ (List.getElem_mem hrB)
  apply List.ext_getElem (by rw [hrowA, hrowB])
  intro c hcA hcB
  have hentry := congrArg GF256.byte (congrFun (congrFun h ⟨r, hr⟩) ⟨c, by rw [← hrowA]; exact hcA⟩)
  simpa only [gfMatrix, matrixEntry, List.getD_eq_getElem _ _ hrA, List.getD_eq_getElem _ _ hrB,
    List.getD_eq_getElem _ _ hcA, List.getD_eq_getElem _ _ hcB] using hentry

section Indices

variable (cfg : FecConfig) {indices : List Nat} (hlen : indices.length = cfg.numData)
  (hlt : ∀ i ∈ indices, i < cfg.numData + cfg.numRoots) (hnd : indices.Nodup) {symbolLen : Nat}
include hlen hlt hnd

lemma elimination_start {data : List Bytes} (hdata : Rect data cfg.numData symbolLen)
    {X : Fin cfg.numData → Fin symbolLen → GF256}
    (hX : Solves (gfMatrix (decodeMatrix cfg indices) cfg.numData cfg.numData)
      (gfMatrix data cfg.numData symbolLen) X) :
    EliminationInv cfg.numData symbolLen 0 X (decodeMatrix cfg indices, data) :=
  ⟨decodeMatrix_rect cfg indices hlt hlen, hdata, fun _ hc => absurd hc (Nat.not_lt_zero _),
    decodeMatrix_trivialKernel cfg hlen hlt hnd, hX⟩

/-- The elimination runs to its end whatever the frames of the `k` indices hold, and leaves a
solution. -/
theorem gaussDecode_spec {data : List Bytes} (hdata : Rect data cfg.numData symbolLen) :
    Rect (gaussDecode cfg indices data symbolLen) cfg.numData symbolLen ∧
      Solves (gfMatrix (decodeMatrix cfg indices) cfg.numData cfg.numData)
        (gfMatrix data cfg.numData symbolLen)
        (gfMatrix (gaussDecode cfg indices data symbolLen) cfg.numData symbolLen) := by
  obtain ⟨X, hX⟩ := exists_solves (decodeMatrix_trivialKernel cfg hlen hlt hnd)
    (gfMatrix data cfg.numData symbolLen)
  obtain ⟨⟨M, B⟩, hfold, hinv⟩ :=
    eliminateColumn_fold (elimination_start cfg hlen hlt hnd hdata hX) le_rfl
  have hB : gfMatrix B cfg.numData symbolLen = X := eq_of_unitColumns hinv.unit hinv.solves
  unfold gaussDecode
  rw [hfold]
  exact ⟨hinv.rectB, hB ▸ hX⟩

lemma gaussDecode_rect {data : List Bytes} (hdata : Rect data cfg.numData symbolLen) :
    Rect (gaussDecode cfg indices data symbolLen) cfg.numData symbolLen :=
  (gaussDecode_spec cfg hlen hlt hnd hdata).1

/-- On the frames of any `k` distinct indices the decoder returns the vectors that encode to
them. -/
theorem gaussDecode_solves {data X : List Bytes} (hdata : Rect data cfg.numData symbolLen)
    (hX : Rect X cfg.numData symbolLen)
    (henc : ∀ r : Fin cfg.numData, ∀ b : Fin symbolLen,
      ∑ c : Fin cfg.numData, encodingRow cfg (indices.getD r 0) c * ⟨matrixEntry X c b⟩ =
        (⟨matrixEntry data r b⟩ : GF256)) :
    gaussDecode cfg indices data symbolLen = X := by
  obtain ⟨hrect, hresult⟩ := gaussDecode_spec cfg hlen hlt hnd hdata
  have hsolves : Solves (gfMatrix (decodeMatrix cfg indices) cfg.numData cfg.numData)
      (gfMatrix data cfg.numData symbolLen) (gfMatrix X cfg.numData symbolLen) := by
    intro r b
    simp only [decodeMatrix_entry cfg hlen hlt]
    exact henc r b
  have hkernel := decodeMatrix_trivialKernel cfg hlen hlt hnd
  exact eq_of_gfMatrix_eq hrect hX (solves_unique hkernel hresult hsolves)

/-- The result of the decoder encodes to the frames it was given. -/
lemma gaussDecode_encodes {data : List Bytes} (hdata : Rect data cfg.numData symbolLen)
    (r : Fin cfg.numData) (b : Fin symbolLen) :
    ∑ c : Fin cfg.numData, encodingRow cfg (indices.getD r 0) c *
        ⟨matrixEntry (gaussDecode cfg indices data symbolLen) c b⟩ =
          (⟨matrixEntry data r b⟩ : GF256) := by
  have hresult := (gaussDecode_spec cfg hlen hlt hnd hdata).2 r b
  simp only [decodeMatrix_entry cfg hlen hlt] at hresult
  exact hresult

end Indices

end MeshNetwork.Proofs
