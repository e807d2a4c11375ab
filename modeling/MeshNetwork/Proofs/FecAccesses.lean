import MeshNetwork.Model.FecChecked
import MeshNetwork.Proofs.FecReceive

/-!
# The accesses of the decoder are in range

On a codec that any datagrams have led to, the decoder with checked accesses runs to its end and
gives what `decode` gives: no index is out of range, no zero is inverted and the elimination finds
its pivots.
-/

namespace MeshNetwork.Proofs

/-! ## Rows and entries -/

lemma writeAt_eq {α : Type} {l : List α} {i : Nat} (hi : i < l.length) (v : α) :
    writeAt l i v = some (l.set i v) :=
  if_pos hi

section Entries

variable {M : List Bytes} {rows cols row col : Nat} (hM : Rect M rows cols) (hrow : row < rows)
include hM hrow

lemma row_eq : M[row]? = some (M.getD row []) := by
  have hlt : row < M.length := by rw [hM.1]; exact hrow
  rw [List.getElem?_eq_getElem hlt, List.getD_eq_getElem _ _ hlt]

lemma entryAt_eq (hcol : col < cols) : entryAt M row col = some (matrixEntry M row col) := by
  have hlen := hM.getD_length hrow
  unfold entryAt matrixEntry
  rw [row_eq hM hrow, List.getD_eq_getElem (M.getD row []) _ (by rw [hlen]; exact hcol)]
  exact List.getElem?_eq_getElem _

lemma writeEntry_eq (hcol : col < cols) (v : UInt8) :
    writeEntry M row col v = some (M.set row ((M.getD row []).set col v)) := by
  unfold writeEntry
  rw [row_eq hM hrow]
  simp only [Option.bind_eq_bind, Option.bind_some]
  rw [writeAt_eq (by rw [hM.getD_length hrow]; exact hcol), Option.bind_some,
    writeAt_eq (by rw [hM.1]; exact hrow)]

/-- The loop over one row; the other rows, which `f` may read, stay. -/
lemma updateRow_eq {start stop : Nat} (hstop : stop ≤ cols)
    {f : List Bytes → Nat → UInt8 → Option UInt8} {g : Nat → UInt8 → UInt8}
    (hf : ∀ r c v, c < stop → f (M.set row r) c v = some (g c v)) :
    updateRow M row start stop f = some (M.set row ((M.getD row []).mapIdx fun c v =>
      if start ≤ c ∧ c < stop then g c v else v)) := by
  have hlt : row < M.length := by rw [hM.1]; exact hrow
  have hlen := hM.getD_length hrow
  generalize hr : M.getD row [] = r at hlen ⊢
  let st : Nat → List Bytes :=
    fun n => M.set row (r.mapIdx fun c v => if start ≤ c ∧ c < start + n then g c v else v)
  have hinit : st 0 = M := by
    have hid : (r.mapIdx fun c v => if start ≤ c ∧ c < start + 0 then g c v else v) = r := by
      apply List.ext_getElem
      · rw [List.length_mapIdx]
      · intro c hc _
        rw [List.getElem_mapIdx, if_neg (by omega)]
    change M.set row _ = M
    rw [hid, ← hr, List.getD_eq_getElem _ _ hlt, List.set_getElem_self]
  have hrun := List.foldlM_range'_eq (fun A c => do
    let v ← entryAt A row c
    let v ← f A c v
    writeEntry A row c v) st start (stop - start) fun i hi => by
      have hst : Rect (st i) rows cols := hM.set row (by rw [List.length_mapIdx, hlen])
      have hc : start + i < cols := by omega
      have hentry : matrixEntry (st i) row (start + i) = r.getD (start + i) 0 := by
        rw [matrixEntry_set hlt, if_pos rfl, List.getD_mapIdx _ (by rw [hlen]; exact hc) 0,
          if_neg (by omega)]
      have hnow : (st i).getD row [] = r.mapIdx fun c v => if start ≤ c ∧ c < start + i then g c v
          else v := by
        rw [List.getD_eq_getElem _ _ (by rw [hst.1]; exact hrow), List.getElem_set_self]
      simp only [Option.bind_eq_bind]
      rw [entryAt_eq hst hrow hc, Option.bind_some, hf _ _ _ (by omega), Option.bind_some,
        writeEntry_eq hst hrow hc, hnow, hentry, List.set_set]
      congr 2
      apply List.ext_getElem
      · rw [List.length_set, List.length_mapIdx, List.length_mapIdx]
      · intro c hc₁ hc₂
        rw [List.getElem_set, List.getElem_mapIdx, List.getElem_mapIdx]
        rw [List.length_mapIdx] at hc₂
        by_cases heq : start + i = c
        · subst heq
          rw [if_pos rfl, if_pos (by omega), List.getD_eq_getElem _ _ hc₂]
        · have hiff : start ≤ c ∧ c < start + i ↔ start ≤ c ∧ c < start + (i + 1) := by omega
          simp only [if_neg heq, hiff]
  unfold updateRow
  rw [hinit] at hrun
  rw [hrun]
  have hiff : ∀ c, start ≤ c ∧ c < start + (stop - start) ↔ start ≤ c ∧ c < stop := by
    intro c
    omega
  simp only [st, hiff]

end Entries

/-! ## Elimination -/

/-- The row operation of `eliminateRows` on row `row`. -/
def clearedRow (M A : List Bytes) (col start stop row : Nat) (r : Bytes) : Bytes :=
  if row = col ∨ matrixEntry M row col = 0 then r
  else r.mapIdx fun c v =>
    if start ≤ c ∧ c < stop then v ^^^ gfMul (matrixEntry M row col) (matrixEntry A col c) else v

lemma mapBefore_rect {A : List Bytes} {rows cols : Nat} (hA : Rect A rows cols) (M : List Bytes)
    (col start stop n : Nat) :
    Rect (List.mapBefore n (clearedRow M A col start stop) A) rows cols := by
  refine ⟨by rw [List.mapBefore_length, hA.1], fun r hr => ?_⟩
  obtain ⟨i, hi, rfl⟩ := List.mem_iff_getElem.mp hr
  rw [List.mapBefore_length] at hi
  have hlen := hA.2 _ (List.getElem_mem hi)
  simp only [List.mapBefore, List.getElem_mapIdx, clearedRow]
  split_ifs <;> simp [hlen]

/-- The rows that the loop has not reached, and row `col` at any time, are the original ones. -/
lemma matrixEntry_mapBefore {A : List Bytes} {rows cols row : Nat} (hA : Rect A rows cols)
    (M : List Bytes) (col start stop n c : Nat) (hrow : row < rows) (h : n ≤ row ∨ row = col) :
    matrixEntry (List.mapBefore n (clearedRow M A col start stop) A) row c =
      matrixEntry A row c := by
  have hlt : row < A.length := by rw [hA.1]; exact hrow
  unfold matrixEntry List.mapBefore
  rw [List.getD_mapIdx _ hlt []]
  rcases h with hle | heq
  · rw [if_neg (by omega)]
  · have hself : clearedRow M A col start stop row (A.getD row []) = A.getD row [] :=
      if_pos (.inl heq)
    rw [hself, ite_self]

/-- The loop over the columns of row `n`. -/
lemma clearUpdate_eq {A : List Bytes} {rows cols col n stop : Nat} (start : Nat)
    (hA : Rect A rows cols) (M : List Bytes) (hcol : col < rows) (hn : n < rows) (hne : n ≠ col)
    (hwork : matrixEntry M n col ≠ 0) (hstop : stop ≤ cols) :
    updateRow (List.mapBefore n (clearedRow M A col start stop) A) n start stop (fun A c v => do
        let p ← entryAt A col c
        some (v ^^^ gfMul (matrixEntry M n col) p)) =
      some (List.mapBefore (n + 1) (clearedRow M A col start stop) A) := by
  have hnA : n < A.length := by rw [hA.1]; exact hn
  have hA' := mapBefore_rect hA M col start stop n
  have hrow : (List.mapBefore n (clearedRow M A col start stop) A).getD n [] = A.get ⟨n, hnA⟩ := by
    rw [List.mapBefore, List.getD_mapIdx _ hnA [], if_neg (lt_irrefl n),
      List.getD_eq_getElem _ _ hnA]
    rfl
  rw [updateRow_eq hA' hn hstop (g := fun c v => v ^^^ gfMul (matrixEntry M n col)
    (matrixEntry A col c)), hrow, ← List.mapBefore_succ _ hnA, clearedRow,
    if_neg (not_or.mpr ⟨hne, hwork⟩)]
  intro r c v hc
  -- row `col` is not the one that is being written
  have hread : entryAt ((List.mapBefore n (clearedRow M A col start stop) A).set n r) col c =
      some (matrixEntry A col c) := by
    have hsame : entryAt ((List.mapBefore n (clearedRow M A col start stop) A).set n r) col c =
        entryAt (List.mapBefore n (clearedRow M A col start stop) A) col c := by
      unfold entryAt
      rw [List.getElem?_set_ne hne]
    rw [hsame, entryAt_eq hA' hcol (by omega), matrixEntry_mapBefore hA M col start stop n c hcol
      (.inr rfl)]
  simp only [hread, Option.bind_eq_bind, Option.bind_some]

lemma clearRow_eq {k symbolLen col : Nat} {M B : List Bytes} (hM : Rect M k k)
    (hB : Rect B k symbolLen) (hcol : col < k) {n : Nat} (hn : n < k) :
    clearRow k symbolLen col (List.mapBefore n (clearedRow M M col col k) M,
        List.mapBefore n (clearedRow M B col 0 symbolLen) B) n =
      some (List.mapBefore (n + 1) (clearedRow M M col col k) M,
        List.mapBefore (n + 1) (clearedRow M B col 0 symbolLen) B) := by
  have hfactor : entryAt (List.mapBefore n (clearedRow M M col col k) M) n col =
      some (matrixEntry M n col) := by
    rw [entryAt_eq (mapBefore_rect hM M col col k n) hn hcol,
      matrixEntry_mapBefore hM M col col k n col hn (.inl le_rfl)]
  have hskip : n = col ∨ matrixEntry M n col = 0 →
      ∀ (A : List Bytes) (start stop : Nat), n < A.length →
      List.mapBefore (n + 1) (clearedRow M A col start stop) A =
        List.mapBefore n (clearedRow M A col start stop) A := by
    intro hout A start stop hlt
    have hsame : (List.mapBefore n (clearedRow M A col start stop) A)[n]? =
        some (A.get ⟨n, hlt⟩) := by
      rw [List.mapBefore_getElem?, List.getElem?_eq_getElem hlt, Option.map_some,
        if_neg (lt_irrefl n)]
      rfl
    obtain ⟨_, hget⟩ := List.getElem?_eq_some_iff.mp hsame
    rw [← List.mapBefore_succ _ hlt, clearedRow, if_pos hout, ← hget, List.set_getElem_self]
  have hnM : n < M.length := by rw [hM.1]; exact hn
  have hnB : n < B.length := by rw [hB.1]; exact hn
  unfold clearRow
  by_cases hself : n = col
  · rw [if_pos hself, hskip (.inl hself) M col k hnM, hskip (.inl hself) B 0 symbolLen hnB]
  · rw [if_neg hself]
    dsimp only
    rw [hfactor]
    by_cases hzero : matrixEntry M n col = 0
    · rw [hskip (.inr hzero) M col k hnM, hskip (.inr hzero) B 0 symbolLen hnB]
      simp [hzero]
    · simp only [Option.bind_eq_bind, Option.bind_some, if_neg hzero]
      have hstepM := clearUpdate_eq col hM M hcol hn hself hzero le_rfl
      have hstepB := clearUpdate_eq 0 hB M hcol hn hself hzero le_rfl
      simp only [Option.bind_eq_bind] at hstepM hstepB
      rw [hstepM, Option.bind_some, hstepB, Option.bind_some]

/-- The loop over the rows is `eliminateRows` on both matrices. -/
lemma clearRows_eq {k symbolLen col : Nat} {M B : List Bytes} (hM : Rect M k k)
    (hB : Rect B k symbolLen) (hcol : col < k) :
    (List.range k).foldlM (clearRow k symbolLen col) (M, B) =
      some (eliminateRows M M col col k, eliminateRows M B col 0 symbolLen) := by
  have hrun := List.foldlM_range_eq (clearRow k symbolLen col)
    (fun n => (List.mapBefore n (clearedRow M M col col k) M,
    List.mapBefore n (clearedRow M B col 0 symbolLen) B)) k fun n hn => clearRow_eq hM hB hcol hn
  rw [List.mapBefore_zero, List.mapBefore_zero, List.mapBefore_all _ hM.1.le,
    List.mapBefore_all _ hB.1.le] at hrun
  exact hrun

lemma findPivot_eq {M : List Bytes} {k col : Nat} (hM : Rect M k k) (hcol : col < k)
    (rows : List Nat) (hrows : ∀ row ∈ rows, row < k) :
    findPivot M col rows = rows.find? fun row => matrixEntry M row col != 0 := by
  induction rows with
  | nil => rfl
  | cons row rows ih =>
    unfold findPivot
    rw [entryAt_eq hM (hrows row List.mem_cons_self) hcol, List.find?_cons,
      ih fun r hr => hrows r (List.mem_cons_of_mem row hr)]
    by_cases hzero : matrixEntry M row col = 0
    · simp [hzero]
    · have hfound : (matrixEntry M row col != 0) = true := bne_iff_ne.mpr hzero
      rw [hfound]
      simp [hzero]

lemma swapChecked_eq {M : List Bytes} {rows cols i j : Nat} (hM : Rect M rows cols) (hi : i < rows)
    (hj : j < rows) :
    swapChecked M i j = some (swapRows M i j) := by
  unfold swapChecked swapRows
  rw [row_eq hM hi, row_eq hM hj]
  simp only [Option.bind_eq_bind, Option.bind_some]
  rw [writeAt_eq (by rw [hM.1]; exact hi), Option.bind_some,
    writeAt_eq (by rw [List.length_set, hM.1]; exact hj)]

lemma swapPivot_eq {M : List Bytes} {rows cols col pivot : Nat} (hM : Rect M rows cols)
    (hcol : col < rows) (hpivot : pivot < rows) :
    swapPivot M col pivot = some (swapRows M col pivot) := by
  unfold swapPivot
  by_cases heq : pivot = col
  · rw [if_neg (not_not.mpr heq), heq, swapRows_self (by rw [hM.1]; exact hcol)]
  · rw [if_pos heq, swapChecked_eq hM hcol hpivot]

lemma scaleChecked_eq {M : List Bytes} {rows cols row start stop : Nat} (hM : Rect M rows cols)
    (hrow : row < rows) (hstop : stop ≤ cols) (scale : UInt8) :
    updateRow M row start stop (fun _ _ v => some (gfMul v scale)) =
      some (scaleRow M row start stop scale) :=
  updateRow_eq hM hrow hstop fun _ _ _ _ => rfl

/-- One round with checked accesses fails only where there is no pivot. -/
lemma eliminateChecked_eq {k symbolLen col : Nat} {s : List Bytes × List Bytes} (hM : Rect s.1 k k)
    (hB : Rect s.2 k symbolLen) (hcol : col < k) :
    eliminateChecked k symbolLen s col = eliminateColumn k symbolLen s col := by
  have hrange : ∀ row ∈ List.range' col (k - col), col ≤ row ∧ row < k := by
    intro row hrow
    have hmem := List.mem_range'_1.mp hrow
    omega
  unfold eliminateChecked eliminateColumn
  rw [findPivot_eq hM hcol _ fun row hrow => (hrange row hrow).2]
  cases hpivot : (List.range' col (k - col)).find? fun row => matrixEntry s.1 row col != 0 with
  | none => rfl
  | some pivot =>
    have hlt := (hrange pivot (List.mem_of_find?_eq_some hpivot)).2
    have hne : matrixEntry s.1 pivot col ≠ 0 := by
      have hsome := List.find?_some hpivot
      exact bne_iff_ne.mp hsome
    have hsM := swapRows_rect hM hcol hlt
    have hsB := swapRows_rect hB hcol hlt
    have hentry : matrixEntry (swapRows s.1 col pivot) col col = matrixEntry s.1 pivot col := by
      rw [matrixEntry_swapRows hM.1 ⟨col, hcol⟩ ⟨pivot, hlt⟩ ⟨col, hcol⟩, Equiv.swap_apply_left]
    have hinv : gfInvChecked (matrixEntry (swapRows s.1 col pivot) col col) =
        some (gfInv (matrixEntry (swapRows s.1 col pivot) col col)) :=
          if_neg (by rw [hentry]; exact hne)
    dsimp only
    rw [ite_swapRows (by rw [hM.1]; exact hcol), ite_swapRows (by rw [hB.1]; exact hcol)]
    simp only [Option.bind_eq_bind, Option.bind_some]
    rw [swapPivot_eq hM hcol hlt, Option.bind_some, swapPivot_eq hB hcol hlt, Option.bind_some,
      entryAt_eq hsM hcol hcol, Option.bind_some, hinv, Option.bind_some,
      scaleChecked_eq hsM hcol le_rfl, Option.bind_some, scaleChecked_eq hsB hcol le_rfl,
      Option.bind_some]
    exact clearRows_eq (scaleRow_rect hsM hcol _ _ _) (scaleRow_rect hsB hcol _ _ _) hcol

lemma eliminateChecked_fold {k symbolLen : Nat} {X : Fin k → Fin symbolLen → GF256}
    {s : List Bytes × List Bytes} (hinv : EliminationInv k symbolLen 0 X s) {n : Nat} (hn : n ≤ k) :
    (List.range n).foldlM (eliminateChecked k symbolLen) s =
      (List.range n).foldlM (eliminateColumn k symbolLen) s := by
  induction n with
  | zero => rfl
  | succ n ih =>
    obtain ⟨t, ht, htinv⟩ := eliminateColumn_fold hinv (show n ≤ k by omega)
    rw [List.range_succ, List.foldlM_append, List.foldlM_append, ih (by omega), ht]
    simp only [Option.bind_eq_bind, Option.bind_some, List.foldlM_cons, List.foldlM_nil,
      eliminateChecked_eq htinv.rectM htinv.rectB (show n < k by omega)]

section Indices

variable (cfg : FecConfig) {indices : List Nat} (hlen : indices.length = cfg.numData)
  (hlt : ∀ i ∈ indices, i < cfg.numData + cfg.numRoots)
include hlen hlt

lemma fillRows_eq : (List.range cfg.numData).foldlM (fillRow cfg indices)
    (List.replicate cfg.numData (List.replicate cfg.numData 0)) =
      some (decodeMatrix cfg indices) := by
  have hrect := decodeMatrix_rect cfg indices hlt hlen
  let zeros : List Bytes := List.replicate cfg.numData (List.replicate cfg.numData 0)
  have hzeros : zeros.length = cfg.numData := List.length_replicate
  let g : Nat → Bytes → Bytes := fun row _ => (decodeMatrix cfg indices).getD row []
  have hst : ∀ n, Rect (List.mapBefore n g zeros) cfg.numData cfg.numData := by
    intro n
    refine ⟨by rw [List.mapBefore_length, hzeros], fun r hr => ?_⟩
    obtain ⟨i, hi, rfl⟩ := List.mem_iff_getElem.mp hr
    rw [List.mapBefore_length, hzeros] at hi
    simp only [List.mapBefore, List.getElem_mapIdx]
    split_ifs
    · exact hrect.getD_length hi
    · simp [zeros]
  have hrun :=
    List.foldlM_range_eq (fillRow cfg indices) (fun n => List.mapBefore n g zeros) cfg.numData
      fun n hn => by
    have hn' : n < indices.length := by rw [hlen]; exact hn
    have hidx := hlt _ (List.getElem_mem hn')
    have hrow : (List.mapBefore n g zeros).getD n [] = List.replicate cfg.numData 0 := by
      rw [List.mapBefore, List.getD_mapIdx _ (by rw [hzeros]; exact hn) [], if_neg (lt_irrefl n)]
      simp [zeros, hn]
    have hentry : (decodeMatrix cfg indices).getD n [] =
        if indices[n] < cfg.numData then (List.replicate cfg.numData 0).set indices[n] 1
        else (buildEncMatrix cfg).getD (indices[n] - cfg.numData) [] := by
      rw [List.getD_eq_getElem _ _ (by rw [hrect.1]; exact hn)]
      simp only [decodeMatrix, List.getElem_map, List.getElem_range, List.getD_eq_getElem _ _ hn']
    have hsucc := List.mapBefore_succ g (show n < zeros.length by rw [hzeros]; exact hn)
    unfold fillRow
    rw [List.getElem?_eq_getElem hn', ← hsucc]
    simp only [Option.bind_eq_bind, Option.bind_some]
    by_cases hdata : indices[n] < cfg.numData
    · rw [if_pos hdata, writeEntry_eq (hst n) hn hdata, hrow]
      simp only [g, hentry, if_pos hdata]
    · have henc : (buildEncMatrix cfg)[indices[n] - cfg.numData]? =
          some ((buildEncMatrix cfg).getD (indices[n] - cfg.numData) []) := by
        have hin : indices[n] - cfg.numData < (buildEncMatrix cfg).length := by
          rw [buildEncMatrix, List.length_map, List.length_range]
          omega
        rw [List.getElem?_eq_getElem hin, List.getD_eq_getElem _ _ hin]
      rw [if_neg hdata, henc, Option.bind_some, writeAt_eq (by rw [(hst n).1]; exact hn)]
      simp only [g, hentry, if_neg hdata]
  rw [List.mapBefore_zero, List.mapBefore_all _ hzeros.le] at hrun
  refine hrun.trans (congrArg some ?_)
  apply List.ext_getElem
  · rw [List.length_mapIdx, hzeros, hrect.1]
  · intro i hi _
    rw [List.getElem_mapIdx]
    exact List.getD_eq_getElem _ _ _

lemma gaussDecodeChecked_eq (hnd : indices.Nodup) {symbolLen : Nat} {data : List Bytes}
    (hdata : Rect data cfg.numData symbolLen) :
    gaussDecodeChecked cfg indices data symbolLen =
      some (gaussDecode cfg indices data symbolLen) := by
  obtain ⟨X, hX⟩ := Elimination.exists_solves (decodeMatrix_trivialKernel cfg hlen hlt hnd)
    (gfMatrix data cfg.numData symbolLen)
  have hinv := elimination_start cfg hlen hlt hnd hdata hX
  obtain ⟨⟨M, B⟩, hfold, -⟩ := eliminateColumn_fold hinv le_rfl
  unfold gaussDecodeChecked gaussDecode
  rw [fillRows_eq cfg hlen hlt]
  simp only [Option.bind_eq_bind, Option.bind_some]
  rw [eliminateChecked_fold hinv le_rfl, hfold]
  rfl

end Indices

/-! ## Delivery -/

/-- The filled ones among the first `n` slots. -/
def filledBefore (g : RecvGroup) (n : Nat) : List (Nat × Bytes) :=
  (g.slots.zipIdx.take n).filterMap fun s => s.1.map fun bytes => (s.2, bytes)

lemma filledBefore_succ {g : RecvGroup} {n : Nat} (hn : n < g.slots.length) :
    filledBefore g (n + 1) = filledBefore g n ++
      ((g.slots[n]).map fun bytes => (n, bytes)).toList := by
  have hzip : n < g.slots.zipIdx.length := by rw [List.length_zipIdx]; exact hn
  unfold filledBefore
  rw [List.take_succ_eq_append_getElem hzip, List.filterMap_append, List.getElem_zipIdx,
    Nat.zero_add]
  cases g.slots[n] <;> rfl

lemma filledBefore_all {g : RecvGroup} {n : Nat} (hn : g.slots.length ≤ n) :
    filledBefore g n = g.filled := by
  unfold filledBefore RecvGroup.filled
  rw [List.take_of_length_le (by rw [List.length_zipIdx]; exact hn)]

lemma card_heldSeqs_eq_countP (g : RecvGroup) :
    (heldSeqs g.slots).card = g.slots.countP Option.isSome := by
  rw [← filled_length, RecvGroup.filled, List.length_filterMap_eq_countP]
  conv_rhs => rw [← List.zipIdx_map_fst 0 g.slots, List.countP_map]
  simp [Function.comp_def]

lemma maxLen_append_singleton (l : List Bytes) (s : Bytes) :
    maxLen (l ++ [s]) = max (maxLen l) s.length := by
  unfold maxLen
  rw [List.foldl_append]
  rfl

lemma longestSlots_eq (g : RecvGroup) : (List.range g.slots.length).foldlM (longestSlot g.slots) 0 =
    some (maxLen (g.filled.map Prod.snd)) := by
  have hrun := List.foldlM_range_eq (longestSlot g.slots)
    (fun n => maxLen ((filledBefore g n).map Prod.snd))
    g.slots.length fun n hn => by
      unfold longestSlot
      rw [List.getElem?_eq_getElem hn, filledBefore_succ hn]
      cases g.slots[n] with
      | none => simp
      | some s => simp [maxLen_append_singleton]
  rw [filledBefore_all le_rfl] at hrun
  exact hrun

lemma collectSlots_eq (g : RecvGroup) (k : Nat) :
    (List.range g.slots.length).foldlM (collectSlot g.slots k (maxLen (g.filled.map Prod.snd))) [] =
      some ((g.filled.take k).map fun s => (s.1, padTo (maxLen (g.filled.map Prod.snd)) s.2)) := by
  have hfits : ∀ n (hn : n < g.slots.length) s, g.slots[n] = some s →
      s.length ≤ maxLen (g.filled.map Prod.snd) := by
    intro n hn s hs
    have hmem : (n, s) ∈ g.filled := by
      refine List.mem_filterMap.mpr ⟨(some s, n), ?_, rfl⟩
      rw [List.mk_mem_zipIdx_iff_getElem?, List.getElem?_eq_getElem hn, hs]
    exact length_le_maxLen (List.mem_map_of_mem hmem)
  generalize maxLen (g.filled.map Prod.snd) = symbolLen at hfits ⊢
  have hrun := List.foldlM_range_eq (collectSlot g.slots k symbolLen)
    (fun n => ((filledBefore g n).take k).map fun s => (s.1, padTo symbolLen s.2)) g.slots.length
    fun n hn => by
      unfold collectSlot
      rw [filledBefore_succ hn, List.length_map, List.length_take]
      by_cases hmore : min k (filledBefore g n).length < k
      · rw [if_pos hmore, List.getElem?_eq_getElem hn]
        cases hslot : g.slots[n] with
        | none => simp
        | some s =>
          have hcopy : copyPadded symbolLen s = some (padTo symbolLen s) :=
            if_pos (hfits n hn s hslot)
          simp only [Option.bind_eq_bind, Option.bind_some, hcopy, Option.map_some,
            Option.toList_some]
          rw [List.take_of_length_le (by omega), List.take_of_length_le (by simp; omega),
            List.map_append]
          rfl
      · rw [if_neg hmore, List.take_append_of_le_length (by omega)]
  rw [filledBefore_all le_rfl] at hrun
  simp only [filledBefore, List.take_zero, List.filterMap_nil, List.take_nil, List.map_nil] at hrun
  exact hrun

lemma tryDeliverChecked_eq {cfg : FecConfig} {c : FecCodec} {gid : UInt32} {g : RecvGroup}
    (hc : c.cfg = cfg) (hlookup : c.recvGroups.lookup gid = some g) (hg : GroupShape cfg g)
    (hle : g.received ≤ cfg.numData) :
    c.tryDeliverChecked gid = some (c.tryDeliver gid) := by
  subst hc
  have hk : g.k.toNat = c.cfg.numData := by
    rw [hg.k_eq]
    rfl
  have htotal : g.k.toNat + g.m.toNat = g.slots.length := by
    rw [hg.slots_length, hg.k_eq, hg.m_eq]
    rfl
  unfold FecCodec.tryDeliverChecked FecCodec.tryDeliver
  rw [hlookup]
  dsimp only
  rw [hk]
  by_cases hfew : g.received < c.cfg.numData
  · simp only [hfew, decide_true, Bool.or_true, if_true]
  · have hfull : g.received = c.cfg.numData := by omega
    obtain ⟨hlen, hlt, hnd, hrect⟩ := hg.system hfull
    have hchecked := gaussDecodeChecked_eq c.cfg hlen hlt hnd hrect
    have hsolved := gaussDecode_rect c.cfg hlen hlt hnd hrect
    rw [← hk, htotal, hk]
    simp only [Option.bind_eq_bind, longestSlots_eq, collectSlots_eq, Option.bind_some,
      List.map_map, hfew, hg.delivered, decide_false, Bool.or_false, Bool.false_eq_true, if_false]
    generalize maxLen (g.filled.map Prod.snd) = symbolLen at hchecked hsolved ⊢
    rw [show (Prod.fst ∘ fun s : Nat × Bytes => (s.1, padTo symbolLen s.2)) = Prod.fst from rfl,
      show (Prod.snd ∘ fun s : Nat × Bytes => (s.1, padTo symbolLen s.2)) = fun s =>
        padTo symbolLen s.2 from rfl,
      hchecked, Option.bind_some]
    generalize gaussDecode c.cfg _ _ symbolLen = recovered at hsolved ⊢
    by_cases hempty : recovered.isEmpty
    · rw [if_pos hempty, if_pos hempty]
    · rw [if_neg hempty, if_neg hempty, List.mapM_some fun i hi => ?_, Option.bind_some]
      have hi := List.mem_range.mp hi
      have hlens : i < g.dataLens.length := by rw [hg.lens_length]; exact hi
      have hrows : i < recovered.length := by rw [hsolved.1]; exact hi
      rw [List.getElem?_eq_getElem hlens, List.getElem?_eq_getElem hrows,
        List.getD_eq_getElem _ _ hlens, List.getD_eq_getElem _ _ hrows]
      rfl

/-! ## One datagram -/

lemma byte_eq {dg : Bytes} {i : Nat} (hi : i < dg.length) : dg[i]? = some (dg.getD i 0) := by
  rw [List.getElem?_eq_getElem hi, List.getD_eq_getElem _ _ hi]

lemma parseHeaderChecked_eq (dg : Bytes) : parseHeaderChecked dg = some (parseHeader dg) := by
  unfold parseHeaderChecked parseHeader
  by_cases hshort : dg.length < kHeaderSize
  · rw [if_pos hshort, if_pos hshort]
  · have hread : ∀ i < 14, dg[i]? = some (dg.getD i 0) := fun i hi =>
      byte_eq (lt_of_lt_of_le hi (not_lt.mp hshort))
    have hfec : isFecFrameChecked dg = some (isFecFrame dg) := by
      unfold isFecFrameChecked isFecFrame
      rw [if_neg hshort, hread 0 (by decide), hread 1 (by decide), hread 2 (by decide),
        hread 3 (by decide), hread 4 (by decide), decide_eq_true (not_lt.mp hshort), Bool.true_and]
      rfl
    rw [if_neg hshort, if_neg hshort, hfec, hread 5 (by decide), hread 6 (by decide),
      hread 7 (by decide), hread 8 (by decide), hread 9 (by decide), hread 10 (by decide),
      hread 11 (by decide), hread 12 (by decide), hread 13 (by decide)]
    cases isFecFrame dg with
    | false => rfl
    | true => rfl

lemma readLens_eq {payload : Bytes} {lens : List UInt16} {k : Nat} (hlens : lens.length = k)
    (hlong : 2 * k ≤ payload.length) :
    (List.range k).foldlM (readLen payload) lens =
      some (lens.mapIdx fun i len => if i < k then manifestLen payload i else len) := by
  have hrun := List.foldlM_range_eq (readLen payload)
    (fun n => List.mapBefore n (fun i _ => manifestLen payload i) lens) k
    fun n hn => by
      have hn' : n < lens.length := by rw [hlens]; exact hn
      unfold readLen
      rw [byte_eq (show 2 * n < payload.length by omega),
        byte_eq (show 2 * n + 1 < payload.length by omega), ← List.mapBefore_succ _ hn']
      simp only [Option.bind_eq_bind, Option.bind_some]
      exact writeAt_eq (by rw [List.mapBefore_length]; exact hn') _
  rw [List.mapBefore_zero] at hrun
  exact hrun

section Receive

variable {cfg : FecConfig} {c c' : FecCodec} {dg : Bytes} {h : FecHeader} {g : RecvGroup}

lemma storeFrameChecked_eq (hadm : admitted cfg dg = some h) (hg : GroupShape cfg g)
    (hfew : g.received < cfg.numData) (hc : c.cfg = cfg) :
    c.storeFrameChecked g h (announced dg h) = some (c.storeFrame g h (announced dg h)) := by
  obtain ⟨-, hk, -, hlt, -⟩ := admitted_eq_some.mp hadm
  have hkn : h.numData.toNat = cfg.numData := by
    rw [hk]
    rfl
  have hin : h.seq.toNat < g.slots.length := by
    rw [hg.slots_length]
    exact hlt
  have hread : g.slots[h.seq.toNat]? = some (g.slots.getD h.seq.toNat none) := by
    rw [List.getElem?_eq_getElem hin, List.getD_eq_getElem _ _ hin]
  unfold FecCodec.storeFrameChecked FecCodec.storeFrame
  rw [hread]
  simp only [Option.bind_eq_bind, Option.bind_some]
  by_cases hrange : h.seq ≥ UInt8.ofNat g.slots.length
  · rw [if_pos hrange, if_pos hrange]
  rw [if_neg hrange, if_neg hrange]
  by_cases hfilled : (g.slots.getD h.seq.toNat none).isSome
  · rw [if_pos hfilled, if_pos hfilled]
  rw [if_neg hfilled, if_neg hfilled]
  have hnew : h.seq.toNat ∉ heldSeqs g.slots := fun hmem => hfilled (mem_heldSeqs.mp hmem)
  obtain ⟨hshape, hheld⟩ := fillSlot_shape hg hlt hnew (announced dg h)
  have hcount : (fillSlot h (announced dg h) g).received ≤ cfg.numData := by
    rw [hshape.received, hheld, Finset.card_insert_of_notMem hnew, ← hg.received]
    omega
  have hdeliver : FecCodec.tryDeliverChecked
      { c with recvGroups := c.recvGroups.insert h.groupId (fillSlot h (announced dg h) g) }
      h.groupId =
      some (FecCodec.tryDeliver
        { c with recvGroups := c.recvGroups.insert h.groupId (fillSlot h (announced dg h) g) }
        h.groupId) :=
    tryDeliverChecked_eq hc (AList.lookup_insert _) hshape hcount
  by_cases hparity : h.seq ≥ h.numData
  · rw [if_pos hparity, if_pos hparity]
    by_cases hcut : (announced dg h).length < 2 * h.numData.toNat
    · rw [if_pos hcut, if_pos hcut]
    · have hsub : substrAt (announced dg h) (2 * h.numData.toNat) (announced dg h).length =
          some ((announced dg h).drop (2 * h.numData.toNat)) := by
        unfold substrAt
        rw [if_pos (by omega), List.take_of_length_le (by rw [List.length_drop]; omega)]
      rw [if_neg hcut, if_neg hcut, hkn, readLens_eq hg.lens_length (by rw [hkn] at hcut; omega),
        Option.bind_some, ← hkn, hsub, Option.bind_some, writeAt_eq hin, Option.bind_some]
      rw [fillSlot, if_pos hparity] at hdeliver
      exact hdeliver
  · have hdata : h.seq.toNat < g.dataLens.length := by
      rw [hg.lens_length, ← hkn]
      rw [ge_iff_le, UInt8.le_iff_toNat_le] at hparity
      omega
    rw [if_neg hparity, if_neg hparity, writeAt_eq hdata, Option.bind_some, writeAt_eq hin,
      Option.bind_some]
    rw [fillSlot, if_neg hparity] at hdeliver
    exact hdeliver

/-- The checked decoder runs to its end, with the result of `decode`. -/
theorem decodeChecked_eq (hr : ReceiveSide cfg c) (dg : Bytes) :
    c.decodeChecked dg = some (c.decode dg) := by
  unfold FecCodec.decodeChecked FecCodec.decode
  rw [parseHeaderChecked_eq]
  simp only [Option.bind_eq_bind, Option.bind_some]
  cases hparse : parseHeader dg with
  | none => rfl
  | some h =>
    dsimp only
    by_cases hconfig : h.numData ≠ c.cfg.k ∨ h.numRoots ≠ c.cfg.m
    · rw [if_pos hconfig, if_pos hconfig]
    rw [if_neg hconfig, if_neg hconfig]
    by_cases hrange : h.seq ≥ h.numData + h.numRoots
    · rw [if_pos hrange, if_pos hrange]
    rw [if_neg hrange, if_neg hrange]
    by_cases hsize : dg.length < kHeaderSize + h.dataLen.toNat
    · rw [if_pos hsize, if_pos hsize]
    rw [if_neg hsize, if_neg hsize]
    rw [hr.cfg_eq] at hconfig
    have hadm := admitted_of_checks hparse hconfig hrange hsize
    obtain ⟨-, hk, hm, -, -⟩ := admitted_eq_some.mp hadm
    obtain ⟨hdelivered, hcurrent, htouches⟩ := openGroup_touches hr h hk hm
    have hpayload : substrAt dg kHeaderSize h.dataLen.toNat = some (announced dg h) :=
      if_pos (by omega)
    have hshape := hr.current_shape h.groupId
    have hfew : (current cfg c h.groupId).received < cfg.numData := by
      rw [hshape.received, heldSeqs_current]
      exact hr.held_short h.groupId
    rw [hpayload, Option.bind_some, hdelivered, if_neg (by decide), if_neg (by decide),
      htouches.self, Option.bind_some, hcurrent]
    exact storeFrameChecked_eq hadm hshape hfew (htouches.cfg_eq.trans hr.cfg_eq)

end Receive

/-- After any datagrams the decoder is well formed, and the next one is decoded without an access
out of range, an inversion of zero or a singular system, to nothing or to `k` payloads. -/
theorem decoder_invariant (cfg : FecConfig) (dgs : List Bytes) :
    let c := (FecCodec.decodeAll { cfg := cfg } dgs).2
    c.recvGroupOrder.length ≤ 256 ∧ (∀ gid ∈ c.recvGroups, gid ∈ c.recvGroupOrder) ∧
      c.recvGroups.keys.length ≤ 256 ∧
    (∀ gid g, c.recvGroups.lookup gid = some g →
      g.k = cfg.k ∧ g.m = cfg.m ∧ g.slots.length = cfg.numData + cfg.numRoots ∧
        g.dataLens.length = cfg.numData ∧
      g.delivered = false ∧ g.received = g.slots.countP Option.isSome ∧ g.received < cfg.numData) ∧
    ∀ dg, c.decodeChecked dg = some (c.decode dg) ∧
      ((c.decode dg).1 = [] ∨ (c.decode dg).1.length = cfg.numData) := by
  have hr := (receiveSide_create cfg).decodeAll dgs
  intro c
  have hlisted : ∀ gid ∈ c.recvGroups, gid ∈ c.recvGroupOrder := by
    intro gid hgid
    obtain ⟨g, hg⟩ := (UMap.mem_iff_lookup _ _).mp hgid
    exact hr.listed gid g hg
  refine ⟨hr.order_le, hlisted, ?_, fun gid g hg => ?_, fun dg => ⟨decodeChecked_eq hr dg, ?_⟩⟩
  · exact (c.recvGroups.nodupKeys.subperm fun gid hgid => hlisted gid hgid).length_le.trans
      hr.order_le
  · have hshape := hr.shape gid g hg
    refine ⟨hshape.k_eq, hshape.m_eq, hshape.slots_length, hshape.lens_length, hshape.delivered, ?_,
      hr.short gid g hg⟩
    rw [hshape.received, card_heldSeqs_eq_countP]
  · have hrec := decode_received hr dg
    generalize FecCodec.decode _ dg = out at hrec ⊢
    obtain ⟨res, c'⟩ := out
    dsimp only at hrec ⊢
    cases hrec with
    | rejected _ => exact .inl rfl
    | dropped _ _ _ => exact .inl rfl
    | stored _ _ _ _ _ _ _ => exact .inl rfl
    | delivered _ _ _ _ hlen _ => exact .inr hlen

end MeshNetwork.Proofs
