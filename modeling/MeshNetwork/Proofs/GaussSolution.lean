import MeshNetwork.Proofs.GaussDecode

/-!
# The solution that the elimination decoder finds

The rows of the system in the bytes of the code: a received data index fixes a vector, a received
parity index a combination of all of them with the coefficients `enc_[j]`.
-/

namespace MeshNetwork.Proofs

/-- Byte `b` of the combination of the vectors `X` with the coefficients `coeffs`. -/
def gfCombination (coeffs : Bytes) (X : List Bytes) (b : Nat) : UInt8 :=
  (List.range coeffs.length).foldl (fun sum i => sum ^^^ gfMul (coeffs.getD i 0)
    ((X.getD i []).getD b 0)) 0

/-- The vectors `X` encode to `v` at the index `idx`. -/
def EncodesTo (cfg : FecConfig) (symbolLen : Nat) (X : List Bytes) (idx : Nat) (v : Bytes) : Prop :=
  (idx < cfg.numData → X.getD idx [] = v) ∧
    ∀ j, idx = cfg.numData + j →
      (List.range symbolLen).map (gfCombination ((buildEncMatrix cfg).getD j []) X) = v

lemma mk_gfCombination (coeffs : Bytes) (X : List Bytes) (b : Nat) :
    (⟨gfCombination coeffs X b⟩ : GF256) =
      ∑ i ∈ Finset.range coeffs.length, ⟨coeffs.getD i 0⟩ * ⟨matrixEntry X i b⟩ := by
  unfold gfCombination
  generalize coeffs.length = n
  induction n with
  | zero => rfl
  | succ n ih =>
    rw [List.range_succ, List.foldl_append, List.foldl_cons, List.foldl_nil, GF256.mk_xor,
      GF256.mk_gfMul, ih, Finset.sum_range_succ]
    rfl

lemma bytes_eq_iff {v w : Bytes} {n : Nat} (hv : v.length = n) (hw : w.length = n) :
    v = w ↔ ∀ b : Fin n, (⟨v.getD b 0⟩ : GF256) = ⟨w.getD b 0⟩ := by
  constructor
  · rintro rfl b
    rfl
  · intro h
    apply List.ext_getElem (hv.trans hw.symm)
    intro b hbv hbw
    have hb := congrArg GF256.byte (h ⟨b, by rw [← hv]; exact hbv⟩)
    simpa only [List.getD_eq_getElem _ _ hbv, List.getD_eq_getElem _ _ hbw] using hb

section Rows

variable {cfg : FecConfig} {symbolLen : Nat} {X : List Bytes} {v : Bytes}
  (hX : Rect X cfg.numData symbolLen)
  (hv : v.length = symbolLen)
include hX hv

/-- The row of a data index. -/
lemma data_row_iff {idx : Nat} (hidx : idx < cfg.numData) : X.getD idx [] = v ↔
    ∀ b : Fin symbolLen, ∑ c : Fin cfg.numData, encodingRow cfg idx c * ⟨matrixEntry X c b⟩ =
      (⟨v.getD b 0⟩ : GF256) := by
  rw [bytes_eq_iff (hX.getD_length hidx) hv]
  refine forall_congr' fun b => ?_
  rw [sum_encodingRow_data cfg (fun c => ⟨matrixEntry X c b⟩) ⟨idx, hidx⟩]
  rfl

omit hX in
/-- The row of a parity index. -/
lemma parity_row_iff {j : Nat} (hj : j < cfg.numRoots) :
    (List.range symbolLen).map (gfCombination ((buildEncMatrix cfg).getD j []) X) = v ↔
      ∀ b : Fin symbolLen, ∑ c :
      Fin cfg.numData, encodingRow cfg (cfg.numData + j) c * ⟨matrixEntry X c b⟩ =
        (⟨v.getD b 0⟩ : GF256) := by
  have hlen : ((buildEncMatrix cfg).getD j []).length = cfg.numData := by
    rw [buildEncMatrix_getD cfg hj, List.length_map, List.length_range]
  rw [bytes_eq_iff (by rw [List.length_map, List.length_range]) hv]
  refine forall_congr' fun b => ?_
  have hsum : ∑ c : Fin cfg.numData, encodingRow cfg (cfg.numData + j) c * ⟨matrixEntry X c b⟩ =
      (⟨gfCombination ((buildEncMatrix cfg).getD j []) X b⟩ : GF256) := by
    rw [mk_gfCombination, hlen, Finset.sum_range]
    refine Finset.sum_congr rfl fun c _ => ?_
    rw [encMatrix_entry cfg c.isLt hj, encodingRow, if_neg (by omega)]
  rw [hsum, List.getD_eq_getElem _ _ (by simp), List.getElem_map, List.getElem_range]

lemma encodesTo_iff {idx : Nat} (hidx : idx < cfg.numData + cfg.numRoots) :
    EncodesTo cfg symbolLen X idx v ↔
    ∀ b : Fin symbolLen, ∑ c : Fin cfg.numData, encodingRow cfg idx c * ⟨matrixEntry X c b⟩ =
      (⟨v.getD b 0⟩ : GF256) := by
  unfold EncodesTo
  by_cases hdata : idx < cfg.numData
  · rw [← data_row_iff hX hv hdata]
    constructor
    · intro h
      exact h.1 hdata
    · intro h
      exact ⟨fun _ => h, fun j hj => by omega⟩
  · obtain ⟨j, rfl⟩ := Nat.exists_eq_add_of_le (not_lt.mp hdata)
    rw [← parity_row_iff hv (by omega)]
    constructor
    · intro h
      exact h.2 j rfl
    · intro h
      refine ⟨fun hlt => absurd hlt hdata, fun j' hj' => ?_⟩
      obtain rfl := Nat.add_left_cancel hj'
      exact h

end Rows

/-- What holds for each index with the vector received for it. -/
lemma forall_mem_zip_iff {indices : List Nat} {data : List Bytes} {k : Nat}
    (hlen : indices.length = k) (hrows : data.length = k) (P : Nat → Bytes → Prop) :
    (∀ x ∈ indices.zip data, P x.1 x.2) ↔ ∀ r : Fin k, P (indices.getD r 0) (data.getD r []) := by
  constructor
  · intro h r
    have hr : r.val < (indices.zip data).length := by
      rw [List.length_zip, hlen, hrows, min_self]
      exact r.isLt
    have hmem := h _ (List.getElem_mem hr)
    rw [List.getElem_zip] at hmem
    rw [List.getD_eq_getElem _ _ (by rw [hlen]; exact r.isLt),
      List.getD_eq_getElem _ _ (by rw [hrows]; exact r.isLt)]
    exact hmem
  · intro h x hx
    obtain ⟨r, hr, rfl⟩ := List.mem_iff_getElem.mp hx
    rw [List.length_zip, hlen, hrows, min_self] at hr
    have hrow := h ⟨r, hr⟩
    rw [List.getD_eq_getElem _ _ (by rw [hlen]; exact hr),
      List.getD_eq_getElem _ _ (by rw [hrows]; exact hr)] at hrow
    rw [List.getElem_zip]
    exact hrow

/-- For any `k` distinct indices in any order and any vectors of the symbol length, `gauss_decode`
does not fail, and its result are the only `k` vectors that encode to those received. -/
theorem gaussDecode_unique_solution (cfg : FecConfig) (indices : List Nat)
    (hlen : indices.length = cfg.numData) (hnd : indices.Nodup)
    (hlt : ∀ i ∈ indices, i < cfg.numData + cfg.numRoots) (symbolLen : Nat) (data : List Bytes)
    (hrows : data.length = cfg.numData) (hcols : ∀ v ∈ data, v.length = symbolLen) :
    let X := gaussDecode cfg indices data symbolLen
    X ≠ [] ∧ X.length = cfg.numData ∧ (∀ x ∈ X, x.length = symbolLen) ∧
    ∀ Y : List Bytes, Y.length = cfg.numData → (∀ y ∈ Y, y.length = symbolLen) →
      ((∀ received ∈ indices.zip data, EncodesTo cfg symbolLen Y received.1 received.2) ↔
        Y = X) := by
  intro X
  have hdata : Rect data cfg.numData symbolLen := ⟨hrows, hcols⟩
  have hX : Rect X cfg.numData symbolLen := gaussDecode_rect cfg hlen hlt hnd hdata
  have hk := numData_pos cfg
  refine ⟨?_, hX.1, hX.2, fun Y hYrows hYcols => ?_⟩
  · intro hempty
    have hzero := hX.1
    rw [hempty, List.length_nil] at hzero
    omega
  · have hY : Rect Y cfg.numData symbolLen := ⟨hYrows, hYcols⟩
    have hindex : ∀ r : Fin cfg.numData, indices.getD r 0 < cfg.numData + cfg.numRoots := by
      intro r
      have hr : r.val < indices.length := by rw [hlen]; exact r.isLt
      rw [List.getD_eq_getElem _ _ hr]
      exact hlt _ (List.getElem_mem hr)
    rw [forall_mem_zip_iff hlen hrows]
    simp only [encodesTo_iff hY (hdata.getD_length (Fin.isLt _)) (hindex _)]
    constructor
    · intro henc
      exact (gaussDecode_solves cfg hlen hlt hnd hdata hY henc).symm
    · rintro rfl r b
      exact gaussDecode_encodes cfg hlen hlt hnd hdata r b

/-- The parity frame and the second data frame of a group of two, in this order: the second vector
is known. -/
theorem gaussDecode_unique_parity :
    let X := gaussDecode ⟨2, 1, by decide, by decide, by decide⟩ [2, 1] [[5], [7]] 1
    X ≠ [] ∧ X.getD 1 [] = [7] := by
  obtain ⟨hne, hrows, hcols, hunique⟩ := gaussDecode_unique_solution
    ⟨2, 1, by decide, by decide, by decide⟩ [2, 1] rfl
    (by decide) (by decide) 1 [[5], [7]] rfl (by decide)
  have hencodes := (hunique _ hrows hcols).mpr rfl (1, [7]) (by decide)
  exact ⟨hne, hencodes.1 (by decide)⟩

end MeshNetwork.Proofs
