import MeshNetwork.Library.GeneratorField
import MeshNetwork.Model.FecCodec
import Mathlib.Dynamics.PeriodicPts.Defs
import Mathlib.Data.Fintype.EquivFin

/-!
# The log and exp tables make a field

The tables that `build_gf_tables` fills are the powers of `x` modulo
`x^8 + x^4 + x^3 + x^2 + 1` and their logarithms. With XOR as addition, `gf_mul` as
multiplication and `gf_inv` as inverse the bytes are a field.
-/

namespace MeshNetwork.Proofs

/-- Multiplication by the generator on bytes. -/
def mulX (a : UInt8) : UInt8 := (a <<< 1) ^^^ (if a.toBitVec.msb then 0x1D else 0)

lemma mulX_xor (a b : UInt8) : mulX (a ^^^ b) = mulX a ^^^ mulX b := by
  unfold mulX
  rw [UInt8.shiftLeft_xor, UInt8.toBitVec_xor, BitVec.msb_xor]
  cases a.toBitVec.msb <;> cases b.toBitVec.msb
  · simp
  · simp [UInt8.xor_assoc]
  · simp only [Bool.xor_false, if_true, Bool.false_eq_true, if_false, UInt8.xor_zero]
    rw [UInt8.xor_assoc, UInt8.xor_comm (b <<< 1), ← UInt8.xor_assoc]
  · simp only [Bool.xor_self, Bool.false_eq_true, if_false, if_true, UInt8.xor_zero]
    rw [UInt8.xor_assoc (a <<< 1), ← UInt8.xor_assoc 0x1D, UInt8.xor_comm 0x1D,
      UInt8.xor_assoc (b <<< 1), UInt8.xor_self, UInt8.xor_zero]

lemma gfNext_byte (a : UInt8) : gfNext a.toUInt32 = (mulX a).toUInt32 := by
  have h : ∀ n : Fin 256, gfNext (UInt8.ofNat n).toUInt32 = (mulX (UInt8.ofNat n)).toUInt32 := by
    decide +kernel
  have := h ⟨a.toNat, a.toNat_lt⟩
  rwa [UInt8.ofNat_toNat] at this

/-- The powers of the generator. -/
def powX (n : Nat) : UInt8 := mulX^[n] 1

lemma powX_succ (n : Nat) : powX (n + 1) = mulX (powX n) := Function.iterate_succ_apply' mulX n 1

lemma powX_period : powX 255 = 1 := by decide +kernel

lemma powX_add_period (n : Nat) : powX (n + 255) = powX n := by
  unfold powX
  rw [Function.iterate_add_apply]
  exact congrArg _ powX_period

/-- The generator has order 255: the period divides 255, but none of 15, 51 and 85. -/
lemma minimalPeriod_mulX : Function.minimalPeriod mulX 1 = 255 := by
  have hdvd : Function.minimalPeriod mulX 1 ∣ 255 :=
    Function.IsPeriodicPt.minimalPeriod_dvd powX_period
  have hnot : ∀ n ∈ [15, 51, 85], ¬Function.minimalPeriod mulX 1 ∣ n := by
    intro n hn hd
    have hper : powX n = 1 := Function.isPeriodicPt_iff_minimalPeriod_dvd.mpr hd
    have hne : ∀ n ∈ [15, 51, 85], powX n ≠ 1 := by decide +kernel
    exact hne n hn hper
  have hle := Nat.le_of_dvd (by decide) hdvd
  have hdiv : ∀ d ≤ 255, d ∣ 255 → (∀ n ∈ [15, 51, 85], ¬d ∣ n) → d = 255 := by decide +kernel
  exact hdiv _ hle hdvd hnot

lemma powX_injOn {i j : Nat} (hi : i < 255) (hj : j < 255) (h : powX i = powX j) : i = j :=
  (Function.iterate_eq_iterate_iff_of_lt_minimalPeriod (by rwa [minimalPeriod_mulX])
    (by rwa [minimalPeriod_mulX])).mp h

lemma mulX_eq_zero {a : UInt8} (h : mulX a = 0) : a = 0 := by
  have hall : ∀ n : Fin 256, mulX (UInt8.ofNat n) = 0 → UInt8.ofNat n = 0 := by decide +kernel
  have := hall ⟨a.toNat, a.toNat_lt⟩
  rw [UInt8.ofNat_toNat] at this
  exact this h

lemma powX_ne_zero (n : Nat) : powX n ≠ 0 := by
  induction n with
  | zero => decide
  | succ n ih =>
    rw [powX_succ]
    exact fun h => ih (mulX_eq_zero h)

/-- Every nonzero byte is one of the first 255 powers: the powers are distinct. -/
lemma exists_powX {a : UInt8} (ha : a ≠ 0) : ∃ i, i < 255 ∧ powX i = a := by
  have hpos : ∀ b : UInt8, b ≠ 0 → 1 ≤ b.toNat := by
    intro b hb
    rcases Nat.eq_zero_or_pos b.toNat with h | h
    · exact absurd (UInt8.toNat_inj.mp h) hb
    · exact h
  let f : Fin 255 → Fin 255 := fun i =>
    ⟨(powX i).toNat - 1, by
      have := (powX i).toNat_lt
      have := hpos _ (powX_ne_zero i)
      omega⟩
  have hinj : Function.Injective f := by
    intro i j hij
    have hval := Fin.mk.inj hij
    have hi := hpos _ (powX_ne_zero i)
    have hj := hpos _ (powX_ne_zero j)
    exact Fin.ext (powX_injOn i.isLt j.isLt (UInt8.toNat_inj.mp (by omega)))
  have ha' := hpos a ha
  have hlt := a.toNat_lt
  obtain ⟨i, hi⟩ := (Finite.injective_iff_surjective.mp hinj) ⟨a.toNat - 1, by omega⟩
  refine ⟨i, i.isLt, UInt8.toNat_inj.mp ?_⟩
  have hval := Fin.mk.inj hi
  have := hpos _ (powX_ne_zero i)
  omega

lemma gfTablesInit_length : gfTablesInit.gfExp.length = 512 ∧ gfTablesInit.gfLog.length = 256 :=
  ⟨List.length_replicate, List.length_replicate⟩

/-- The first `n` entries of the exponential table are written. -/
def ExpFilled (e : List UInt8) (n : Nat) : Prop :=
  e.length = 512 ∧ ∀ j < n, e.getD j 0 = powX j

/-- The logarithms of the first `n` powers are written. -/
def LogFilled (l : List UInt8) (n : Nat) : Prop :=
  l.length = 256 ∧ ∀ j < n, l.getD (powX j).toNat 0 = UInt8.ofNat j

lemma expFilled_set {e : List UInt8} {n : Nat} (h : ExpFilled e n) (hn : n < 512) :
    ExpFilled (e.set n (powX n)) (n + 1) := by
  refine ⟨by rw [List.length_set, h.1], fun j hj => ?_⟩
  rw [List.getD_eq_getElem?_getD, List.getElem?_set]
  by_cases hjn : n = j
  · rw [if_pos hjn, if_pos (by rw [h.1]; exact hn), hjn]
    rfl
  · rw [if_neg hjn, ← List.getD_eq_getElem?_getD]
    exact h.2 j (by omega)

lemma logFilled_set {l : List UInt8} {n : Nat} (h : LogFilled l n) (hn : n < 255) :
    LogFilled (l.set (powX n).toNat (UInt8.ofNat n)) (n + 1) := by
  refine ⟨by rw [List.length_set, h.1], fun j hj => ?_⟩
  rw [List.getD_eq_getElem?_getD, List.getElem?_set]
  by_cases hjn : (powX n).toNat = (powX j).toNat
  · have : n = j := powX_injOn hn (by omega) (UInt8.toNat_inj.mp hjn)
    rw [if_pos hjn, if_pos (by rw [h.1]; exact (powX n).toNat_lt), this]
    rfl
  · rw [if_neg hjn, ← List.getD_eq_getElem?_getD]
    refine h.2 j (Nat.lt_of_le_of_ne (by omega) fun hj' => hjn ?_)
    rw [hj']

/-- What the table loop of `build_gf_tables` has written after `n` rounds. -/
lemma gfTableStep_fold (n : Nat) (hn : n ≤ 255) (s : GfTables × UInt32)
    (hs : (List.range n).foldl gfTableStep (gfTablesInit, 1) = s) :
    s.2 = (powX n).toUInt32 ∧ ExpFilled s.1.gfExp n ∧ LogFilled s.1.gfLog n := by
  induction n generalizing s with
  | zero =>
    subst hs
    exact ⟨rfl, ⟨gfTablesInit_length.1, fun j hj => absurd hj (Nat.not_lt_zero j)⟩,
      ⟨gfTablesInit_length.2, fun j hj => absurd hj (Nat.not_lt_zero j)⟩⟩
  | succ n ih =>
    obtain ⟨hx, hexp, hlog⟩ := ih (by omega) _ rfl
    rw [List.range_succ, List.foldl_append, List.foldl_cons, List.foldl_nil] at hs
    generalize (List.range n).foldl gfTableStep (gfTablesInit, 1) = t at hx hexp hlog hs
    have hbyte : t.2.toUInt8 = powX n := by rw [hx]; simp
    have hnat : t.2.toNat = (powX n).toNat := by rw [hx]; simp
    subst hs
    refine ⟨?_, ?_, ?_⟩
    · rw [gfTableStep, hx, gfNext_byte, powX_succ]
    · rw [gfTableStep, hbyte]
      exact expFilled_set hexp (by omega)
    · rw [gfTableStep, hnat]
      exact logFilled_set hlog (by omega)

/-- The doubling loop continues the exponential table. -/
lemma gfDoubleStep_fold (e e' : List UInt8) (he : ExpFilled e 255) (n : Nat) (hn : n ≤ 257)
    (h : (List.range' 255 n).foldl gfDoubleStep e = e') : ExpFilled e' (255 + n) := by
  induction n generalizing e' with
  | zero =>
    subst h
    exact he
  | succ n ih =>
    have hfill := ih _ (by omega) rfl
    rw [List.range'_concat, List.foldl_append, List.foldl_cons, List.foldl_nil, Nat.one_mul] at h
    generalize (List.range' 255 n).foldl gfDoubleStep e = t at hfill h
    have hval : t.getD (255 + n - 255) 0 = powX (255 + n) := by
      rw [hfill.2 _ (by omega), show 255 + n - 255 = n by omega, Nat.add_comm 255 n,
        powX_add_period]
    subst h
    rw [gfDoubleStep, hval]
    exact expFilled_set hfill (by omega)

theorem gfExp_eq {i : Nat} (hi : i < 512) : gfExp i = powX i := by
  obtain ⟨-, hexp, -⟩ := gfTableStep_fold 255 (by omega) _ rfl
  unfold gfExp buildGfTables
  dsimp only
  have hdouble := gfDoubleStep_fold _ _ hexp 257 (by omega) rfl
  exact hdouble.2 i hi

theorem gfLog_powX {i : Nat} (hi : i < 255) : gfLog (powX i) = i := by
  obtain ⟨-, -, hlog⟩ := gfTableStep_fold 255 (by omega) _ rfl
  have hne : 0 ≠ (powX i).toNat := by
    intro h
    exact powX_ne_zero i (UInt8.toNat_inj.mp h.symm)
  unfold gfLog buildGfTables
  rw [List.getD_eq_getElem?_getD, List.getElem?_set, if_neg hne, ← List.getD_eq_getElem?_getD,
    hlog.2 i hi, UInt8.toNat_ofNat']
  omega

lemma gfLog_zero : gfLog 0 = 0 := by
  obtain ⟨-, -, hlog⟩ := gfTableStep_fold 255 (by omega) _ rfl
  unfold gfLog buildGfTables
  rw [List.getD_eq_getElem?_getD, List.getElem?_set, if_pos (by rfl), hlog.1]
  rfl

lemma gfLog_lt (a : UInt8) : gfLog a < 255 := by
  by_cases ha : a = 0
  · rw [ha, gfLog_zero]; decide
  · obtain ⟨i, hi, rfl⟩ := exists_powX ha
    rwa [gfLog_powX hi]

lemma powX_gfLog {a : UInt8} (ha : a ≠ 0) : powX (gfLog a) = a := by
  obtain ⟨i, hi, rfl⟩ := exists_powX ha
  rw [gfLog_powX hi]

lemma powX_255_add (i : Nat) : mulX^[255] (powX i) = powX i := by
  have h := Function.iterate_add_apply mulX 255 i 1
  rw [Nat.add_comm] at h
  exact h.symm.trans (powX_add_period i)

/-- A byte with the arithmetic of the codec. -/
@[ext]
structure GF256 where
  byte : UInt8
  deriving DecidableEq

namespace GF256

instance : Zero GF256 := ⟨⟨0⟩⟩
instance : One GF256 := ⟨⟨1⟩⟩
instance : Add GF256 := ⟨fun a b => ⟨a.byte ^^^ b.byte⟩⟩
instance : Neg GF256 := ⟨id⟩
instance : Mul GF256 := ⟨fun a b => ⟨gfMul a.byte b.byte⟩⟩
instance : Inv GF256 := ⟨fun a => if a = 0 then 0 else ⟨gfInv a.byte⟩⟩

instance : AddCommGroup GF256 where
  add_assoc a b c := GF256.ext (UInt8.xor_assoc _ _ _)
  add_comm a b := GF256.ext (UInt8.xor_comm _ _)
  zero_add a := GF256.ext UInt8.zero_xor
  add_zero a := GF256.ext UInt8.xor_zero
  neg_add_cancel a := GF256.ext UInt8.xor_self
  nsmul := nsmulRec
  zsmul := zsmulRec

/-- Multiplication by the generator as an additive map. -/
def stepHom : GF256 →+ GF256 where
  toFun a := ⟨mulX a.byte⟩
  map_zero' := by decide
  map_add' a b := GF256.ext (mulX_xor a.byte b.byte)

lemma stepHom_iterate (n : Nat) (a : UInt8) : stepHom^[n] ⟨a⟩ = ⟨mulX^[n] a⟩ := by
  induction n generalizing a with
  | zero => rfl
  | succ n ih => exact ih (mulX a)

/-- The generator that the two tables present. -/
def generator : GeneratorField.Generator GF256 where
  step := stepHom
  one := 1
  order := 255
  log a := gfLog a.byte
  one_ne_zero := by decide
  log_lt a := gfLog_lt a.byte
  step_order := by
    intro v
    rw [stepHom_iterate]
    by_cases hv : v.byte = 0
    · rw [hv]
      exact GF256.ext (hv.symm ▸ by decide +kernel)
    · obtain ⟨i, -, hi⟩ := exists_powX hv
      rw [← hi, powX_255_add, hi]
  step_log := by
    intro v hv
    change stepHom^[gfLog v.byte] ⟨1⟩ = v
    rw [stepHom_iterate]
    have h := powX_gfLog (a := v.byte) fun h => hv (GF256.ext h)
    unfold powX at h
    rw [h]

lemma generator_step_iterate (n : Nat) (a : UInt8) : generator.step^[n] ⟨a⟩ = ⟨mulX^[n] a⟩ :=
  stepHom_iterate n a

lemma generator_log (a : GF256) : generator.log a = gfLog a.byte := rfl

lemma mul_eq (a b : GF256) : a * b = generator.mul a b := by
  by_cases ha : a = 0
  · subst ha
    rw [GeneratorField.zero_mul]
    rfl
  · by_cases hb : b = 0
    · subst hb
      rw [GeneratorField.mul_zero]
      exact GF256.ext (if_pos (by simp [show (0 : GF256).byte = 0 from rfl]))
    · have ha' : a.byte ≠ 0 := fun h => ha (GF256.ext h)
      have hb' : b.byte ≠ 0 := fun h => hb (GF256.ext h)
      have hla := gfLog_lt a.byte
      have hlb := gfLog_lt b.byte
      have hmul : generator.mul a b = ⟨mulX^[gfLog a.byte] b.byte⟩ := by
        rw [GeneratorField.Generator.mul, if_neg ha, generator_log]
        exact generator_step_iterate _ _
      have hbyte : gfMul a.byte b.byte = powX (gfLog a.byte + gfLog b.byte) := by
        rw [gfMul, if_neg (by simp [ha', hb']), gfExp_eq (by omega)]
      rw [hmul]
      apply GF256.ext
      change gfMul a.byte b.byte = mulX^[gfLog a.byte] b.byte
      have hlog := powX_gfLog hb'
      unfold powX at hbyte hlog
      rw [hbyte, Function.iterate_add_apply, hlog]

lemma inv_eq {a : GF256} (ha : a ≠ 0) : a⁻¹ = generator.inv a := by
  have hbyte : a⁻¹ = ⟨gfInv a.byte⟩ := if_neg ha
  have hexp : gfInv a.byte = powX (255 - gfLog a.byte) := by rw [gfInv, gfExp_eq (by omega)]
  rw [hbyte, hexp, GeneratorField.Generator.inv, if_neg ha, generator_log, powX]
  exact (generator_step_iterate _ _).symm

instance : Field GF256 where
  mul_assoc a b c := by simp only [mul_eq, GeneratorField.mul_assoc]
  mul_comm a b := by rw [mul_eq, mul_eq, GeneratorField.mul_comm]
  one_mul a := by rw [mul_eq]; exact GeneratorField.one_mul generator a
  mul_one a := by
    rw [mul_eq, GeneratorField.mul_comm]
    exact GeneratorField.one_mul generator a
  left_distrib a b c := by simp only [mul_eq, GeneratorField.mul_add]
  right_distrib a b c := by
    simp only [mul_eq, GeneratorField.mul_comm generator _ c, GeneratorField.mul_add]
  zero_mul a := by rw [mul_eq, GeneratorField.zero_mul]
  mul_zero a := by rw [mul_eq, GeneratorField.mul_zero]
  exists_pair_ne := ⟨0, 1, by decide⟩
  mul_inv_cancel a ha := by
    rw [mul_eq, inv_eq ha]
    exact GeneratorField.mul_inv_cancel generator ha
  inv_zero := if_pos rfl
  nnqsmul := _
  nnqsmul_def := fun _ _ => rfl
  qsmul := _
  qsmul_def := fun _ _ => rfl

@[simp] lemma mk_zero : (⟨0⟩ : GF256) = 0 := rfl
lemma mk_xor (a b : UInt8) : (⟨a ^^^ b⟩ : GF256) = ⟨a⟩ + ⟨b⟩ := rfl
lemma mk_gfMul (a b : UInt8) : (⟨gfMul a b⟩ : GF256) = ⟨a⟩ * ⟨b⟩ := rfl

lemma mk_eq_zero {a : UInt8} : (⟨a⟩ : GF256) = 0 ↔ a = 0 :=
  ⟨fun h => congrArg GF256.byte h, fun h => h ▸ rfl⟩

lemma mk_gfInv {a : UInt8} (ha : a ≠ 0) : (⟨gfInv a⟩ : GF256) = (⟨a⟩ : GF256)⁻¹ :=
  (if_neg fun h => ha (mk_eq_zero.mp h)).symm

/-- Subtraction is XOR, as addition is. -/
lemma sub_eq_add (a b : GF256) : a - b = a + b := sub_eq_add_neg a b

end GF256

end MeshNetwork.Proofs
