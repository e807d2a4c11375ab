import Mathlib.Tactic.Linarith
import Mathlib.Tactic.NormNum

/-!
# Numbers as big-endian bytes

A number of fixed width and the bytes that its shifts and masks give determine each other.
-/

namespace BigEndian

lemma mul_or_eq_add {a b c : Nat} (i : Nat) (hc : c = 2 ^ i) (hb : b < c) :
    a * c ||| b = a * c + b := by
  rw [hc] at hb ⊢
  rw [← Nat.shiftLeft_eq, Nat.shiftLeft_add_eq_or_of_lt hb]

lemma and_255 (n : Nat) : n &&& 255 = n % 256 := Nat.and_two_pow_sub_one_eq_mod n 8

lemma uint16_of_bytes (n : UInt16) :
    ((((n >>> 8) &&& 0xFF).toUInt8).toUInt16 <<< 8) ||| ((n &&& 0xFF).toUInt8).toUInt16 = n := by
  have hn := n.toNat_lt
  apply UInt16.toNat_inj.mp
  simp only [UInt16.toNat_or, UInt16.toNat_shiftLeft, UInt8.toNat_toUInt16, UInt16.toNat_toUInt8,
    UInt16.toNat_and, UInt16.toNat_shiftRight, UInt16.reduceToNat, and_255,
    Nat.shiftRight_eq_div_pow, Nat.shiftLeft_eq, Nat.reduceMod, Nat.reducePow]
  have hhigh : n.toNat / 256 % 256 % 256 * 256 % 65536 = n.toNat / 256 * 256 := by omega
  rw [hhigh, mul_or_eq_add 8 (by norm_num) (by omega)]
  omega

lemma or_bytes {d e : Nat} (hd : d / 256 / 256 < 256) (he : e < 256) :
    d / 256 / 256 % 256 % 256 * 16777216 % 4294967296 ||| d / 256 % 256 % 256 * 65536 %
      4294967296 |||
      d % 256 % 256 * 256 % 4294967296 ||| e = d * 256 + e := by
  have hq := Nat.div_add_mod d 256
  have hqq := Nat.div_add_mod (d / 256) 256
  have hr := Nat.mod_lt d (show 256 > 0 by norm_num)
  have hrr := Nat.mod_lt (d / 256) (show 256 > 0 by norm_num)
  have hs16 : d / 256 / 256 * 16777216 + d / 256 % 256 * 65536 = d / 256 * 65536 := by linarith
  have hs8 : d / 256 * 65536 + d % 256 * 256 = d * 256 := by linarith
  have hb24 : d / 256 / 256 * 16777216 < 4294967296 := by linarith
  have hb16 : d / 256 % 256 * 65536 < 16777216 := by linarith
  have hb8 : d % 256 * 256 < 65536 := by linarith
  rw [Nat.mod_mod, Nat.mod_mod, Nat.mod_mod, Nat.mod_eq_of_lt hd, Nat.mod_eq_of_lt hb24,
    Nat.mod_eq_of_lt (hb16.trans (by norm_num)), Nat.mod_eq_of_lt (hb8.trans (by norm_num)),
    mul_or_eq_add 24 (by norm_num) hb16, hs16, mul_or_eq_add 16 (by norm_num) hb8, hs8,
    mul_or_eq_add 8 (by norm_num) he]

lemma uint32_of_bytes (n : UInt32) :
    ((((n >>> 24) &&& 0xFF).toUInt8).toUInt32 <<< 24) |||
      ((((n >>> 16) &&& 0xFF).toUInt8).toUInt32 <<< 16) |||
      ((((n >>> 8) &&& 0xFF).toUInt8).toUInt32 <<< 8) ||| ((n &&& 0xFF).toUInt8).toUInt32 = n := by
  have hn := n.toNat_lt
  apply UInt32.toNat_inj.mp
  simp only [UInt32.toNat_or, UInt32.toNat_shiftLeft, UInt8.toNat_toUInt32, UInt32.toNat_toUInt8,
    UInt32.toNat_and, UInt32.toNat_shiftRight, UInt32.reduceToNat, and_255,
    Nat.shiftRight_eq_div_pow, Nat.shiftLeft_eq, Nat.reduceMod, Nat.reducePow]
  generalize n.toNat = x at hn ⊢
  have hx3 : x / 16777216 = x / 256 / 256 / 256 := by
    rw [Nat.div_div_eq_div_mul, Nat.div_div_eq_div_mul]
  have hx2 : x / 65536 = x / 256 / 256 := by rw [Nat.div_div_eq_div_mul]
  have hlt : x / 256 / 256 / 256 < 256 := by omega
  have hlow : x / 256 * 256 + x % 256 % 256 = x := by omega
  rw [hx3, hx2]
  generalize x / 256 = d at hlt hlow ⊢
  exact (or_bytes hlt (by omega)).trans hlow

lemma or_shifted {a b c d : Nat} (ha : a < 256) (hb : b < 256) (hc : c < 256) (hd : d < 256) :
    a * 16777216 % 4294967296 ||| b * 65536 % 4294967296 ||| c * 256 % 4294967296 ||| d =
      ((a * 256 + b) * 256 + c) * 256 + d := by
  have hdiv : ∀ x y : Nat, y < 256 → (x * 256 + y) / 256 = x := fun x y hy => by omega
  have hmod : ∀ x y : Nat, y < 256 → (x * 256 + y) % 256 = y := fun x y hy => by omega
  have hor :=
    or_bytes (d := (a * 256 + b) * 256 + c) (e := d) (by rwa [hdiv _ c hc, hdiv a b hb]) hd
  rw [hdiv _ c hc, hmod _ c hc, hdiv a b hb, hmod a b hb, Nat.mod_mod, Nat.mod_eq_of_lt ha,
    Nat.mod_eq_of_lt hb, Nat.mod_eq_of_lt hc] at hor
  exact hor

/-- Four bytes as one number. -/
lemma toNat_of_bytes (a b c d : UInt8) :
    ((a.toUInt32 <<< 24) ||| (b.toUInt32 <<< 16) ||| (c.toUInt32 <<< 8) ||| d.toUInt32).toNat =
      ((a.toNat * 256 + b.toNat) * 256 + c.toNat) * 256 + d.toNat := by
  simp only [UInt32.toNat_or, UInt32.toNat_shiftLeft, UInt8.toNat_toUInt32, UInt32.reduceToNat,
    Nat.shiftLeft_eq, Nat.reduceMod, Nat.reducePow]
  exact or_shifted a.toNat_lt b.toNat_lt c.toNat_lt d.toNat_lt

lemma bytes_of_uint32 (a b c d : UInt8) :
    let n := (a.toUInt32 <<< 24) ||| (b.toUInt32 <<< 16) ||| (c.toUInt32 <<< 8) ||| d.toUInt32
    [((n >>> 24) &&& 0xFF).toUInt8, ((n >>> 16) &&& 0xFF).toUInt8, ((n >>> 8) &&& 0xFF).toUInt8,
      (n &&& 0xFF).toUInt8] =
      [a, b, c, d] := by
  intro n
  have hn : n.toNat = ((a.toNat * 256 + b.toNat) * 256 + c.toNat) * 256 + d.toNat :=
    toNat_of_bytes a b c d
  have ha := a.toNat_lt
  have hb := b.toNat_lt
  have hc := c.toNat_lt
  have hd := d.toNat_lt
  simp only [List.cons.injEq, ← UInt8.toNat_inj, UInt32.toNat_toUInt8, UInt32.toNat_and,
    UInt32.toNat_shiftRight, UInt32.reduceToNat, and_255, Nat.shiftRight_eq_div_pow, Nat.reduceMod,
    Nat.reducePow, hn, and_true]
  refine ⟨?_, ?_, ?_, ?_⟩ <;> omega

end BigEndian
