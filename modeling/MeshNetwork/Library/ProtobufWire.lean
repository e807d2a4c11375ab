import Mathlib.Algebra.Order.Ring.Nat
import Mathlib.Tactic.Common
import Mathlib.Tactic.Ring

/-!
# The wire format of Protobuf

A message is a list of fields, each behind a tag with its number and its wire type.
`Reads bytes fields` says that a reader of `bytes` comes to `fields`; the lemmas extend it by one
written field at the front, so that the round trip of a message follows from the list of its fields.
Groups, which proto3 does not have, are refused.
-/

namespace ProtobufWire

/-! ## Writing -/

/-- Seven bits in each byte, the low ones first; all bytes but the last have the high bit set. -/
def varintLoop : Nat → Nat → List UInt8
  | 0, n => [UInt8.ofNat n]
  | rounds + 1, n =>
    if n < 128 then [UInt8.ofNat n] else UInt8.ofNat (n % 128 + 128) :: varintLoop rounds (n / 128)

/-- A varint of at most ten bytes. -/
def varint (n : Nat) : List UInt8 := varintLoop 9 n

inductive WireType where
  | varint
  | lengthDelimited
  deriving DecidableEq, Repr

def WireType.number : WireType → Nat
  | .varint => 0
  | .lengthDelimited => 2

def fieldTag (field : Nat) (wireType : WireType) : List UInt8 :=
  varint (field * 8 + wireType.number)

/-- A field with explicit presence that is set to bytes, a string or a message. -/
def setField (field : Nat) (value : List UInt8) : List UInt8 :=
  fieldTag field .lengthDelimited ++ varint value.length ++ value

def bytesField (field : Nat) (value : List UInt8) : List UInt8 :=
  if value = [] then [] else setField field value

/-- An unsigned number, an enumeration or a Boolean. -/
def numberField (field : Nat) (value : Nat) : List UInt8 :=
  if value = 0 then [] else fieldTag field .varint ++ varint value

def utf8 (s : String) : List UInt8 := s.toUTF8.data.toList

/-- The number that is written for an `int32`; a negative one is extended to 64 bits. -/
def int32Number (value : Int) : Nat := (value % 2 ^ 64).toNat

/-! ## Reading -/

def readVarint : Nat → List UInt8 → Option (Nat × List UInt8)
  | 0, _ => none
  | _ + 1, [] => none
  | rounds + 1, b :: rest =>
    if b < 128 then some (b.toNat, rest)
    else (readVarint rounds rest).map fun r => (b.toNat - 128 + 128 * r.1, r.2)

inductive FieldValue where
  | varint (value : Nat)
  | bytes (value : List UInt8)
  | fixed64 (value : List UInt8)
  | fixed32 (value : List UInt8)

def takeBytes (n : Nat) (bytes : List UInt8) : Option (List UInt8 × List UInt8) :=
  if n ≤ bytes.length then some (bytes.splitAt n) else none

def readValue (bytes : List UInt8) : Nat → Option (FieldValue × List UInt8)
  | 0 => (readVarint 10 bytes).map fun r => (.varint (r.1 % 2 ^ 64), r.2)
  | 1 => (takeBytes 8 bytes).map fun r => (.fixed64 r.1, r.2)
  | 2 => (readVarint 5 bytes).bind fun r =>
    if r.1 < 2 ^ 31 then (takeBytes r.1 r.2).map fun r => (.bytes r.1, r.2) else none
  | 5 => (takeBytes 4 bytes).map fun r => (.fixed32 r.1, r.2)
  | _ => none

/-- There is no field with the number 0. -/
def readField (bytes : List UInt8) : Option ((Nat × FieldValue) × List UInt8) :=
  (readVarint 5 bytes).bind fun r =>
    if 8 ≤ r.1 ∧ r.1 < 2 ^ 32 then (readValue r.2 (r.1 % 8)).map fun v =>
      ((r.1 / 8, v.1), v.2) else none

/-- A field takes at least one byte, so there are no more fields than bytes. -/
def readFields : Nat → List UInt8 → Option (List (Nat × FieldValue))
  | _, [] => some []
  | 0, _ :: _ => none
  | fuel + 1, b :: rest =>
    (readField (b :: rest)).bind fun r => (readFields fuel r.2).map (r.1 :: ·)

/-- A message is merged into `start`, field by field. -/
def mergeMessage {α : Type*} (read : α → Nat × FieldValue → Option α) (start : α)
    (bytes : List UInt8) : Option α :=
  (readFields bytes.length bytes).bind fun fields => fields.foldlM read start

def readText (bytes : List UInt8) : Option String := String.fromUTF8? ⟨bytes.toArray⟩

/-- The low 32 bits, with their sign. -/
def readInt32 (value : Nat) : Int := (value : Int).bmod (2 ^ 32)

/-! ## Varints -/

lemma readVarint_last (limit : Nat) {n : Nat} (hn : n < 128) (rest : List UInt8) :
    readVarint (limit + 1) (UInt8.ofNat n :: rest) = some (n, rest) := by
  have hbyte : (UInt8.ofNat n).toNat = n := by
    rw [UInt8.toNat_ofNat']
    omega
  rw [readVarint, if_pos (UInt8.lt_iff_toNat_lt.mpr (by rw [hbyte]; exact hn)), hbyte]

lemma readVarint_more (limit : Nat) {n : Nat} (hn : n < 128) (rest : List UInt8) :
    readVarint (limit + 1) (UInt8.ofNat (n + 128) :: rest) =
      (readVarint limit rest).map fun r => (n + 128 * r.1, r.2) := by
  have hbyte : (UInt8.ofNat (n + 128)).toNat = n + 128 := by
    rw [UInt8.toNat_ofNat']
    omega
  have hmarked : ¬UInt8.ofNat (n + 128) < 128 := by
    rw [UInt8.lt_iff_toNat_lt, hbyte]
    exact Nat.not_lt.mpr (Nat.le_add_left _ _)
  rw [readVarint, if_neg hmarked, hbyte, Nat.add_sub_cancel]

lemma readVarint_varintLoop {rounds limit n : Nat} (hlimit : n < 128 ^ (limit + 1))
    (hrounds : n < 128 ^ (rounds + 1)) (rest : List UInt8) :
    readVarint (limit + 1) (varintLoop rounds n ++ rest) = some (n, rest) := by
  induction rounds generalizing limit n with
  | zero => exact readVarint_last limit hrounds rest
  | succ rounds ih =>
    unfold varintLoop
    split_ifs with hsmall
    · exact readVarint_last limit hsmall rest
    · -- more bits are left, so the reader is not at its last byte
      cases limit with
      | zero => exact absurd hlimit hsmall
      | succ limit =>
        have hread :=
          ih (Nat.div_lt_of_lt_mul (Nat.pow_succ' ▸ hlimit))
            (Nat.div_lt_of_lt_mul (Nat.pow_succ' ▸ hrounds))
        rw [List.cons_append, readVarint_more _ (Nat.mod_lt n (by omega)), hread, Option.map_some,
          Nat.mod_add_div]

lemma readVarint_varint (limit : Nat) {n : Nat} (hlimit : n < 128 ^ (limit + 1)) (hn : n < 2 ^ 64)
    (rest : List UInt8) :
    readVarint (limit + 1) (varint n ++ rest) = some (n, rest) :=
  readVarint_varintLoop hlimit (hn.trans (by decide)) rest

lemma varint_ne_nil (n : Nat) : varint n ≠ [] := by
  unfold varint varintLoop
  split_ifs <;> exact List.cons_ne_nil _ _

/-! ## Fields -/

/-- A number that a field may have. -/
def IsField (field : Nat) : Prop := 0 < field ∧ field < 2 ^ 29

instance (field : Nat) : Decidable (IsField field) := inferInstanceAs (Decidable (_ ∧ _))

/-- Every reader of `bytes` comes to `fields`. -/
def Reads (bytes : List UInt8) (fields : List (Nat × FieldValue)) : Prop :=
  ∀ fuel, bytes.length ≤ fuel → readFields fuel bytes = some fields

section Fields

variable {field : Nat} {value rest : List UInt8} {fields : List (Nat × FieldValue)}

lemma readField_tag (hfield : IsField field) (wireType : WireType) (bytes : List UInt8) :
    readField (fieldTag field wireType ++ bytes) =
      (readValue bytes wireType.number).map fun v => ((field, v.1), v.2) := by
  obtain ⟨hpos, hlt⟩ := hfield
  have hwire : wireType.number < 8 := by cases wireType <;> decide
  unfold readField fieldTag
  rw [readVarint_varint 4 (by omega) (by omega), Option.bind_some]
  dsimp only
  rw [if_pos (by omega), show (field * 8 + wireType.number) % 8 = wireType.number by omega,
    show (field * 8 + wireType.number) / 8 = field by omega]

lemma readField_setField (hfield : IsField field) (hvalue : value.length < 2 ^ 31) :
    readField (setField field value ++ rest) = some ((field, .bytes value), rest) := by
  unfold setField
  rw [List.append_assoc, List.append_assoc, readField_tag hfield]
  dsimp only [WireType.number]
  rw [readValue, readVarint_varint 4 (by omega) (by omega), Option.bind_some, if_pos hvalue,
    takeBytes, if_pos (by rw [List.length_append]; exact Nat.le_add_right _ _), List.splitAt_eq,
    List.take_left, List.drop_left]
  rfl

lemma readField_number (hfield : IsField field) {n : Nat} (hn : n < 2 ^ 64) :
    readField (fieldTag field .varint ++ varint n ++ rest) = some ((field, .varint n), rest) := by
  rw [List.append_assoc, readField_tag hfield]
  dsimp only [WireType.number]
  rw [readValue, readVarint_varint 9 (hn.trans (by decide)) hn, Option.map_some,
    Nat.mod_eq_of_lt hn]
  rfl

lemma Reads.nil : Reads [] [] := fun fuel _ => by cases fuel <;> rfl

lemma Reads.cons {bytes : List UInt8} {f : Nat × FieldValue}
    (hfield : readField (bytes ++ rest) = some (f, rest)) (hne : bytes ≠ [])
    (h : Reads rest fields) : Reads (bytes ++ rest) (f :: fields) := by
  intro fuel hfuel
  obtain ⟨b, bytes, rfl⟩ := List.exists_cons_of_ne_nil hne
  rw [List.length_append, List.length_cons] at hfuel
  obtain ⟨fuel, rfl⟩ := Nat.exists_eq_add_one.mpr (show 0 < fuel by omega)
  rw [List.cons_append] at hfield ⊢
  rw [readFields, hfield, Option.bind_some, h fuel (by omega), Option.map_some]

/-- The fields that `bytesField` and `numberField` write. -/
def bytesItem (field : Nat) (value : List UInt8) : List (Nat × FieldValue) :=
  if value = [] then [] else [(field, .bytes value)]

def numberItem (field n : Nat) : List (Nat × FieldValue) :=
  if n = 0 then [] else [(field, .varint n)]

lemma tag_append_ne_nil (field : Nat) (wireType : WireType) (bytes : List UInt8) :
    fieldTag field wireType ++ bytes ≠ [] :=
  List.append_ne_nil_of_left_ne_nil (varint_ne_nil _) bytes

lemma Reads.setField (hfield : IsField field) (hvalue : value.length < 2 ^ 31)
    (h : Reads rest fields) :
    Reads (setField field value ++ rest) ((field, .bytes value) :: fields) := by
  refine .cons (readField_setField hfield hvalue) ?_ h
  unfold ProtobufWire.setField
  rw [List.append_assoc]
  exact tag_append_ne_nil field .lengthDelimited _

lemma Reads.bytesField (hfield : IsField field) (hvalue : value.length < 2 ^ 31)
    (h : Reads rest fields) :
    Reads (bytesField field value ++ rest) (bytesItem field value ++ fields) := by
  unfold ProtobufWire.bytesField bytesItem
  split_ifs
  · exact h
  · exact h.setField hfield hvalue

lemma Reads.numberField (hfield : IsField field) {n : Nat} (hn : n < 2 ^ 64)
    (h : Reads rest fields) :
    Reads (numberField field n ++ rest) (numberItem field n ++ fields) := by
  unfold ProtobufWire.numberField numberItem
  split_ifs
  · exact h
  · exact .cons (readField_number hfield hn) (tag_append_ne_nil field .varint _) h

lemma length_le_setField (field : Nat) (value : List UInt8) :
    value.length ≤ (ProtobufWire.setField field value).length := by
  unfold ProtobufWire.setField
  rw [List.length_append]
  exact Nat.le_add_left _ _

lemma length_le_bytesField (field : Nat) (value : List UInt8) :
    value.length ≤ (ProtobufWire.bytesField field value).length := by
  unfold ProtobufWire.bytesField
  split_ifs with hvalue
  · rw [hvalue]
  · exact length_le_setField field value

end Fields

/-! ## Messages -/

section Messages

variable {α : Type*} {read : α → Nat × FieldValue → Option α} {a b : α}

lemma mergeMessage_eq {bytes : List UInt8} {fields : List (Nat × FieldValue)}
    (h : Reads bytes fields) :
    mergeMessage read a bytes = fields.foldlM read a := by
  unfold mergeMessage
  rw [h _ le_rfl, Option.bind_some]

lemma foldlM_cons_some {field : Nat × FieldValue} (h : read a field = some b)
    (fields : List (Nat × FieldValue)) :
    (field :: fields).foldlM read a = fields.foldlM read b := by
  rw [List.foldlM_cons, h]
  rfl

lemma foldlM_append_some {items : List (Nat × FieldValue)} (h : items.foldlM read a = some b)
    (fields : List (Nat × FieldValue)) :
    (items ++ fields).foldlM read a = fields.foldlM read b := by
  rw [List.foldlM_append, h]
  rfl

/-- A field that is left out has its default. -/
lemma foldlM_bytesItem {field : Nat} {value : List UInt8}
    (hread : read a (field, .bytes value) = some b) (hdefault : value = [] → a = b) :
    (bytesItem field value).foldlM read a = some b := by
  unfold bytesItem
  split_ifs with hvalue
  · exact congrArg some (hdefault hvalue)
  · exact foldlM_cons_some hread []

lemma foldlM_numberItem {field n : Nat} (hread : read a (field, .varint n) = some b)
    (hdefault : n = 0 → a = b) :
    (numberItem field n).foldlM read a = some b := by
  unfold numberItem
  split_ifs with hn
  · exact congrArg some (hdefault hn)
  · exact foldlM_cons_some hread []

end Messages

lemma readText_utf8 (s : String) : readText (utf8 s) = some s := by
  unfold readText utf8 String.fromUTF8?
  rw [Array.toArray_toList]
  exact dif_pos s.isValidUTF8

lemma readInt32_int32Number {value : Int} (hlow : -2 ^ 31 ≤ value) (hhigh : value < 2 ^ 31) :
    readInt32 (int32Number value) = value := by
  unfold readInt32 int32Number
  rw [Int.bmod_def]
  omega

lemma int32Number_lt (value : Int) : int32Number value < 2 ^ 64 := by
  unfold int32Number
  omega

end ProtobufWire
