import Mathlib.Tactic.Common

/-!
# Decimal numerals in strings

A numeral ends at the first character that is no digit, so a string of numerals and separators can
be read in one way only.
-/

namespace Numerals

/-- A word of digits ends at a separator. -/
lemma takeWhile_append_sep {p : Char → Bool} {word rest : List Char} {sep : Char}
    (hword : ∀ c ∈ word, p c) (hsep : p sep = false) :
    (word ++ sep :: rest).takeWhile p = word := by
  induction word with
  | nil => simp [hsep]
  | cons c word ih =>
    rw [List.forall_mem_cons] at hword
    rw [List.cons_append, List.takeWhile_cons_of_pos hword.1, ih hword.2]

lemma toList_toString (n : Nat) : (toString n).toList = Nat.toDigits 10 n := by
  rw [Nat.toString_eq_repr, Nat.repr_eq_ofList_toDigits, String.toList_ofList]

lemma isDigit_of_mem_toString {n : Nat} {c : Char} (h : c ∈ (toString n).toList) :
    c.isDigit = true := by
  rw [toList_toString] at h
  exact Nat.isDigit_of_mem_toDigits (by decide) (by decide) h

lemma toString_inj {m n : Nat} (h : (toString m).toList = (toString n).toList) : m = n := by
  rw [toList_toString, toList_toString] at h
  have hvalue := congrArg (fun digits => Nat.ofDigitChars 10 digits 0) h
  simpa only [Nat.ofDigitChars_toDigits (b := 10) (by decide) (by decide)] using hvalue

/-- A numeral before a separator, and what follows it, can be read off. -/
theorem append_sep_inj {m n : Nat} {sep : Char} (hsep : sep.isDigit = false) {u v : List Char}
    (h : (toString m).toList ++ sep :: u = (toString n).toList ++ sep :: v) : m = n ∧ u = v := by
  have hword := congrArg (List.takeWhile Char.isDigit) h
  rw [takeWhile_append_sep (fun c hc => isDigit_of_mem_toString hc) hsep,
    takeWhile_append_sep (fun c hc => isDigit_of_mem_toString hc) hsep] at hword
  rw [hword] at h
  exact ⟨toString_inj hword, List.cons_inj_right sep |>.mp (List.append_cancel_left h)⟩

end Numerals
