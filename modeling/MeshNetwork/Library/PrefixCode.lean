import Mathlib.Data.List.Infix
import Mathlib.Tactic.Common

/-!
# Streams of code words

A code in which at most one admissible word starts a given stream. What a stream starts with is then
read off in one way only: of two lists of words that both start the stream one is a prefix of the
other, and the longest one is that after which no word follows.
-/

namespace PrefixCode

variable {α β : Type*} (code : α → List β) (P : α → Prop)

/-- At most one admissible word starts a stream. -/
def Unambiguous : Prop := ∀ a b s, P a → P b → code a <+: s → code b <+: s → a = b

/-- The stream `s` starts with the words of `l`. -/
structure Parses (s : List β) (l : List α) : Prop where
  admissible : ∀ a ∈ l, P a
  starts : l.flatMap code <+: s

/-- No longer list of words starts the stream. -/
structure Longest (s : List β) (l : List α) : Prop extends Parses code P s l where
  longest : ∀ l', Parses code P s l' → l'.length ≤ l.length

variable {code P} {s : List β} {l l' : List α} {a : α}

lemma prefix_append_iff {u v w : List β} : u ++ v <+: w ↔ u <+: w ∧ v <+: w.drop u.length := by
  constructor
  · rintro ⟨t, rfl⟩
    simp [List.append_assoc]
  · rintro ⟨⟨t, rfl⟩, hv⟩
    rw [List.drop_left] at hv
    exact List.prefix_append_right_inj u |>.mpr hv

lemma Parses.nil : Parses code P s [] :=
  ⟨fun _ h => absurd h List.not_mem_nil, List.nil_prefix⟩

lemma parses_cons :
    Parses code P s (a :: l) ↔ P a ∧ code a <+: s ∧ Parses code P (s.drop (code a).length) l := by
  constructor
  · rintro ⟨hadm, hstarts⟩
    rw [List.flatMap_cons, prefix_append_iff] at hstarts
    rw [List.forall_mem_cons] at hadm
    exact ⟨hadm.1, hstarts.1, hadm.2, hstarts.2⟩
  · rintro ⟨ha, hstart, hadm, hstarts⟩
    refine ⟨List.forall_mem_cons.mpr ⟨ha, hadm⟩, ?_⟩
    rw [List.flatMap_cons, prefix_append_iff]
    exact ⟨hstart, hstarts⟩

lemma parses_concat : Parses code P s (l ++ [a]) ↔
    Parses code P s l ∧ P a ∧ code a <+: s.drop (l.flatMap code).length := by
  constructor
  · rintro ⟨hadm, hstarts⟩
    rw [List.flatMap_append, List.flatMap_singleton, prefix_append_iff] at hstarts
    exact ⟨⟨fun b hb => hadm b (List.mem_append_left _ hb), hstarts.1⟩, hadm a (by simp), hstarts.2⟩
  · rintro ⟨⟨hadm, hstarts⟩, ha, hnext⟩
    refine ⟨List.forall_mem_append.mpr ⟨hadm, by simpa using ha⟩, ?_⟩
    rw [List.flatMap_append, List.flatMap_singleton, prefix_append_iff]
    exact ⟨hstarts, hnext⟩

lemma Parses.shorten (h : Parses code P s l) (hsub : l' <+: l) : Parses code P s l' := by
  obtain ⟨t, rfl⟩ := hsub
  refine ⟨fun b hb => h.admissible b (List.mem_append_left _ hb), List.IsPrefix.trans ?_ h.starts⟩
  rw [List.flatMap_append]
  exact List.prefix_append _ _

/-- A stream that has grown still starts with the words. -/
lemma Parses.grow (h : Parses code P s l) (t : List β) : Parses code P (s ++ t) l :=
  ⟨h.admissible, h.starts.trans (List.prefix_append s t)⟩

/-- The words of a stream are determined by their number. -/
theorem Parses.prefix_of_length_le (hcode : Unambiguous code P) (h : Parses code P s l)
    (h' : Parses code P s l') (hle : l.length ≤ l'.length) : l <+: l' := by
  induction l generalizing l' s with
  | nil => exact List.nil_prefix
  | cons a l ih =>
    cases l' with
    | nil => exact absurd hle (by simp)
    | cons b l' =>
      obtain ⟨ha, hstart, hrest⟩ := parses_cons.mp h
      obtain ⟨hb, hstart', hrest'⟩ := parses_cons.mp h'
      obtain rfl := hcode a b s ha hb hstart hstart'
      rw [List.prefix_cons_inj]
      exact ih hrest hrest' (by simpa using hle)

theorem longest_iff (hcode : Unambiguous code P) (h : Parses code P s l) :
    Longest code P s l ↔ ∀ a, P a → ¬code a <+: s.drop (l.flatMap code).length := by
  constructor
  · intro hlongest a ha hnext
    have hle := hlongest.longest (l ++ [a]) (parses_concat.mpr ⟨h, ha, hnext⟩)
    rw [List.length_append, List.length_singleton] at hle
    omega
  · intro hend
    refine ⟨h, fun l' h' => ?_⟩
    by_contra hlt
    obtain ⟨t, rfl⟩ := h.prefix_of_length_le hcode h' (by omega)
    cases t with
    | nil => simp at hlt
    | cons a t =>
      have hsub : Parses code P s (l ++ [a]) := h'.shorten ⟨t, by simp⟩
      obtain ⟨-, ha, hnext⟩ := parses_concat.mp hsub
      exact hend a ha hnext

/-- A stream that consists of words starts with no other list of words. -/
theorem Parses.prefix_of_flatMap (hcode : Unambiguous code P) (hne : ∀ a, P a → code a ≠ [])
    (h' : ∀ a ∈ l', P a) (h : Parses code P s l) (hs : s <+: l'.flatMap code) : l <+: l' := by
  obtain ⟨t, ht⟩ := hs
  have hwhole : Parses code P (l'.flatMap code) l' := ⟨h', List.prefix_refl _⟩
  have hl : Parses code P (l'.flatMap code) l := ht ▸ h.grow t
  rcases Nat.le_total l.length l'.length with hle | hle
  · exact hl.prefix_of_length_le hcode hwhole hle
  · obtain ⟨u, rfl⟩ := hwhole.prefix_of_length_le hcode hl hle
    cases u with
    | nil => simp
    | cons a u =>
      have hlen := hl.starts.length_le
      have hpos := List.length_pos_iff.mpr (hne a (h.admissible a (by simp)))
      simp only [List.flatMap_append, List.flatMap_cons, List.length_append] at hlen
      omega

end PrefixCode
