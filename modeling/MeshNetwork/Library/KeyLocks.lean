import Mathlib.Data.Finset.Basic
import Mathlib.Data.List.Nodup

/-!
# Keys that are held by one holder at a time

A list of holders, some of which hold their key, and the set of the keys that are held. A holder is
added with its key only if the set does not have it, and it takes its key out of the set when it
releases it.
-/

namespace KeyLocks

variable {α κ : Type*} (key : α → κ) (held : α → Bool)

/-- The keys that are held, once for each holder. -/
def heldKeys (l : List α) : List κ := (l.filter held).map key

/-- The set has the keys that are held, and each of them has one holder. -/
structure Exclusive (locked : Finset κ) (l : List α) : Prop where
  mem_iff : ∀ k, k ∈ locked ↔ k ∈ heldKeys key held l
  nodup : (heldKeys key held l).Nodup

variable {key held} {locked : Finset κ} {l : List α} {a a' : α} {i : Nat}

lemma heldKeys_append (l l' : List α) :
    heldKeys key held (l ++ l') = heldKeys key held l ++ heldKeys key held l' := by
  simp [heldKeys]

lemma heldKeys_cons (a : α) (l : List α) :
    heldKeys key held (a :: l) = (if held a then [key a] else []) ++ heldKeys key held l := by
  cases h : held a <;> simp [heldKeys, h]

lemma mem_heldKeys {k : κ} : k ∈ heldKeys key held l ↔ ∃ a ∈ l, held a = true ∧ key a = k := by
  simp [heldKeys, and_assoc]

/-- The list around one of its elements. -/
lemma split_at (hi : l[i]? = some a) (a' : α) :
    ∃ before after, l = before ++ a :: after ∧ l.set i a' = before ++ a' :: after := by
  obtain ⟨hlt, rfl⟩ := List.getElem?_eq_some_iff.mp hi
  refine ⟨l.take i, l.drop (i + 1), ?_, ?_⟩
  · rw [← List.drop_eq_getElem_cons hlt, List.take_append_drop]
  · exact List.set_eq_take_append_cons_drop.trans (if_pos hlt)

theorem Exclusive.idle (h : Exclusive key held locked l) (ha : held a = false) :
    Exclusive key held locked (l ++ [a]) := by
  have hkeys : heldKeys key held (l ++ [a]) = heldKeys key held l := by simp [heldKeys, ha]
  exact ⟨hkeys ▸ h.mem_iff, hkeys ▸ h.nodup⟩

theorem Exclusive.acquire [DecidableEq κ] (h : Exclusive key held locked l) (ha : held a = true)
    (hkey : key a ∉ locked) : Exclusive key held (insert (key a) locked) (l ++ [a]) := by
  have hkeys : heldKeys key held (l ++ [a]) = heldKeys key held l ++ [key a] := by
    simp [heldKeys, ha]
  refine ⟨fun k => ?_, ?_⟩
  · rw [hkeys, Finset.mem_insert, h.mem_iff, List.mem_append, List.mem_singleton, or_comm]
  · rw [hkeys, List.nodup_append]
    refine ⟨h.nodup, List.nodup_singleton _, ?_⟩
    rintro k hk k' hk' rfl
    rw [List.mem_singleton.mp hk', ← h.mem_iff] at hk
    exact hkey hk

/-- A holder changes otherwise. -/
theorem Exclusive.set (h : Exclusive key held locked l) (hi : l[i]? = some a)
    (hheld : held a' = held a) (hkey : key a' = key a) :
    Exclusive key held locked (l.set i a') := by
  obtain ⟨before, after, hl, hset⟩ := split_at hi a'
  have hkeys : heldKeys key held (l.set i a') = heldKeys key held l := by
    rw [hset, hl, heldKeys_append, heldKeys_append, heldKeys_cons, heldKeys_cons, hheld, hkey]
  exact ⟨hkeys ▸ h.mem_iff, hkeys ▸ h.nodup⟩

theorem Exclusive.release [DecidableEq κ] (h : Exclusive key held locked l) (hi : l[i]? = some a)
    (ha : held a = true) (ha' : held a' = false) :
    Exclusive key held (locked.erase (key a)) (l.set i a') := by
  obtain ⟨before, after, hl, hset⟩ := split_at hi a'
  have hold : heldKeys key held l = heldKeys key held before ++ key a ::
      heldKeys key held after := by
    rw [hl, heldKeys_append, heldKeys_cons, ha]
    rfl
  have hnew : heldKeys key held (l.set i a') = heldKeys key held before ++
      heldKeys key held after := by
    rw [hset, heldKeys_append, heldKeys_cons, ha']
    rfl
  have hnodup := h.nodup
  rw [hold, List.nodup_middle, List.nodup_cons] at hnodup
  refine ⟨fun k => ?_, hnew ▸ hnodup.2⟩
  rw [Finset.mem_erase, h.mem_iff, hold, hnew]
  constructor
  · rintro ⟨hne, hk⟩
    simpa [hne] using hk
  · intro hk
    refine ⟨?_, ?_⟩
    · rintro rfl
      exact hnodup.1 hk
    · rcases List.mem_append.mp hk with hk | hk <;> simp [hk]

/-- Two places of the list that hold one key are the same. -/
theorem Exclusive.unique (h : Exclusive key held locked l) {j : Nat} {b : α} (hi : l[i]? = some a)
    (hj : l[j]? = some b) (ha : held a = true) (hb : held b = true)
    (hkey : key a = key b) : i = j := by
  have hpairs : l.Pairwise fun a b => held a = true → held b = true → key a ≠ key b := by
    have hnodup := h.nodup
    rw [heldKeys, List.Nodup, List.pairwise_map, List.pairwise_filter] at hnodup
    exact hnodup
  rw [List.pairwise_iff_getElem] at hpairs
  obtain ⟨hilt, rfl⟩ := List.getElem?_eq_some_iff.mp hi
  obtain ⟨hjlt, rfl⟩ := List.getElem?_eq_some_iff.mp hj
  rcases Nat.lt_trichotomy i j with hlt | heq | hgt
  · exact absurd hkey (hpairs i j hilt hjlt hlt ha hb)
  · exact heq
  · exact absurd hkey.symm (hpairs j i hjlt hilt hgt hb ha)

end KeyLocks
