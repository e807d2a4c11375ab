import Mathlib.Data.List.Basic
import Mathlib.Data.List.GetD
import Mathlib.Tactic.Common

/-!
# Lists

Loops over the indices of a list, maps that may fail, and where an element stands in a list.
-/

namespace List

variable {α β ε σ : Type*} {l : List α}

/-! ## Loops over indices -/

/-- A loop whose state after `n` rounds is `st n`. -/
lemma foldlM_range'_eq (step : σ → Nat → Option σ) (st : Nat → σ) (start n : Nat)
    (h : ∀ i < n, step (st i) (start + i) = some (st (i + 1))) :
    (range' start n).foldlM step (st 0) = some (st n) := by
  induction n with
  | zero => rfl
  | succ n ih =>
    rw [range'_1_concat, foldlM_append, ih fun i hi => h i (by omega)]
    simp [h n (Nat.lt_succ_self n)]

lemma foldlM_range_eq (step : σ → Nat → Option σ) (st : Nat → σ) (n : Nat)
    (h : ∀ i < n, step (st i) i = some (st (i + 1))) :
    (range n).foldlM step (st 0) = some (st n) := by
  rw [range_eq_range']
  exact foldlM_range'_eq step st 0 n fun i hi => by rw [Nat.zero_add]; exact h i hi

/-- The entries before index `n` have been rewritten. -/
def mapBefore (n : Nat) (g : Nat → α → α) (l : List α) : List α :=
  l.mapIdx fun i a => if i < n then g i a else a

lemma mapBefore_zero (g : Nat → α → α) (l : List α) : mapBefore 0 g l = l := by
  apply ext_getElem <;> simp [mapBefore]

lemma mapBefore_length (n : Nat) (g : Nat → α → α) (l : List α) :
    (mapBefore n g l).length = l.length :=
  length_mapIdx

lemma mapBefore_getElem? (n : Nat) (g : Nat → α → α) (l : List α) (i : Nat) :
    (mapBefore n g l)[i]? = l[i]?.map fun a => if i < n then g i a else a :=
  getElem?_mapIdx

lemma mapBefore_succ {n : Nat} (g : Nat → α → α) (hn : n < l.length) :
    (mapBefore n g l).set n (g n (l.get ⟨n, hn⟩)) = mapBefore (n + 1) g l := by
  apply ext_getElem?
  intro i
  rw [getElem?_set, mapBefore_length, mapBefore_getElem?, mapBefore_getElem?]
  by_cases hi : n = i
  · subst hi
    rw [if_pos rfl, if_pos hn, getElem?_eq_getElem hn]
    simp
  · rw [if_neg hi]
    have hlt : i < n ↔ i < n + 1 := by omega
    simp only [hlt]

lemma mapBefore_all {n : Nat} (g : Nat → α → α) (hn : l.length ≤ n) :
    mapBefore n g l = l.mapIdx g := by
  apply ext_getElem
  · rw [mapBefore_length, length_mapIdx]
  · intro i hi _
    rw [mapBefore_length] at hi
    simp [mapBefore, show i < n by omega]

lemma getD_mapIdx (f : Nat → α → β) {i : Nat} (hi : i < l.length) (d : α) (e : β) :
    (l.mapIdx f).getD i e = f i (l.getD i d) := by
  rw [getD_eq_getElem _ _ (by rwa [length_mapIdx]), getElem_mapIdx, getD_eq_getElem _ _ hi]

lemma flatMap_range_mul (f : Nat → List α) (G k : Nat) :
    (range (G * k)).flatMap f =
      (range G).flatMap fun g => (range k).flatMap fun i => f (g * k + i) := by
  induction G with
  | zero => simp
  | succ G ih =>
    rw [Nat.succ_mul, range_add, flatMap_append, ih, range_succ, flatMap_append, flatMap_singleton,
      flatMap_map]

/-! ## Maps that may fail -/

lemma mapM_some {f : α → Option β} {g : α → β} (h : ∀ a ∈ l, f a = some (g a)) :
    l.mapM f = some (l.map g) := by
  induction l with
  | nil => rfl
  | cons a l ih =>
    rw [mapM_cons, h a mem_cons_self, ih fun b hb => h b (mem_cons_of_mem a hb)]
    rfl

lemma mapM_ok (f : α → Except ε β) (g : α → β) (l : List α) (h : ∀ a ∈ l, f a = .ok (g a)) :
    l.mapM f = .ok (l.map g) := by
  induction l with
  | nil => rfl
  | cons a l ih =>
    rw [mapM_cons, h a mem_cons_self, ih fun b hb => h b (mem_cons_of_mem a hb)]
    rfl

lemma forall_of_mapM_ok {f : α → Except ε β} {p : β → Prop} {bs : List β} (h : l.mapM f = .ok bs)
    (hp : ∀ a b, f a = .ok b → p b) : ∀ b ∈ bs, p b := by
  induction l generalizing bs with
  | nil =>
    cases h
    simp
  | cons a l ih =>
    rw [mapM_cons] at h
    cases hfa : f a with
    | error e =>
      rw [hfa] at h
      cases h
    | ok b =>
      rw [hfa] at h
      cases hrest : l.mapM f with
      | error e =>
        rw [hrest] at h
        cases h
      | ok rest =>
        rw [hrest] at h
        cases h
        exact forall_mem_cons.mpr ⟨hp a b hfa, ih hrest⟩

lemma exists_map_eq {f : α → β} {p : α → Prop} (l : List β) (h : ∀ b ∈ l, ∃ a, p a ∧ b = f a) :
    ∃ l' : List α, l = l'.map f ∧ ∀ a ∈ l', p a := by
  induction l with
  | nil => exact ⟨[], rfl, fun a ha => absurd ha not_mem_nil⟩
  | cons b l ih =>
    obtain ⟨a, ha, rfl⟩ := h b mem_cons_self
    obtain ⟨l', rfl, hl'⟩ := ih fun b hb => h b (mem_cons_of_mem _ hb)
    exact ⟨a :: l', rfl, forall_mem_cons.mpr ⟨ha, hl'⟩⟩

/-! ## Where an element stands -/

lemma eraseIdx_split {i : Nat} {a : α} (h : l[i]? = some a) :
    ∃ before after, l = before ++ a :: after ∧ l.eraseIdx i = before ++ after := by
  obtain ⟨hlt, rfl⟩ := getElem?_eq_some_iff.mp h
  refine ⟨l.take i, l.drop (i + 1), ?_, eraseIdx_eq_take_drop_succ ..⟩
  rw [← drop_eq_getElem_cons hlt, take_append_drop]

lemma split_at_two {i j : Nat} {a b : α} (hij : i < j) (ha : l[i]? = some a) (hb : l[j]? = some b) :
    ∃ mid post, l = l.take i ++ a :: (mid ++ b :: post) ∧ l.take j = l.take i ++ a :: mid := by
  obtain ⟨hi, rfl⟩ := getElem?_eq_some_iff.mp ha
  obtain ⟨hj, rfl⟩ := getElem?_eq_some_iff.mp hb
  have hfirst : l.take (i + 1) = l.take i ++ [l[i]] := take_succ_eq_append_getElem hi
  have hmid : l.take j = l.take i ++ l[i] :: (l.take j).drop (i + 1) := by
    have hsplit := (take_append_drop (i + 1) (l.take j)).symm
    rw [take_take, Nat.min_eq_left (by omega), hfirst, append_assoc, singleton_append] at hsplit
    exact hsplit
  refine ⟨(l.take j).drop (i + 1), l.drop (j + 1), ?_, hmid⟩
  have hall : l = l.take j ++ l[j] :: l.drop (j + 1) := by
    rw [← drop_eq_getElem_cons, take_append_drop]
  conv_lhs => rw [hall, hmid]
  simp

lemma concat_suffix_concat {l' : List α} {a b : α} : l ++ [a] <:+ l' ++ [b] ↔ a = b ∧ l <:+ l' := by
  rw [← reverse_prefix, reverse_append, reverse_append, reverse_singleton, reverse_singleton,
    singleton_append, singleton_append, cons_prefix_cons, reverse_prefix]

lemma exists_lookup [BEq α] [LawfulBEq α] {l : List (α × β)} {a : α} {v : β} (h : (a, v) ∈ l) :
    ∃ v', l.lookup a = some v' ∧ (a, v') ∈ l := by
  induction l with
  | nil => exact absurd h not_mem_nil
  | cons x l ih =>
    obtain ⟨a', v₁⟩ := x
    by_cases ha : a = a'
    · subst ha
      exact ⟨v₁, lookup_cons_self, mem_cons_self⟩
    · have hmem : (a, v) ∈ l := by
        rcases mem_cons.mp h with heq | hmem
        · cases heq
          exact absurd rfl ha
        · exact hmem
      obtain ⟨v', hl, hv'⟩ := ih hmem
      refine ⟨v', ?_, mem_cons_of_mem _ hv'⟩
      rw [lookup_cons, beq_eq_false_iff_ne.mpr ha]
      exact hl

/-! ## At most one -/

lemma length_filterMap_le_one {f : α → Option β} {x : α} (hl : l.Nodup)
    (hf : ∀ a, a ≠ x → f a = none) : (l.filterMap f).length ≤ 1 := by
  induction l with
  | nil => exact Nat.zero_le 1
  | cons a l ih =>
    rw [nodup_cons] at hl
    by_cases hax : a = x
    · have hrest : l.filterMap f = [] := by
        rw [filterMap_eq_nil_iff]
        rintro b hb
        refine hf b fun hbx => hl.1 ?_
        rw [hax, ← hbx]
        exact hb
      rw [filterMap_cons, hrest]
      cases f a <;> simp
    · rw [filterMap_cons_none (hf a hax)]
      exact ih hl.2

lemma countP_le_one {p : α → Bool} (h : l.Pairwise fun a b => p a → ¬p b) : l.countP p ≤ 1 := by
  induction l with
  | nil => exact Nat.zero_le 1
  | cons a l ih =>
    obtain ⟨ha, hl⟩ := pairwise_cons.mp h
    cases hp : p a with
    | false =>
      rw [countP_cons_of_neg (by simp [hp])]
      exact ih hl
    | true =>
      have hrest : l.countP p = 0 := countP_eq_zero.mpr fun b hb => ha b hb hp
      have hone : (a :: l).countP p = 1 := by rw [countP_cons_of_pos hp, hrest]
      exact Nat.le_of_eq hone

end List
