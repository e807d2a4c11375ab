import Mathlib.Algebra.GroupWithZero.Nat
import Mathlib.Data.List.AList

/-!
# Unordered maps

Maps with unique keys, stored as association lists, and loops over them in an iteration order
that the program does not control.
-/

/-- A finite map whose values do not depend on the key. -/
abbrev UMap (α β : Type*) := AList (fun _ : α => β)

/-- The orders in which the loops of one step visit the keys of their maps. -/
structure IterOrder (α : Type*) where
  visit : Nat → List α → List α
  visit_perm : ∀ loop keys, (visit loop keys).Perm keys

/-- The loops visit the keys in the order of the association list. -/
def IterOrder.stored (α : Type*) : IterOrder α := ⟨fun _ keys => keys, fun _ keys => .refl keys⟩

namespace UMap

variable {α β γ σ : Type*} [DecidableEq α]

lemma lookup_insert_eq (m : UMap α β) (a b : α) (v : β) :
    (m.insert b v).lookup a = if a = b then some v else m.lookup a := by
  by_cases h : a = b
  · rw [if_pos h, h, AList.lookup_insert]
  · rw [if_neg h, AList.lookup_insert_ne h]

lemma lookup_erase_eq (m : UMap α β) (a b : α) :
    (m.erase b).lookup a = if a = b then none else m.lookup a := by
  by_cases h : a = b
  · rw [if_pos h, h, AList.lookup_erase]
  · rw [if_neg h, AList.lookup_erase_ne h]

/-- The lookups after an insertion and after an erasure, as functions. -/
lemma lookup_insert_update (m : UMap α β) (b : α) (v : β) :
    (fun a => (m.insert b v).lookup a) = Function.update (fun a => m.lookup a) b (some v) := by
  funext a
  rw [Function.update_apply]
  exact lookup_insert_eq m a b v

lemma lookup_erase_update (m : UMap α β) (b : α) :
    (fun a => (m.erase b).lookup a) = Function.update (fun a => m.lookup a) b none := by
  funext a
  rw [Function.update_apply]
  exact lookup_erase_eq m a b

lemma lookup_singleton_eq (a b : α) (v : β) :
    (AList.singleton b v : UMap α β).lookup a = if a = b then some v else none :=
  lookup_insert_eq ∅ a b v

lemma mem_iff_lookup (m : UMap α β) (a : α) : a ∈ m ↔ ∃ b, m.lookup a = some b := by
  rw [← AList.lookup_isSome, Option.isSome_iff_exists]

/-- The insertion that leaves a present key as it is. -/
def insertNew (m : UMap α β) (a : α) (b : β) : UMap α β := if a ∈ m then m else m.insert a b

lemma lookup_insertNew_eq_some {m : UMap α β} {a b : α} {v w : β} :
    (m.insertNew b v).lookup a = some w ↔ m.lookup a = some w ∨ b ∉ m ∧ a = b ∧ v = w := by
  unfold insertNew
  by_cases hb : b ∈ m
  · simp [hb]
  · by_cases h : a = b
    · subst h
      simp [hb, AList.lookup_eq_none.mpr hb]
    · simp [hb, h]

lemma mem_insertNew {m : UMap α β} {a b : α} {v : β} : a ∈ m.insertNew b v ↔ a = b ∨ a ∈ m := by
  unfold insertNew
  by_cases hb : b ∈ m
  · simp only [if_pos hb, iff_or_self]
    rintro rfl
    exact hb
  · simp [hb, AList.mem_insert]

lemma lookup_erase_eq_some {m : UMap α β} {a b : α} {v : β} :
    (m.erase b).lookup a = some v ↔ a ≠ b ∧ m.lookup a = some v := by
  by_cases h : a = b <;> simp [lookup_erase_eq, h]

lemma erase_eq_self {m : UMap α β} {a : α} (h : m.lookup a = none) : m.erase a = m := by
  rw [AList.lookup_eq_none] at h
  exact AList.ext (List.kerase_of_notMem_keys h)

/-- The entries of a map in the order in which the loop `loop` visits them. -/
def items (ord : IterOrder α) (loop : Nat) (m : UMap α β) : List (α × β) :=
  (ord.visit loop m.keys).filterMap fun a => (m.lookup a).map fun b => (a, b)

lemma mem_items (ord : IterOrder α) (loop : Nat) (m : UMap α β) (a : α) (b : β) :
    (a, b) ∈ m.items ord loop ↔ m.lookup a = some b := by
  unfold items
  rw [List.mem_filterMap]
  constructor
  · rintro ⟨a', _, hb⟩
    obtain ⟨b', hb', heq⟩ := Option.map_eq_some_iff.mp hb
    cases heq
    exact hb'
  · intro hb
    refine ⟨a, (ord.visit_perm loop m.keys).mem_iff.mpr ?_, by rw [hb]; rfl⟩
    exact AList.mem_keys.mp ((mem_iff_lookup m a).mpr ⟨b, hb⟩)

lemma items_keys_sublist (m : UMap α β) (l : List α) :
    ((l.filterMap fun a => (m.lookup a).map fun b => (a, b)).map Prod.fst).Sublist l := by
  induction l with
  | nil => exact List.Sublist.slnil
  | cons a l ih =>
    cases hb : m.lookup a with
    | none =>
      rw [List.filterMap_cons_none (by rw [hb]; rfl)]
      exact ih.cons a
    | some b =>
      rw [List.filterMap_cons_some (b := (a, b)) (by rw [hb]; rfl), List.map_cons]
      exact ih.cons_cons a

lemma items_nodupKeys (ord : IterOrder α) (loop : Nat) (m : UMap α β) :
    ((m.items ord loop).map Prod.fst).Nodup :=
  (items_keys_sublist m _).nodup ((ord.visit_perm loop m.keys).nodup_iff.mpr m.nodupKeys)

/-- An erased entry is missing from the sum over all entries. -/
lemma sum_entries_erase (m : UMap α β) (f : β → ℕ) {a : α} {b : β} (h : m.lookup a = some b) :
    ((m.erase a).entries.map fun e => f e.2).sum + f b = (m.entries.map fun e => f e.2).sum := by
  have hmem : a ∈ m.entries.keys := (mem_iff_lookup m a).mpr ⟨b, h⟩
  obtain ⟨b', l₁, l₂, -, hentries, herase⟩ := List.exists_of_kerase hmem
  have hb : m.lookup a = some b' := AList.mem_lookup_iff.mpr (by simp [hentries])
  obtain rfl : b = b' := Option.some.inj (h.symm.trans hb)
  change ((m.entries.kerase a).map fun e => f e.2).sum + f b = _
  rw [herase, hentries]
  simp only [List.map_append, List.map_cons, List.sum_append, List.sum_cons]
  omega

/-! ## Loops that record whether they changed anything -/

omit [DecidableEq α] in
/-- A loop whose body either does nothing or raises the flag. -/
lemma foldl_eq_or_flag {f : σ × Bool → α → σ × Bool}
    (hf : ∀ acc a, f acc a = acc ∨ (f acc a).2 = true) (l : List α) (acc : σ × Bool) :
    l.foldl f acc = acc ∨ (l.foldl f acc).2 = true := by
  induction l generalizing acc with
  | nil => exact .inl rfl
  | cons a l ih =>
    rw [List.foldl_cons]
    rcases hf acc a with hsame | hflag
    · rw [hsame]
      exact ih acc
    · right
      rcases ih (f acc a) with heq | hlater
      · rw [heq, hflag]
      · exact hlater

/-! ## Loops that update one key at a time -/

section KeyedLoop

variable (f : σ → α × γ → σ) (get : σ → α → Option β) (g : α → Option β → γ → Option β)
  (hself : ∀ s a c, get (f s (a, c)) a = g a (get s a) c)
  (hother : ∀ s a c a', a' ≠ a → get (f s (a, c)) a' = get s a')
include hother

omit [DecidableEq α] in
lemma get_foldl_of_notMem (l : List (α × γ)) (s : σ) {a : α} (h : a ∉ l.map Prod.fst) :
    get (l.foldl f s) a = get s a := by
  induction l generalizing s with
  | nil => rfl
  | cons x l ih =>
    rw [List.map_cons, List.mem_cons, not_or] at h
    rw [List.foldl_cons, ih _ h.2, hother s x.1 x.2 a h.1]

include hself

omit [DecidableEq α] in
lemma get_foldl_of_mem (l : List (α × γ)) (hl : (l.map Prod.fst).Nodup) (s : σ) {a : α} {c : γ}
    (h : (a, c) ∈ l) : get (l.foldl f s) a = g a (get s a) c := by
  induction l generalizing s with
  | nil => exact absurd h List.not_mem_nil
  | cons x l ih =>
    rw [List.map_cons, List.nodup_cons] at hl
    rw [List.foldl_cons]
    rcases List.mem_cons.mp h with rfl | h
    · rw [get_foldl_of_notMem f get hother l _ hl.1, hself]
    · have hne : a ≠ x.1 := by
        intro heq
        exact hl.1 (List.mem_map.mpr ⟨(a, c), h, heq⟩)
      rw [ih hl.2 _ h, hother s x.1 x.2 a hne]

/-- A loop over a map whose body for `a` touches the key `a` only. -/
lemma get_foldl_items (ord : IterOrder α) (loop : Nat) (m : UMap α γ) (s : σ) (a : α) :
    get ((m.items ord loop).foldl f s) a = (m.lookup a).elim (get s a) (g a (get s a)) := by
  cases hc : m.lookup a with
  | none =>
    apply get_foldl_of_notMem f get hother
    intro hmem
    obtain ⟨⟨a', c⟩, hx, rfl⟩ := List.mem_map.mp hmem
    rw [mem_items] at hx
    rw [hx] at hc
    cases hc
  | some c =>
    exact get_foldl_of_mem f get g hself hother _ (items_nodupKeys ord loop m) s
      ((mem_items ord loop m a c).mpr hc)

end KeyedLoop

end UMap
