import Mathlib.Logic.Function.Basic
import MeshNetwork.Library.EventRuns

/-!
# Entries that are settled once

A table of entries and a map from keys to the entry that is pending under the key. Settling a key
gives a result to its entry and takes it out of the map, so that no entry gets a second result.
-/

namespace OneShot

variable {κ ρ : Type*}

structure Table (κ ρ : Type*) where
  pending : κ → Option Nat
  /-- The key of each entry and the results that it was given. -/
  entries : List (κ × List ρ)

inductive Op (κ ρ : Type*) where
  | enter (k : κ)
  | settle (k : κ) (r : ρ)

/-- What the table is for: a pending key belongs to an entry without a result, and no entry has two
results. -/
structure Table.Sound (t : Table κ ρ) : Prop where
  unsettled : ∀ k n, t.pending k = some n → t.entries[n]? = some (k, [])
  once : ∀ e ∈ t.entries, e.2.length ≤ 1

/-- Every entry without a result is the pending one of its key. -/
def Table.Complete (t : Table κ ρ) : Prop :=
  ∀ k n, t.entries[n]? = some (k, []) → t.pending k = some n

/-- The results belong to the keys of their entries. -/
def Table.Results (P : κ → ρ → Prop) (t : Table κ ρ) : Prop := ∀ e ∈ t.entries, ∀ r ∈ e.2, P e.1 r

/-- Changes of single elements commute with maps. -/
lemma map_modify {α β : Type*} {f : α → α} {g : α → β} {h : β → β} (hcomm : ∀ a, g (f a) = h (g a))
    (l : List α) (n : Nat) : (l.modify n f).map g = (l.map g).modify n h := by
  refine List.ext_getElem? fun i => ?_
  rw [List.getElem?_map, List.getElem?_modify, List.getElem?_modify, List.getElem?_map]
  cases l[i]? with
  | none => rfl
  | some a =>
    by_cases hi : n = i
    · simp [hi, hcomm]
    · simp [hi]

lemma map_modify_eq {α β : Type*} {f : α → α} {g : α → β} (h : ∀ a, g (f a) = g a) (l : List α)
    (n : Nat) :
    (l.modify n f).map g = l.map g := by
  rw [map_modify (h := id) h, List.modify_id]

variable [DecidableEq κ]

def giveResult (r : ρ) (e : κ × List ρ) : κ × List ρ := (e.1, e.2 ++ [r])

/-- A key that is entered again replaces the entry that was pending under it. -/
def apply (t : Table κ ρ) : Op κ ρ → Table κ ρ
  | .enter k => ⟨Function.update t.pending k (some t.entries.length), t.entries ++ [(k, [])]⟩
  | .settle k r =>
    match t.pending k with
    | none => t
    | some n => ⟨Function.update t.pending k none, t.entries.modify n (giveResult r)⟩

variable {t : Table κ ρ} {k : κ} {r : ρ} {n : Nat}

lemma lookup_settled {f : κ → Option Nat} {k' : κ} :
    Function.update f k none k' = some n ↔ k' ≠ k ∧ f k' = some n := by
  by_cases h : k' = k <;> simp [h]

lemma apply_settle_none (h : t.pending k = none) : apply t (.settle k r) = t := by
  unfold apply
  simp only [h]

lemma apply_settle_some (h : t.pending k = some n) :
    apply t (.settle k r) = ⟨Function.update t.pending k none,
      t.entries.modify n (giveResult r)⟩ := by
  unfold apply
  simp only [h]

omit [DecidableEq κ] in
lemma Table.Sound.lt_length (h : t.Sound) (hk : t.pending k = some n) : n < t.entries.length := by
  have hentry := h.unsettled k n hk
  exact (List.getElem?_eq_some_iff.mp hentry).1

omit [DecidableEq κ] in
lemma getElem?_enter {α : Type*} (l : List α) (e : α) (i : Nat) :
    (l ++ [e])[i]? = if i = l.length then some e else l[i]? := by
  split_ifs with hi
  · rw [hi, List.getElem?_concat_length]
  · rcases Nat.lt_or_ge i l.length with hlt | hge
    · exact List.getElem?_append_left hlt
    · rw [List.getElem?_eq_none hge, List.getElem?_eq_none]
      rw [List.length_append, List.length_singleton]
      omega

omit [DecidableEq κ] in
/-- An entry of the new table is the settled one with its first result, or it was there before. -/
lemma getElem?_settle (h : t.Sound) (hk : t.pending k = some n) (i : Nat) :
    (t.entries.modify n (giveResult r))[i]? = if i = n then some (k, [r]) else t.entries[i]? := by
  split_ifs with hi
  · rw [hi, List.getElem?_modify_eq, h.unsettled k n hk]
    rfl
  · exact List.getElem?_modify_ne _ _ (Ne.symm hi)

omit [DecidableEq κ] in
lemma mem_settle (h : t.Sound) (hk : t.pending k = some n) {e : κ × List ρ}
    (he : e ∈ t.entries.modify n (giveResult r)) : e ∈ t.entries ∨ e = (k, [r]) := by
  obtain ⟨i, hi⟩ := List.mem_iff_getElem?.mp he
  rw [getElem?_settle h hk] at hi
  split_ifs at hi
  · exact .inr (Option.some.inj hi).symm
  · exact .inl (List.mem_of_getElem? hi)

theorem Table.Sound.apply (h : t.Sound) (op : Op κ ρ) : (apply t op).Sound := by
  cases op with
  | enter k =>
    refine ⟨fun k' n hn => ?_, fun e he => ?_⟩
    · simp only [OneShot.apply, Function.update_apply, getElem?_enter] at hn ⊢
      split_ifs at hn with hkey
      · obtain rfl := Option.some.inj hn
        rw [if_pos rfl, hkey]
      · rw [if_neg (Nat.ne_of_lt (h.lt_length hn))]
        exact h.unsettled k' n hn
    · rcases List.mem_append.mp he with he | he
      · exact h.once e he
      · rw [List.mem_singleton.mp he]
        exact Nat.zero_le 1
  | settle k r =>
    cases hk : t.pending k with
    | none =>
      rw [apply_settle_none hk]
      exact h
    | some n =>
      rw [apply_settle_some hk]
      refine ⟨fun k' n' hn' => ?_, fun e he => ?_⟩
      · obtain ⟨hne, hn'⟩ := lookup_settled.mp hn'
        have hentry := h.unsettled k' n' hn'
        dsimp only
        rw [getElem?_settle h hk, if_neg, hentry]
        rintro rfl
        rw [h.unsettled k _ hk] at hentry
        exact hne (congrArg Prod.fst (Option.some.inj hentry)).symm
      · rcases mem_settle h hk he with he | rfl
        · exact h.once e he
        · exact Nat.le_refl _

/-- A key that was not pending is entered. -/
theorem Table.Complete.enter (h : t.Complete) (hk : t.pending k = none) :
    (OneShot.apply t (.enter k)).Complete := by
  intro k' n hn
  simp only [OneShot.apply, Function.update_apply, getElem?_enter] at hn ⊢
  split_ifs at hn with hlast
  · obtain ⟨rfl, -⟩ := Prod.ext_iff.mp (Option.some.inj hn)
    rw [if_pos rfl, hlast]
  · have hlookup := h k' n hn
    rw [if_neg, hlookup]
    rintro rfl
    rw [hk] at hlookup
    cases hlookup

theorem Table.Complete.settle (hsound : t.Sound) (h : t.Complete) (k : κ) (r : ρ) :
    (OneShot.apply t (.settle k r)).Complete := by
  cases hk : t.pending k with
  | none =>
    rw [apply_settle_none hk]
    exact h
  | some n =>
    rw [apply_settle_some hk]
    intro k' n' hn'
    dsimp only at hn' ⊢
    rw [getElem?_settle hsound hk] at hn'
    split_ifs at hn' with heq
    · simp at hn'
    · have hlookup := h k' n' hn'
      refine lookup_settled.mpr ⟨?_, hlookup⟩
      rintro rfl
      exact heq (Option.some.inj (hlookup.symm.trans hk))

theorem Table.Results.apply {P : κ → ρ → Prop} (hsound : t.Sound) (h : t.Results P) {op : Op κ ρ}
    (hop : ∀ k r, op = .settle k r → P k r) : (OneShot.apply t op).Results P := by
  cases op with
  | enter k =>
    intro e he r hr
    rcases List.mem_append.mp he with he | he
    · exact h e he r hr
    · rw [List.mem_singleton.mp he] at hr
      cases hr
  | settle k r =>
    cases hk : t.pending k with
    | none =>
      rw [apply_settle_none hk]
      exact h
    | some n =>
      rw [apply_settle_some hk]
      intro e he r' hr'
      rcases mem_settle hsound hk he with he | rfl
      · exact h e he r' hr'
      · rw [List.mem_singleton.mp hr']
        exact hop k r rfl

/-! ## Runs -/

/-- A key is entered only when it is not pending. -/
def Fresh (t : Table κ ρ) : Op κ ρ → Prop
  | .enter k => t.pending k = none
  | .settle _ _ => True

lemma lookup_settle (t : Table κ ρ) (k : κ) (r : ρ) (k' : κ) :
    (OneShot.apply t (.settle k r)).pending k' = if k' = k then none else t.pending k' := by
  cases hk : t.pending k with
  | none =>
    rw [apply_settle_none hk]
    split_ifs with heq
    · rw [heq, hk]
    · rfl
  | some n =>
    rw [apply_settle_some hk]
    exact Function.update_apply t.pending k none k'

lemma fresh_after_settle (t : Table κ ρ) (k : κ) (r : ρ) :
    Fresh (OneShot.apply t (.settle k r)) (.enter k) := by
  change (OneShot.apply t (.settle k r)).pending k = none
  rw [lookup_settle, if_pos rfl]

variable {ops : List (Op κ ρ)}

theorem Table.Sound.run (h : t.Sound) (ops : List (Op κ ρ)) :
    (EventRun.run OneShot.apply t ops).Sound := by
  induction ops generalizing t with
  | nil => exact h
  | cons op ops ih => exact ih (h.apply op)

theorem Table.Complete.run (hsound : t.Sound) (h : t.Complete)
    (hops : EventRun.Guarded OneShot.apply Fresh t ops) :
    (EventRun.run OneShot.apply t ops).Complete := by
  induction ops generalizing t with
  | nil => exact h
  | cons op ops ih =>
    refine ih (hsound.apply op) ?_ hops.2
    cases op with
    | enter k => exact h.enter hops.1
    | settle k r => exact h.settle hsound k r

theorem Table.Results.run {P : κ → ρ → Prop} (hsound : t.Sound) (h : t.Results P)
    (hops : ∀ k r, .settle k r ∈ ops → P k r) : (EventRun.run OneShot.apply t ops).Results P := by
  induction ops generalizing t with
  | nil => exact h
  | cons op ops ih =>
    refine ih (hsound.apply op) (h.apply hsound ?_) fun k r hmem =>
      hops k r (List.mem_cons_of_mem _ hmem)
    rintro k r rfl
    exact hops k r List.mem_cons_self

/-- Entries stay, and so do their results. -/
lemma entry_apply {rs : List ρ} (h : t.entries[n]? = some (k, rs)) (op : Op κ ρ) :
    ∃ rs', (OneShot.apply t op).entries[n]? = some (k, rs') ∧ rs ⊆ rs' := by
  cases op with
  | enter k' =>
    refine ⟨rs, ?_, List.Subset.refl rs⟩
    simp only [OneShot.apply, getElem?_enter]
    rw [if_neg (Nat.ne_of_lt (List.getElem?_eq_some_iff.mp h).1), h]
  | settle k' r =>
    cases hk : t.pending k' with
    | none =>
      rw [apply_settle_none hk]
      exact ⟨rs, h, List.Subset.refl rs⟩
    | some m =>
      rw [apply_settle_some hk]
      dsimp only
      rw [List.getElem?_modify, h]
      by_cases hm : m = n
      · exact ⟨rs ++ [r], by simp [hm, giveResult], List.subset_append_left rs [r]⟩
      · exact ⟨rs, by simp [hm], List.Subset.refl rs⟩

lemma entry_run {rs : List ρ} (h : t.entries[n]? = some (k, rs)) (ops : List (Op κ ρ)) :
    ∃ rs', (EventRun.run OneShot.apply t ops).entries[n]? = some (k, rs') ∧ rs ⊆ rs' := by
  induction ops generalizing t rs with
  | nil => exact ⟨rs, h, List.Subset.refl rs⟩
  | cons op ops ih =>
    obtain ⟨rs', hentry, hsub⟩ := entry_apply h op
    obtain ⟨rs'', hentry', hsub'⟩ := ih hentry
    exact ⟨rs'', hentry', List.Subset.trans hsub hsub'⟩

/-- All pending keys are settled. -/
lemma lookup_settleAll (f : κ → ρ) {keys : List κ}
    (h : ∀ k, k ∉ keys → t.pending k = none) (k : κ) :
    (EventRun.run OneShot.apply t (keys.map fun k => .settle k (f k))).pending k = none := by
  induction keys generalizing t with
  | nil => exact h k List.not_mem_nil
  | cons key keys ih =>
    refine ih fun k' hk' => ?_
    rw [lookup_settle]
    split_ifs with heq
    · rfl
    · exact h k' (by simp [heq, hk'])

lemma length_apply (t : Table κ ρ) (op : Op κ ρ) :
    t.entries.length ≤ (OneShot.apply t op).entries.length := by
  cases op with
  | enter k => simp [OneShot.apply]
  | settle k r =>
    unfold OneShot.apply
    dsimp only
    split <;> simp

lemma length_run (t : Table κ ρ) (ops : List (Op κ ρ)) :
    t.entries.length ≤ (EventRun.run OneShot.apply t ops).entries.length := by
  induction ops generalizing t with
  | nil => exact Nat.le_refl _
  | cons op ops ih => exact Nat.le_trans (length_apply t op) (ih _)

/-- A table without pending keys stays so until something is entered. -/
lemma run_empty_or_grows (h : ∀ k, t.pending k = none) (ops : List (Op κ ρ)) :
    (∀ k, (EventRun.run OneShot.apply t ops).pending k = none) ∨
      t.entries.length < (EventRun.run OneShot.apply t ops).entries.length := by
  induction ops with
  | nil => exact .inl h
  | cons op ops ih =>
    cases op with
    | enter k =>
      right
      refine Nat.lt_of_lt_of_le ?_ (length_run _ ops)
      simp [OneShot.apply]
    | settle k r =>
      rw [EventRun.run_cons, apply_settle_none (h k)]
      exact ih

end OneShot
