import Mathlib.Data.List.Nodup
import QueryCache.Entity
import QueryCache.Query.Key

/-!
# Look-ups in changed tables

What `Table.get?` finds after insertions, filters and maps. The laws of one
insertion hold of every list; those of several insertions and of filters by
value need the keys to be distinct, which they are in a sorted table
(`Table.nodup_keys_of_sorted`).
-/

namespace QueryCache

instance : Std.Irrefl (α := EntityKey) (· < ·) :=
  ⟨fun a (h : a.text < a.text) => String.lt_irrefl _ h⟩

instance : Std.Irrefl (α := QueryKey) (· < ·) :=
  ⟨fun a (h : a.text < a.text) => String.lt_irrefl _ h⟩

namespace Table

variable {κ α : Type}

theorem nodup_keys_of_sorted [LT κ] [Std.Irrefl (α := κ) (· < ·)] {t : Table κ α}
    (h : Sorted t) : (keys t).Nodup := by
  refine List.pairwise_map.2 (h.imp ?_)
  intro a b hab heq
  rw [heq] at hab
  exact Std.Irrefl.irrefl _ hab

variable [DecidableEq κ]

theorem get?_eq_some_of_mem {t : Table κ α} (h : (keys t).Nodup) {k : κ} {x : α}
    (hmem : (k, x) ∈ t) : get? t k = some x := by
  induction t with
  | nil => simp at hmem
  | cons entry rest ih =>
      obtain ⟨l, y⟩ := entry
      obtain ⟨hl, hrest⟩ := List.nodup_cons.1 h
      rw [get?_cons]
      rcases List.mem_cons.1 hmem with heq | htail
      · cases heq
        exact if_pos rfl
      · have hne : k ≠ l := by
          intro heq
          subst heq
          exact hl (List.mem_map.2 ⟨(k, x), htail, rfl⟩)
        rw [if_neg hne]
        exact ih hrest htail

theorem mem_iff_get?_eq_some {t : Table κ α} (h : (keys t).Nodup) {k : κ} {x : α} :
    (k, x) ∈ t ↔ get? t k = some x :=
  ⟨get?_eq_some_of_mem h, mem_of_get?_eq_some⟩

/-- Sorted tables with the same values under every key are equal. -/
theorem eq_of_get?_eq [LT κ] [Std.Asymm (α := κ) (· < ·)] {t u : Table κ α} (ht : Sorted t)
    (hu : Sorted u) (h : ∀ k, get? t k = get? u k) : t = u := by
  have hkeys := nodup_keys_of_sorted ht
  have hkeys' := nodup_keys_of_sorted hu
  have hperm : t.Perm u := by
    refine (List.perm_ext_iff_of_nodup (List.Nodup.of_map _ hkeys)
      (List.Nodup.of_map _ hkeys')).2 fun entry => ?_
    rw [mem_iff_get?_eq_some hkeys, mem_iff_get?_eq_some hkeys', h]
  refine hperm.eq_of_pairwise (fun a b _ _ hab hba => ?_) ht hu
  exact absurd hba (Std.Asymm.asymm _ _ hab)

theorem mem_keys_iff {t : Table κ α} {k : κ} :
    k ∈ keys t ↔ ∃ x, get? t k = some x := by
  rw [← Option.isSome_iff_exists, ← Option.ne_none_iff_isSome, ne_eq,
    get?_eq_none_iff, not_not]

theorem contains_iff {t : Table κ α} {k : κ} :
    contains t k = true ↔ ∃ x, get? t k = some x :=
  Option.isSome_iff_exists

/-- A filter that looks at keys only leaves the entries of the other keys out. -/
theorem get?_filter_key (t : Table κ α) (p : κ → Bool) (k : κ) :
    get? (t.filter fun entry => p entry.1) k = if p k then get? t k else none := by
  induction t with
  | nil => simp
  | cons entry rest ih =>
      obtain ⟨l, y⟩ := entry
      rw [List.filter_cons, get?_cons]
      by_cases hk : k = l
      · subst hk
        by_cases hp : p k = true
        · simp [hp, get?_cons]
        · simp [hp, ih]
      · by_cases hl : p l = true
        · simp [hl, hk, get?_cons, ih]
        · simp [hl, hk, ih]

theorem get?_filter {t : Table κ α} (h : (keys t).Nodup) (p : κ × α → Bool) (k : κ) :
    get? (t.filter p) k = (get? t k).filter fun x => p (k, x) := by
  have hfilter : (keys (t.filter p)).Nodup := h.sublist (List.filter_sublist.map _)
  ext x
  rw [← mem_iff_get?_eq_some hfilter, List.mem_filter, mem_iff_get?_eq_some h,
    Option.filter_eq_some_iff]

theorem get?_map (t : Table κ α) {β : Type} (f : α → β) (k : κ) :
    get? (t.map fun entry => (entry.1, f entry.2)) k = (get? t k).map f := by
  induction t with
  | nil => rfl
  | cons entry rest ih =>
      obtain ⟨l, y⟩ := entry
      rw [List.map_cons, get?_cons, get?_cons, ih]
      split <;> rfl

variable [LT κ] [DecidableLT κ]

theorem get?_insert (t : Table κ α) (k l : κ) (x : α) :
    get? (insert t k x) l = if l = k then some x else get? t l := by
  split
  · subst l
    exact get?_insert_self t k x
  · exact get?_insert_of_ne t x ‹_›

theorem insert_ne_nil (t : Table κ α) (k : κ) (x : α) : insert t k x ≠ [] := by
  intro heq
  have hself := get?_insert_self t k x
  rw [heq] at hself
  cases hself

/-- A value that stands there already need not be put in. -/
theorem insert_eq_self [Std.Asymm (α := κ) (· < ·)] [Trans (α := κ) (· < ·) (· < ·) (· < ·)]
    [Std.Trichotomous (α := κ) (· < ·)] {t : Table κ α} (ht : Sorted t) {k : κ} {x : α}
    (h : get? t k = some x) : insert t k x = t := by
  refine eq_of_get?_eq (sorted_insert ht k x) ht fun l => ?_
  rw [get?_insert]
  split
  · subst l
    exact h.symm
  · rfl

/-- The last of two insertions under a key counts. -/
theorem insert_insert_self (t : Table κ α) (k : κ) (x y : α) :
    insert (insert t k x) k y = insert t k y := by
  induction t with
  | nil => simp [insert]
  | cons entry rest ih =>
      obtain ⟨l, z⟩ := entry
      by_cases heq : k = l
      · simp [insert, heq]
      · by_cases hlt : k < l
        · simp [insert, heq, hlt]
        · simp [insert, heq, hlt, ih]

theorem insertAll_cons (t : Table κ α) (entry : κ × α) (new : Table κ α) :
    insertAll t (entry :: new) = insertAll (insert t entry.1 entry.2) new := rfl

theorem insert_of_forall_lt [Std.Asymm (α := κ) (· < ·)] {t : Table κ α} {k : κ}
    (h : ∀ entry ∈ t, entry.1 < k) (x : α) : insert t k x = t ++ [(k, x)] := by
  induction t with
  | nil => rfl
  | cons entry rest ih =>
      obtain ⟨l, y⟩ := entry
      obtain ⟨hl, hrest⟩ := List.forall_mem_cons.1 h
      have hlt : ¬ k < l := Std.Asymm.asymm l k hl
      have hne : k ≠ l := fun heq => hlt (heq ▸ hl)
      rw [insert, if_neg hne, if_neg hlt, ih hrest]
      rfl

/-- Entries that come in order are put one behind the other. -/
theorem insertAll_of_sorted [Std.Asymm (α := κ) (· < ·)] {t new : Table κ α}
    (h : Sorted (t ++ new)) : insertAll t new = t ++ new := by
  induction new generalizing t with
  | nil => rw [List.append_nil]; rfl
  | cons entry rest ih =>
      have hlast : ∀ other ∈ t, other.1 < entry.1 :=
        fun other hother => (List.pairwise_append.1 h).2.2 other hother entry List.mem_cons_self
      have heq := insert_of_forall_lt hlast entry.2
      rw [insertAll_cons, heq, ih]
      · rw [List.append_assoc]
        rfl
      · rwa [List.append_assoc]

/-- An entry of the new table wins over one that stands there already. -/
theorem get?_insertAll (t : Table κ α) {new : Table κ α} (h : (keys new).Nodup) (k : κ) :
    get? (insertAll t new) k = (get? new k).or (get? t k) := by
  induction new generalizing t with
  | nil => rfl
  | cons entry rest ih =>
      obtain ⟨l, y⟩ := entry
      obtain ⟨hl, hrest⟩ := List.nodup_cons.1 h
      rw [insertAll_cons, ih _ hrest, get?_insert, get?_cons]
      by_cases hk : k = l
      · subst hk
        rw [get?_eq_none_iff.2 hl]
        simp
      · simp [hk]

end Table

end QueryCache
