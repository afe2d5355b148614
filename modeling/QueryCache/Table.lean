/-!
# Ordered tables and key sets

`Table κ α` is an association list whose keys stand in strictly increasing
order, and `KeySet κ` is a strictly increasing list of keys. The order is a
predicate, `Table.Sorted` and `KeySet.Sorted`, and not part of the types, so
that inductive types can hold their own tables. The insertions keep the order
(`Table.sorted_insert`, `KeySet.sorted_insert`), and the look-up laws
`Table.get?_insert_self` and `Table.get?_insert_of_ne` hold of every list.
-/

namespace QueryCache

/-- A list of keys with their values. -/
abbrev Table (κ α : Type) := List (κ × α)

/-- A list of keys. -/
abbrev KeySet (κ : Type) := List κ

namespace Table

variable {κ α : Type}

/-- Each key is smaller than every key after it. -/
def Sorted [LT κ] (t : Table κ α) : Prop :=
  t.Pairwise fun a b => a.1 < b.1

/-- The keys in order. -/
def keys (t : Table κ α) : List κ := t.map Prod.fst

/-- The values in the order of their keys. -/
def values (t : Table κ α) : List α := t.map Prod.snd

/-- The value of the first entry under `k`. -/
def get? [DecidableEq κ] : Table κ α → κ → Option α
  | [], _ => none
  | (l, y) :: rest, k => if k = l then some y else get? rest k

/-- The table has an entry under `k`. -/
def contains [DecidableEq κ] (t : Table κ α) (k : κ) : Bool := (get? t k).isSome

/-- Puts `x` under `k`. An entry that stands there already is replaced. -/
def insert [DecidableEq κ] [LT κ] [DecidableLT κ] :
    Table κ α → κ → α → Table κ α
  | [], k, x => [(k, x)]
  | (l, y) :: rest, k, x =>
    if k = l then (k, x) :: rest
    else if k < l then (k, x) :: (l, y) :: rest
    else (l, y) :: insert rest k x

/-- Removes every entry under `k`. -/
def erase [DecidableEq κ] (t : Table κ α) (k : κ) : Table κ α :=
  t.filter fun entry => entry.1 ≠ k

/-- Puts all entries of `new` into `t`, one after the other. -/
def insertAll [DecidableEq κ] [LT κ] [DecidableLT κ] (t new : Table κ α) :
    Table κ α :=
  new.foldl (fun acc entry => insert acc entry.1 entry.2) t

/-- The table of a list of entries. The last entry under a key wins. -/
def ofList [DecidableEq κ] [LT κ] [DecidableLT κ] (entries : List (κ × α)) :
    Table κ α :=
  insertAll [] entries

section Lookup

variable [DecidableEq κ]

@[simp] theorem get?_nil (k : κ) : get? ([] : Table κ α) k = none := rfl

theorem get?_cons (l k : κ) (y : α) (rest : Table κ α) :
    get? ((l, y) :: rest) k = if k = l then some y else get? rest k := rfl

theorem mem_of_get?_eq_some {t : Table κ α} {k : κ} {x : α}
    (h : get? t k = some x) : (k, x) ∈ t := by
  induction t with
  | nil => simp at h
  | cons entry rest ih =>
    obtain ⟨l, y⟩ := entry
    rw [get?_cons] at h
    split at h
    · simp_all
    · exact List.mem_cons_of_mem _ (ih h)

theorem get?_eq_none_iff {t : Table κ α} {k : κ} :
    get? t k = none ↔ k ∉ keys t := by
  induction t with
  | nil => simp [keys]
  | cons entry rest ih =>
    obtain ⟨l, y⟩ := entry
    rw [get?_cons]
    split <;> simp_all [keys]

theorem get?_erase_self (t : Table κ α) (k : κ) : get? (erase t k) k = none := by
  simp [get?_eq_none_iff, keys, erase]

theorem get?_erase_of_ne (t : Table κ α) {k l : κ} (h : l ≠ k) :
    get? (erase t k) l = get? t l := by
  induction t with
  | nil => rfl
  | cons entry rest ih =>
    obtain ⟨m, y⟩ := entry
    by_cases hm : m = k
    · subst hm
      simpa [erase, get?_cons, h] using ih
    · simp only [erase, ne_eq, hm, not_false_eq_true, decide_true,
        List.filter_cons_of_pos, get?_cons]
      split
      · rfl
      · exact ih

variable [LT κ] [DecidableLT κ]

@[simp] theorem get?_insert_self (t : Table κ α) (k : κ) (x : α) :
    get? (insert t k x) k = some x := by
  induction t with
  | nil => simp [insert, get?_cons]
  | cons entry rest ih =>
    obtain ⟨l, y⟩ := entry
    rw [insert]
    split
    · simp [get?_cons]
    · split
      · simp [get?_cons]
      · simp_all [get?_cons]

theorem get?_insert_of_ne (t : Table κ α) {k l : κ} (x : α) (h : l ≠ k) :
    get? (insert t k x) l = get? t l := by
  induction t with
  | nil => simp [insert, get?_cons, h]
  | cons entry rest ih =>
    obtain ⟨m, y⟩ := entry
    rw [insert]
    split
    · simp_all [get?_cons]
    · split
      · simp [get?_cons, h]
      · simp [get?_cons, ih]

end Lookup

section Order

theorem sorted_nil [LT κ] : Sorted ([] : Table κ α) := List.Pairwise.nil

variable [DecidableEq κ] [LT κ]

theorem sorted_erase {t : Table κ α} (h : Sorted t) (k : κ) :
    Sorted (erase t k) :=
  List.Pairwise.filter _ h

variable [DecidableLT κ]

theorem mem_insert {t : Table κ α} {k : κ} {x : α} {entry : κ × α}
    (h : entry ∈ insert t k x) : entry = (k, x) ∨ entry ∈ t := by
  induction t with
  | nil => simpa [insert] using h
  | cons head rest ih =>
    obtain ⟨l, y⟩ := head
    rw [insert] at h
    split at h
    · simp only [List.mem_cons] at h ⊢
      exact h.imp id Or.inr
    · split at h
      · simpa using h
      · simp only [List.mem_cons] at h ⊢
        rcases h with h | h
        · exact Or.inr (Or.inl h)
        · exact (ih h).imp id Or.inr

variable [Trans (α := κ) (· < ·) (· < ·) (· < ·)]
  [Std.Trichotomous (α := κ) (· < ·)]

theorem sorted_insert {t : Table κ α} (h : Sorted t) (k : κ) (x : α) :
    Sorted (insert t k x) := by
  induction t with
  | nil => exact List.pairwise_singleton _ _
  | cons head rest ih =>
    obtain ⟨l, y⟩ := head
    obtain ⟨hhead, hrest⟩ := List.pairwise_cons.1 h
    rw [insert]
    split
    · subst_vars
      exact List.pairwise_cons.2 ⟨hhead, hrest⟩
    · rename_i hne
      split
      · rename_i hlt
        refine List.pairwise_cons.2 ⟨fun entry hmem => ?_, h⟩
        rcases List.mem_cons.1 hmem with rfl | hmem
        · exact hlt
        · exact Trans.trans hlt (hhead entry hmem)
      · rename_i hnlt
        refine List.pairwise_cons.2 ⟨fun entry hmem => ?_, ih hrest⟩
        rcases mem_insert hmem with rfl | hmem
        · rcases Std.lt_trichotomy k l with hlt | heq | hlt
          · exact absurd hlt hnlt
          · exact absurd heq hne
          · exact hlt
        · exact hhead entry hmem

theorem sorted_insertAll {t : Table κ α} (h : Sorted t) (new : Table κ α) :
    Sorted (insertAll t new) := by
  induction new generalizing t with
  | nil => exact h
  | cons entry rest ih => exact ih (sorted_insert h entry.1 entry.2)

end Order

end Table

namespace KeySet

variable {κ : Type}

/-- Each key is smaller than every key after it. -/
def Sorted [LT κ] (s : KeySet κ) : Prop := s.Pairwise (· < ·)

variable [DecidableEq κ] [LT κ] [DecidableLT κ]

/-- Adds `k` at its place. A key that is there already stays alone. -/
def insert : KeySet κ → κ → KeySet κ
  | [], k => [k]
  | l :: rest, k =>
    if k = l then l :: rest
    else if k < l then k :: l :: rest
    else l :: insert rest k

/-- Adds all keys of `new`. -/
def insertAll (s : KeySet κ) (new : List κ) : KeySet κ := new.foldl insert s

/-- The set of the keys of a list. -/
def ofList (keys : List κ) : KeySet κ := insertAll [] keys

theorem mem_insert {s : KeySet κ} {k l : κ} :
    l ∈ insert s k ↔ l = k ∨ l ∈ s := by
  induction s with
  | nil => simp [insert]
  | cons m rest ih =>
    rw [insert]
    split
    · subst_vars; simp
    · split
      · simp
      · simp only [List.mem_cons, ih]
        exact ⟨fun h => by rcases h with h | h | h <;> simp [h],
          fun h => by rcases h with h | h | h <;> simp [h]⟩

theorem mem_insertAll {s : KeySet κ} {new : List κ} {l : κ} :
    l ∈ insertAll s new ↔ l ∈ s ∨ l ∈ new := by
  induction new generalizing s with
  | nil => simp [insertAll]
  | cons k rest ih =>
    rw [insertAll, List.foldl_cons]
    refine ih.trans ?_
    rw [mem_insert, List.mem_cons]
    exact ⟨fun h => by rcases h with (h | h) | h <;> simp [h],
      fun h => by rcases h with h | h | h <;> simp [h]⟩

theorem sorted_insert [Trans (α := κ) (· < ·) (· < ·) (· < ·)]
    [Std.Trichotomous (α := κ) (· < ·)] {s : KeySet κ} (h : Sorted s) (k : κ) :
    Sorted (insert s k) := by
  induction s with
  | nil => exact List.pairwise_singleton _ _
  | cons l rest ih =>
    obtain ⟨hhead, hrest⟩ := List.pairwise_cons.1 h
    rw [insert]
    split
    · exact h
    · rename_i hne
      split
      · rename_i hlt
        refine List.pairwise_cons.2 ⟨fun m hmem => ?_, h⟩
        rcases List.mem_cons.1 hmem with rfl | hmem
        · exact hlt
        · exact Trans.trans hlt (hhead m hmem)
      · rename_i hnlt
        refine List.pairwise_cons.2 ⟨fun m hmem => ?_, ih hrest⟩
        rcases mem_insert.1 hmem with rfl | hmem
        · rcases Std.lt_trichotomy m l with hlt | heq | hlt
          · exact absurd hlt hnlt
          · exact absurd heq hne
          · exact hlt
        · exact hhead m hmem

end KeySet

end QueryCache
