import QueryCache.Proofs.Entity.Flatten
import QueryCache.Proofs.Json.Difference
import QueryCache.Store.Basic

/-!
# Reconciling entities with their snapshots

What a write of entities reports and what it leaves behind. An entity is
changed when its snapshot differs from what is written
(`Store.mem_changedEntities_iff`), the queries reported are the dependents of
changed entities other than the writer (`Store.mem_queries_invalidation_iff`),
and the snapshot of a written entity absorbs the new one
(`Store.snapshot?_reconcile_of_some`).
-/

namespace QueryCache

namespace Json

/-- What a new snapshot leaves behind, given the stored one if there is any. -/
def settle (stored : Option Json) (new : Json) : Json :=
  match stored with
  | some old => old.absorb new
  | none => new

theorem absorb_object (old new : Members) :
    (object old).absorb (object new) = object (Table.insertAll old new) := rfl

/-- Every member of the new snapshot is a member of what is left behind. -/
theorem member?_settle_of_some (stored : Option Json) {new : Members}
    (hnew : Ordered (object new)) {name : String} {value : Json}
    (h : (object new).member? name = some value) :
    (settle stored (object new)).member? name = some value := by
  match stored with
  | none => exact h
  | some (object old) =>
      rw [settle, absorb_object, member?_insertAll old hnew, h]
      rfl
  | some null => exact h
  | some (bool _) => exact h
  | some (number _) => exact h
  | some (string _) => exact h
  | some (array _) => exact h

/-- A member that the new snapshot does not have stays as it was. -/
theorem member?_absorb_of_none {stored : Json} {new : Members}
    (hnew : Ordered (object new)) {name : String}
    (hobject : ∃ members, stored = object members)
    (h : (object new).member? name = none) :
    (stored.absorb (object new)).member? name = stored.member? name := by
  obtain ⟨old, rfl⟩ := hobject
  rw [absorb_object, member?_insertAll old hnew, h]
  rfl

theorem settle_object {stored : Option Json} {new : Members}
    (hstored : ∀ value, stored = some value →
      ∃ members, value = object members ∧ Ordered (object members))
    (hnew : Ordered (object new)) :
    ∃ members, settle stored (object new) = object members ∧ Ordered (object members) := by
  cases stored with
  | none => exact ⟨new, rfl, hnew⟩
  | some value =>
      obtain ⟨old, rfl, hold⟩ := hstored value rfl
      exact ⟨_, rfl, ordered_insertAll hold (ordered_object_iff.1 hnew).2⟩

end Json

namespace KeySet

theorem mem_foldl_insertAll {κ α : Type} [DecidableEq κ] [LT κ] [DecidableLT κ]
    (keysOf : α → List κ) (items : List α) (start : KeySet κ) (key : κ) :
    key ∈ items.foldl (fun found item => insertAll found (keysOf item)) start ↔
      key ∈ start ∨ ∃ item ∈ items, key ∈ keysOf item := by
  induction items generalizing start with
  | nil => simp
  | cons item rest ih =>
      rw [List.foldl_cons, ih, mem_insertAll]
      simp only [List.mem_cons, exists_eq_or_imp, or_assoc]

end KeySet

namespace Store

variable {store : Store} {entities : Snapshots}

theorem mem_changedEntities_iff (h : (Table.keys entities).Nodup) {entity : EntityKey} :
    entity ∈ store.changedEntities entities ↔
      store.writes ≠ 0 ∧ ∃ new old, Table.get? entities entity = some new ∧
        store.snapshot? entity = some old ∧ old.differs new = true := by
  rw [changedEntities]
  split
  · simp_all
  · rename_i hwrites
    simp only [Table.keys, List.mem_map, List.mem_filter, hwrites, not_false_eq_true,
      true_and, ne_eq]
    constructor
    · rintro ⟨⟨entity, new⟩, ⟨hmem, hdiffers⟩, rfl⟩
      cases hold : Table.get? store.snapshots entity with
      | none => simp [hold] at hdiffers
      | some old =>
          rw [hold] at hdiffers
          exact ⟨new, old, Table.get?_eq_some_of_mem h hmem, hold, hdiffers⟩
    · rintro ⟨new, old, hnew, hold, hdiffers⟩
      rw [snapshot?] at hold
      refine ⟨(entity, new), ⟨Table.mem_of_get?_eq_some hnew, ?_⟩, rfl⟩
      simp only [hold]
      exact hdiffers

theorem mem_queries_invalidation_iff {origin : Option QueryKey} {query : QueryKey} :
    query ∈ (store.invalidation origin entities).queries ↔
      some query ≠ origin ∧
        ∃ entity ∈ store.changedEntities entities, query ∈ store.dependentsOf entity := by
  simp only [invalidation]
  rw [KeySet.mem_foldl_insertAll fun entity =>
    (store.dependentsOf entity).filter fun query => some query ≠ origin]
  simp only [List.not_mem_nil, false_or, List.mem_filter, decide_eq_true_eq]
  constructor
  · rintro ⟨entity, hentity, hquery, hne⟩
    exact ⟨hne, entity, hentity, hquery⟩
  · rintro ⟨hne, entity, hentity, hquery⟩
    exact ⟨entity, hentity, hquery, hne⟩

/-! ### Snapshots -/

theorem absorbAll_cons (snapshots : Snapshots) (key : EntityKey) (value : Json)
    (rest : Snapshots) :
    absorbAll snapshots ((key, value) :: rest) =
      absorbAll (Table.insert snapshots key
        (Json.settle (Table.get? snapshots key) value)) rest := by
  cases h : Table.get? snapshots key with
  | none => simp [absorbAll, h, Json.settle]
  | some stored => simp [absorbAll, h, Json.settle]

/-- Entities that are not written keep their snapshots. -/
theorem get?_absorbAll_of_none (snapshots : Snapshots) {key : EntityKey}
    (h : Table.get? entities key = none) :
    Table.get? (absorbAll snapshots entities) key = Table.get? snapshots key := by
  induction entities generalizing snapshots with
  | nil => rfl
  | cons entry rest ih =>
      obtain ⟨other, value⟩ := entry
      rw [Table.get?_cons] at h
      split at h
      · simp at h
      · rw [absorbAll_cons, ih _ h, Table.get?_insert, if_neg ‹_›]

/-- A written entity gets the stored snapshot with the new one absorbed. -/
theorem get?_absorbAll_of_some (snapshots : Snapshots) (hnodup : (Table.keys entities).Nodup)
    {key : EntityKey} {value : Json} (h : Table.get? entities key = some value) :
    Table.get? (absorbAll snapshots entities) key =
      some (Json.settle (Table.get? snapshots key) value) := by
  induction entities generalizing snapshots with
  | nil => simp at h
  | cons entry rest ih =>
      obtain ⟨other, first⟩ := entry
      obtain ⟨hother, hrest⟩ := List.nodup_cons.1 hnodup
      rw [Table.get?_cons] at h
      rw [absorbAll_cons]
      split at h
      · cases h
        subst key
        rw [get?_absorbAll_of_none _ (Table.get?_eq_none_iff.2 hother),
          Table.get?_insert_self]
      · rw [ih _ hrest h, Table.get?_insert, if_neg ‹_›]

theorem snapshot?_reconcile_of_none {origin : Option QueryKey} {entity : EntityKey}
    (h : Table.get? entities entity = none) :
    (store.reconcile origin entities).2.snapshot? entity = store.snapshot? entity :=
  get?_absorbAll_of_none store.snapshots h

theorem snapshot?_reconcile_of_some {origin : Option QueryKey}
    (hnodup : (Table.keys entities).Nodup) {entity : EntityKey} {value : Json}
    (h : Table.get? entities entity = some value) :
    (store.reconcile origin entities).2.snapshot? entity =
      some (Json.settle (store.snapshot? entity) value) :=
  get?_absorbAll_of_some store.snapshots hnodup h

/-! ### Dependents -/

theorem get?_foldl_addDependent (key : QueryKey) (entities : List EntityKey)
    (dependents : Table EntityKey (KeySet QueryKey)) (entity : EntityKey)
    (query : QueryKey) :
    query ∈ (Table.get? (entities.foldl (fun dependents entity =>
        let queries := (Table.get? dependents entity).getD []
        Table.insert dependents entity (KeySet.insert queries key)) dependents)
          entity).getD [] ↔
      query ∈ (Table.get? dependents entity).getD [] ∨ query = key ∧ entity ∈ entities := by
  induction entities generalizing dependents with
  | nil => simp
  | cons first rest ih =>
      rw [List.foldl_cons, ih, Table.get?_insert, List.mem_cons]
      split
      · subst entity
        simp only [Option.getD_some, KeySet.mem_insert, true_or, and_true]
        constructor
        · rintro ((heq | hmem) | ⟨heq, -⟩)
          · exact Or.inr heq
          · exact Or.inl hmem
          · exact Or.inr heq
        · rintro (hmem | heq)
          · exact Or.inl (Or.inr hmem)
          · exact Or.inl (Or.inl heq)
      · rename_i hne
        simp [hne]

theorem mem_dependentsOf_addDependent (key : QueryKey) (entities : List EntityKey)
    {entity : EntityKey} {query : QueryKey} :
    query ∈ (store.addDependent key entities).dependentsOf entity ↔
      query ∈ store.dependentsOf entity ∨ query = key ∧ entity ∈ entities :=
  get?_foldl_addDependent key entities store.dependents entity query

theorem nodup_dependents_addDependent (h : Table.Sorted store.dependents) (key : QueryKey)
    (entities : List EntityKey) :
    Table.Sorted (store.addDependent key entities).dependents := by
  rw [addDependent]
  dsimp only
  generalize store.dependents = dependents at h
  induction entities generalizing dependents with
  | nil => exact h
  | cons entity rest ih => exact ih _ (Table.sorted_insert h _ _)

end Store

end QueryCache
