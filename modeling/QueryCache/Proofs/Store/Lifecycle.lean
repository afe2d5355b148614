import Mathlib.Data.List.Induction
import QueryCache.Client.Cache
import QueryCache.Proofs.Store.Evict

/-!
# The life of a cache

A cache goes through any sequence of calls: cells are asked for and changed, states
and entities are written, queries are evicted. `Store.Tidy` holds all along, whatever
is written (`Cache.tidy_after`): no entity has an empty set of dependents, every entity
with dependents has a snapshot, every dependent has a cell, and without a write of
entities there are no snapshots. `Cache.evict_after` says what an eviction leaves.
-/

namespace QueryCache

/-- A call on a cache. -/
inductive CacheCall where
  | cell (key : QueryKey)
  /-- Whoever holds a cell changes the state in it. -/
  | update (id : CellId) (change : QueryState → QueryState)
  | write (key : QueryKey) (state : QueryState) (entities : Snapshots)
  | writeEntities (origin : Option QueryKey) (entities : Snapshots)
  | evict (key : QueryKey)

/-- The call writes entities. A state without data writes none. -/
def CacheCall.writesEntities : CacheCall → Bool
  | write _ state _ => state.data.isSome
  | writeEntities _ _ => true
  | _ => false

namespace Cache

/-- Makes a call. -/
def call (cache : Cache) : CacheCall → Cache
  | .cell key => (cache.cell key).2
  | .update id change => cache.updateCell id change
  | .write key state entities => (cache.write key state entities).2
  | .writeEntities origin entities => (cache.writeEntities origin entities).2
  | .evict key => (cache.evict key).2

/-- The cache after some calls. -/
def after (calls : List CacheCall) : Cache := calls.foldl call empty

theorem after_append_singleton (calls : List CacheCall) (last : CacheCall) :
    after (calls ++ [last]) = (after calls).call last := by
  rw [after, List.foldl_append]
  rfl

theorem store_evict (cache : Cache) (key : QueryKey) :
    (cache.evict key).2.store = (cache.store.evict key).2 := by
  rw [evict]
  dsimp only
  split <;> rfl

end Cache

namespace Store

/-- The three indices of a store fit together. Unlike `Sound` this says nothing of
what the snapshots are, and it asks nothing of the entities that are written. -/
structure Tidy (store : Store) : Prop where
  sorted : Table.Sorted store.dependents
  inhabited : ∀ {entity queries}, Table.get? store.dependents entity = some queries →
    queries ≠ []
  cached : ∀ {entity query}, query ∈ store.dependentsOf entity →
    ∃ id, store.cell? query = some id
  covered : ∀ {entity query}, query ∈ store.dependentsOf entity →
    ∃ value, store.snapshot? entity = some value
  unwritten : store.writes = 0 → store.snapshots = []

theorem tidy_empty : Tidy empty where
  sorted := Table.sorted_nil
  inhabited h := by simp [empty] at h
  cached h := by simp [empty, dependentsOf] at h
  covered h := by simp [empty, dependentsOf] at h
  unwritten _ := rfl

variable {store : Store}

theorem Tidy.nodup (h : store.Tidy) : (Table.keys store.dependents).Nodup :=
  Table.nodup_keys_of_sorted h.sorted

/-- Only the cells have changed, and no query has lost its cell. -/
theorem Tidy.of_cells (h : store.Tidy) {next : Store}
    (hcells : ∀ {key id}, store.cell? key = some id → ∃ id', next.cell? key = some id')
    (hdependents : next.dependents = store.dependents)
    (hsnapshots : next.snapshots = store.snapshots)
    (hwrites : next.writes = store.writes) : next.Tidy := by
  obtain ⟨cells, index, snapshots, dependents, writes⟩ := next
  dsimp only at hdependents hsnapshots hwrites
  subst hdependents hsnapshots hwrites
  refine ⟨h.sorted, h.inhabited, fun hquery => ?_, h.covered, h.unwritten⟩
  obtain ⟨id, hid⟩ := h.cached hquery
  exact hcells hid

theorem Tidy.cell (h : store.Tidy) (key : QueryKey) : (store.cell key).2.Tidy :=
  h.of_cells (exists_cell?_cell store key) (dependents_cell store key)
    (snapshots_cell store key) (writes_cell store key)

theorem Tidy.updateCell (h : store.Tidy) (id : CellId)
    (change : QueryState → QueryState) : (store.updateCell id change).Tidy :=
  h.of_cells (fun hid => ⟨_, hid⟩) rfl rfl rfl

theorem Tidy.writeState (h : store.Tidy) (key : QueryKey) (state : QueryState) :
    (store.writeState key state).Tidy :=
  (h.cell key).updateCell (store.cell key).1 fun _ => state

/-! ### Writing -/

/-- A snapshot that is there stays, and every written entity gets one. -/
theorem exists_get?_absorbAll {snapshots entities : Snapshots} {entity : EntityKey}
    (h : (∃ value, Table.get? snapshots entity = some value) ∨
      entity ∈ Table.keys entities) :
    ∃ value, Table.get? (absorbAll snapshots entities) entity = some value := by
  induction entities generalizing snapshots with
  | nil => exact h.resolve_right (by simp [Table.keys])
  | cons entry rest ih =>
      obtain ⟨first, value⟩ := entry
      rw [absorbAll_cons]
      apply ih
      rw [Table.get?_insert]
      by_cases heq : entity = first
      · exact Or.inl ⟨_, if_pos heq⟩
      · rw [if_neg heq]
        exact h.imp_right fun hmem => (List.mem_cons.1 hmem).resolve_left heq

theorem Tidy.reconcile (h : store.Tidy) (origin : Option QueryKey) (entities : Snapshots) :
    (store.reconcile origin entities).2.Tidy where
  sorted := h.sorted
  inhabited := h.inhabited
  cached := h.cached
  covered hquery := exists_get?_absorbAll (Or.inl (h.covered hquery))
  unwritten hzero := absurd hzero (Nat.succ_ne_zero _)

theorem inhabited_addDependent
    (h : ∀ {entity queries}, Table.get? store.dependents entity = some queries →
      queries ≠ [])
    (key : QueryKey) (names : List EntityKey) {entity : EntityKey} {queries : KeySet QueryKey}
    (hqueries : Table.get? (store.addDependent key names).dependents entity = some queries) :
    queries ≠ [] := by
  rw [addDependent] at hqueries
  dsimp only at hqueries
  generalize store.dependents = dependents at h hqueries
  induction names generalizing dependents with
  | nil => exact h hqueries
  | cons name rest ih =>
      refine ih _ ?_ hqueries
      intro other found hfound
      rw [Table.get?_insert] at hfound
      split at hfound
      · cases hfound
        exact List.ne_nil_of_mem (KeySet.mem_insert.2 (Or.inl rfl))
      · exact h hfound

/-- The writer becomes a dependent before it has a cell and before its entities have
snapshots; the rest of the write provides both. -/
theorem Tidy.write_of_some (h : store.Tidy) {state : QueryState} {data : Json}
    (hdata : state.data = some data) (key : QueryKey) (entities : Snapshots) :
    (store.write key state entities).2.Tidy := by
  refine ⟨?_, ?_, ?_, ?_, ?_⟩
  · rw [Store.write_of_some hdata, dependents_writeState]
    exact nodup_dependents_addDependent h.sorted key (Table.keys entities)
  · intro entity queries hqueries
    rw [Store.write_of_some hdata, dependents_writeState] at hqueries
    exact inhabited_addDependent h.inhabited key (Table.keys entities) hqueries
  · intro entity query hquery
    rcases (mem_dependentsOf_write_iff hdata).1 hquery with hquery | ⟨rfl, -⟩
    · obtain ⟨id, hid⟩ := h.cached hquery
      exact exists_cell?_write store key state entities hid
    · rw [cell?_write, if_pos rfl]
      exact ⟨_, rfl⟩
  · intro entity query hquery
    rw [Store.write_of_some hdata, snapshot?, snapshots_writeState]
    apply exists_get?_absorbAll
    rcases (mem_dependentsOf_write_iff hdata).1 hquery with hquery | ⟨-, hmem⟩
    · exact Or.inl (h.covered hquery)
    · exact Or.inr hmem
  · intro hzero
    rw [writes_write hdata] at hzero
    exact absurd hzero (Nat.succ_ne_zero _)

theorem Tidy.write (h : store.Tidy) (key : QueryKey) (state : QueryState)
    (entities : Snapshots) : (store.write key state entities).2.Tidy := by
  cases hdata : state.data with
  | none =>
      rw [write_of_none hdata]
      exact h.writeState key state
  | some data => exact h.write_of_some hdata key entities

/-! ### Evicting -/

theorem Tidy.evict (h : store.Tidy) (key : QueryKey) : (store.evict key).2.Tidy where
  sorted := List.Pairwise.filter _ (List.pairwise_map.2 h.sorted)
  inhabited hqueries := by
    rw [get?_dependents_evict h.nodup, Option.filter_eq_some_iff] at hqueries
    simpa using hqueries.2
  cached hquery := by
    obtain ⟨hne, hquery⟩ := (mem_dependentsOf_evict_iff h.nodup).1 hquery
    rw [cell?_evict, if_neg hne]
    exact h.cached hquery
  covered hquery := by
    obtain ⟨hne, hquery⟩ := (mem_dependentsOf_evict_iff h.nodup).1 hquery
    obtain ⟨value, hvalue⟩ := h.covered hquery
    exact ⟨value, snapshot?_evict_of_dependent h.nodup hne hquery hvalue⟩
  unwritten hzero := by
    change store.snapshots.filter _ = []
    rw [h.unwritten hzero]
    rfl

/-- The entities that still have a dependent keep their snapshots, the others lose
theirs. -/
theorem Tidy.snapshot?_evict (h : store.Tidy) (key : QueryKey) (entity : EntityKey) :
    (store.evict key).2.snapshot? entity =
      if (store.evict key).2.dependentsOf entity = [] then none
      else store.snapshot? entity := by
  have hfilter : (store.evict key).2.snapshot? entity =
      if Table.contains (store.evict key).2.dependents entity then
        store.snapshot? entity else none :=
    Table.get?_filter_key store.snapshots
      (Table.contains (store.evict key).2.dependents) entity
  rw [hfilter, Table.contains, dependentsOf]
  cases hqueries : Table.get? (store.evict key).2.dependents entity with
  | none => rfl
  | some queries =>
      have hne : queries ≠ [] := (h.evict key).inhabited hqueries
      simp [hne]

theorem not_mem_dependents_evict (store : Store) (key : QueryKey)
    {entry : EntityKey × KeySet QueryKey} (h : entry ∈ (store.evict key).2.dependents) :
    key ∉ entry.2 := by
  obtain ⟨before, -, rfl⟩ := List.mem_map.1 (List.mem_filter.1 h).1
  simp

theorem Tidy.mem_dependents (h : store.Tidy) {entity : EntityKey}
    {queries : KeySet QueryKey} (hmem : (entity, queries) ∈ store.dependents) :
    Table.get? store.dependents entity = some queries ∧ store.dependentsOf entity = queries := by
  have hget := Table.get?_eq_some_of_mem h.nodup hmem
  exact ⟨hget, by rw [dependentsOf, hget, Option.getD_some]⟩

/-- Without cached queries nothing is left of the entities that had dependents. -/
theorem Tidy.dependents_eq_nil (h : store.Tidy) (hindex : store.index = []) :
    store.dependents = [] := by
  rw [List.eq_nil_iff_forall_not_mem]
  rintro ⟨entity, queries⟩ hmem
  obtain ⟨hget, hof⟩ := h.mem_dependents hmem
  obtain ⟨query, hquery⟩ := List.exists_mem_of_ne_nil _ (h.inhabited hget)
  obtain ⟨id, hid⟩ := h.cached (hof ▸ hquery)
  simp [cell?, hindex] at hid

theorem snapshots_evict_of_dependents {key : QueryKey}
    (h : (store.evict key).2.dependents = []) : (store.evict key).2.snapshots = [] := by
  change store.snapshots.filter (fun entry =>
    Table.contains (store.evict key).2.dependents entry.1) = []
  rw [h]
  simp [Table.contains]

end Store

namespace Cache

theorem tidy_call {cache : Cache} (h : cache.store.Tidy) (call : CacheCall) :
    (cache.call call).store.Tidy := by
  cases call with
  | cell key => exact h.cell key
  | update id change => exact h.updateCell id change
  | write key state entities => exact h.write key state entities
  | writeEntities origin entities => exact h.reconcile origin entities
  | evict key =>
      rw [Cache.call, store_evict]
      exact h.evict key

theorem tidy_after (calls : List CacheCall) : (after calls).store.Tidy := by
  induction calls using List.reverseRecOn with
  | nil => exact Store.tidy_empty
  | append_singleton calls last ih =>
      rw [after_append_singleton]
      exact tidy_call ih last

theorem writes_call (cache : Cache) (call : CacheCall) :
    (cache.call call).store.writes =
      cache.store.writes + if call.writesEntities then 1 else 0 := by
  cases call with
  | cell key => exact Store.writes_cell cache.store key
  | update id change => rfl
  | write key state entities =>
      change (cache.store.write key state entities).2.writes = _
      cases hdata : state.data with
      | none =>
          rw [Store.write_of_none hdata, Store.writes_writeState]
          simp [CacheCall.writesEntities, hdata]
      | some data =>
          rw [Store.writes_write hdata]
          simp [CacheCall.writesEntities, hdata]
  | writeEntities origin entities => rfl
  | evict key =>
      rw [Cache.call, store_evict]
      rfl

theorem writes_after (calls : List CacheCall) :
    (after calls).store.writes = calls.countP CacheCall.writesEntities := by
  induction calls using List.reverseRecOn with
  | nil => rfl
  | append_singleton calls last ih =>
      rw [after_append_singleton, writes_call, ih, List.countP_append, List.countP_singleton]

/-- After any calls the indices of a cache fit together, and an eviction takes out the
query, its part in the dependents and the snapshots that nothing depends on any more,
and nothing else. -/
theorem evict_after (calls : List CacheCall) :
    let store := (after calls).store
    (∀ entry ∈ store.dependents, entry.2 ≠ []) ∧
    (∀ entity ∈ Table.keys store.dependents, ∃ value, store.snapshot? entity = some value) ∧
    (∀ entry ∈ store.dependents, ∀ query ∈ entry.2, ∃ id, store.cell? query = some id) ∧
    (calls.countP CacheCall.writesEntities = 0 → store.snapshots = []) ∧
    ∀ key,
      let left := ((after calls).evict key).2.store
      (((after calls).evict key).1 = true ↔ ∃ id, store.cell? key = some id) ∧
      left.cell? key = none ∧
      (∀ entry ∈ left.dependents, key ∉ entry.2) ∧
      (∀ entity query, query ∈ left.dependentsOf entity ↔
        query ≠ key ∧ query ∈ store.dependentsOf entity) ∧
      (∀ other, other ≠ key → left.cell? other = store.cell? other) ∧
      left.cells = store.cells ∧
      (∀ entity, left.snapshot? entity =
        if left.dependentsOf entity = [] then none else store.snapshot? entity) ∧
      (left.queryKeys = [] → left.snapshots = [] ∧ left.dependents = []) := by
  intro store
  have htidy : store.Tidy := tidy_after calls
  refine ⟨?_, ?_, ?_, ?_, ?_⟩
  · rintro ⟨entity, queries⟩ hmem
    exact htidy.inhabited (htidy.mem_dependents hmem).1
  · intro entity hentity
    obtain ⟨⟨_, queries⟩, hmem, rfl⟩ := List.mem_map.1 hentity
    obtain ⟨hget, hof⟩ := htidy.mem_dependents hmem
    obtain ⟨query, hquery⟩ := List.exists_mem_of_ne_nil _ (htidy.inhabited hget)
    exact htidy.covered (hof ▸ hquery)
  · rintro ⟨entity, queries⟩ hmem query hquery
    exact htidy.cached ((htidy.mem_dependents hmem).2 ▸ hquery)
  · intro hnone
    exact htidy.unwritten ((writes_after calls).trans hnone)
  · intro key left
    have hleft : left = (store.evict key).2 := store_evict (after calls) key
    rw [hleft]
    refine ⟨?_, ?_, ?_, ?_, ?_, rfl, htidy.snapshot?_evict key, ?_⟩
    · exact Option.isSome_iff_exists
    · rw [Store.cell?_evict, if_pos rfl]
    · exact fun entry => Store.not_mem_dependents_evict store key
    · exact fun entity query => Store.mem_dependentsOf_evict_iff htidy.nodup
    · intro other hne
      rw [Store.cell?_evict, if_neg hne]
    · intro hkeys
      have hindex : (store.evict key).2.index = [] := List.map_eq_nil_iff.1 hkeys
      have hdependents := (htidy.evict key).dependents_eq_nil hindex
      exact ⟨Store.snapshots_evict_of_dependents hdependents, hdependents⟩

end Cache

end QueryCache
