import QueryCache.Proofs.Store.Cells
import QueryCache.Proofs.Store.Reconcile

/-!
# Sound stores

`Store.Sound` is what every sequence of operations keeps: each query has a cell
of its own, every dependent of an entity has a cell, every entity with a
dependent has a snapshot, and snapshots are ordered objects. For each operation
there is one lemma on what it does to the cells, to the snapshots and to the
dependents, and one that says that it keeps the store sound.
-/

namespace QueryCache

namespace Store

structure Sound (store : Store) : Prop where
  indexed : store.Indexed
  sorted : Table.Sorted store.dependents
  cached : ∀ {entity query}, query ∈ store.dependentsOf entity →
    ∃ id, store.cell? query = some id
  covered : ∀ {entity query}, query ∈ store.dependentsOf entity →
    ∃ value, store.snapshot? entity = some value
  objects : ∀ {entity value}, store.snapshot? entity = some value →
    ∃ members, value = .object members ∧ Json.Ordered (.object members)
  unwritten : store.writes = 0 → store.snapshots = []

theorem sound_empty : Sound empty where
  indexed := indexed_empty
  sorted := Table.sorted_nil
  cached h := by simp [empty, dependentsOf] at h
  covered h := by simp [empty, dependentsOf] at h
  objects h := by simp [empty, snapshot?] at h
  unwritten _ := rfl

variable {store : Store}

theorem Sound.nodup (h : Sound store) : (Table.keys store.dependents).Nodup :=
  Table.nodup_keys_of_sorted h.sorted

theorem Sound.writes_ne_zero (h : Sound store) {entity : EntityKey} {value : Json}
    (hvalue : store.snapshot? entity = some value) : store.writes ≠ 0 := by
  intro hzero
  rw [snapshot?, h.unwritten hzero] at hvalue
  simp at hvalue

/-- Only the cells have changed, and no query has lost its cell. -/
theorem Sound.of_cells (h : Sound store) {next : Store} (hindexed : next.Indexed)
    (hcells : ∀ {key id}, store.cell? key = some id → ∃ id', next.cell? key = some id')
    (hdependents : next.dependents = store.dependents)
    (hsnapshots : next.snapshots = store.snapshots)
    (hwrites : next.writes = store.writes) : Sound next := by
  have hof : ∀ entity, next.dependentsOf entity = store.dependentsOf entity := by
    intro entity
    rw [dependentsOf, dependentsOf, hdependents]
  have hsnapshot : ∀ entity, next.snapshot? entity = store.snapshot? entity := by
    intro entity
    rw [snapshot?, snapshot?, hsnapshots]
  refine ⟨hindexed, hdependents ▸ h.sorted, ?_, ?_, ?_, ?_⟩
  · intro entity query hquery
    rw [hof] at hquery
    obtain ⟨id, hid⟩ := h.cached hquery
    exact hcells hid
  · intro entity query hquery
    rw [hof] at hquery
    rw [hsnapshot]
    exact h.covered hquery
  · intro entity value hvalue
    rw [hsnapshot] at hvalue
    exact h.objects hvalue
  · intro hzero
    rw [hsnapshots]
    exact h.unwritten (hwrites ▸ hzero)

theorem exists_cell?_cell (store : Store) (key : QueryKey) {other : QueryKey} {id : CellId}
    (h : store.cell? other = some id) :
    ∃ id', (store.cell key).2.cell? other = some id' := by
  rw [cell?_cell]
  split
  · exact ⟨_, rfl⟩
  · exact ⟨id, h⟩

theorem Sound.cell (h : Sound store) (key : QueryKey) : Sound (store.cell key).2 :=
  h.of_cells (h.indexed.cell key) (exists_cell?_cell store key)
    (dependents_cell store key) (snapshots_cell store key) (writes_cell store key)

theorem Sound.updateCell (h : Sound store) (id : CellId)
    (change : QueryState → QueryState) : Sound (store.updateCell id change) :=
  h.of_cells (h.indexed.updateCell id change) (fun hid => ⟨_, hid⟩) rfl rfl rfl

theorem Sound.writeState (h : Sound store) (key : QueryKey) (state : QueryState) :
    Sound (store.writeState key state) :=
  (h.cell key).updateCell (store.cell key).1 fun _ => state

/-! ### Writing the state of a query -/

variable {key : QueryKey} {state : QueryState} {entities : Snapshots}

theorem write_of_none (h : state.data = none) (entities : Snapshots) :
    store.write key state entities = (.none, store.writeState key state) := by
  simp [write, h]

theorem write_of_some {data : Json} (h : state.data = some data) (entities : Snapshots) :
    store.write key state entities =
      ((store.addDependent key (Table.keys entities)).invalidation (some key) entities,
        ((store.addDependent key (Table.keys entities)).reconcile
          (some key) entities).2.writeState key state) := by
  simp [write, h, reconcile]

theorem indexed_reconcile (h : store.Indexed) (key : QueryKey) (names : List EntityKey)
    (origin : Option QueryKey) (entities : Snapshots) :
    ((store.addDependent key names).reconcile origin entities).2.Indexed :=
  ⟨h.valid, h.distinct⟩

theorem cell_fst_reconcile (store : Store) (key : QueryKey) (names : List EntityKey)
    (origin : Option QueryKey) (entities : Snapshots) :
    ((((store.addDependent key names).reconcile origin entities).2).cell key).1 =
      (store.cell key).1 := by
  simp only [Store.cell, cell?, addDependent, reconcile]
  split <;> rfl

theorem state?_write (h : store.Indexed) (key : QueryKey) (state : QueryState)
    (entities : Snapshots) (other : QueryKey) :
    (store.write key state entities).2.state? other =
      if other = key then some state else store.state? other := by
  cases hdata : state.data with
  | none =>
      rw [write_of_none hdata]
      exact state?_writeState h key state other
  | some data =>
      rw [write_of_some hdata]
      exact state?_writeState (indexed_reconcile h key _ (some key) entities) key state other

theorem cell?_write (key : QueryKey) (state : QueryState) (entities : Snapshots)
    (other : QueryKey) :
    (store.write key state entities).2.cell? other =
      if other = key then some (store.cell key).1 else store.cell? other := by
  cases hdata : state.data with
  | none =>
      rw [write_of_none hdata]
      exact cell?_writeState store key other state
  | some data =>
      rw [write_of_some hdata]
      refine (cell?_writeState _ key other state).trans ?_
      rw [cell_fst_reconcile]
      rfl

variable {data : Json}

theorem changed_write (h : state.data = some data) :
    (store.write key state entities).1.changed = store.changedEntities entities := by
  rw [write_of_some h]
  rfl

/-- A write reports the dependents of changed entities, but not the writer. -/
theorem mem_queries_write_iff (h : state.data = some data) {query : QueryKey} :
    query ∈ (store.write key state entities).1.queries ↔
      query ≠ key ∧
        ∃ entity ∈ store.changedEntities entities, query ∈ store.dependentsOf entity := by
  rw [write_of_some h, mem_queries_invalidation_iff]
  change some query ≠ some key ∧ (∃ entity ∈ store.changedEntities entities, _) ↔ _
  rw [ne_eq, Option.some_inj]
  refine and_congr_right fun hne => exists_congr fun entity => and_congr_right fun _ => ?_
  rw [mem_dependentsOf_addDependent]
  simp [hne]

theorem snapshot?_write_of_none (h : state.data = some data) {entity : EntityKey}
    (hentity : Table.get? entities entity = none) :
    (store.write key state entities).2.snapshot? entity = store.snapshot? entity := by
  rw [write_of_some h, snapshot?, snapshots_writeState]
  exact snapshot?_reconcile_of_none hentity

theorem snapshot?_write_of_some (h : state.data = some data)
    (hnodup : (Table.keys entities).Nodup) {entity : EntityKey} {value : Json}
    (hentity : Table.get? entities entity = some value) :
    (store.write key state entities).2.snapshot? entity =
      some (Json.settle (store.snapshot? entity) value) := by
  rw [write_of_some h, snapshot?, snapshots_writeState]
  exact snapshot?_reconcile_of_some hnodup hentity

theorem mem_dependentsOf_write_iff (h : state.data = some data) {entity : EntityKey}
    {query : QueryKey} :
    query ∈ (store.write key state entities).2.dependentsOf entity ↔
      query ∈ store.dependentsOf entity ∨ query = key ∧ entity ∈ Table.keys entities := by
  rw [write_of_some h, dependentsOf, dependents_writeState]
  exact mem_dependentsOf_addDependent key (Table.keys entities)

theorem writes_write (h : state.data = some data) :
    (store.write key state entities).2.writes = store.writes + 1 := by
  rw [write_of_some h, writes_writeState]
  rfl

/-! ### Soundness of the operations -/

theorem exists_settle (h : Sound store) (hflat : entities.Flat) {entity : EntityKey}
    {value : Json} (hentity : Table.get? entities entity = some value) :
    ∃ members, Json.settle (store.snapshot? entity) value = .object members ∧
      Json.Ordered (.object members) := by
  obtain ⟨members, rfl, hordered⟩ := hflat.get? hentity
  exact Json.settle_object (fun _ hvalue => h.objects hvalue) hordered

theorem objects_reconcile (h : Sound store) (hflat : entities.Flat)
    (origin : Option QueryKey) {entity : EntityKey} {value : Json}
    (hvalue : (store.reconcile origin entities).2.snapshot? entity = some value) :
    ∃ members, value = .object members ∧ Json.Ordered (.object members) := by
  cases hentity : Table.get? entities entity with
  | none =>
      rw [snapshot?_reconcile_of_none hentity] at hvalue
      exact h.objects hvalue
  | some new =>
      rw [snapshot?_reconcile_of_some hflat.nodup hentity] at hvalue
      cases hvalue
      exact exists_settle h hflat hentity

theorem covered_reconcile (hflat : entities.Flat) (origin : Option QueryKey)
    {entity : EntityKey} (h : ∃ value, store.snapshot? entity = some value) :
    ∃ value, (store.reconcile origin entities).2.snapshot? entity = some value := by
  cases hentity : Table.get? entities entity with
  | none => rwa [snapshot?_reconcile_of_none hentity]
  | some new => exact ⟨_, snapshot?_reconcile_of_some hflat.nodup hentity⟩

theorem Sound.writeEntities (h : Sound store) (hflat : entities.Flat)
    (origin : Option QueryKey) : Sound (store.writeEntities origin entities).2 where
  indexed := ⟨h.indexed.valid, h.indexed.distinct⟩
  sorted := h.sorted
  cached := h.cached
  covered hquery := covered_reconcile hflat origin (h.covered hquery)
  objects := objects_reconcile h hflat origin
  unwritten hzero := absurd hzero (Nat.succ_ne_zero _)

theorem exists_cell?_write (store : Store) (key : QueryKey) (state : QueryState)
    (entities : Snapshots) {other : QueryKey} {id : CellId}
    (h : store.cell? other = some id) :
    ∃ id', (store.write key state entities).2.cell? other = some id' := by
  rw [cell?_write]
  split
  · exact ⟨_, rfl⟩
  · exact ⟨id, h⟩

theorem Sound.write_of_some (h : Sound store) (hdata : state.data = some data)
    (hflat : entities.Flat) (key : QueryKey) :
    Sound (store.write key state entities).2 := by
  have hsnapshot : ∀ entity, (store.write key state entities).2.snapshot? entity =
      (store.reconcile (some key) entities).2.snapshot? entity := by
    intro entity
    rw [Store.write_of_some hdata, snapshot?, snapshots_writeState]
    rfl
  refine ⟨?_, ?_, ?_, ?_, ?_, ?_⟩
  · rw [Store.write_of_some hdata]
    exact (indexed_reconcile h.indexed key _ (some key) entities).writeState key state
  · rw [Store.write_of_some hdata, dependents_writeState]
    exact nodup_dependents_addDependent h.sorted key (Table.keys entities)
  · intro entity query hquery
    rcases (mem_dependentsOf_write_iff hdata).1 hquery with hquery | ⟨rfl, -⟩
    · obtain ⟨id, hid⟩ := h.cached hquery
      exact exists_cell?_write store key state entities hid
    · rw [cell?_write, if_pos rfl]
      exact ⟨_, rfl⟩
  · intro entity query hquery
    rw [hsnapshot]
    rcases (mem_dependentsOf_write_iff hdata).1 hquery with hquery | ⟨-, hmem⟩
    · exact covered_reconcile hflat _ (h.covered hquery)
    · obtain ⟨value, hvalue⟩ := Table.mem_keys_iff.1 hmem
      exact ⟨_, snapshot?_reconcile_of_some hflat.nodup hvalue⟩
  · intro entity value hvalue
    rw [hsnapshot] at hvalue
    exact objects_reconcile h hflat _ hvalue
  · intro hzero
    rw [writes_write hdata] at hzero
    exact absurd hzero (Nat.succ_ne_zero _)

theorem Sound.write_of_none (h : Sound store) (hdata : state.data = none)
    (key : QueryKey) (entities : Snapshots) :
    Sound (store.write key state entities).2 := by
  rw [Store.write_of_none hdata]
  exact h.writeState key state

end Store

end QueryCache
