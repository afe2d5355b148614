import QueryCache.Proofs.Store.Ordered

/-!
# Writes that have nothing to do with each other

Two writes that have no entity in common commute. Neither changes a snapshot or the dependents of an
entity of the other (`Store.snapshot?_enter_of_not_mem`, `Store.dependentsOf_enter_of_not_mem`), so
each reports the same before and after the other (`Store.fst_enter_enter`); that the first write of
a store reports nothing makes no difference, as there is no snapshot yet that it could be compared
with. What the two leave behind is told entity by entity and query by query, and the tables are
equal since they stand in order (`Cache.write_comm`).
-/

namespace QueryCache

namespace Store

variable {store next : Store} {entities : Snapshots} {write : Write}

/-! ### What a write leaves to the others -/

theorem snapshot?_enter_of_not_mem (h : write.HasData) {entity : EntityKey}
    (hentity : entity ∉ Table.keys write.entities) :
    (store.enter write).2.snapshot? entity = store.snapshot? entity := by
  rw [snapshot?, snapshots_enter h]
  exact get?_absorbAll_of_none _ (Table.get?_eq_none_iff.2 hentity)

/-- Every entity that is named gets the query, and the others stay as they are. -/
theorem get?_dependents_addDependent (store : Store) (key : QueryKey) (names : List EntityKey)
    (h : names.Nodup) (entity : EntityKey) :
    Table.get? (store.addDependent key names).dependents entity =
      if entity ∈ names then some (KeySet.insert (store.dependentsOf entity) key)
      else Table.get? store.dependents entity := by
  rw [addDependent, dependentsOf]
  dsimp only
  generalize store.dependents = dependents
  induction names generalizing dependents with
  | nil => simp
  | cons name rest ih =>
      obtain ⟨hname, hrest⟩ := List.nodup_cons.1 h
      rw [List.foldl_cons, ih hrest, Table.get?_insert]
      by_cases heq : entity = name
      · subst heq
        simp [hname]
      · simp [heq]

/-- The dependents after a write, told by those before. -/
theorem get?_dependents_write {state : QueryState} {data : Json} (h : state.data = some data)
    (store : Store) (key : QueryKey) (hsorted : Table.Sorted entities) (entity : EntityKey) :
    Table.get? (store.write key state entities).2.dependents entity =
      if entity ∈ Table.keys entities then some (KeySet.insert (store.dependentsOf entity) key)
      else Table.get? store.dependents entity := by
  rw [write_of_some h, dependents_writeState]
  exact get?_dependents_addDependent store key _ (Table.nodup_keys_of_sorted hsorted) entity

theorem dependentsOf_enter_of_not_mem (h : write.HasData) (hsorted : Table.Sorted write.entities)
    {entity : EntityKey} (hentity : entity ∉ Table.keys write.entities) :
    (store.enter write).2.dependentsOf entity = store.dependentsOf entity := by
  cases write with
  | result key state entities =>
      obtain ⟨data, hdata⟩ := Option.isSome_iff_exists.1 h
      have hget := get?_dependents_write hdata store key hsorted entity
      rw [if_neg hentity] at hget
      exact congrArg (Option.getD · []) hget
  | payload origin entities => rfl

/-! ### What a write reports -/

/-- A store that nothing was written to has no snapshots, so that it makes no difference that there
is nothing to compare with. -/
theorem changedEntities_eq (h : store.writes = 0 → store.snapshots = []) (entities : Snapshots) :
    store.changedEntities entities = Table.keys (entities.filter fun entry =>
      (store.snapshot? entry.1).any fun stored => stored.differs entry.2) := by
  rw [changedEntities]
  split
  · have hnone : ∀ entity, store.snapshot? entity = none := by
      intro entity
      rw [snapshot?, h ‹_›]
      rfl
    simp [hnone, Table.keys]
  · refine congrArg Table.keys (List.filter_congr ?_)
    rintro ⟨entity, snapshot⟩ -
    dsimp only [snapshot?]
    cases Table.get? store.snapshots entity <;> rfl

theorem changedEntities_congr (hstore : store.writes = 0 → store.snapshots = [])
    (hnext : next.writes = 0 → next.snapshots = [])
    (h : ∀ entity ∈ Table.keys entities, next.snapshot? entity = store.snapshot? entity) :
    next.changedEntities entities = store.changedEntities entities := by
  rw [changedEntities_eq hstore, changedEntities_eq hnext]
  refine congrArg Table.keys (List.filter_congr fun entry hentry => ?_)
  rw [h entry.1 (List.mem_map_of_mem hentry)]

theorem mem_keys_of_mem_changedEntities {entity : EntityKey}
    (h : entity ∈ store.changedEntities entities) : entity ∈ Table.keys entities := by
  rw [changedEntities] at h
  split at h
  · cases h
  · exact (List.filter_sublist.map _).subset h

/-- What a write reports is told by the snapshots of its entities and their dependents, of which
those count that are not the writer. -/
theorem invalidation_congr {origin : Option QueryKey}
    (hchanged : next.changedEntities entities = store.changedEntities entities)
    (hdependents : ∀ entity ∈ Table.keys entities,
      (next.dependentsOf entity).filter (fun query => some query ≠ origin) =
        (store.dependentsOf entity).filter fun query => some query ≠ origin) :
    next.invalidation origin entities = store.invalidation origin entities := by
  rw [invalidation, invalidation, hchanged]
  refine congrArg (Invalidation.mk _) (List.foldl_ext _ _ _ fun queries entity hentity => ?_)
  rw [hdependents entity (mem_keys_of_mem_changedEntities hentity)]

theorem filter_insert_self {key : QueryKey} (queries : KeySet QueryKey) :
    (KeySet.insert queries key).filter (fun query => some query ≠ some key) =
      queries.filter fun query => some query ≠ some key := by
  induction queries with
  | nil => simp [KeySet.insert]
  | cons query rest ih =>
      rw [KeySet.insert]
      split
      · rfl
      · split
        · simp
        · rw [List.filter_cons, List.filter_cons, ih]

/-- The writer of a result becomes a dependent of its entities before these are compared, and is
left out again of what is reported. -/
theorem fst_enter (h : write.HasData) (hsorted : Table.Sorted write.entities) :
    (store.enter write).1 = store.invalidation write.writer write.entities := by
  cases write with
  | result key state entities =>
      obtain ⟨data, hdata⟩ := Option.isSome_iff_exists.1 h
      rw [enter, write_of_some hdata]
      refine invalidation_congr rfl fun entity hentity => ?_
      have hget := get?_dependents_addDependent store key (Table.keys entities)
        (Table.nodup_keys_of_sorted hsorted) entity
      rw [if_pos hentity] at hget
      rw [dependentsOf, hget, Option.getD_some]
      exact filter_insert_self _
  | payload origin entities => rfl

theorem Tidy.enter (h : store.Tidy) (write : Write) : (store.enter write).2.Tidy := by
  cases write with
  | result key state entities => exact h.write key state entities
  | payload origin entities => exact h.reconcile origin entities

/-- A write reports the same before and after another one that has no entity in common with it. -/
theorem fst_enter_enter (htidy : store.Tidy) {first second : Write} (hfirst : first.HasData)
    (hsecond : second.HasData) (hsorted : Table.Sorted first.entities)
    (hsorted' : Table.Sorted second.entities)
    (hdisjoint : ∀ entity ∈ Table.keys second.entities, entity ∉ Table.keys first.entities) :
    ((store.enter first).2.enter second).1 = (store.enter second).1 := by
  rw [fst_enter hsecond hsorted', fst_enter hsecond hsorted']
  refine invalidation_congr ?_ fun entity hentity => ?_
  · refine changedEntities_congr htidy.unwritten (htidy.enter first).unwritten ?_
    exact fun entity hentity => snapshot?_enter_of_not_mem hfirst (hdisjoint entity hentity)
  · rw [dependentsOf_enter_of_not_mem hfirst hsorted (hdisjoint entity hentity)]

/-! ### What two writes leave behind -/

theorem absorbAll_comm {snapshots one other : Snapshots} (h : Table.Sorted snapshots)
    (hone : Table.Sorted one) (hother : Table.Sorted other)
    (hdisjoint : ∀ entity ∈ Table.keys one, entity ∉ Table.keys other) :
    absorbAll (absorbAll snapshots one) other = absorbAll (absorbAll snapshots other) one := by
  refine Table.eq_of_get?_eq (sorted_absorbAll (sorted_absorbAll h one) other)
    (sorted_absorbAll (sorted_absorbAll h other) one) fun entity => ?_
  have hnodup := Table.nodup_keys_of_sorted hone
  have hnodup' := Table.nodup_keys_of_sorted hother
  by_cases hentity : entity ∈ Table.keys one
  · obtain ⟨value, hvalue⟩ := Table.mem_keys_iff.1 hentity
    have hnone := Table.get?_eq_none_iff.2 (hdisjoint entity hentity)
    rw [get?_absorbAll_of_none _ hnone, get?_absorbAll_of_some _ hnodup hvalue,
      get?_absorbAll_of_some _ hnodup hvalue, get?_absorbAll_of_none _ hnone]
  · have hnone := Table.get?_eq_none_iff.2 hentity
    rw [get?_absorbAll_of_none _ hnone]
    cases hvalue : Table.get? other entity with
    | none =>
        rw [get?_absorbAll_of_none _ hvalue, get?_absorbAll_of_none _ hvalue,
          get?_absorbAll_of_none _ hnone]
    | some value =>
        rw [get?_absorbAll_of_some _ hnodup' hvalue, get?_absorbAll_of_some _ hnodup' hvalue,
          get?_absorbAll_of_none _ hnone]

/-- Every cell has an owner, or it was left behind by an eviction. -/
theorem Indexed.exists_owned (h : store.Indexed) {id : CellId}
    (hid : id.index < store.cells.length) : ∃ owner, store.Owned owner id := by
  by_cases hkey : ∃ key, store.cell? key = some id
  · obtain ⟨key, hkey⟩ := hkey
    exact ⟨_, h.owned hkey⟩
  · refine ⟨none, hid, fun key => ?_⟩
    exact ⟨fun hsome => absurd ⟨key, hsome⟩ hkey, fun heq => by cases heq⟩

section Results

variable {one other : QueryKey} {state state' : QueryState} {entities entities' : Snapshots}

theorem cellOf_write_comm (h : store.Indexed) (hne : one ≠ other) {id : CellId}
    (hid : id.index < store.cells.length) :
    ((store.write one state entities).2.write other state' entities').2.cellOf id =
      ((store.write other state' entities').2.write one state entities).2.cellOf id := by
  obtain ⟨owner, howned⟩ := h.exists_owned hid
  rw [(howned.write one state entities).cellOf_write, howned.cellOf_write,
    (howned.write other state' entities').cellOf_write, howned.cellOf_write]
  by_cases hone : owner = some one
  · simp [hone, hne]
  · simp [hone]

theorem state?_write_comm (h : store.Indexed) (hne : one ≠ other) (query : QueryKey) :
    ((store.write one state entities).2.write other state' entities').2.state? query =
      ((store.write other state' entities').2.write one state entities).2.state? query := by
  rw [state?_write (h.write one state entities), state?_write h,
    state?_write (h.write other state' entities'), state?_write h]
  by_cases hone : query = one
  · simp [hone, hne]
  · simp [hone]

theorem snapshots_write_comm (h : Table.Sorted store.snapshots) {data data' : Json}
    (hdata : state.data = some data) (hdata' : state'.data = some data')
    (hsorted : Table.Sorted entities) (hsorted' : Table.Sorted entities')
    (hdisjoint : ∀ entity ∈ Table.keys entities, entity ∉ Table.keys entities') :
    ((store.write one state entities).2.write other state' entities').2.snapshots =
      ((store.write other state' entities').2.write one state entities).2.snapshots := by
  simp only [snapshots_write hdata, snapshots_write hdata']
  exact absorbAll_comm h hsorted hsorted' hdisjoint

theorem dependents_write_comm (h : store.Tidy) {data data' : Json} (hdata : state.data = some data)
    (hdata' : state'.data = some data') (hsorted : Table.Sorted entities)
    (hsorted' : Table.Sorted entities')
    (hdisjoint : ∀ entity ∈ Table.keys entities, entity ∉ Table.keys entities') :
    ((store.write one state entities).2.write other state' entities').2.dependents =
      ((store.write other state' entities').2.write one state entities).2.dependents := by
  refine Table.eq_of_get?_eq ((h.write _ _ _).write _ _ _).sorted
    ((h.write _ _ _).write _ _ _).sorted fun entity => ?_
  simp only [get?_dependents_write hdata _ _ hsorted, get?_dependents_write hdata' _ _ hsorted',
    dependentsOf]
  by_cases hentity : entity ∈ Table.keys entities
  · simp [hentity, hdisjoint entity hentity]
  · simp [hentity]

end Results

end Store

namespace Cache

/-- Two steps come to the same in either order: each of them reports the same, and they lead to the
same states of all queries and of the cells that were there before, to the same snapshots and to the
same dependents. -/
structure Commute (one other : Cache → Invalidation × Cache) (cache : Cache) : Prop where
  reported : (one (other cache).2).1 = (one cache).1
  reported_other : (other (one cache).2).1 = (other cache).1
  states : ∀ query, (other (one cache).2).2.store.state? query =
    (one (other cache).2).2.store.state? query
  cells : ∀ id : CellId, id.index < cache.store.cells.length →
    (other (one cache).2).2.store.cellOf id = (one (other cache).2).2.store.cellOf id
  snapshots : (other (one cache).2).2.store.snapshots = (one (other cache).2).2.store.snapshots
  dependents : (other (one cache).2).2.store.dependents = (one (other cache).2).2.store.dependents

/-- After any calls, the results of two queries that have no entity in common can be written in
either order. -/
theorem write_comm (calls : List CacheCall) {one other : QueryKey} (hne : one ≠ other)
    {state state' : QueryState} (hstate : state.data.isSome = true)
    (hstate' : state'.data.isSome = true) {entities entities' : Snapshots}
    (hsorted : Table.Sorted entities) (hsorted' : Table.Sorted entities')
    (hdisjoint : ∀ entity ∈ Table.keys entities, entity ∉ Table.keys entities') :
    Commute (·.write one state entities) (·.write other state' entities') (after calls) := by
  have htidy : (after calls).store.Tidy := tidy_after calls
  have hindexed : (after calls).store.Indexed := indexed_after calls
  obtain ⟨data, hdata⟩ := Option.isSome_iff_exists.1 hstate
  obtain ⟨data', hdata'⟩ := Option.isSome_iff_exists.1 hstate'
  have hdisjoint' : ∀ entity ∈ Table.keys entities', entity ∉ Table.keys entities :=
    fun entity hentity' hentity => hdisjoint entity hentity hentity'
  have hfirst : (Write.result one state entities).HasData := hstate
  have hfirst' : (Write.result other state' entities').HasData := hstate'
  exact ⟨Store.fst_enter_enter htidy hfirst' hfirst hsorted' hsorted hdisjoint,
    Store.fst_enter_enter htidy hfirst hfirst' hsorted hsorted' hdisjoint',
    fun query => Store.state?_write_comm hindexed hne query,
    fun id hid => Store.cellOf_write_comm hindexed hne hid,
    Store.snapshots_write_comm (sorted_after calls) hdata hdata' hsorted hsorted' hdisjoint,
    Store.dependents_write_comm htidy hdata hdata' hsorted hsorted' hdisjoint⟩

/-- Two queries depend on two users. A third one finds another name for the first user, and a fourth
one for the second. -/
theorem write_comm_users :
    let user (id name : String) : Snapshots :=
      [(⟨"User-" ++ id⟩, .object [("__typename", .string "User"), ("id", .string id),
        ("name", .string name)])]
    let calls := [CacheCall.write ⟨"a"⟩ (.ready .null) (user "1" "Al"),
      .write ⟨"b"⟩ (.ready .null) (user "2" "Bo")]
    let first : Cache → Invalidation × Cache := (·.write ⟨"c"⟩ (.ready .null) (user "1" "Cy"))
    let second : Cache → Invalidation × Cache := (·.write ⟨"d"⟩ (.ready .null) (user "2" "Di"))
    (⟨"c"⟩ : QueryKey) ≠ ⟨"d"⟩ ∧ (QueryState.ready .null).data.isSome = true ∧
      Table.Sorted (user "1" "Cy") ∧ Table.Sorted (user "2" "Di") ∧
      (∀ entity ∈ Table.keys (user "1" "Cy"), entity ∉ Table.keys (user "2" "Di")) ∧
      (first (after calls)).1 = ⟨[⟨"User-1"⟩], [⟨"a"⟩]⟩ ∧
      (second (after calls)).1 = ⟨[⟨"User-2"⟩], [⟨"b"⟩]⟩ ∧
      Commute first second (after calls) := by
  intro user calls first second
  have hne : (⟨"c"⟩ : QueryKey) ≠ ⟨"d"⟩ := by decide
  have hsorted : ∀ id name, Table.Sorted (user id name) :=
    fun id name => List.pairwise_singleton _ _
  have hdisjoint : ∀ entity ∈ Table.keys (user "1" "Cy"), entity ∉ Table.keys (user "2" "Di") := by
    decide
  exact ⟨hne, rfl, hsorted _ _, hsorted _ _, hdisjoint, by decide +kernel, by decide +kernel,
    write_comm calls hne rfl rfl (hsorted _ _) (hsorted _ _) hdisjoint⟩

end Cache

end QueryCache
