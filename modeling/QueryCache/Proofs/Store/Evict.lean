import QueryCache.Proofs.Store.Sound

/-!
# Evicting a query

An eviction takes a query out of the index and out of every set of dependents,
and keeps the snapshots of just those entities that still have a dependent
(`Store.mem_dependentsOf_evict_iff`, `Store.snapshot?_evict_eq_some_iff`).
-/

namespace QueryCache

namespace Store

variable {store : Store}

theorem cell?_evict (store : Store) (key other : QueryKey) :
    (store.evict key).2.cell? other = if other = key then none else store.cell? other := by
  simp only [evict, cell?]
  split
  · subst other
    exact Table.get?_erase_self _ _
  · exact Table.get?_erase_of_ne _ ‹_›

theorem state?_evict (store : Store) (key other : QueryKey) :
    (store.evict key).2.state? other = if other = key then none else store.state? other := by
  simp only [state?, cell?_evict]
  split
  · rfl
  · rfl

theorem Indexed.evict (h : Indexed store) (key : QueryKey) :
    Indexed (store.evict key).2 := by
  constructor
  · intro other id hother
    rw [cell?_evict] at hother
    split at hother
    · simp at hother
    · exact h.valid hother
  · intro other other' id hother hother'
    rw [cell?_evict] at hother hother'
    split at hother
    · simp at hother
    · split at hother'
      · simp at hother'
      · exact h.distinct hother hother'

/-- The queries left in one set of dependents; an empty set is dropped. -/
theorem get?_dependents_evict (h : (Table.keys store.dependents).Nodup) (key : QueryKey)
    (entity : EntityKey) :
    Table.get? (store.evict key).2.dependents entity =
      ((Table.get? store.dependents entity).map fun queries =>
        queries.filter (· ≠ key)).filter fun queries => !queries.isEmpty := by
  have hkeys : (Table.keys (store.dependents.map fun entry =>
      (entry.1, entry.2.filter (· ≠ key)))).Nodup := by
    simpa [Table.keys, Function.comp_def] using h
  refine (Table.get?_filter hkeys _ entity).trans ?_
  rw [Table.get?_map]

theorem mem_dependentsOf_evict_iff (h : (Table.keys store.dependents).Nodup)
    {key query : QueryKey} {entity : EntityKey} :
    query ∈ (store.evict key).2.dependentsOf entity ↔
      query ≠ key ∧ query ∈ store.dependentsOf entity := by
  rw [dependentsOf, get?_dependents_evict h, dependentsOf]
  cases hqueries : Table.get? store.dependents entity with
  | none => simp
  | some queries =>
      have hmem : query ∈ queries.filter (· ≠ key) ↔ query ≠ key ∧ query ∈ queries := by
        simp [and_comm]
      rw [Option.map_some, Option.getD_some, ← hmem]
      cases hfilter : queries.filter (· ≠ key) with
      | nil => simp [Option.filter]
      | cons first rest => simp [Option.filter]

theorem contains_dependents_evict (h : (Table.keys store.dependents).Nodup)
    (key : QueryKey) (entity : EntityKey) :
    Table.contains (store.evict key).2.dependents entity = true ↔
      ∃ query, query ≠ key ∧ query ∈ store.dependentsOf entity := by
  rw [Table.contains_iff, get?_dependents_evict h, dependentsOf]
  cases Table.get? store.dependents entity with
  | none => simp
  | some queries =>
      simp only [Option.map_some, Option.getD_some, Option.filter_eq_some_iff,
        Option.some_inj, Bool.not_eq_true', List.isEmpty_eq_false_iff_exists_mem]
      constructor
      · rintro ⟨kept, rfl, query, hquery⟩
        exact ⟨query, by simpa [and_comm] using hquery⟩
      · rintro ⟨query, hquery⟩
        exact ⟨_, rfl, query, by simpa [and_comm] using hquery⟩

theorem snapshot?_evict_eq_some_iff (h : (Table.keys store.dependents).Nodup)
    {key : QueryKey} {entity : EntityKey} {value : Json} :
    (store.evict key).2.snapshot? entity = some value ↔
      store.snapshot? entity = some value ∧
        ∃ query, query ≠ key ∧ query ∈ store.dependentsOf entity := by
  have hfilter : (store.evict key).2.snapshot? entity =
      if Table.contains (store.evict key).2.dependents entity then
        store.snapshot? entity else none :=
    Table.get?_filter_key store.snapshots
      (Table.contains (store.evict key).2.dependents) entity
  rw [← contains_dependents_evict h, hfilter]
  split <;> simp_all

theorem snapshot?_evict_of_dependent (h : (Table.keys store.dependents).Nodup)
    {key query : QueryKey} {entity : EntityKey} (hne : query ≠ key)
    (hquery : query ∈ store.dependentsOf entity) {value : Json}
    (hvalue : store.snapshot? entity = some value) :
    (store.evict key).2.snapshot? entity = some value :=
  (snapshot?_evict_eq_some_iff h).2 ⟨hvalue, query, hne, hquery⟩

theorem Sound.evict (h : Sound store) (key : QueryKey) : Sound (store.evict key).2 where
  indexed := h.indexed.evict key
  sorted := by
    refine List.Pairwise.filter _ (List.pairwise_map.2 ?_)
    exact h.sorted
  cached hquery := by
    obtain ⟨hne, hquery⟩ := (mem_dependentsOf_evict_iff h.nodup).1 hquery
    rw [cell?_evict, if_neg hne]
    exact h.cached hquery
  covered hquery := by
    obtain ⟨hne, hquery⟩ := (mem_dependentsOf_evict_iff h.nodup).1 hquery
    obtain ⟨value, hvalue⟩ := h.covered hquery
    exact ⟨value, snapshot?_evict_of_dependent h.nodup hne hquery hvalue⟩
  objects hvalue := by
    exact h.objects ((snapshot?_evict_eq_some_iff h.nodup).1 hvalue).1
  unwritten hzero := by
    change store.snapshots.filter _ = []
    rw [h.unwritten hzero]
    rfl

end Store

end QueryCache
