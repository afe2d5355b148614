import QueryCache.Proofs.Store.Evict

/-!
# Stores at rest

A state is settled when a result is there, or a failure of the transport or of a resolver
that was recorded instead. `Store.Rests busy` says that every query has one cell at most
and that the states of all queries but `busy` are settled. A write settles the query that
it is for (`Store.Rests.write`), and while a store rests no query is loading
(`Store.Rests.loadingKeys_eq_nil`).
-/

namespace QueryCache

namespace QueryState

/-- A result is there, or a failure that is recorded with its query. -/
def IsSettled (state : QueryState) : Prop :=
  (∃ data, state = .ready data) ∨
    ∃ failure, failure.isRecordable = true ∧ state = .failed failure

theorem isSettled_ready (data : Json) : (ready data).IsSettled := Or.inl ⟨data, rfl⟩

theorem isSettled_failed {failure : Failure} (h : failure.isRecordable = true) :
    (failed failure).IsSettled :=
  Or.inr ⟨failure, h, rfl⟩

theorem IsSettled.loading {state : QueryState} (h : state.IsSettled) :
    state.loading = false := by
  rcases h with ⟨data, rfl⟩ | ⟨failure, -, rfl⟩
  · rfl
  · rfl

end QueryState

namespace Store

/-- Every query is listed once, and the states of all queries but one are settled. -/
structure Rests (store : Store) (busy : Option QueryKey) : Prop where
  sorted : Table.Sorted store.index
  settled : ∀ {key state}, some key ≠ busy → store.state? key = some state → state.IsSettled

theorem rests_empty : Rests empty none where
  sorted := Table.sorted_nil
  settled _ h := by simp [empty, state?, cell?] at h

variable {store : Store}

theorem Rests.nodup {busy : Option QueryKey} (h : store.Rests busy) :
    store.queryKeys.Nodup :=
  Table.nodup_keys_of_sorted h.sorted

theorem mem_queryKeys_iff {key : QueryKey} :
    key ∈ store.queryKeys ↔ ∃ id, store.cell? key = some id :=
  Table.mem_keys_iff

/-! ### The index -/

theorem sorted_index_cell (h : Table.Sorted store.index) (key : QueryKey) :
    Table.Sorted (store.cell key).2.index := by
  cases hkey : store.cell? key with
  | some id => rwa [cell_of_some hkey]
  | none =>
      rw [cell_of_none hkey]
      exact Table.sorted_insert h key _

theorem index_write (store : Store) (key : QueryKey) (state : QueryState)
    (entities : Snapshots) :
    (store.write key state entities).2.index = (store.cell key).2.index := by
  cases hdata : state.data with
  | none =>
      rw [write_of_none hdata]
      rfl
  | some data =>
      rw [write_of_some hdata]
      simp only [writeState, writeCell, updateCell, cell, cell?, reconcile, addDependent]
      split <;> rfl

/-! ### What keeps a store at rest -/

/-- The query that a write is for is settled by it. -/
theorem Rests.write {key : QueryKey} (h : store.Rests (some key)) (hindexed : store.Indexed)
    {state : QueryState} (hstate : state.IsSettled) (entities : Snapshots) :
    (store.write key state entities).2.Rests none := by
  constructor
  · rw [index_write]
    exact sorted_index_cell h.sorted key
  · intro other found _ hfound
    rw [state?_write hindexed] at hfound
    split at hfound
    · cases hfound
      exact hstate
    · have hne : some other ≠ some key := by
        simpa using ‹¬ other = key›
      exact h.settled hne hfound

theorem Rests.busy (h : store.Rests none) (key : QueryKey) : store.Rests (some key) :=
  ⟨h.sorted, fun _ hstate => h.settled (by simp) hstate⟩

theorem Rests.writeEntities (h : store.Rests none) (origin : Option QueryKey)
    (entities : Snapshots) : (store.writeEntities origin entities).2.Rests none :=
  ⟨h.sorted, h.settled⟩

theorem Rests.evict (h : store.Rests none) (key : QueryKey) :
    (store.evict key).2.Rests none := by
  constructor
  · exact Table.sorted_erase h.sorted key
  · intro other state hne hstate
    rw [state?_evict] at hstate
    split at hstate
    · simp at hstate
    · exact h.settled hne hstate

/-! ### Loading queries -/

theorem mem_loadingKeys_iff {key : QueryKey} :
    key ∈ store.loadingKeys ↔
      ∃ state, store.state? key = some state ∧ state.loading = true := by
  rw [loadingKeys, List.mem_filter, mem_queryKeys_iff, ← state?_isSome_iff]
  constructor
  · rintro ⟨⟨state, hstate⟩, hloading⟩
    rw [hstate] at hloading
    exact ⟨state, hstate, hloading⟩
  · rintro ⟨state, hstate, hloading⟩
    rw [hstate]
    exact ⟨⟨state, rfl⟩, hloading⟩

theorem Rests.loadingKeys_eq_nil (h : store.Rests none) : store.loadingKeys = [] := by
  refine List.eq_nil_iff_forall_not_mem.2 fun key hkey => ?_
  obtain ⟨state, hstate, hloading⟩ := mem_loadingKeys_iff.1 hkey
  rw [(h.settled (by simp) hstate).loading] at hloading
  cases hloading

/-- A query that is loading while the others are settled is the only one. -/
theorem Rests.loadingKeys_eq_singleton {key : QueryKey} (h : store.Rests (some key))
    {state : QueryState} (hstate : store.state? key = some state)
    (hloading : state.loading = true) : store.loadingKeys = [key] := by
  have hnodup : store.loadingKeys.Nodup := h.nodup.filter _
  refine List.perm_singleton.1 ((List.perm_ext_iff_of_nodup hnodup (by simp)).2 ?_)
  intro other
  rw [mem_loadingKeys_iff, List.mem_singleton]
  constructor
  · rintro ⟨found, hfound, hother⟩
    by_contra hne
    have hsettled := h.settled (by simpa using hne) hfound
    rw [hsettled.loading] at hother
    cases hother
  · rintro rfl
    exact ⟨state, hstate, hloading⟩

end Store

end QueryCache
