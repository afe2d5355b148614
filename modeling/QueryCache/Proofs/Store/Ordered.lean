import QueryCache.Proofs.Store.Handles
import QueryCache.Proofs.Store.Reports

/-!
# Stores in order

Whatever the calls before, the snapshots of a cache stand in the order of their keys
(`Cache.sorted_after`), no two queries have one cell (`Cache.indexed_after`), and if the values that
were written have their members in order, so do the snapshots (`Cache.ordered_after`). Tables in
order are equal if they have the same entries, so what a write leaves can be told entity by entity.
-/

namespace QueryCache

/-- A sorted table of values that have their members in order. -/
structure Snapshots.Ordered (entities : Snapshots) : Prop where
  sorted : Table.Sorted entities
  ordered : ∀ {entity value}, Table.get? entities entity = some value → value.Ordered

theorem Snapshots.ordered_nil : Ordered [] := ⟨Table.sorted_nil, fun h => by cases h⟩

theorem Snapshots.Flat.inOrder {entities : Snapshots} (h : entities.Flat) : entities.Ordered where
  sorted := h.sorted
  ordered hget := by
    obtain ⟨members, rfl, hmembers⟩ := h.get? hget
    exact hmembers

theorem Snapshots.Ordered.nodup {entities : Snapshots} (h : entities.Ordered) :
    (Table.keys entities).Nodup :=
  Table.nodup_keys_of_sorted h.sorted

/-- The state that a write stores has data, if it stores one. -/
def Write.HasData : Write → Prop
  | result _ state _ => state.data.isSome = true
  | payload _ _ => True

theorem Write.FromFlatten.hasData {identity : Identity} {write : Write}
    (h : write.FromFlatten identity) : write.HasData := by
  cases write with
  | result key state entities => exact h.2
  | payload origin entities => trivial

namespace CacheCall

theorem hasData_of_write? {call : CacheCall} {write : Write} (h : call.write? = some write) :
    write.HasData := by
  cases call with
  | write key state entities =>
      rw [write?] at h
      split at h
      · cases h
        exact ‹_›
      · cases h
  | writeEntities origin entities =>
      cases h
      trivial
  | _ => cases h

/-- What a call writes is in order. -/
def Ordered (call : CacheCall) : Prop :=
  ∀ write, call.write? = some write → write.entities.Ordered

theorem FromFlatten.inOrder {identity : Identity} {call : CacheCall}
    (h : call.FromFlatten identity) : call.Ordered :=
  fun write hwrite => (h write hwrite).flat.inOrder

end CacheCall

theorem Json.ordered_settle {stored : Option Json} {new : Json}
    (hstored : ∀ old, stored = some old → old.Ordered) (hnew : new.Ordered) :
    (settle stored new).Ordered := by
  cases stored with
  | none => exact hnew
  | some old =>
      rw [settle, absorb.eq_def]
      split
      · exact ordered_insertAll (hstored _ rfl) (ordered_object_iff.1 hnew).2
      · exact hnew

namespace Store

variable {store : Store} {snapshots entities : Snapshots} {write : Write}

theorem sorted_absorbAll (h : Table.Sorted snapshots) (entities : Snapshots) :
    Table.Sorted (absorbAll snapshots entities) := by
  induction entities generalizing snapshots with
  | nil => exact h
  | cons entry rest ih =>
      rw [absorbAll_cons]
      exact ih (Table.sorted_insert h _ _)

theorem ordered_absorbAll (h : snapshots.Ordered) (hentities : entities.Ordered) :
    (absorbAll snapshots entities).Ordered where
  sorted := sorted_absorbAll h.sorted entities
  ordered {entity value} hvalue := by
    cases hnew : Table.get? entities entity with
    | none =>
        rw [get?_absorbAll_of_none _ hnew] at hvalue
        exact h.ordered hvalue
    | some new =>
        rw [get?_absorbAll_of_some _ hentities.nodup hnew] at hvalue
        cases hvalue
        exact Json.ordered_settle (fun _ => h.ordered) (hentities.ordered hnew)

theorem snapshots_write {state : QueryState} {data : Json} (h : state.data = some data)
    (store : Store) (key : QueryKey) (entities : Snapshots) :
    (store.write key state entities).2.snapshots = absorbAll store.snapshots entities := by
  rw [write_of_some h]
  exact snapshots_writeState _ key state

theorem snapshots_enter (h : write.HasData) :
    (store.enter write).2.snapshots = absorbAll store.snapshots write.entities := by
  cases write with
  | result key state entities =>
      obtain ⟨data, hdata⟩ := Option.isSome_iff_exists.1 h
      exact snapshots_write hdata store key entities
  | payload origin entities => rfl

theorem ordered_evict (h : store.snapshots.Ordered) (key : QueryKey) :
    (store.evict key).2.snapshots.Ordered where
  sorted := List.Pairwise.filter _ h.sorted
  ordered {entity value} hvalue := by
    have hfilter := (Table.get?_filter_key store.snapshots
      (Table.contains (store.evict key).2.dependents) entity).symm.trans hvalue
    split at hfilter
    · exact h.ordered hfilter
    · cases hfilter

end Store

namespace Cache

variable {cache : Cache} {call : CacheCall} {calls : List CacheCall}

/-- Makes a write. -/
def enter (cache : Cache) : Write → Invalidation × Cache
  | .result key state entities => cache.write key state entities
  | .payload origin entities => cache.writeEntities origin entities

theorem fst_enter (cache : Cache) (write : Write) :
    (cache.enter write).1 = (cache.store.enter write).1 := by
  cases write <;> rfl

theorem store_enter (cache : Cache) (write : Write) :
    (cache.enter write).2.store = (cache.store.enter write).2 := by
  cases write <;> rfl

theorem sorted_call (h : Table.Sorted cache.store.snapshots) (call : CacheCall) :
    Table.Sorted (cache.call call).store.snapshots := by
  rcases call_cases cache call with
    ⟨write, hwrite, -, hstore⟩ | ⟨key, -, -, hstore⟩ | ⟨-, -, hsnapshots, -⟩
  · rw [hstore, Store.snapshots_enter (CacheCall.hasData_of_write? hwrite)]
    exact Store.sorted_absorbAll h _
  · rw [hstore]
    exact List.Pairwise.filter _ h
  · rwa [hsnapshots]

theorem ordered_call (h : cache.store.snapshots.Ordered) (hcall : call.Ordered) :
    (cache.call call).store.snapshots.Ordered := by
  rcases call_cases cache call with
    ⟨write, hwrite, -, hstore⟩ | ⟨key, -, -, hstore⟩ | ⟨-, -, hsnapshots, -⟩
  · rw [hstore, Store.snapshots_enter (CacheCall.hasData_of_write? hwrite)]
    exact Store.ordered_absorbAll h (hcall write hwrite)
  · rw [hstore]
    exact Store.ordered_evict h key
  · rwa [hsnapshots]

theorem indexed_call (h : cache.store.Indexed) (call : CacheCall) :
    (cache.call call).store.Indexed := by
  have hwatched : (⟨cache, [], []⟩ : WatchedCache).store.Indexed := h
  exact WatchedCache.indexed_step hwatched (.call call)

/-- What holds of the empty cache and is kept by each of some calls holds after them. -/
theorem after_induction {p : Cache → Prop} (hempty : p empty)
    (hcall : ∀ cache, ∀ call ∈ calls, p cache → p (cache.call call)) : p (after calls) := by
  induction calls using List.reverseRecOn with
  | nil => exact hempty
  | append_singleton calls last ih =>
      rw [after_append_singleton]
      refine hcall _ last (List.mem_append_right _ (List.mem_singleton_self last)) (ih ?_)
      exact fun cache call hmem => hcall cache call (List.mem_append_left _ hmem)

theorem sorted_after (calls : List CacheCall) : Table.Sorted (after calls).store.snapshots :=
  after_induction (p := fun cache => Table.Sorted cache.store.snapshots) Table.sorted_nil
    fun _ call _ h => sorted_call h call

theorem ordered_after (h : ∀ call ∈ calls, call.Ordered) :
    (after calls).store.snapshots.Ordered :=
  after_induction (p := fun cache => cache.store.snapshots.Ordered) Snapshots.ordered_nil
    fun _ call hmem hcache => ordered_call hcache (h call hmem)

theorem indexed_after (calls : List CacheCall) : (after calls).store.Indexed :=
  after_induction (p := fun cache => cache.store.Indexed) Store.indexed_empty
    fun _ call _ h => indexed_call h call

end Cache

end QueryCache
