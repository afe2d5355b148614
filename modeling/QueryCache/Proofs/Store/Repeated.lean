import QueryCache.Proofs.Client.Execution
import QueryCache.Proofs.Store.Ordered

/-!
# Writing entities again

After a write of some entities every one of them has a snapshot that does not differ from what was
written, and that stays as it is when it absorbs this once more (`Store.Keeps`). This needs nothing
of the snapshot from before: an object takes over the members of the new one, and any other value is
replaced. Calls that neither evict a query nor write other entities keep it so, and another write of
the same entities is invisible (`Cache.enter_again`).
-/

namespace QueryCache

namespace Table

variable {κ α : Type} [DecidableEq κ] [LT κ] [DecidableLT κ] [Std.Asymm (α := κ) (· < ·)]
  [Trans (α := κ) (· < ·) (· < ·) (· < ·)] [Std.Trichotomous (α := κ) (· < ·)]

/-- Entries that stand in a table need not be put in. -/
theorem insertAll_eq_self {t new : Table κ α} (ht : Sorted t) (hnew : Sorted new)
    (h : ∀ k x, get? new k = some x → get? t k = some x) : insertAll t new = t := by
  refine eq_of_get?_eq (sorted_insertAll ht new) ht fun k => ?_
  rw [get?_insertAll t (nodup_keys_of_sorted hnew)]
  cases hk : get? new k with
  | none => rfl
  | some x => exact (h k x hk).symm

/-- Entries that have just been put in stand there. -/
theorem insertAll_insertAll_self {t new : Table κ α} (ht : Sorted t) (hnew : Sorted new) :
    insertAll (insertAll t new) new = insertAll t new := by
  refine insertAll_eq_self (sorted_insertAll ht new) hnew fun k x hk => ?_
  rw [get?_insertAll t (nodup_keys_of_sorted hnew), hk]
  rfl

end Table

namespace Json

variable {stored : Option Json} {new : Json}

theorem absorb_self (hnew : new.Ordered) : new.absorb new = new := by
  cases new with
  | object members =>
      have hsorted := (ordered_object_iff.1 hnew).1
      exact congrArg object (Table.insertAll_eq_self hsorted hsorted fun _ _ => id)
  | _ => rfl

/-- A value does not differ from what it has absorbed. -/
theorem differs_absorb (old : Json) (hnew : new.Ordered) :
    (old.absorb new).differs new = false := by
  have hself : new.differs new = false := differs_eq_false_of_same hnew (same_refl new)
  cases old with
  | object members =>
      cases new with
      | object fields =>
          refine Bool.eq_false_iff.2 fun hdiffers => ?_
          obtain ⟨name, value, found, hvalue, hfound, hold⟩ := differs_object_iff.1 hdiffers
          -- what stands under the name now is the value that came with it
          have hget := Table.get?_eq_some_of_mem (nodup_keys_of_ordered hnew) hvalue
          rw [Table.get?_insertAll members (nodup_keys_of_ordered hnew), hget] at hfound
          cases hfound
          have hsame := differs_eq_false_of_same (ordered_of_get? hnew hget) (same_refl value)
          cases hsame.symm.trans hold
      | _ => exact hself
  | _ => exact hself

theorem differs_settle (stored : Option Json) (hnew : new.Ordered) :
    (settle stored new).differs new = false := by
  cases stored with
  | none => exact differs_eq_false_of_same hnew (same_refl new)
  | some old => exact differs_absorb old hnew

/-- A value absorbs another one only once. -/
theorem absorb_absorb {old : Json} (hold : old.Ordered) (hnew : new.Ordered) :
    (old.absorb new).absorb new = old.absorb new := by
  cases old with
  | object members =>
      cases new with
      | object fields =>
          exact congrArg object (Table.insertAll_insertAll_self (ordered_object_iff.1 hold).1
            (ordered_object_iff.1 hnew).1)
      | _ => rfl
  | _ => exact absorb_self hnew

theorem absorb_settle (hstored : ∀ old, stored = some old → old.Ordered) (hnew : new.Ordered) :
    (settle stored new).absorb new = settle stored new := by
  cases stored with
  | none => exact absorb_self hnew
  | some old => exact absorb_absorb (hstored old rfl) hnew

end Json

namespace Store

/-- The snapshots have all that these entities have, and would not change if they were written. -/
def Keeps (entities : Snapshots) (store : Store) : Prop :=
  ∀ entity new, Table.get? entities entity = some new → ∃ stored,
    store.snapshot? entity = some stored ∧ stored.differs new = false ∧ stored.absorb new = stored

variable {store : Store} {entities : Snapshots} {write : Write}

theorem keeps_enter (hstore : store.snapshots.Ordered) (hdata : write.HasData)
    (hwrite : write.entities.Ordered) : (store.enter write).2.Keeps write.entities := by
  intro entity new hnew
  refine ⟨Json.settle (store.snapshot? entity) new, ?_, ?_, ?_⟩
  · rw [snapshot?, snapshots_enter hdata]
    exact get?_absorbAll_of_some store.snapshots hwrite.nodup hnew
  · exact Json.differs_settle _ (hwrite.ordered hnew)
  · exact Json.absorb_settle (fun _ => hstore.ordered) (hwrite.ordered hnew)

theorem Keeps.changedEntities (h : store.Keeps entities) (hentities : entities.Ordered) :
    store.changedEntities entities = [] := by
  refine List.eq_nil_iff_forall_not_mem.2 fun entity hentity => ?_
  obtain ⟨-, new, old, hnew, hold, hdiffers⟩ :=
    (mem_changedEntities_iff hentities.nodup).1 hentity
  obtain ⟨stored, hstored, hsame, -⟩ := h entity new hnew
  cases hold.symm.trans hstored
  cases hsame.symm.trans hdiffers

theorem Keeps.absorbAll (h : store.Keeps entities) (hstore : Table.Sorted store.snapshots)
    (hentities : entities.Ordered) : absorbAll store.snapshots entities = store.snapshots := by
  refine Table.eq_of_get?_eq (sorted_absorbAll hstore entities) hstore fun entity => ?_
  cases hnew : Table.get? entities entity with
  | none => exact get?_absorbAll_of_none _ hnew
  | some new =>
      obtain ⟨stored, hstored, -, habsorb⟩ := h entity new hnew
      rw [snapshot?] at hstored
      rw [get?_absorbAll_of_some _ hentities.nodup hnew, hstored]
      exact congrArg some habsorb

theorem fst_enter_of_unchanged (hdata : write.HasData)
    (h : store.changedEntities write.entities = []) : (store.enter write).1 = .none := by
  cases write with
  | result key state entities =>
      obtain ⟨data, hstate⟩ := Option.isSome_iff_exists.1 hdata
      rw [enter, write_of_some hstate]
      exact invalidation_of_unchanged h
  | payload origin entities => exact invalidation_of_unchanged h

end Store

/-- What observers are told of the query of a write. -/
def Write.written : Write → List Event
  | result key _ _ => [.queryWritten key]
  | payload _ _ => []

/-- The call evicts no query, and writes these entities or none. -/
def CacheCall.WritesOnly (entities : Snapshots) (call : CacheCall) : Prop :=
  call.evicted? = none ∧ ∀ write, call.write? = some write → write.entities = entities

namespace Cache

variable {cache : Cache} {call : CacheCall} {calls between : List CacheCall} {entities : Snapshots}
  {write : Write}

/-- Of a write that changes nothing, observers see that its query has a result. -/
theorem events_enter_of_none (hdata : write.HasData) (h : (cache.enter write).1 = .none) :
    (cache.enter write).2.events = cache.events ++ write.written := by
  cases write with
  | result key state entities =>
      have hjournal : (cache.enter (.result key state entities)).2.journal =
          cache.journal ++ [.wrote key state entities.length .none] :=
        congrArg (cache.journal ++ [.wrote key state entities.length ·]) h
      have hstate : state.data.isSome = true := hdata
      rw [events_append hjournal, List.flatMap_singleton, Entry.events, if_pos hstate]
      rfl
  | payload origin entities =>
      have hjournal : (cache.enter (.payload origin entities)).2.journal =
          cache.journal ++ [.wroteEntities origin entities.length .none] :=
        congrArg (cache.journal ++ [.wroteEntities origin entities.length ·]) h
      rw [events_append hjournal, List.flatMap_singleton]
      rfl

theorem keeps_call (h : cache.store.Keeps entities) (hcache : cache.store.snapshots.Ordered)
    (hentities : entities.Ordered) (hcall : call.WritesOnly entities) :
    (cache.call call).store.Keeps entities := by
  rcases call_cases cache call with
    ⟨write, hwrite, -, hstore⟩ | ⟨key, -, hevicted, -⟩ | ⟨-, -, hsnapshots, -⟩
  · obtain rfl := hcall.2 write hwrite
    rw [hstore]
    exact Store.keeps_enter hcache (CacheCall.hasData_of_write? hwrite) hentities
  · cases hcall.1.symm.trans hevicted
  · intro entity new hnew
    rw [Store.snapshot?, hsnapshots]
    exact h entity new hnew

theorem keeps_calls (h : cache.store.Keeps entities) (hcache : cache.store.snapshots.Ordered)
    (hentities : entities.Ordered) (hcalls : ∀ call ∈ calls, call.WritesOnly entities) :
    (calls.foldl Cache.call cache).store.Keeps entities ∧
      (calls.foldl Cache.call cache).store.snapshots.Ordered := by
  induction calls generalizing cache with
  | nil => exact ⟨h, hcache⟩
  | cons first rest ih =>
      obtain ⟨hfirst, hrest⟩ := List.forall_mem_cons.1 hcalls
      refine ih (keeps_call h hcache hentities hfirst) (ordered_call hcache ?_) hrest
      exact fun write hwrite => hfirst.2 write hwrite ▸ hentities

/-- A write changes no entity: it reports nothing, tells observers of no changed entity and of no
query that has to run again, and leaves all snapshots as they are. -/
structure Ignores (cache : Cache) (write : Write) : Prop where
  unreported : (cache.enter write).1 = .none
  isEmpty : (cache.enter write).1.isEmpty = true
  untold : ∃ told, (cache.enter write).2.events = cache.events ++ told ∧
    (∀ entity, .entityChanged entity ∉ told) ∧
    ∀ query cause, .queryInvalidated query cause ∉ told
  snapshots : (cache.enter write).2.store.snapshots = cache.store.snapshots

/-- After any calls, some entities are written, be it as the result of a query or by themselves.
As long as no query is evicted and nothing else is written, another write of the same entities, for
whomever, reports nothing, tells observers of no changed entity and of no query that has to run
again, and leaves all snapshots as they are. -/
theorem enter_again (hcalls : ∀ call ∈ calls, call.Ordered) {first again : Write}
    (hfirst : first.HasData) (hagain : again.HasData) (hordered : first.entities.Ordered)
    (hentities : again.entities = first.entities)
    (hbetween : ∀ call ∈ between, call.WritesOnly first.entities) :
    (between.foldl Cache.call ((after calls).enter first).2).Ignores again := by
  have hbefore : (after calls).store.snapshots.Ordered := ordered_after hcalls
  have hkeeps : ((after calls).enter first).2.store.Keeps first.entities := by
    rw [store_enter]
    exact Store.keeps_enter hbefore hfirst hordered
  have hsnapshots : ((after calls).enter first).2.store.snapshots.Ordered := by
    rw [store_enter, Store.snapshots_enter hfirst]
    exact Store.ordered_absorbAll hbefore hordered
  obtain ⟨hkeeps, hsnapshots⟩ := keeps_calls hkeeps hsnapshots hordered hbetween
  generalize between.foldl Cache.call ((after calls).enter first).2 = cache at hkeeps hsnapshots ⊢
  have hnone : (cache.enter again).1 = .none := by
    rw [fst_enter]
    refine Store.fst_enter_of_unchanged hagain ?_
    rw [hentities]
    exact hkeeps.changedEntities hordered
  refine ⟨hnone, hnone ▸ rfl, ⟨_, events_enter_of_none hagain hnone, ?_⟩, ?_⟩
  · cases again <;> simp [Write.written]
  · rw [store_enter, Store.snapshots_enter hagain, hentities]
    exact hkeeps.absorbAll hsnapshots.sorted hordered

/-- A second query finds another name for a user, which the first one is told of. Then somebody asks
for the cell of a third query, and the user is written again for the first one. -/
theorem enter_again_user :
    let calls := [CacheCall.ofUser "a" [("name", "Al")]]
    let first := Write.ofUser "b" [("name", "Bo")]
    let between := [CacheCall.cell ⟨"c"⟩]
    let again := Write.payload (some ⟨"a"⟩) first.entities
    (∀ call ∈ calls, call.Ordered) ∧ first.HasData ∧ again.HasData ∧ first.entities.Ordered ∧
      again.entities = first.entities ∧ (∀ call ∈ between, call.WritesOnly first.entities) ∧
      ((after calls).enter first).1 = ⟨[⟨"User-1"⟩], [⟨"a"⟩]⟩ ∧
      (between.foldl Cache.call ((after calls).enter first).2).Ignores again := by
  intro calls first between again
  have hfirst : first.FromFlatten ⟨"__typename", "id"⟩ := Write.fromFlatten_ofUser _ _
  have hcalls : ∀ call ∈ calls, call.Ordered :=
    List.forall_mem_singleton.2 (CacheCall.fromFlatten_ofUser _ _).inOrder
  have hbetween : ∀ call ∈ between, call.WritesOnly first.entities :=
    List.forall_mem_singleton.2 ⟨rfl, fun write hwrite => by cases hwrite⟩
  exact ⟨hcalls, hfirst.hasData, trivial, hfirst.flat.inOrder, rfl, hbetween, by decide +kernel,
    enter_again hcalls hfirst.hasData trivial hfirst.flat.inOrder rfl hbetween⟩

end Cache

end QueryCache
