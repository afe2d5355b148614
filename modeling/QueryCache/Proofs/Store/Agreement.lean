import QueryCache.Proofs.Store.Evict

/-!
# Fresh results and snapshots

A fresh result agrees with the snapshots when every scalar field of every entity
in it stands in the snapshot of the entity. `Store.Agrees` says this of one query,
unless the query is on its way to be run again: a write either keeps the
agreement of a query or names it among the queries to run again
(`Store.Agrees.write_of_ne`).
-/

namespace QueryCache

namespace Json

/-- Every scalar field of the entity stands in the snapshot. -/
def Reflects (snapshot entity : Json) : Prop :=
  ∀ name x, entity.member? name = some x → x.isScalar = true →
    ∃ y, snapshot.member? name = some y ∧ x.same y = true

theorem reflects_settle (stored : Option Json) {new : Members}
    (hnew : Ordered (object new)) :
    Reflects (settle stored (object new)) (object new) := by
  intro name x hx _
  exact ⟨x, member?_settle_of_some stored hnew hx, same_refl x⟩

/-- A new snapshot that the stored one does not differ from changes no scalar field. -/
theorem Reflects.absorb {old new : Members} {entity : Json}
    (h : Reflects (object old) entity) (hnew : Ordered (object new))
    (hdiffers : (object old).differs (object new) = false) :
    Reflects ((object old).absorb (object new)) entity := by
  intro name x hx hscalar
  obtain ⟨y, hy, hsame⟩ := h name x hx hscalar
  cases hz : (object new).member? name with
  | none =>
      refine ⟨y, ?_, hsame⟩
      rw [member?_absorb_of_none hnew ⟨old, rfl⟩ hz]
      exact hy
  | some z =>
      refine ⟨z, member?_settle_of_some (some (object old)) hnew hz, ?_⟩
      have hyz : y.differs z = false := by
        by_contra hyz
        rw [differs_object_iff.2 ⟨name, z, y, Table.mem_of_get?_eq_some hz, hy,
          Bool.not_eq_false _ ▸ hyz⟩] at hdiffers
        simp at hdiffers
      rw [differs_eq_not_same_of_isScalar_left (isScalar_of_same hsame hscalar)] at hyz
      exact same_trans x y z hsame (by simpa using hyz)

end Json

namespace Store

/-- The fresh result of the query has these fields of the entity. -/
def Shows (store : Store) (identity : Identity) (key : QueryKey) (entity : EntityKey)
    (value : Json) : Prop :=
  ∃ state data, store.state? key = some state ∧ state.isFresh = true ∧
    state.data = some data ∧ Table.get? (flatten data identity) entity = some value

/-- The query depends on every entity in its fresh result. The snapshots of these
have its scalar fields, unless the query is pending. -/
def Agrees (store : Store) (identity : Identity) (pending : Prop) (key : QueryKey) : Prop :=
  ∀ entity value, store.Shows identity key entity value →
    key ∈ store.dependentsOf entity ∧
      ∃ snapshot, store.snapshot? entity = some snapshot ∧
        (pending ∨ snapshot.Reflects value)

variable {store : Store} {identity : Identity} {pending : Prop} {key other : QueryKey}

theorem Agrees.mono (h : store.Agrees identity pending key) {pending' : Prop}
    (himp : pending → pending') : store.Agrees identity pending' key := by
  intro entity value hshows
  obtain ⟨hquery, snapshot, hsnapshot, hreflects⟩ := h entity value hshows
  exact ⟨hquery, snapshot, hsnapshot, hreflects.imp_left himp⟩

/-- A query that is not fresh has nothing to agree with. -/
theorem agrees_of_not_fresh (h : ∀ state, store.state? key = some state →
    state.isFresh = false) : store.Agrees identity pending key := by
  intro entity value ⟨state, data, hstate, hfresh, _⟩
  rw [h state hstate] at hfresh
  simp at hfresh

/-- The query and the entities are as they were. -/
theorem Agrees.of_eq (h : store.Agrees identity pending key) {next : Store}
    (hstate : next.state? key = store.state? key)
    (hdependents : next.dependents = store.dependents)
    (hsnapshots : next.snapshots = store.snapshots) : next.Agrees identity pending key := by
  intro entity value hshows
  rw [dependentsOf, hdependents, snapshot?, hsnapshots]
  refine h entity value ?_
  rw [Shows, hstate] at hshows
  exact hshows

/-! ### Reconciling -/

variable {entities : Snapshots}

/-- A write of entities keeps what a snapshot reflects, or reports the entity as
changed. -/
theorem reflects_reconcile (hsound : store.Sound) (hflat : entities.Flat)
    (origin : Option QueryKey) {entity : EntityKey} {snapshot value : Json}
    (hsnapshot : store.snapshot? entity = some snapshot) (h : snapshot.Reflects value) :
    entity ∈ store.changedEntities entities ∨
      ∃ next, (store.reconcile origin entities).2.snapshot? entity = some next ∧
        next.Reflects value := by
  cases hentity : Table.get? entities entity with
  | none =>
      refine Or.inr ⟨snapshot, ?_, h⟩
      rw [snapshot?_reconcile_of_none hentity]
      exact hsnapshot
  | some new =>
      obtain ⟨members, rfl, hmembers⟩ := hflat.get? hentity
      obtain ⟨old, rfl, -⟩ := hsound.objects hsnapshot
      have hwrites := hsound.writes_ne_zero hsnapshot
      by_cases hdiffers : (Json.object old).differs (.object members) = true
      · left
        exact (mem_changedEntities_iff hflat.nodup).2
          ⟨hwrites, _, _, hentity, hsnapshot, hdiffers⟩
      · right
        refine ⟨_, snapshot?_reconcile_of_some hflat.nodup hentity, ?_⟩
        rw [hsnapshot]
        exact h.absorb hmembers (by simpa using hdiffers)

/-- A query goes on agreeing after a write of entities, unless it depends on one
that has changed. -/
theorem Agrees.of_reconcile (h : store.Agrees identity pending key) (hsound : store.Sound)
    (hflat : entities.Flat) (origin : Option QueryKey) {next : Store}
    (hstate : next.state? key = store.state? key)
    (hdependents : ∀ entity, key ∈ store.dependentsOf entity → key ∈ next.dependentsOf entity)
    (hsnapshots : ∀ entity, next.snapshot? entity =
      (store.reconcile origin entities).2.snapshot? entity) :
    next.Agrees identity (pending ∨ ∃ entity ∈ store.changedEntities entities,
      key ∈ store.dependentsOf entity) key := by
  intro entity value hshows
  rw [Shows, hstate] at hshows
  obtain ⟨hquery, snapshot, hsnapshot, hreflects⟩ := h entity value hshows
  refine ⟨hdependents entity hquery, ?_⟩
  rw [hsnapshots]
  rcases hreflects with hpending | hreflects
  · obtain ⟨next, hnext⟩ := covered_reconcile hflat origin ⟨snapshot, hsnapshot⟩
    exact ⟨next, hnext, Or.inl (Or.inl hpending)⟩
  · rcases reflects_reconcile hsound hflat origin hsnapshot hreflects with
      hchanged | ⟨next, hnext, hreflects⟩
    · obtain ⟨next, hnext⟩ := covered_reconcile hflat origin ⟨snapshot, hsnapshot⟩
      exact ⟨next, hnext, Or.inl (Or.inr ⟨entity, hchanged, hquery⟩)⟩
    · exact ⟨next, hnext, Or.inr hreflects⟩

theorem Agrees.writeEntities (h : store.Agrees identity pending key) (hsound : store.Sound)
    (hflat : entities.Flat) :
    (store.writeEntities none entities).2.Agrees identity
      (pending ∨ key ∈ (store.writeEntities none entities).1.queries) key := by
  have hnext : (store.writeEntities none entities).2.Agrees identity (pending ∨
      ∃ entity ∈ store.changedEntities entities, key ∈ store.dependentsOf entity) key :=
    h.of_reconcile hsound hflat none rfl (fun _ hquery => hquery) fun _ => rfl
  refine hnext.mono (Or.imp_right fun hchanged => ?_)
  exact mem_queries_invalidation_iff.2 ⟨by simp, hchanged⟩

theorem Agrees.write_of_ne (h : store.Agrees identity pending other) (hsound : store.Sound)
    (hflat : entities.Flat) (hne : other ≠ key) (state : QueryState) :
    (store.write key state entities).2.Agrees identity
      (pending ∨ other ∈ (store.write key state entities).1.queries) other := by
  have hstate : (store.write key state entities).2.state? other = store.state? other := by
    rw [state?_write hsound.indexed, if_neg hne]
  cases hdata : state.data with
  | none =>
      rw [write_of_none hdata] at hstate ⊢
      refine Agrees.mono (h.of_eq hstate ?_ ?_) Or.inl
      · exact dependents_writeState store key state
      · exact snapshots_writeState store key state
  | some data =>
      have hsnapshots : ∀ entity, (store.write key state entities).2.snapshot? entity =
          (store.reconcile (some key) entities).2.snapshot? entity := by
        intro entity
        rw [write_of_some hdata, snapshot?, snapshots_writeState]
        rfl
      have hnext := h.of_reconcile hsound hflat (some key) hstate
        (fun entity hquery => (mem_dependentsOf_write_iff hdata).2 (Or.inl hquery)) hsnapshots
      refine hnext.mono (Or.imp_right fun hchanged => ?_)
      exact (mem_queries_write_iff hdata).2 ⟨hne, hchanged⟩

/-- A query agrees with what it has just written. -/
theorem agrees_write_self (hsound : store.Sound) {data : Json} (hdata : data.Ordered) :
    (store.write key (.ready data) (flatten data identity)).2.Agrees identity False key := by
  intro entity value ⟨state, shown, hstate, _, hshown, hvalue⟩
  rw [state?_write hsound.indexed, if_pos rfl] at hstate
  cases hstate
  cases hshown
  have hflat : (flatten data identity).Flat := flat_flatten hdata identity
  obtain ⟨members, rfl, hmembers⟩ := hflat.get? hvalue
  refine ⟨?_, _, snapshot?_write_of_some rfl hflat.nodup hvalue, Or.inr ?_⟩
  · exact (mem_dependentsOf_write_iff rfl).2 (Or.inr ⟨rfl, Table.mem_keys_iff.2 ⟨_, hvalue⟩⟩)
  · exact Json.reflects_settle _ hmembers

theorem agrees_write_failed (hsound : store.Sound) (failure : Failure)
    (entities : Snapshots) :
    (store.write key (.failed failure) entities).2.Agrees identity False key := by
  refine agrees_of_not_fresh ?_
  intro state hstate
  rw [state?_write hsound.indexed, if_pos rfl] at hstate
  cases hstate
  rfl

/-! ### Evicting -/

theorem Agrees.evict (h : store.Agrees identity pending other) (hsound : store.Sound)
    (key : QueryKey) : (store.evict key).2.Agrees identity pending other := by
  intro entity value hshows
  rw [Shows, state?_evict] at hshows
  by_cases hne : other = key
  · rw [if_pos hne] at hshows
    obtain ⟨state, data, hstate, -⟩ := hshows
    simp at hstate
  · rw [if_neg hne] at hshows
    obtain ⟨hquery, snapshot, hsnapshot, hreflects⟩ := h entity value hshows
    refine ⟨(mem_dependentsOf_evict_iff hsound.nodup).2 ⟨hne, hquery⟩, snapshot, ?_, hreflects⟩
    exact snapshot?_evict_of_dependent hsound.nodup hne hquery hsnapshot

end Store

end QueryCache
