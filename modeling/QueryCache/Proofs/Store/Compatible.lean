import QueryCache.Proofs.Store.Evict
import QueryCache.Proofs.Store.History

/-!
# Data that do not contradict each other

Two data are compatible when an entity that is in both has the same value in each field
that both have of it. A snapshot mixes the fields of many data, but every single one of
its fields stems from one of them (`Store.Stems`). A write that is compatible with all
data before it is therefore compatible with the snapshots too, and reports nothing
(`Store.Stems.invalidation_write`, `Store.Stems.invalidation_writeEntities`).
-/

namespace QueryCache

namespace Json

/-- Where both data have an entity, the later one has no other value for a field of it
that the earlier one has too. -/
def Compatible (identity : Identity) (earlier later : Json) : Prop :=
  ∀ entity old new, Table.get? (flatten earlier identity) entity = some old →
    Table.get? (flatten later identity) entity = some new → old.differs new = false

instance (identity : Identity) (earlier later : Json) :
    Decidable (Compatible identity earlier later) :=
  decidable_of_iff (∀ entity ∈ Table.keys (flatten earlier identity),
      ∀ old ∈ Table.get? (flatten earlier identity) entity,
        ∀ new ∈ Table.get? (flatten later identity) entity, old.differs new = false)
    ⟨fun h entity old new hold hnew =>
        h entity (Table.mem_keys_iff.2 ⟨old, hold⟩) old hold new hnew,
      fun h entity _ old hold new hnew => h entity old new hold hnew⟩

end Json

namespace Store

/-- Every field of a snapshot is a field that the entity has in some of the data. -/
def Stems (identity : Identity) (data : List Json) (store : Store) : Prop :=
  ∀ entity snapshot name x, store.snapshot? entity = some snapshot →
    snapshot.member? name = some x →
      ∃ datum ∈ data, ∃ value, Table.get? (flatten datum identity) entity = some value ∧
        value.member? name = some x

variable {store : Store} {identity : Identity} {data : List Json}

theorem invalidation_of_unchanged {entities : Snapshots} {origin : Option QueryKey}
    (h : store.changedEntities entities = []) : store.invalidation origin entities = .none := by
  simp [invalidation, h, Invalidation.none]

theorem stems_empty : empty.Stems identity [] := by
  intro entity snapshot name x hsnapshot
  simp [empty, snapshot?] at hsnapshot

namespace Stems

/-- More data may be at hand than the snapshots stem from. -/
theorem mono (h : store.Stems identity data) {more : List Json}
    (hmore : ∀ datum ∈ data, datum ∈ more) : store.Stems identity more := by
  intro entity snapshot name x hsnapshot hx
  obtain ⟨datum, hdatum, hvalue⟩ := h entity snapshot name x hsnapshot hx
  exact ⟨datum, hmore datum hdatum, hvalue⟩

/-- A store with fewer snapshots. -/
theorem of_snapshots (h : store.Stems identity data) {next : Store}
    (hnext : ∀ entity value, next.snapshot? entity = some value →
      store.snapshot? entity = some value) : next.Stems identity data := by
  intro entity snapshot name x hsnapshot hx
  exact h entity snapshot name x (hnext entity snapshot hsnapshot) hx

theorem evict (h : store.Stems identity data) (hsound : store.Sound) (key : QueryKey) :
    (store.evict key).2.Stems identity data :=
  h.of_snapshots fun _ _ hvalue => ((snapshot?_evict_eq_some_iff hsound.nodup).1 hvalue).1

/-! ### Writing -/

variable {datum : Json}

/-- A written snapshot has the fields of the datum, and keeps the others. -/
theorem enter (h : store.Stems identity data) (hsound : store.Sound) {write : Write}
    (hwrite : write.FromFlatten identity) (hentities : write.entities = flatten datum identity) :
    (store.enter write).2.Stems identity (data ++ [datum]) := by
  intro entity snapshot name x hsnapshot hx
  have hmember : ((store.enter write).2.snapshot? entity).bind (·.member? name) = some x := by
    rw [hsnapshot]
    exact hx
  rw [member?_enter hsound hwrite, Option.or_eq_some_iff] at hmember
  rcases hmember with hnew | ⟨-, hold⟩
  · rw [Write.field?, hentities] at hnew
    obtain ⟨value, hvalue, hfield⟩ := Option.bind_eq_some_iff.1 hnew
    exact ⟨datum, List.mem_append_right _ (List.mem_singleton_self _), value, hvalue, hfield⟩
  · obtain ⟨stored, hstored, hfield⟩ := Option.bind_eq_some_iff.1 hold
    obtain ⟨other, hother, hvalue⟩ := h entity stored name x hstored hfield
    exact ⟨other, List.mem_append_left _ hother, hvalue⟩

theorem writeEntities (h : store.Stems identity data) (hsound : store.Sound)
    (hdatum : datum.Ordered) (origin : Option QueryKey) :
    (store.writeEntities origin (flatten datum identity)).2.Stems identity
      (data ++ [datum]) := by
  have hwrite : (Write.payload origin (flatten datum identity)).FromFlatten identity :=
    ⟨⟨datum, hdatum, rfl⟩, trivial⟩
  exact h.enter hsound hwrite rfl

theorem write (h : store.Stems identity data) (hsound : store.Sound) (hdatum : datum.Ordered)
    (key : QueryKey) :
    (store.write key (.ready datum) (flatten datum identity)).2.Stems identity
      (data ++ [datum]) := by
  have hwrite : (Write.result key (.ready datum) (flatten datum identity)).FromFlatten
      identity := ⟨⟨datum, hdatum, rfl⟩, rfl⟩
  exact h.enter hsound hwrite rfl

/-- A state without data leaves the snapshots alone. -/
theorem write_of_none (h : store.Stems identity data) {state : QueryState}
    (hstate : state.data = none) (key : QueryKey) (entities : Snapshots) :
    (store.write key state entities).2.Stems identity data := by
  refine h.of_snapshots fun entity value hvalue => ?_
  rw [Store.write_of_none hstate, snapshot?, snapshots_writeState] at hvalue
  exact hvalue

/-! ### What a compatible datum reports -/

/-- No snapshot differs from a datum that is compatible with all data before it: the field
in which it would do so stems from one of them. -/
theorem changedEntities (h : store.Stems identity data) (hsound : store.Sound)
    (hdatum : datum.Ordered) (hcompatible : ∀ other ∈ data, other.Compatible identity datum) :
    store.changedEntities (flatten datum identity) = [] := by
  refine List.eq_nil_iff_forall_not_mem.2 fun entity hentity => ?_
  have hflat : (flatten datum identity).Flat := flat_flatten hdatum identity
  obtain ⟨-, new, old, hnew, hold, hdiffers⟩ := (mem_changedEntities_iff hflat.nodup).1 hentity
  obtain ⟨fields, rfl, -⟩ := hflat.get? hnew
  obtain ⟨stored, rfl, -⟩ := hsound.objects hold
  obtain ⟨name, y, x, hy, hx, hxy⟩ := Json.differs_object_iff.1 hdiffers
  obtain ⟨other, hother, value, hvalue, hmember⟩ := h entity _ name x hold hx
  obtain ⟨members, rfl, hget⟩ := Json.member?_eq_some_iff.1 hmember
  have hcontradicts : (Json.object members).differs (.object fields) = true :=
    Json.differs_object_iff.2 ⟨name, y, x, hy, hget, hxy⟩
  rw [hcompatible other hother entity _ _ hvalue hnew] at hcontradicts
  cases hcontradicts

theorem invalidation_writeEntities (h : store.Stems identity data) (hsound : store.Sound)
    (hdatum : datum.Ordered) (hcompatible : ∀ other ∈ data, other.Compatible identity datum)
    (origin : Option QueryKey) :
    (store.writeEntities origin (flatten datum identity)).1 = .none :=
  invalidation_of_unchanged (h.changedEntities hsound hdatum hcompatible)

theorem invalidation_write (h : store.Stems identity data) (hsound : store.Sound)
    (hdatum : datum.Ordered) (hcompatible : ∀ other ∈ data, other.Compatible identity datum)
    (key : QueryKey) :
    (store.write key (.ready datum) (flatten datum identity)).1 = .none := by
  have hunchanged : (store.addDependent key (Table.keys (flatten datum identity))).changedEntities
      (flatten datum identity) = [] := h.changedEntities hsound hdatum hcompatible
  rw [Store.write_of_some rfl]
  exact invalidation_of_unchanged hunchanged

end Stems

end Store

end QueryCache
