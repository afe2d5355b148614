import QueryCache.Proofs.Client.Sound

/-!
# A world that stands still

While the server and the resolvers are one fixed function of what they are asked,
every query has one result, `Backend.Gives`. If these results agree with each other
then an execution keeps what the snapshots have of the results of earlier ones
(`Session.Executed.isShown`), so whatever a later execution changes is a field that
none of the earlier results has.
-/

namespace QueryCache

namespace Backend

variable {σ : Type}

/-- In the worlds that stand, the backend answers like one without a state: every
answer is a fixed function of what is asked, and the world goes on standing. -/
structure IsStill (backend : Backend σ) (stands : σ → Prop) (still : Backend Unit) :
    Prop where
  fetch : ∀ request world, stands world →
    (backend.fetch request world).1 = (still.fetch request ()).1 ∧
      stands (backend.fetch request world).2
  resolve : ∀ tree answer vars world, stands world →
    (backend.resolve tree answer vars world).1 = (still.resolve tree answer vars ()).1 ∧
      stands (backend.resolve tree answer vars world).2

variable {backend : Backend σ} {stands : σ → Prop} {still : Backend Unit}

theorem IsStill.answer (h : backend.IsStill stands still) (prepared : Prepared) {world : σ}
    (hworld : stands world) :
    (backend.answer prepared world).1 = (still.answer prepared ()).1 ∧
      stands (backend.answer prepared world).2 := by
  obtain ⟨hfetch, hstands⟩ := h.fetch prepared.request world hworld
  rw [Backend.answer, Backend.answer]
  split
  · generalize backend.fetch prepared.request world = out at hfetch hstands ⊢
    generalize still.fetch prepared.request () = out' at hfetch ⊢
    obtain ⟨outcome, next⟩ := out
    obtain ⟨outcome', next'⟩ := out'
    subst hfetch
    cases outcome <;> exact ⟨rfl, hstands⟩
  · exact ⟨rfl, hworld⟩

/-- A prepared query comes to the same in every world that stands. -/
theorem IsStill.result (h : backend.IsStill stands still) (prepared : Prepared) {world : σ}
    (hworld : stands world) :
    (backend.result prepared world).1 = (still.result prepared ()).1 ∧
      stands (backend.result prepared world).2 := by
  obtain ⟨hanswer, hstands⟩ := h.answer prepared hworld
  rw [Backend.result, Backend.result]
  generalize backend.answer prepared world = out at hanswer hstands ⊢
  generalize still.answer prepared () = out' at hanswer ⊢
  obtain ⟨outcome, next⟩ := out
  obtain ⟨outcome', next'⟩ := out'
  subst hanswer
  cases outcome with
  | error failure => exact ⟨rfl, hstands⟩
  | ok answer =>
      dsimp only
      split
      · obtain ⟨hresolve, hresolved⟩ := h.resolve prepared.split.pathTree answer
          prepared.request.vars next hstands
        generalize backend.resolve prepared.split.pathTree answer prepared.request.vars next =
          out at hresolve hresolved ⊢
        generalize still.resolve prepared.split.pathTree answer prepared.request.vars () =
          out' at hresolve ⊢
        obtain ⟨resolved, last⟩ := out
        obtain ⟨resolved', last'⟩ := out'
        subst hresolve
        cases resolved <;> exact ⟨rfl, hresolved⟩
      · exact ⟨rfl, hstands⟩

/-- The result of a prepared query has these fields of the entity. -/
def Gives (still : Backend Unit) (identity : Identity) (prepared : Prepared)
    (entity : EntityKey) (value : Json) : Prop :=
  ∃ data, (still.result prepared ()).1 = .ok data ∧
    Table.get? (flatten data identity) entity = some value

/-- Results that hold one entity agree on the fields that they share. -/
def Concordant (still : Backend Unit) (identity : Identity)
    (registry : Table QueryKey Prepared) : Prop :=
  ∀ {key other prepared prepared'}, Table.get? registry key = some prepared →
    Table.get? registry other = some prepared' →
      ∀ {entity value value'}, still.Gives identity prepared entity value →
        still.Gives identity prepared' entity value' →
          ∀ {field x y}, value.member? field = some x → value'.member? field = some y →
            x.same y = true

end Backend

namespace Json

/-- The values have the same in every field that both of them have. -/
def concords : Json → Json → Bool
  | object members, value =>
    members.all fun member => (value.member? member.1).all fun x => member.2.same x
  | _, _ => true

theorem same_of_concords {value value' : Json} (h : value.concords value' = true)
    {field : String} {x y : Json} (hx : value.member? field = some x)
    (hy : value'.member? field = some y) : x.same y = true := by
  cases value with
  | object members =>
      have hmember := List.all_eq_true.1 h _ (Table.mem_of_get?_eq_some hx)
      rw [hy] at hmember
      exact hmember
  | _ => simp [member?] at hx

/-- Every field of the entity stands in the snapshot. -/
def Contains (snapshot entity : Json) : Prop :=
  ∀ field x, entity.member? field = some x →
    ∃ y, snapshot.member? field = some y ∧ x.same y = true

theorem contains_settle (stored : Option Json) {new : Members}
    (hnew : Ordered (object new)) : Contains (settle stored (object new)) (object new) := by
  intro field x hx
  exact ⟨x, member?_settle_of_some stored hnew hx, same_refl x⟩

/-- A new snapshot that agrees with the entity leaves its fields in place. -/
theorem Contains.absorb {old new : Members} {entity : Json}
    (h : Contains (object old) entity) (hnew : Ordered (object new))
    (hagree : ∀ field x z, entity.member? field = some x →
      (object new).member? field = some z → x.same z = true) :
    Contains ((object old).absorb (object new)) entity := by
  intro field x hx
  cases hz : (object new).member? field with
  | none =>
      rw [member?_absorb_of_none hnew ⟨old, rfl⟩ hz]
      exact h field x hx
  | some z =>
      exact ⟨z, member?_settle_of_some (some (object old)) hnew hz, hagree field x z hx hz⟩

end Json

namespace Store

variable {store : Store}

/-- The stored field of the entity is not what the value has there. -/
def IsStale (store : Store) (entity : EntityKey) (value : Json) (field : String) : Prop :=
  ∃ snapshot x y, store.snapshot? entity = some snapshot ∧ value.member? field = some x ∧
    snapshot.member? field = some y ∧ y.differs x = true

/-- An entity has changed exactly if a field of it is stale. -/
theorem mem_changedEntities_iff_isStale (hsound : store.Sound) {entities : Snapshots}
    (hflat : entities.Flat) {entity : EntityKey} :
    entity ∈ store.changedEntities entities ↔
      ∃ value field, Table.get? entities entity = some value ∧
        store.IsStale entity value field := by
  rw [mem_changedEntities_iff hflat.nodup]
  constructor
  · rintro ⟨-, new, old, hnew, hold, hdiffers⟩
    obtain ⟨members, rfl, hmembers⟩ := hflat.get? hnew
    obtain ⟨stored, rfl, -⟩ := hsound.objects hold
    obtain ⟨field, x, y, hmem, hy, hdiffers⟩ := Json.differs_object_iff.1 hdiffers
    have hx := Table.get?_eq_some_of_mem (Json.nodup_keys_of_ordered hmembers) hmem
    exact ⟨_, field, hnew, _, x, y, hold, hx, hy, hdiffers⟩
  · rintro ⟨value, field, hvalue, snapshot, x, y, hsnapshot, hx, hy, hdiffers⟩
    obtain ⟨members, rfl, -⟩ := hflat.get? hvalue
    obtain ⟨stored, rfl, -⟩ := hsound.objects hsnapshot
    refine ⟨hsound.writes_ne_zero hsnapshot, _, _, hvalue, hsnapshot, ?_⟩
    exact Json.differs_object_iff.2 ⟨field, x, y, Table.mem_of_get?_eq_some hx, hy, hdiffers⟩

end Store

/-! ### Results -/

variable {still : Backend Unit} {prepared : Prepared}

theorem Backend.gives_iff {identity : Identity} {entity : EntityKey} {value : Json} :
    still.Gives identity prepared entity value ↔
      Table.get? (Snapshots.ofOutcome identity (still.result prepared ()).1) entity =
        some value := by
  rw [Gives]
  cases (still.result prepared ()).1 with
  | ok data => simp [Snapshots.ofOutcome]
  | error failure => simp [Snapshots.ofOutcome]

/-- Whether the results of all registered queries agree with each other. -/
def Backend.isConcordant (still : Backend Unit) (identity : Identity)
    (registry : Table QueryKey Prepared) : Bool :=
  let entities (prepared : Prepared) :=
    Snapshots.ofOutcome identity (still.result prepared ()).1
  registry.all fun one => registry.all fun other =>
    (entities one.2).all fun entity =>
      (Table.get? (entities other.2) entity.1).all fun value => entity.2.concords value

theorem Backend.concordant_of_isConcordant {identity : Identity}
    {registry : Table QueryKey Prepared}
    (h : still.isConcordant identity registry = true) :
    still.Concordant identity registry := by
  intro key other prepared prepared' hprepared hprepared' entity value value' hvalue hvalue'
    field x y hx hy
  rw [gives_iff] at hvalue hvalue'
  have hone := List.all_eq_true.1 h _ (Table.mem_of_get?_eq_some hprepared)
  have hother := List.all_eq_true.1 hone _ (Table.mem_of_get?_eq_some hprepared')
  have hentity := List.all_eq_true.1 hother _ (Table.mem_of_get?_eq_some hvalue)
  rw [hvalue'] at hentity
  exact Json.same_of_concords hentity hx hy

namespace Session

variable {σ : Type} {settings : Settings} {backend : Backend σ} {stands : σ → Prop}
  {session next : Session σ} {invalidation : Invalidation}

/-- The snapshots have every field that the result of the query has. -/
def IsShown (settings : Settings) (still : Backend Unit) (session : Session σ)
    (key : QueryKey) : Prop :=
  ∀ {prepared entity value}, Table.get? session.registry key = some prepared →
    still.Gives settings.identity prepared entity value →
      ∃ snapshot, session.cache.store.snapshot? entity = some snapshot ∧
        snapshot.Contains value

theorem Executed.snapshot?_of_none
    (h : Executed settings backend prepared session invalidation next) {entity : EntityKey}
    (hentity : Table.get? (Snapshots.ofOutcome settings.identity
      (backend.result prepared session.world).1) entity = none) :
    next.cache.store.snapshot? entity = session.cache.store.snapshot? entity := by
  have hawaiting := Store.snapshot?_awaiting session.cache.store prepared entity
  rw [h.store, ← hawaiting]
  cases houtcome : (backend.result prepared session.world).1 with
  | ok data =>
      rw [houtcome] at hentity
      exact Store.snapshot?_write_of_none rfl hentity
  | error failure =>
      rw [Store.write_of_none rfl, Store.snapshot?, Store.snapshots_writeState,
        Store.snapshot?]

theorem Executed.snapshot?_of_some
    (h : Executed settings backend prepared session invalidation next)
    (hbackend : backend.Ordered) (hprepared : prepared.Ordered) {entity : EntityKey}
    {value : Json} (hentity : Table.get? (Snapshots.ofOutcome settings.identity
      (backend.result prepared session.world).1) entity = some value) :
    next.cache.store.snapshot? entity =
      some (Json.settle (session.cache.store.snapshot? entity) value) := by
  have hawaiting := Store.snapshot?_awaiting session.cache.store prepared entity
  have hflat := Backend.flat_result hbackend hprepared settings.identity session.world
  rw [h.store, ← hawaiting]
  cases houtcome : (backend.result prepared session.world).1 with
  | ok data =>
      rw [houtcome] at hentity hflat
      exact Store.snapshot?_write_of_some rfl hflat.nodup hentity
  | error failure =>
      rw [houtcome] at hentity
      simp [Snapshots.ofOutcome] at hentity

/-- What is written in a world that stands is what the query gives. -/
theorem get?_ofOutcome_iff (hstill : backend.IsStill stands still) {world : σ}
    (hworld : stands world) (identity : Identity) {entity : EntityKey} {value : Json} :
    Table.get? (Snapshots.ofOutcome identity (backend.result prepared world).1) entity =
      some value ↔ still.Gives identity prepared entity value := by
  rw [(hstill.result prepared hworld).1, Backend.gives_iff]

/-- The snapshots have the result of a query that has just been executed. -/
theorem Executed.isShown_self
    (h : Executed settings backend prepared session invalidation next)
    (hbackend : backend.Ordered) (hprepared : prepared.Ordered)
    (hstill : backend.IsStill stands still) (hworld : stands session.world)
    (hregistered : Table.get? session.registry prepared.key = some prepared) :
    next.IsShown settings still prepared.key := by
  intro prepared' entity value hprepared' hgives
  rw [h.registry] at hprepared'
  cases hregistered.symm.trans hprepared'
  have hentity := (get?_ofOutcome_iff hstill hworld settings.identity).2 hgives
  have hflat := Backend.flat_result hbackend hprepared settings.identity session.world
  obtain ⟨members, rfl, hmembers⟩ := hflat.get? hentity
  exact ⟨_, h.snapshot?_of_some hbackend hprepared hentity,
    Json.contains_settle _ hmembers⟩

/-- An execution whose result agrees with that of another query leaves the snapshots
with the latter. -/
theorem Executed.isShown
    (h : Executed settings backend prepared session invalidation next)
    (hbackend : backend.Ordered) (hprepared : prepared.Ordered) (hsound : session.Sound)
    (hstill : backend.IsStill stands still) (hworld : stands session.world)
    (hregistered : Table.get? session.registry prepared.key = some prepared)
    (hconcordant : still.Concordant settings.identity session.registry) {key : QueryKey}
    (hkey : session.IsShown settings still key) : next.IsShown settings still key := by
  intro other entity value hother hgives
  rw [h.registry] at hother
  obtain ⟨snapshot, hsnapshot, hcontains⟩ := hkey hother hgives
  cases hentity : Table.get? (Snapshots.ofOutcome settings.identity
      (backend.result prepared session.world).1) entity with
  | none =>
      rw [h.snapshot?_of_none hentity]
      exact ⟨snapshot, hsnapshot, hcontains⟩
  | some new =>
      have hnew := (get?_ofOutcome_iff hstill hworld settings.identity).1 hentity
      have hflat := Backend.flat_result hbackend hprepared settings.identity session.world
      obtain ⟨members, rfl, hmembers⟩ := hflat.get? hentity
      obtain ⟨old, rfl, -⟩ := hsound.store.objects hsnapshot
      refine ⟨_, h.snapshot?_of_some hbackend hprepared hentity, ?_⟩
      rw [hsnapshot]
      refine hcontains.absorb hmembers fun field x z hx hz => ?_
      exact hconcordant hother hregistered hgives hnew hx hz

/-- An execution names the other queries that depend on an entity with a stale
field. -/
theorem Executed.mem_queries_iff
    (h : Executed settings backend prepared session invalidation next)
    (hbackend : backend.Ordered) (hprepared : prepared.Ordered) (hsound : session.Sound)
    (hstill : backend.IsStill stands still) (hworld : stands session.world)
    {query : QueryKey} :
    query ∈ invalidation.queries ↔ query ≠ prepared.key ∧
      ∃ entity value field, still.Gives settings.identity prepared entity value ∧
        session.cache.store.IsStale entity value field ∧
          query ∈ session.cache.store.dependentsOf entity := by
  have hawaiting := hsound.store.awaiting prepared
  have hdependents := Store.dependentsOf_awaiting session.cache.store prepared
  have hstale : ∀ entity value field,
      (session.cache.store.awaiting prepared).IsStale entity value field ↔
        session.cache.store.IsStale entity value field := by
    intro entity value field
    rw [Store.IsStale, Store.snapshot?_awaiting, Store.IsStale]
  have hgives : ∀ entity value, Table.get? (Snapshots.ofOutcome settings.identity
      (backend.result prepared session.world).1) entity = some value ↔
        still.Gives settings.identity prepared entity value :=
    fun entity value => get?_ofOutcome_iff hstill hworld settings.identity
  have hflat := Backend.flat_result hbackend hprepared settings.identity session.world
  rw [h.invalidation_eq]
  cases houtcome : (backend.result prepared session.world).1 with
  | error failure =>
      rw [Store.write_of_none rfl]
      simp only [Invalidation.none, List.not_mem_nil, false_iff, not_and]
      rintro - ⟨entity, value, field, hvalue, -, -⟩
      rw [← hgives, houtcome] at hvalue
      simp [Snapshots.ofOutcome] at hvalue
  | ok data =>
      rw [houtcome] at hgives hflat
      rw [Store.mem_queries_write_iff rfl]
      refine and_congr_right fun _ => ?_
      simp only [Store.mem_changedEntities_iff_isStale hawaiting hflat, hgives, hstale,
        hdependents]
      constructor
      · rintro ⟨entity, ⟨value, field, hvalue, hfield⟩, hquery⟩
        exact ⟨entity, value, field, hvalue, hfield, hquery⟩
      · rintro ⟨entity, value, field, hvalue, hfield, hquery⟩
        exact ⟨entity, ⟨value, field, hvalue, hfield⟩, hquery⟩

end Session

end QueryCache
