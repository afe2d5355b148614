import QueryCache.Proofs.Json.User
import QueryCache.Proofs.Store.Compatible
import QueryCache.Proofs.Store.Lifecycle

/-!
# Whom a write reports

A write compares the fields that it brings with those of the snapshots, and reports all
queries that depend on an entity of which one field differs. Both are told by the calls
that came before: a query depends on every entity that a result of it has held since it was
last evicted, and a snapshot holds each field as it was written last, unless the entity has
been forgotten since. `Cache.reports_iff` puts this together. Dependents are kept by entity,
so a query is also reported when the field that differs is none of its own result.

Histories list the last call first.
-/

namespace QueryCache

/-- Something of the first kind has come after everything of the second kind. The list
has the last one first. -/
def Since {α : Type} (p q : α → Prop) : List α → Prop
  | [] => False
  | x :: earlier => p x ∨ ¬ q x ∧ Since p q earlier

namespace CacheCall

/-- The write of entities that a call makes. A state without data has none. -/
def write? : CacheCall → Option Write
  | .write key state entities =>
    if state.data.isSome then some (.result key state entities) else none
  | .writeEntities origin entities => some (.payload origin entities)
  | _ => none

/-- The query that a call evicts. -/
def evicted? : CacheCall → Option QueryKey
  | .evict key => some key
  | _ => none

/-- What a call writes has come from flattening. -/
def FromFlatten (identity : Identity) (call : CacheCall) : Prop :=
  ∀ write, call.write? = some write → write.FromFlatten identity

/-- The call writes a result of the query that holds the entity. -/
def Returns (query : QueryKey) (entity : EntityKey) (call : CacheCall) : Prop :=
  ∃ write, call.write? = some write ∧ write.IsResultOf query ∧
    entity ∈ Table.keys write.entities

/-- The value that a call writes to a field of an entity. -/
def field? (call : CacheCall) (entity : EntityKey) (field : String) : Option Json :=
  call.write?.bind fun write => write.field? entity field

/-- A result of the query has held the entity since the query was last evicted. -/
def Depends (query : QueryKey) (entity : EntityKey) : List CacheCall → Prop :=
  Since (Returns query entity) fun call => call.evicted? = some query

/-- The field of the entity was last written with this value, and the entity has not been
forgotten since: whenever a query was evicted, another one depended on the entity. -/
def Holds (entity : EntityKey) (field : String) (x : Json) : List CacheCall → Prop
  | [] => False
  | call :: earlier =>
    match call.field? entity field with
    | some y => y = x
    | none => Holds entity field x earlier ∧ ∀ key, call.evicted? = some key →
        ∃ query, query ≠ key ∧ Depends query entity earlier

/-- The entities of the last result of a query that has been written since the query was
last evicted. -/
def lastResult? (query : QueryKey) : List CacheCall → Option Snapshots
  | [] => none
  | .write key state entities :: earlier =>
    if key = query ∧ state.data.isSome then some entities else lastResult? query earlier
  | .evict key :: earlier => if key = query then none else lastResult? query earlier
  | _ :: earlier => lastResult? query earlier

end CacheCall

/-- Some entity has a field both in the result and in the write, with values that differ. -/
def Write.Contradicts (result : Snapshots) (write : Write) : Prop :=
  ∃ entity field x y, (Table.get? result entity).bind (·.member? field) = some x ∧
    write.field? entity field = some y ∧ x.differs y = true

/-- Compatible data do not contradict each other. -/
theorem Write.not_contradicts_of_compatible {identity : Identity} {datum new : Json}
    {write : Write} (hwrite : write.entities = flatten new identity)
    (h : datum.Compatible identity new) : ¬ write.Contradicts (flatten datum identity) := by
  rintro ⟨entity, field, x, y, hx, hy, hxy⟩
  rw [Write.field?, hwrite] at hy
  obtain ⟨old, hold, hx⟩ := Option.bind_eq_some_iff.1 hx
  obtain ⟨value, hvalue, hy⟩ := Option.bind_eq_some_iff.1 hy
  obtain ⟨stored, rfl, hx⟩ := Json.member?_eq_some_iff.1 hx
  obtain ⟨fields, rfl, hy⟩ := Json.member?_eq_some_iff.1 hy
  have hdiffers : (Json.object stored).differs (.object fields) = true :=
    Json.differs_object_iff.2 ⟨field, y, x, Table.mem_of_get?_eq_some hy, hx, hxy⟩
  cases (h entity _ _ hold hvalue).symm.trans hdiffers

namespace Cache

open CacheCall (Depends Holds lastResult?)

variable {identity : Identity} {cache : Cache} {call : CacheCall} {history : List CacheCall}

/-! ### One call -/

/-- A call makes its write, evicts its query, or leaves the entities alone. -/
theorem call_cases (cache : Cache) (call : CacheCall) :
    (∃ write, call.write? = some write ∧ call.evicted? = none ∧
        (cache.call call).store = (cache.store.enter write).2) ∨
      (∃ key, call.write? = none ∧ call.evicted? = some key ∧
        (cache.call call).store = (cache.store.evict key).2) ∨
      call.write? = none ∧ call.evicted? = none ∧
        (cache.call call).store.snapshots = cache.store.snapshots ∧
        (cache.call call).store.dependents = cache.store.dependents := by
  cases call with
  | cell key =>
      exact Or.inr (Or.inr ⟨rfl, rfl, Store.snapshots_cell _ _, Store.dependents_cell _ _⟩)
  | update id change => exact Or.inr (Or.inr ⟨rfl, rfl, rfl, rfl⟩)
  | write key state entities =>
      cases hdata : state.data with
      | some data =>
          exact Or.inl ⟨.result key state entities, by simp [CacheCall.write?, hdata], rfl, rfl⟩
      | none =>
          have hstore : (cache.call (.write key state entities)).store =
              cache.store.writeState key state :=
            congrArg Prod.snd (Store.write_of_none hdata entities)
          refine Or.inr (Or.inr ⟨by simp [CacheCall.write?, hdata], rfl, ?_, ?_⟩)
          · rw [hstore, Store.snapshots_writeState]
          · rw [hstore, Store.dependents_writeState]
  | writeEntities origin entities => exact Or.inl ⟨.payload origin entities, rfl, rfl, rfl⟩
  | evict key => exact Or.inr (Or.inl ⟨key, rfl, rfl, store_evict cache key⟩)

theorem sound_call (hsound : cache.store.Sound) (h : call.FromFlatten identity) :
    (cache.call call).store.Sound := by
  cases call with
  | cell key => exact hsound.cell key
  | update id change => exact hsound.updateCell id change
  | write key state entities =>
      cases hdata : state.data with
      | none => exact hsound.write_of_none hdata key entities
      | some data =>
          have hwrite := h (.result key state entities) (by simp [CacheCall.write?, hdata])
          exact hsound.write_of_some hdata hwrite.flat key
  | writeEntities origin entities =>
      have hwrite := h (.payload origin entities) rfl
      exact hsound.writeEntities hwrite.flat origin
  | evict key => exact store_evict cache key ▸ hsound.evict key

theorem mem_dependentsOf_call_iff (hsound : cache.store.Sound)
    (h : call.FromFlatten identity) {query : QueryKey} {entity : EntityKey} :
    query ∈ (cache.call call).store.dependentsOf entity ↔
      call.Returns query entity ∨
        ¬ call.evicted? = some query ∧ query ∈ cache.store.dependentsOf entity := by
  rcases call_cases cache call with
    ⟨write, hwrite, hevicted, hstore⟩ | ⟨key, hwrite, hevicted, hstore⟩ |
      ⟨hwrite, hevicted, -, hdependents⟩
  · rw [hstore, Store.mem_dependentsOf_enter_iff (h write hwrite), or_comm]
    simp [CacheCall.Returns, hwrite, hevicted]
  · rw [hstore, Store.mem_dependentsOf_evict_iff hsound.nodup]
    simp [CacheCall.Returns, hwrite, hevicted, eq_comm]
  · rw [Store.dependentsOf, hdependents]
    simp [CacheCall.Returns, hwrite, hevicted, Store.dependentsOf]

/-- A call sets the fields that it writes, and keeps the others, unless it evicts the last
query that depends on the entity. -/
theorem member?_call_eq_some_iff (hsound : cache.store.Sound) (h : call.FromFlatten identity)
    {entity : EntityKey} {field : String} {x : Json} :
    ((cache.call call).store.snapshot? entity).bind (·.member? field) = some x ↔
      match call.field? entity field with
      | some y => y = x
      | none => (cache.store.snapshot? entity).bind (·.member? field) = some x ∧
          ∀ key, call.evicted? = some key →
            ∃ query, query ≠ key ∧ query ∈ cache.store.dependentsOf entity := by
  rcases call_cases cache call with
    ⟨write, hwrite, hevicted, hstore⟩ | ⟨key, hwrite, hevicted, hstore⟩ |
      ⟨hwrite, hevicted, hsnapshots, -⟩
  · rw [hstore, Store.member?_enter hsound (h write hwrite), CacheCall.field?, hwrite,
      Option.bind_some]
    cases write.field? entity field <;> simp [hevicted]
  · have hfield : call.field? entity field = none := by
      rw [CacheCall.field?, hwrite]
      rfl
    simp only [hfield, hstore, hevicted, Option.some.injEq, forall_eq']
    simp only [Option.bind_eq_some_iff, Store.snapshot?_evict_eq_some_iff hsound.nodup,
      and_right_comm, exists_and_right]
  · rw [Store.snapshot?, hsnapshots]
    simp [CacheCall.field?, hwrite, hevicted, Store.snapshot?]

/-! ### Histories -/

theorem after_reverse_cons (call : CacheCall) (earlier : List CacheCall) :
    after (call :: earlier).reverse = (after earlier.reverse).call call := by
  rw [List.reverse_cons, after_append_singleton]

section History

variable (h : ∀ call ∈ history, call.FromFlatten identity)

include h

theorem sound_after_reverse : (after history.reverse).store.Sound := by
  induction history with
  | nil => exact Store.sound_empty
  | cons call earlier ih =>
      rw [after_reverse_cons]
      exact sound_call (ih (List.forall_mem_cons.1 h).2) (h call List.mem_cons_self)

/-- The dependents of an entity are told by the calls before. -/
theorem mem_dependentsOf_after_iff {query : QueryKey} {entity : EntityKey} :
    query ∈ (after history.reverse).store.dependentsOf entity ↔
      Depends query entity history := by
  induction history with
  | nil => simp [after, empty, Store.empty, Store.dependentsOf, Depends, Since]
  | cons call earlier ih =>
      have hearlier := (List.forall_mem_cons.1 h).2
      rw [after_reverse_cons,
        mem_dependentsOf_call_iff (sound_after_reverse hearlier) (h call List.mem_cons_self),
        ih hearlier]
      rfl

/-- The fields of a snapshot are told by the calls before. -/
theorem member?_after_eq_some_iff {entity : EntityKey} {field : String} {x : Json} :
    ((after history.reverse).store.snapshot? entity).bind (·.member? field) = some x ↔
      Holds entity field x history := by
  induction history with
  | nil => simp [after, empty, Store.empty, Store.snapshot?, Holds]
  | cons call earlier ih =>
      have hearlier := (List.forall_mem_cons.1 h).2
      rw [after_reverse_cons,
        member?_call_eq_some_iff (sound_after_reverse hearlier) (h call List.mem_cons_self),
        ih hearlier]
      simp only [mem_dependentsOf_after_iff hearlier]
      rfl

/-- An entity has changed if some field of it does not stand with the value that it is
written with. -/
theorem mem_changedEntities_after_iff {write : Write} (hwrite : write.FromFlatten identity)
    {entity : EntityKey} :
    entity ∈ (after history.reverse).store.changedEntities write.entities ↔
      ∃ field x y, Holds entity field x history ∧ write.field? entity field = some y ∧
        x.differs y = true := by
  have hsound := sound_after_reverse h
  rw [Store.mem_changedEntities_iff hwrite.flat.nodup]
  simp only [← member?_after_eq_some_iff h, Option.bind_eq_some_iff, Write.field?]
  constructor
  · rintro ⟨-, new, old, hnew, hold, hdiffers⟩
    obtain ⟨fields, rfl, hfields⟩ := hwrite.flat.get? hnew
    obtain ⟨stored, rfl, -⟩ := hsound.objects hold
    obtain ⟨field, y, x, hy, hx, hxy⟩ := Json.differs_object_iff.1 hdiffers
    have hfield : (Json.object fields).member? field = some y :=
      Table.get?_eq_some_of_mem (Json.nodup_keys_of_ordered hfields) hy
    exact ⟨field, x, y, ⟨_, hold, hx⟩, ⟨_, hnew, hfield⟩, hxy⟩
  · rintro ⟨field, x, y, ⟨old, hold, hx⟩, ⟨new, hnew, hy⟩, hxy⟩
    obtain ⟨fields, rfl, -⟩ := hwrite.flat.get? hnew
    obtain ⟨stored, rfl, -⟩ := hsound.objects hold
    refine ⟨hsound.writes_ne_zero hold, _, _, hnew, hold, Json.differs_object_iff.2 ?_⟩
    exact ⟨field, y, x, Table.mem_of_get?_eq_some hy, hx, hxy⟩

end History

/-- Whether a write reports a query, told by the calls before it. -/
structure Reporting (history : List CacheCall) (next : Write) (query : QueryKey) : Prop where
  /-- The query is reported exactly if it depends on an entity of which the write brings a field
  with another value than the field was written with last. -/
  reported_iff : query ∈ ((after history.reverse).store.enter next).1.queries ↔
    some query ≠ next.writer ∧ ∃ entity field x y, Depends query entity history ∧
      Holds entity field x history ∧ next.field? entity field = some y ∧ x.differs y = true
  /-- Where all such fields stand with these values in the last result of the query, the write
  contradicts this result. -/
  contradicts : (∀ entity field x y, Depends query entity history → Holds entity field x history →
      next.field? entity field = some y →
        ∃ result, lastResult? query history = some result ∧
          (Table.get? result entity).bind (·.member? field) = some x) →
    query ∈ ((after history.reverse).store.enter next).1.queries →
      ∃ result, lastResult? query history = some result ∧ next.Contradicts result
  /-- New fields, and fields that keep their values, disturb no query. -/
  undisturbed : (∀ entity field x y, Holds entity field x history →
      next.field? entity field = some y → x.differs y = false) →
    query ∉ ((after history.reverse).store.enter next).1.queries

/-- A write reports a query exactly if the query depends on an entity of which the write
brings a field with another value than it was written with last. If all such fields stand
with these values in the last result of the query, then the write contradicts this result. A
write that brings no field with another value reports no query, whatever fields it brings that
nobody has written before. -/
theorem reports_iff (h : ∀ call ∈ history, call.FromFlatten identity) {next : Write}
    (hnext : next.FromFlatten identity) (query : QueryKey) : Reporting history next query := by
  have hreports : query ∈ ((after history.reverse).store.enter next).1.queries ↔
      some query ≠ next.writer ∧ ∃ entity field x y, Depends query entity history ∧
        Holds entity field x history ∧ next.field? entity field = some y ∧
          x.differs y = true := by
    rw [Store.mem_queries_enter_iff hnext]
    simp only [mem_changedEntities_after_iff h hnext, mem_dependentsOf_after_iff h]
    refine and_congr_right fun _ => exists_congr fun entity => ?_
    constructor
    · rintro ⟨⟨field, x, y, hx, hy, hxy⟩, hquery⟩
      exact ⟨field, x, y, hquery, hx, hy, hxy⟩
    · rintro ⟨field, x, y, hquery, hx, hy, hxy⟩
      exact ⟨⟨field, x, y, hx, hy, hxy⟩, hquery⟩
  refine ⟨hreports, fun hstands hquery => ?_, fun hkept hquery => ?_⟩
  · obtain ⟨-, entity, field, x, y, hdepends, hx, hy, hxy⟩ := hreports.1 hquery
    obtain ⟨result, hresult, hown⟩ := hstands entity field x y hdepends hx hy
    exact ⟨result, hresult, entity, field, x, y, hown, hy, hxy⟩
  · obtain ⟨-, entity, field, x, y, -, hx, hy, hxy⟩ := hreports.1 hquery
    cases (hkept entity field x y hx hy).symm.trans hxy

end Cache

/-! ### Different fields of one user -/

/-- The write of a result with a user. -/
def Write.ofUser (query : String) (fields : List (String × String)) : Write :=
  .result ⟨query⟩ (.ready (.ofUser "1" fields))
    (flatten (.ofUser "1" fields) ⟨"__typename", "id"⟩)

theorem Write.fromFlatten_ofUser (query : String) (fields : List (String × String)) :
    (ofUser query fields).FromFlatten ⟨"__typename", "id"⟩ :=
  ⟨⟨_, Json.ordered_ofUser "1" fields, rfl⟩, rfl⟩

/-- The call that makes this write. -/
def CacheCall.ofUser (query : String) (fields : List (String × String)) : CacheCall :=
  .write ⟨query⟩ (.ready (.ofUser "1" fields))
    (flatten (.ofUser "1" fields) ⟨"__typename", "id"⟩)

theorem CacheCall.fromFlatten_ofUser (query : String) (fields : List (String × String)) :
    (ofUser query fields).FromFlatten ⟨"__typename", "id"⟩ := by
  intro write hwrite
  cases hwrite
  exact Write.fromFlatten_ofUser query fields

namespace Cache

open CacheCall (lastResult?)

/-- One query has the name of a user, another the age, and the age changes. -/
theorem reports_iff_age :
    let identity : Identity := ⟨"__typename", "id"⟩
    let history := [CacheCall.ofUser "b" [("age", "40")], CacheCall.ofUser "a" [("name", "Al")]]
    let next := Write.ofUser "b" [("age", "41")]
    let query : QueryKey := ⟨"a"⟩
    (∀ call ∈ history, call.FromFlatten identity) ∧ next.FromFlatten identity ∧
      Reporting history next query := by
  intro identity history next query
  have hhistory : ∀ call ∈ history, call.FromFlatten identity := by
    intro call hcall
    rcases List.mem_pair.1 hcall with rfl | rfl
    · exact CacheCall.fromFlatten_ofUser _ _
    · exact CacheCall.fromFlatten_ofUser _ _
  have hnext : next.FromFlatten identity := Write.fromFlatten_ofUser _ _
  exact ⟨hhistory, hnext, reports_iff hhistory hnext query⟩

/-- One query has the name of a user, another the age. When the age changes, the query for
the name is reported, although its result and the write have only the type and the id in
common. -/
theorem reports_without_contradiction :
    ¬ ∀ (identity : Identity) (history : List CacheCall) (next : Write),
      (∀ call ∈ history, call.FromFlatten identity) → next.FromFlatten identity →
        ∀ query ∈ ((after history.reverse).store.enter next).1.queries,
          ∃ result, lastResult? query history = some result ∧ next.Contradicts result := by
  intro hclaim
  let history := [CacheCall.ofUser "b" [("age", "40")], CacheCall.ofUser "a" [("name", "Al")]]
  have hhistory : ∀ call ∈ history, call.FromFlatten ⟨"__typename", "id"⟩ := by
    intro call hcall
    rcases List.mem_pair.1 hcall with rfl | rfl
    · exact CacheCall.fromFlatten_ofUser _ _
    · exact CacheCall.fromFlatten_ofUser _ _
  have hreported : (⟨"a"⟩ : QueryKey) ∈ ((after history.reverse).store.enter
      (Write.ofUser "b" [("age", "41")])).1.queries := by
    decide +kernel
  obtain ⟨result, hresult, hcontradicts⟩ :=
    hclaim _ history _ hhistory (Write.fromFlatten_ofUser _ _) _ hreported
  have hlast : lastResult? ⟨"a"⟩ history =
      some (flatten (.ofUser "1" [("name", "Al")]) ⟨"__typename", "id"⟩) := rfl
  cases hlast.symm.trans hresult
  have hcompatible : (Json.ofUser "1" [("name", "Al")]).Compatible ⟨"__typename", "id"⟩
      (.ofUser "1" [("age", "41")]) := by
    decide +kernel
  exact Write.not_contradicts_of_compatible rfl hcompatible hcontradicts

end Cache

end QueryCache
