import QueryCache.Proofs.Store.Sound

/-!
# Histories of writes

What a store holds after some writes is told by the writes themselves: the field
of a snapshot is that of the latest write whose entity has the field
(`Store.member?_after`), and the dependents of an entity are the queries that
have ever been written with it (`Store.mem_dependentsOf_after`). Histories list
the last write first.
-/

namespace QueryCache

/-- A write of entities: as the result of a query, or by themselves. -/
inductive Write where
  | result (key : QueryKey) (state : QueryState) (entities : Snapshots)
  | payload (origin : Option QueryKey) (entities : Snapshots)

namespace Write

/-- The entities that are written. -/
def entities : Write → Snapshots
  | result _ _ entities => entities
  | payload _ entities => entities

/-- The query that a write does not report. -/
def writer : Write → Option QueryKey
  | result key _ _ => some key
  | payload origin _ => origin

/-- The write is the result of this query. -/
def IsResultOf (key : QueryKey) : Write → Prop
  | result other _ _ => other = key
  | payload _ _ => False

/-- The value that a field of an entity is written with. -/
def field? (write : Write) (entity : EntityKey) (field : String) : Option Json :=
  (Table.get? write.entities entity).bind (·.member? field)

/-- What is written has come from flattening, and a state of a query has data. -/
def FromFlatten (identity : Identity) (write : Write) : Prop :=
  (∃ data : Json, data.Ordered ∧ write.entities = flatten data identity) ∧
    match write with
    | result _ state _ => state.data.isSome = true
    | payload _ _ => True

theorem FromFlatten.flat {identity : Identity} {write : Write}
    (h : write.FromFlatten identity) : write.entities.Flat := by
  obtain ⟨⟨data, hdata, heq⟩, -⟩ := h
  rw [heq]
  exact flat_flatten hdata identity

theorem FromFlatten.keyed {identity : Identity} {write : Write}
    (h : write.FromFlatten identity) : write.entities.Keyed identity := by
  obtain ⟨⟨data, hdata, heq⟩, -⟩ := h
  rw [heq]
  exact keyed_flatten hdata identity

end Write

namespace Store

/-- Makes a write. -/
def enter (store : Store) : Write → Invalidation × Store
  | .result key state entities => store.write key state entities
  | .payload origin entities => store.writeEntities origin entities

/-- The store after some writes. -/
def after : List Write → Store
  | [] => .empty
  | write :: earlier => ((after earlier).enter write).2

/-- The entity in the latest write whose entity has something at the path. -/
def latest (history : List Write) (entity : EntityKey) (path : List String) : Option Json :=
  history.findSome? fun write =>
    (Table.get? write.entities entity).filter fun value => (value.at? path).isSome

theorem latest_cons (write : Write) (earlier : List Write) (entity : EntityKey)
    (path : List String) :
    latest (write :: earlier) entity path =
      ((Table.get? write.entities entity).filter fun value =>
        (value.at? path).isSome).or (latest earlier entity path) := by
  rw [latest, List.findSome?_cons]
  cases (Table.get? write.entities entity).filter fun value => (value.at? path).isSome with
  | none => rfl
  | some value => rfl

variable {store : Store} {identity : Identity} {write : Write} {history : List Write}

/-! ### One write -/

theorem changed_enter (h : write.FromFlatten identity) :
    (store.enter write).1.changed = store.changedEntities write.entities := by
  cases write with
  | result key state entities =>
      obtain ⟨data, hdata⟩ := Option.isSome_iff_exists.1 h.2
      exact changed_write hdata
  | payload origin entities => rfl

theorem mem_queries_enter_iff (h : write.FromFlatten identity) {query : QueryKey} :
    query ∈ (store.enter write).1.queries ↔ some query ≠ write.writer ∧
      ∃ entity ∈ store.changedEntities write.entities, query ∈ store.dependentsOf entity := by
  cases write with
  | result key state entities =>
      obtain ⟨data, hdata⟩ := Option.isSome_iff_exists.1 h.2
      refine (mem_queries_write_iff hdata).trans (and_congr_left' ?_)
      simp [Write.writer]
  | payload origin entities => exact mem_queries_invalidation_iff

theorem Sound.enter (hsound : store.Sound) (h : write.FromFlatten identity) :
    (store.enter write).2.Sound := by
  have hflat := h.flat
  cases write with
  | result key state entities =>
      obtain ⟨data, hdata⟩ := Option.isSome_iff_exists.1 h.2
      exact hsound.write_of_some hdata hflat key
  | payload origin entities => exact hsound.writeEntities hflat origin

theorem snapshot?_enter_of_none (h : write.FromFlatten identity) {entity : EntityKey}
    (hentity : Table.get? write.entities entity = none) :
    (store.enter write).2.snapshot? entity = store.snapshot? entity := by
  cases write with
  | result key state entities =>
      obtain ⟨data, hdata⟩ := Option.isSome_iff_exists.1 h.2
      exact snapshot?_write_of_none hdata hentity
  | payload origin entities => exact snapshot?_reconcile_of_none hentity

theorem snapshot?_enter_of_some (h : write.FromFlatten identity) {entity : EntityKey}
    {value : Json} (hentity : Table.get? write.entities entity = some value) :
    (store.enter write).2.snapshot? entity =
      some (Json.settle (store.snapshot? entity) value) := by
  have hnodup := h.flat.nodup
  cases write with
  | result key state entities =>
      obtain ⟨data, hdata⟩ := Option.isSome_iff_exists.1 h.2
      exact snapshot?_write_of_some hdata hnodup hentity
  | payload origin entities => exact snapshot?_reconcile_of_some hnodup hentity

/-- A write sets the fields that it has, and keeps the others. -/
theorem member?_enter (hsound : store.Sound) (h : write.FromFlatten identity)
    (entity : EntityKey) (field : String) :
    ((store.enter write).2.snapshot? entity).bind (·.member? field) =
      (write.field? entity field).or ((store.snapshot? entity).bind (·.member? field)) := by
  rw [Write.field?]
  cases hentity : Table.get? write.entities entity with
  | none =>
      rw [snapshot?_enter_of_none h hentity]
      rfl
  | some value =>
      obtain ⟨members, rfl, hmembers⟩ := h.flat.get? hentity
      rw [snapshot?_enter_of_some h hentity, Option.bind_some, Option.bind_some]
      cases hfield : (Json.object members).member? field with
      | some x => exact Json.member?_settle_of_some _ hmembers hfield
      | none =>
          rw [Option.none_or]
          cases hstored : store.snapshot? entity with
          | none => exact hfield
          | some stored =>
              obtain ⟨old, hold, -⟩ := hsound.objects hstored
              exact Json.member?_absorb_of_none hmembers ⟨old, hold⟩ hfield

theorem mem_dependentsOf_enter_iff (h : write.FromFlatten identity) {entity : EntityKey}
    {query : QueryKey} :
    query ∈ (store.enter write).2.dependentsOf entity ↔
      query ∈ store.dependentsOf entity ∨
        write.IsResultOf query ∧ entity ∈ Table.keys write.entities := by
  cases write with
  | result key state entities =>
      obtain ⟨data, hdata⟩ := Option.isSome_iff_exists.1 h.2
      rw [enter, mem_dependentsOf_write_iff hdata, Write.IsResultOf, eq_comm]
      rfl
  | payload origin entities =>
      rw [Write.IsResultOf, false_and, or_false]
      rfl

/-! ### Histories -/

variable (h : ∀ write ∈ history, write.FromFlatten identity)

include h

theorem sound_after : (after history).Sound := by
  induction history with
  | nil => exact sound_empty
  | cons write earlier ih =>
      have hearlier : ∀ write ∈ earlier, write.FromFlatten identity :=
        fun write hwrite => h write (List.mem_cons_of_mem _ hwrite)
      exact (ih hearlier).enter (h write List.mem_cons_self)

/-- The dependents of an entity are the queries ever written with it. -/
theorem mem_dependentsOf_after {entity : EntityKey} {query : QueryKey} :
    query ∈ (after history).dependentsOf entity ↔
      ∃ write ∈ history, write.IsResultOf query ∧ entity ∈ Table.keys write.entities := by
  induction history with
  | nil => simp [after, empty, dependentsOf]
  | cons write earlier ih =>
      have hearlier : ∀ write ∈ earlier, write.FromFlatten identity :=
        fun write hwrite => h write (List.mem_cons_of_mem _ hwrite)
      rw [after, mem_dependentsOf_enter_iff (h write List.mem_cons_self), ih hearlier,
        or_comm]
      simp only [List.mem_cons, exists_eq_or_imp]

/-- A field of a snapshot is that of the latest write that has it. -/
theorem member?_after (entity : EntityKey) (field : String) :
    ((after history).snapshot? entity).bind (·.member? field) =
      (latest history entity [field]).bind (·.member? field) := by
  induction history with
  | nil => rfl
  | cons write earlier ih =>
      have hearlier : ∀ write ∈ earlier, write.FromFlatten identity :=
        fun write hwrite => h write (List.mem_cons_of_mem _ hwrite)
      rw [after, member?_enter (sound_after hearlier) (h write List.mem_cons_self),
        ih hearlier, latest_cons, Write.field?]
      cases Table.get? write.entities entity with
      | none => rfl
      | some value =>
          rw [Option.bind_some, Option.filter_some, Json.at?_singleton]
          cases hfield : value.member? field with
          | none => rfl
          | some x => exact hfield.symm

/-- Every snapshot stands under the key of its own members. -/
theorem keyed_after : (after history).snapshots.Keyed identity := by
  induction history with
  | nil => exact Snapshots.keyed_nil identity
  | cons write earlier ih =>
      have hearlier : ∀ write ∈ earlier, write.FromFlatten identity :=
        fun write hwrite => h write (List.mem_cons_of_mem _ hwrite)
      have hwrite := h write List.mem_cons_self
      intro entity members hmembers
      change ((after earlier).enter write).2.snapshot? entity = some (.object members) at hmembers
      cases hentity : Table.get? write.entities entity with
      | none =>
          rw [snapshot?_enter_of_none hwrite hentity] at hmembers
          exact ih hearlier hmembers
      | some value =>
          obtain ⟨new, rfl, hnew⟩ := hwrite.flat.get? hentity
          have hkey := hwrite.keyed hentity
          rw [snapshot?_enter_of_some hwrite hentity] at hmembers
          cases hstored : (after earlier).snapshot? entity with
          | none =>
              rw [hstored] at hmembers
              cases hmembers
              exact hkey
          | some stored =>
              obtain ⟨old, rfl, -⟩ := (sound_after hearlier).objects hstored
              rw [hstored] at hmembers
              cases hmembers
              exact Identity.keyOf?_insertAll hkey hnew old

omit h in
/-- What the latest write has at the first field of a path is the latest that the
whole path has, if the path leads somewhere in it. -/
theorem latest_eq_of_at? {entity : EntityKey} {field : String} {path : List String}
    {value : Json} (hlatest : latest history entity [field] = some value)
    (hvalue : (value.at? (field :: path)).isSome = true) :
    latest history entity (field :: path) = some value := by
  induction history with
  | nil => simp [latest] at hlatest
  | cons write earlier ih =>
      rw [latest_cons] at hlatest ⊢
      cases hentity : Table.get? write.entities entity with
      | none =>
          rw [hentity] at hlatest
          exact ih hlatest
      | some found =>
          rw [hentity, Option.filter_some] at hlatest
          rw [Option.filter_some]
          by_cases hfound : (found.at? [field]).isSome = true
          · rw [if_pos hfound] at hlatest
            cases hlatest
            rw [if_pos hvalue]
            rfl
          · have hpath : ¬ (found.at? (field :: path)).isSome = true := by
              intro hpath
              obtain ⟨x, hx⟩ := Option.isSome_iff_exists.1 hpath
              obtain ⟨child, hchild, -⟩ := Json.at?_cons_eq_some_iff.1 hx
              rw [Json.at?_singleton, hchild] at hfound
              simp at hfound
            rw [if_neg hfound] at hlatest
            rw [if_neg hpath]
            exact ih hlatest

end Store

end QueryCache
