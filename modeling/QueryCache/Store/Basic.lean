import QueryCache.Entity
import QueryCache.Query.Key
import QueryCache.Store.Snapshot
import QueryCache.Store.State

/-!
# The store

A store holds a cell with the state of each query, the last snapshot of each
entity, and for each entity the queries whose results held it. `Store.write`
stores the result of a query and compares its entities with their snapshots;
the queries that depend on a changed entity are reported as an `Invalidation`.

A cell is more than a state: handles and subscriptions refer to it, and they
keep referring to it when its query has been evicted, while a new cell is made
if the query comes back. Cells are therefore numbered in the order in which
they were made, and the index maps a query to the number of its present cell.
-/

namespace QueryCache

/-- A state, and how often it has been written. -/
structure Cell where
  state : QueryState
  version : Nat

/-- The number of a cell. -/
structure CellId where
  index : Nat
deriving DecidableEq

/-- What a write means for other queries. -/
structure Invalidation where
  /-- The entities whose snapshots differed from what was written. -/
  changed : KeySet EntityKey
  /-- The queries that depend on them, other than the writer. -/
  queries : KeySet QueryKey
deriving DecidableEq

namespace Invalidation

/-- Nothing changed. -/
def none : Invalidation := ⟨[], []⟩

/-- Nothing changed and nothing has to run again. -/
def isEmpty (invalidation : Invalidation) : Bool :=
  invalidation.changed.isEmpty && invalidation.queries.isEmpty

end Invalidation

/-- The normalised results of queries. -/
structure Store where
  /-- All cells that were ever made. -/
  cells : List Cell
  /-- The present cells of the queries. -/
  index : Table QueryKey CellId
  /-- The last snapshots of the entities. -/
  snapshots : Snapshots
  /-- The queries that have returned an entity. -/
  dependents : Table EntityKey (KeySet QueryKey)
  /-- How often entities have been written. -/
  writes : Nat

namespace Store

/-- The store without queries and entities. -/
def empty : Store := ⟨[], [], [], [], 0⟩

/-! ### Cells -/

/-- The cell with a number. A number that is not in use reads as a cell that
nothing was written to. -/
def cellOf (store : Store) (id : CellId) : Cell :=
  store.cells[id.index]?.getD ⟨.initial, 0⟩

/-- The state in a cell. -/
def stateOf (store : Store) (id : CellId) : QueryState := (store.cellOf id).state

/-- Changes the state in a cell. This counts as a write to the cell. -/
def updateCell (store : Store) (id : CellId) (change : QueryState → QueryState) : Store :=
  { store with
    cells := store.cells.modify id.index fun cell => ⟨change cell.state, cell.version + 1⟩ }

/-- Writes a state into a cell. -/
def writeCell (store : Store) (id : CellId) (state : QueryState) : Store :=
  store.updateCell id fun _ => state

/-- The cell of a query, if it has one. -/
def cell? (store : Store) (key : QueryKey) : Option CellId :=
  Table.get? store.index key

/-- The cell of a query. A query without one gets a cell in the initial state. -/
def cell (store : Store) (key : QueryKey) : CellId × Store :=
  match store.cell? key with
  | some id => (id, store)
  | none =>
    let id : CellId := ⟨store.cells.length⟩
    (id, { store with
      cells := store.cells ++ [⟨.initial, 0⟩]
      index := Table.insert store.index key id })

/-- The state of a query, if it has a cell. -/
def state? (store : Store) (key : QueryKey) : Option QueryState :=
  (store.cell? key).map store.stateOf

/-- The state of a query. A query without a cell is not cached. -/
def read (store : Store) (key : QueryKey) : Except Failure QueryState :=
  match store.state? key with
  | some state => .ok state
  | none => .error (.notCached key.text)

/-- A fresh result of the query is there. -/
def isFresh (store : Store) (key : QueryKey) : Bool :=
  match store.state? key with
  | some state => state.isFresh
  | none => false

/-- Writes a state into the cell of a query. -/
def writeState (store : Store) (key : QueryKey) (state : QueryState) : Store :=
  let (id, store) := store.cell key
  store.writeCell id state

/-! ### Entities -/

/-- Some written entities have other values than their snapshots. The first
write of a store has nothing to compare with. -/
def changedEntities (store : Store) (entities : Snapshots) : KeySet EntityKey :=
  if store.writes = 0 then []
  else
    Table.keys <| entities.filter fun (key, snapshot) =>
      match Table.get? store.snapshots key with
      | some stored => stored.differs snapshot
      | none => false

/-- The queries that depend on an entity. -/
def dependentsOf (store : Store) (entity : EntityKey) : KeySet QueryKey :=
  (Table.get? store.dependents entity).getD []

/-- What writing some entities for `origin` means for other queries. -/
def invalidation (store : Store) (origin : Option QueryKey) (entities : Snapshots) :
    Invalidation :=
  let changed := store.changedEntities entities
  let queries := changed.foldl (fun queries entity =>
    KeySet.insertAll queries
      ((store.dependentsOf entity).filter fun query => some query ≠ origin)) []
  ⟨changed, queries⟩

/-- The snapshots after some entities have been written. -/
def absorbAll (snapshots entities : Snapshots) : Snapshots :=
  entities.foldl (fun snapshots (key, snapshot) =>
    match Table.get? snapshots key with
    | some stored => Table.insert snapshots key (stored.absorb snapshot)
    | none => Table.insert snapshots key snapshot) snapshots

/-- Compares entities with their snapshots and then stores them. -/
def reconcile (store : Store) (origin : Option QueryKey) (entities : Snapshots) :
    Invalidation × Store :=
  (store.invalidation origin entities,
    { store with
      snapshots := absorbAll store.snapshots entities
      writes := store.writes + 1 })

/-- Makes a query a dependent of entities. -/
def addDependent (store : Store) (key : QueryKey) (entities : List EntityKey) : Store :=
  { store with
    dependents := entities.foldl (fun dependents entity =>
      let queries := (Table.get? dependents entity).getD []
      Table.insert dependents entity (KeySet.insert queries key)) store.dependents }

/-! ### Writing and evicting -/

/-- Stores the state of a query. If it has data, the query becomes a dependent
of its entities and these are reconciled. -/
def write (store : Store) (key : QueryKey) (state : QueryState) (entities : Snapshots) :
    Invalidation × Store :=
  match state.data with
  | none => (.none, store.writeState key state)
  | some _ =>
    let store := store.addDependent key (Table.keys entities)
    let (invalidation, store) := store.reconcile (some key) entities
    (invalidation, store.writeState key state)

/-- Stores entities that are not the result of a cached query. -/
def writeEntities (store : Store) (origin : Option QueryKey) (entities : Snapshots) :
    Invalidation × Store :=
  store.reconcile origin entities

/-- Takes a query out, and with it the entities that no other query depends on.
The first component says that the query was there. -/
def evict (store : Store) (key : QueryKey) : Bool × Store :=
  let dependents := (store.dependents.map fun (entity, queries) =>
    (entity, queries.filter (· ≠ key))).filter fun entry => !entry.2.isEmpty
  ((store.cell? key).isSome,
    { store with
      index := Table.erase store.index key
      dependents
      snapshots := store.snapshots.filter fun entry => Table.contains dependents entry.1 })

/-! ### Looking at a store -/

/-- The snapshot of an entity. -/
def snapshot? (store : Store) (entity : EntityKey) : Option Json :=
  Table.get? store.snapshots entity

/-- The cached queries in order. -/
def queryKeys (store : Store) : List QueryKey := Table.keys store.index

/-- The entities with a snapshot in order. -/
def entityKeys (store : Store) : List EntityKey := Table.keys store.snapshots

/-- The number of cached queries. -/
def size (store : Store) : Nat := store.index.length

/-- The cached queries that are loading. -/
def loadingKeys (store : Store) : List QueryKey :=
  store.queryKeys.filter fun key =>
    match store.state? key with
    | some state => state.loading
    | none => false

end Store

/-! ### Subscriptions -/

/-- A subscription to a cell, with the version that it saw last. -/
structure Subscription where
  cell : CellId
  seen : Nat

/-- What a subscription finds when it looks at its cell. -/
structure Observation where
  /-- The cell was written since the last look. Unknown once it is closed. -/
  changed : Option Bool
  /-- Nobody can write to the cell any more. -/
  closed : Bool
  state : QueryState

namespace Store

/-- Subscribes to a cell. Its present state counts as seen. -/
def subscribe (store : Store) (id : CellId) : Subscription :=
  ⟨id, (store.cellOf id).version⟩

/-- The cell is in use: a query has it, or it is among the cells held. -/
def inUse (store : Store) (held : List CellId) (id : CellId) : Bool :=
  held.contains id || (Table.values store.index).contains id

/-- Looks at the cell of a subscription, while some cells are held by handles. -/
def poll (store : Store) (held : List CellId) (subscription : Subscription) :
    Observation × Subscription :=
  let cell := store.cellOf subscription.cell
  let observation : Observation :=
    if store.inUse held subscription.cell then
      ⟨some (cell.version != subscription.seen), false, cell.state⟩
    else
      ⟨none, true, cell.state⟩
  (observation, { subscription with seen := cell.version })

end Store

end QueryCache
