import QueryCache.Client.Journal

/-!
# The cache

A store together with the journal of what has been done to it. The operations
are those of the store, and each of them makes its entry.
-/

namespace QueryCache

/-- A store and its journal. -/
structure Cache where
  store : Store
  journal : List Entry

namespace Cache

/-- The cache that nothing has been written to. -/
def empty : Cache := ⟨.empty, []⟩

/-- Adds an entry to the journal. -/
def note (cache : Cache) (entry : Entry) : Cache :=
  { cache with journal := cache.journal ++ [entry] }

/-- Adds entries to the journal. -/
def noteAll (cache : Cache) (entries : List Entry) : Cache :=
  { cache with journal := cache.journal ++ entries }

/-- All events so far. -/
def events (cache : Cache) : List Event := cache.journal.flatMap Entry.events

/-- The cell of a query, which is made if it is missing. -/
def cell (cache : Cache) (key : QueryKey) : CellId × Cache :=
  let (id, store) := cache.store.cell key
  (id, { cache with store })

/-- Changes the state in a cell. -/
def updateCell (cache : Cache) (id : CellId) (change : QueryState → QueryState) : Cache :=
  { cache with store := cache.store.updateCell id change }

/-- Stores the state of a query. -/
def write (cache : Cache) (key : QueryKey) (state : QueryState) (entities : Snapshots) :
    Invalidation × Cache :=
  let (invalidation, store) := cache.store.write key state entities
  (invalidation,
    { cache with store }.note (.wrote key state entities.length invalidation))

/-- Stores entities that are not the result of a cached query. -/
def writeEntities (cache : Cache) (origin : Option QueryKey) (entities : Snapshots) :
    Invalidation × Cache :=
  let (invalidation, store) := cache.store.writeEntities origin entities
  (invalidation,
    { cache with store }.note (.wroteEntities origin entities.length invalidation))

/-- Takes a query out. The first component says that it was there. -/
def evict (cache : Cache) (key : QueryKey) : Bool × Cache :=
  let (existed, store) := cache.store.evict key
  let cache := { cache with store }
  (existed, if existed then cache.note (.evicted key) else cache)

end Cache

end QueryCache
