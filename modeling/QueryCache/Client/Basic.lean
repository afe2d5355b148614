import QueryCache.Client.Cache
import QueryCache.Local.Resolver
import QueryCache.Local.Split
import QueryCache.Query.Fields
import QueryCache.Query.Inline
import QueryCache.Settings.Basic
import QueryCache.Text.Blank

/-!
# The client

The client prepares queries, sends them, resolves and merges their local
fields, and keeps the results in a cache. After a write that changed entities
it runs every query again that depends on them.

The outside world is a `Backend`: it answers requests and resolves local
fields, and may change its own state with every call. A `Session` is the state
of a client and its world. Every operation is a function on sessions.

A failure becomes the state of the query that it belongs to. It is returned as
well unless it is of a kind that is recorded, `Failure.isRecordable`. Besides, an
operation fails when a query is refused and when re-runs come to a cycle.
-/

namespace QueryCache

/-- The two accepted forms of a query. -/
inductive QuerySource where
  | text (content : String)
  | tree (document : Document)

namespace QuerySource

/-- The document of a query. A tree is taken as it is. -/
def document : QuerySource → Except Failure Document
  | text content => (Document.ofText? content).mapError .query
  | tree document => .ok document

end QuerySource

/-- The world outside of a client. -/
structure Backend (σ : Type) where
  /-- Answers a request. -/
  fetch : Request → σ → Except Failure Json × σ
  /-- Gives the pending nodes of a path tree their values. -/
  resolve : PathTree → Option Json → Variables → σ → Except Failure PathTree × σ

/-- A query that is ready to run. -/
structure Prepared where
  key : QueryKey
  split : Split
  request : Request

namespace Prepared

/-- How the query is called in a log: by the name of its operation, or by its
key on one line. -/
def label (prepared : Prepared) : String :=
  match prepared.request.operationName with
  | some name => name
  | none => Text.oneLine prepared.key.text

/-- Inlines fragments, splits off local fields and injects fields into what is
sent. The key is that of the query as it was given. -/
def ofDocument (settings : Settings) (document : Document) (vars : Variables) :
    Except Failure Prepared := do
  let inlined ← document.inlineFragments.mapError .query
  let split := inlined.split settings.localDirective
  let split := { split with server := split.server.addFields settings.injectFields }
  return ⟨.ofQuery document vars, split,
    ⟨split.server.text, vars, document.operationName⟩⟩

end Prepared

/-- The state of a client and of its world. -/
structure Session (σ : Type) where
  cache : Cache
  /-- The queries that can run again. -/
  registry : Table QueryKey Prepared
  world : σ

/-- A query, its cell, and the state that it settled in. -/
structure Handle where
  key : QueryKey
  cell : CellId
  state : QueryState

namespace Session

variable {σ : Type}

/-- The session over an empty cache. -/
def start (world : σ) : Session σ := ⟨.empty, [], world⟩

/-- Adds an entry to the journal. -/
def note (session : Session σ) (entry : Entry) : Session σ :=
  { session with cache := session.cache.note entry }

/-- Notes that an execution went on to a phase. -/
def advance (session : Session σ) (label : String) (before after : Phase) : Session σ :=
  session.note (.advanced label before after)

/-! ### Preparing -/

/-- Prepares a query. A query that is refused changes nothing. -/
def prepare (settings : Settings) (source : QuerySource) (vars : Variables)
    (session : Session σ) : Except Failure Prepared × Session σ :=
  match source.document.bind fun document =>
      Prepared.ofDocument settings document vars with
  | .ok prepared =>
    (.ok prepared,
      session.note (.split prepared.split.foundLocal prepared.split.sendToServer))
  | .error failure => (.error failure, session)

/-! ### Executing -/

/-- The answer of the server to a prepared query, absent when it is not asked,
and the phase after that. -/
def fetch (backend : Backend σ) (prepared : Prepared) (label : String)
    (session : Session σ) : Except Failure (Option Json × Phase) × Session σ :=
  if prepared.split.sendToServer then
    let session := session.advance label .parsing .fetching
    let session :=
      session.note (.requested prepared.request session.cache.store.loadingKeys)
    match backend.fetch prepared.request session.world with
    | (.ok data, world) => (.ok (some data, .fetching), { session with world })
    | (.error failure, world) =>
      (.error failure.asTransport,
        { session with world }.advance label .fetching .failed)
  else
    (.ok (none, .skipFetch), session.advance label .parsing .skipFetch)

/-- The result of a prepared query: the answer of the server with the local
values in it, and the phase after that. -/
def fetchAndResolve (backend : Backend σ) (prepared : Prepared) (label : String)
    (session : Session σ) : Except Failure (Json × Phase) × Session σ :=
  match session.fetch backend prepared label with
  | (.error failure, session) => (.error failure, session)
  | (.ok (answer, phase), session) =>
    let data := answer.getD .emptyObject
    let tree := prepared.split.pathTree
    if PathTree.hasPending tree then
      let session := session.advance label phase .resolving
      match backend.resolve tree answer prepared.request.vars session.world with
      | (.ok resolved, world) =>
        let session := { session with world }.advance label .resolving .merging
        let notes := (mergeNotes data resolved).map .obstructed
        (.ok (merge data resolved, .merging),
          { session with cache := session.cache.noteAll notes })
      | (.error failure, world) =>
        (.error failure.asResolver,
          { session with world }.advance label .resolving .failed)
    else
      (.ok (data, phase), session)

/-- Runs a query once and stores the outcome, unless there is a fresh result
and the run is not forced. A failure is stored, and returned if it is of a kind
that is not recorded. -/
def execute (settings : Settings) (backend : Backend σ) (prepared : Prepared)
    (force : Bool) (session : Session σ) : Except Failure Invalidation × Session σ :=
  let key := prepared.key
  let label := prepared.label
  let session := (session.note (.executed key)).advance label .idle .parsing
  if !force && session.cache.store.isFresh key then
    (.ok .none, session.advance label .parsing .done)
  else
    let (id, cache) := session.cache.cell key
    let cache :=
      if prepared.split.sendToServer then
        cache.updateCell id fun state => { state with loading := true }
      else cache
    match { session with cache }.fetchAndResolve backend prepared label with
    | (.ok (data, phase), session) =>
      let session := session.advance label phase .caching
      let (invalidation, cache) :=
        session.cache.write key (.ready data) (flatten data settings.identity)
      (.ok invalidation, { session with cache }.advance label .caching .done)
    | (.error failure, session) =>
      let session := session.note (.failed label failure)
      let (_, cache) := session.cache.write key (.failed failure) []
      (if failure.isRecordable then .ok .none else .error failure, { session with cache })

/-! ### Running invalidated queries again -/

/-- A query that has to run again, and the chain of queries that led to it. -/
structure Rerun where
  key : QueryKey
  chain : List QueryKey

/-- The re-runs that an invalidation asks for after a chain. -/
def rerunsOf (chain : List QueryKey) (invalidation : Invalidation) : List Rerun :=
  invalidation.queries.map fun key => ⟨key, chain⟩

/-- Gives up a chain of re-runs. -/
def abort (rerun : Rerun) (session : Session σ) : Failure × Session σ :=
  let cycle := rerun.chain ++ [rerun.key]
  (.cyclic (cycle.map QueryKey.text), session.note (.aborted cycle.length))

/-- Runs queries again whose chains are equally long, and lists the re-runs that
this asks for. With `mayRun` off, chains of this length are too long. -/
def rerunAll (settings : Settings) (backend : Backend σ) (mayRun : Bool) :
    List Rerun → Session σ → Except Failure (List Rerun) × Session σ
  | [], session => (.ok [], session)
  | rerun :: rest, session =>
    if rerun.chain.contains rerun.key || !mayRun then
      let (failure, session) := session.abort rerun
      (.error failure, session)
    else
      let (outcome, session) : Except Failure Invalidation × Session σ :=
        match Table.get? session.registry rerun.key with
        | none => (.ok .none, session.note (.skipped rerun.key))
        | some prepared => session.execute settings backend prepared true
      match outcome with
      | .error failure => (.error failure, session)
      | .ok invalidation =>
        match rerunAll settings backend mayRun rest session with
        | (.ok others, session) =>
          (.ok (rerunsOf (rerun.chain ++ [rerun.key]) invalidation ++ others), session)
        | (.error failure, session) => (.error failure, session)

/-- Runs queries again, and those that this invalidates, until nothing changes
any more. All chains are equally long, and may grow by `depth` queries. -/
def rerunFrom (settings : Settings) (backend : Backend σ) :
    Nat → List Rerun → Session σ → Except Failure Unit × Session σ
  | _, [], session => (.ok (), session)
  | 0, reruns, session =>
    match session.rerunAll settings backend false reruns with
    | (.ok _, session) => (.ok (), session)
    | (.error failure, session) => (.error failure, session)
  | depth + 1, reruns, session =>
    match session.rerunAll settings backend true reruns with
    | (.ok next, session) => rerunFrom settings backend depth next session
    | (.error failure, session) => (.error failure, session)

/-- Runs every query again that a write of `origin` has invalidated. -/
def propagate (settings : Settings) (backend : Backend σ) (origin : Option QueryKey)
    (invalidation : Invalidation) (session : Session σ) :
    Except Failure Unit × Session σ :=
  let chain := origin.toList
  session.rerunFrom settings backend (settings.maxInvalidationDepth - chain.length)
    (rerunsOf chain invalidation)

/-! ### Operations -/

/-- Runs a query, and the queries that its result invalidates. -/
def run (settings : Settings) (backend : Backend σ) (source : QuerySource)
    (vars : Variables) (force : Bool) (session : Session σ) :
    Except Failure Handle × Session σ :=
  match session.prepare settings source vars with
  | (.error failure, session) => (.error failure, session)
  | (.ok prepared, session) =>
    let key := prepared.key
    let session := { session with registry := Table.insert session.registry key prepared }
    match session.execute settings backend prepared force with
    | (.error failure, session) => (.error failure, session)
    | (.ok invalidation, session) =>
      match session.propagate settings backend (some key) invalidation with
      | (.error failure, session) => (.error failure, session)
      | (.ok (), session) =>
        let (cell, cache) := session.cache.cell key
        (.ok ⟨key, cell, cache.store.stateOf cell⟩, { session with cache })

/-- Runs a query, or returns its state when that is fresh. -/
def query (settings : Settings) (backend : Backend σ) (source : QuerySource)
    (vars : Variables) : Session σ → Except Failure Handle × Session σ :=
  run settings backend source vars false

/-- Runs a query whatever its state. -/
def refetch (settings : Settings) (backend : Backend σ) (source : QuerySource)
    (vars : Variables) : Session σ → Except Failure Handle × Session σ :=
  run settings backend source vars true

/-- Sends a mutation. The entities of its answer are stored, its result is not. A
failure is returned as a state if it is of a kind that is recorded. -/
def mutate (settings : Settings) (backend : Backend σ) (source : QuerySource)
    (vars : Variables) (session : Session σ) :
    Except Failure QueryState × Session σ :=
  let session := session.advance "mutation" .idle .parsing
  match session.prepare settings source vars with
  | (.error failure, session) => (.error failure, session)
  | (.ok prepared, session) =>
    let label := prepared.label
    match session.fetchAndResolve backend prepared label with
    | (.error failure, session) =>
      (if failure.isRecordable then .ok (.failed failure) else .error failure, session)
    | (.ok (data, phase), session) =>
      let session := session.advance label phase .caching
      let (invalidation, cache) :=
        session.cache.writeEntities none (flatten data settings.identity)
      let session := { session with cache }.advance label .caching .done
      match session.propagate settings backend none invalidation with
      | (.error failure, session) => (.error failure, session)
      | (.ok (), session) => (.ok (.ready data), session)

/-- Takes a query out of the cache. The first component says that it was there. -/
def evict (key : QueryKey) (session : Session σ) : Bool × Session σ :=
  let (existed, cache) := session.cache.evict key
  (existed, { session with cache, registry := Table.erase session.registry key })

/-- The cached state of a query, under its key. -/
def readQuery (source : QuerySource) (vars : Variables) (session : Session σ) :
    Except Failure (QueryKey × QueryState) := do
  let document ← source.document
  let key := QueryKey.ofQuery document vars
  return (key, ← session.cache.store.read key)

/-- Replaces the cached result of a query, and runs the others again that share
a changed entity with it. -/
def writeQuery (settings : Settings) (backend : Backend σ) (key : QueryKey)
    (data : Json) (session : Session σ) : Except Failure Unit × Session σ :=
  let (invalidation, cache) :=
    session.cache.write key (.ready data) (flatten data settings.identity)
  { session with cache }.propagate settings backend (some key) invalidation

end Session

end QueryCache
