import QueryCache.Client.Phase
import QueryCache.Local.Merge
import QueryCache.Local.Split
import QueryCache.Store.Basic
import QueryCache.Store.Event

/-!
# The journal

A journal lists everything that happens to a store and its client, in order. It
is the one record of a run, and has three views: the events that observers of
the store receive, the requests that were sent, and the lines of a log.
-/

namespace QueryCache

/-- A query as it is sent to the server. -/
structure Request where
  query : String
  vars : Variables
  operationName : Option String

/-- Something that happened. -/
inductive Entry where
  /-- The state of a query was stored, with this many entities. -/
  | wrote (key : QueryKey) (state : QueryState) (entities : Nat)
      (invalidation : Invalidation)
  /-- Entities were stored without a query. -/
  | wroteEntities (origin : Option QueryKey) (entities : Nat)
      (invalidation : Invalidation)
  /-- A cached query was taken out. -/
  | evicted (key : QueryKey)
  /-- A query was split. -/
  | split (foundLocal sendToServer : Bool)
  /-- An execution of a query began. -/
  | executed (key : QueryKey)
  /-- An execution went from one phase to another. -/
  | advanced (label : String) (before after : Phase)
  /-- A request was sent while these queries were loading. -/
  | requested (request : Request) (loading : List QueryKey)
  /-- Something stood in the way of a merge. -/
  | obstructed (note : MergeNote)
  /-- An execution ended with a failure. -/
  | failed (label : String) (failure : Failure)
  /-- A chain of re-runs of this many queries was given up. -/
  | aborted (length : Nat)
  /-- A query that has to run again was never prepared. -/
  | skipped (key : QueryKey)

namespace Entry

/-- The events for the other queries that a write concerns. -/
def invalidationEvents (origin : Option QueryKey) (invalidation : Invalidation) :
    List Event :=
  invalidation.changed.map .entityChanged ++
    invalidation.queries.map fun query => .queryInvalidated query origin

/-- The events that observers receive. -/
def events : Entry → List Event
  | wrote key state _ invalidation =>
    if state.data.isSome then
      .queryWritten key :: invalidationEvents (some key) invalidation
    else if state.hasError then [.queryFailed key]
    else []
  | wroteEntities origin _ invalidation => invalidationEvents origin invalidation
  | evicted key => [.queryEvicted key]
  | _ => []

/-- The request that was sent. -/
def request? : Entry → Option (Request × List QueryKey)
  | requested request loading => some (request, loading)
  | _ => none

/-- The line of the log, without what concerns the delivery of events. -/
def lines : Entry → List LogLine
  | wrote key state entities invalidation =>
    if state.data.isSome then
      [⟨.debug, "[NormalizedCache::write] " ++ toString entities ++ " entities, " ++
        toString invalidation.changed.length ++ " changed, " ++
        toString invalidation.queries.length ++ " queries invalidated"⟩]
    else if state.hasError then
      [⟨.debug, "[NormalizedCache::write] query failed:\n" ++ key.text⟩]
    else []
  | wroteEntities _ entities invalidation =>
    [⟨.debug, "[NormalizedCache::write_entities] " ++ toString entities ++
      " entities, " ++ toString invalidation.changed.length ++ " changed"⟩]
  | evicted key => [⟨.debug, "[NormalizedCache::evict] evicted:\n" ++ key.text⟩]
  | split foundLocal sendToServer => [Split.logLine foundLocal sendToServer]
  | executed _ => []
  | advanced label before after =>
    let step := before.name ++ " -> " ++ after.name ++ " for " ++ label
    if before.canAdvance after then [⟨.debug, "[QueryClient] " ++ step⟩]
    else [⟨.warn, "[QueryClient] unexpected transition " ++ step⟩]
  | requested _ _ => []
  | obstructed note => [⟨.warn, note.message⟩]
  | failed label failure =>
    [⟨.warn, "[QueryClient] " ++ label ++ " failed: " ++ failure.message⟩]
  | aborted length =>
    [⟨.warn, "[QueryClient] invalidation chain of " ++ toString length ++
      " queries aborted"⟩]
  | skipped key =>
    [⟨.debug, "[QueryClient] skipping re-run of unknown query:\n" ++ key.text⟩]

/-- The failure to deliver an event. -/
def undelivered (event : Event) : Failure :=
  .fileSystem ("Channel update send Error, could not transmit cache event " ++
    event.outline)

/-- The lines of the log where nobody receives the events any more. -/
def linesWhenClosed (entry : Entry) : List LogLine :=
  entry.lines ++ entry.events.map fun event =>
    ⟨.warn, "[NormalizedCache] dropping event: " ++ (undelivered event).message⟩

end Entry

end QueryCache
