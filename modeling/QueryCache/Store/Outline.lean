import QueryCache.Local.Resolver
import QueryCache.Store.Basic
import QueryCache.Store.Event

/-!
# Outlines of stores and resolver tables

The outlines of JSON values, failures, states, whole stores and resolver
tables. The function of a resolver has no outline of its own.
-/

namespace QueryCache

open Text

namespace Json

mutual

/-- The outline of a value. -/
def outline : Json → String
  | null => "Null"
  | bool value => outlineWrapped "Bool" (outlineBool value)
  | number value => outlineWrapped "Number" (String.ofList value.text)
  | string value => outlineWrapped "String" (outlineString value)
  | array items => "Array " ++ outlineList (outlineItems items)
  | object members => "Object " ++ outlineTable (outlineMembers members)
termination_by structural value => value

/-- The outlines of the items of a list. -/
def outlineItems : List Json → List String
  | [] => []
  | item :: rest => outline item :: outlineItems rest
termination_by structural items => items

/-- The outlines of the names and values of members. -/
def outlineMembers : List (String × Json) → List (String × String)
  | [] => []
  | (name, value) :: rest => (outlineString name, outline value) :: outlineMembers rest
termination_by structural members => members

end

end Json

/-- The outline of a failure. -/
def Failure.outline : Failure → String
  | query fault => outlineWrapped "Syntax" (outlineString fault.message)
  | transport text => outlineWrapped "Transport" (outlineString text)
  | notCached key => outlineWrapped "QueryNotCached" (outlineString key)
  | cyclic chain =>
    outlineWrapped "CyclicDependency" (outlineList (chain.map outlineString))
  | resolver text => outlineWrapped "Resolver" (outlineString text)
  | settings text => outlineWrapped "Config" (outlineString text)
  | encoding text => outlineWrapped "Serialization" (outlineString text)
  | fileSystem text => outlineWrapped "Io" (outlineString text)
  | notFound text => outlineWrapped "NotFound" (outlineString text)

/-- The outline of a state. -/
def QueryState.outline (state : QueryState) : String :=
  outlineRecord "QueryState"
    [("loading", outlineBool state.loading),
      ("data", outlineOption (state.data.map Json.outline)),
      ("has_error", outlineBool state.hasError),
      ("error", outlineOption (state.error.map Failure.outline))]

/-- The outline of a store, which says whether its events are observed. -/
def Store.outline (store : Store) (observed : Bool) : String :=
  let cells := store.index.map fun (key, id) =>
    (key.outline, outlineWrapped "StateCell" (store.stateOf id).outline)
  let snapshots := store.snapshots.map fun (key, value) => (key.outline, value.outline)
  let dependents := store.dependents.map fun (key, queries) =>
    (key.outline, outlineSet (queries.map QueryKey.outline))
  outlineRecord "NormalizedCache"
    [("query_cells", outlineTable cells),
      ("entity_snapshots", outlineTable snapshots),
      ("dependents", outlineTable dependents),
      ("writes", toString store.writes),
      ("events", outlineBool observed)]

namespace Resolver

mutual

/-- The outline of an entry of a resolver table. -/
def outline : Resolver → String
  | leaf _ => outlineWrapped "Leaf" "<fn>"
  | table entries =>
    outlineWrapped "Table"
      (outlineWrapped "ResolverTable" (outlineTable (outlineEntries entries)))
termination_by structural entry => entry

/-- The outlines of the names and entries of a resolver table. -/
def outlineEntries : List (String × Resolver) → List (String × String)
  | [] => []
  | (name, entry) :: rest => (outlineString name, outline entry) :: outlineEntries rest
termination_by structural entries => entries

end

end Resolver

/-- The outline of a resolver table. -/
def ResolverTable.outline (table : ResolverTable) : String :=
  outlineWrapped "ResolverTable" (outlineTable (Resolver.outlineEntries table))

end QueryCache
