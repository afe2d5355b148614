import QueryCache.Failure
import QueryCache.Local.PathTree

/-!
# Resolving local fields

A resolver table follows the nesting of a query. It is keyed by field name, and
an entry is either a function for a local field or the table for the fields
below a field. `ResolverTable.resolve` walks a path tree and a table side by
side and gives every pending node its value. Nodes that have a value are left
alone, and so is everything below a mark. The first failure in depth first key
order stops the walk.
-/

namespace QueryCache

/-- What a resolver function gets to see. -/
structure ResolverArgs where
  /-- The response keys from the root to the field. -/
  path : List String
  fieldName : String
  /-- The value of the server that holds the field, if there is one. -/
  parent : Option Json
  vars : Variables

/-- An entry of a resolver table. -/
inductive Resolver where
  /-- A function for a local field. -/
  | leaf (resolve : ResolverArgs → Except Failure Json)
  /-- The resolvers for the fields below a field. -/
  | table (entries : List (String × Resolver))

/-- Resolvers under field names. -/
abbrev ResolverTable := Table String Resolver

namespace Resolver

instance : Inhabited Resolver := ⟨table []⟩

/-- The failure for a path without a fitting entry. -/
def missing (path : List String) : Failure :=
  .resolver ("No resolver registered for '" ++ ".".intercalate path ++ "'")

mutual

/-- A node with its values, where `entry` is the resolver under its field name
and `path` leads to it. -/
def resolveNode (vars : Variables) :
    PathNode → String → Option Resolver → Option Json → List String →
      Except Failure PathNode
  | ⟨fieldName, some (.resolved value), children⟩, _, _, _, _ =>
    .ok ⟨fieldName, some (.resolved value), children⟩
  | ⟨fieldName, some .pending, children⟩, _, some (leaf resolve), parent, path => do
    let value ← resolve ⟨path, fieldName, parent, vars⟩
    return ⟨fieldName, some (.resolved value), children⟩
  | ⟨fieldName, none, children⟩, key, some (table entries), parent, path => do
    let child := parent.bind fun value => value.member? key
    return ⟨fieldName, none, ← resolveNodes vars children entries child path⟩
  | _, _, _, _, path => .error (missing path)
termination_by structural node => node

/-- The nodes of a tree with their values, where `path` leads to the tree and
`parent` is the value of the server there. -/
def resolveNodes (vars : Variables) :
    List (String × PathNode) → List (String × Resolver) → Option Json →
      List String → Except Failure (List (String × PathNode))
  | [], _, _, _ => .ok []
  | (key, node) :: rest, entries, parent, path => do
    let entry := Table.get? entries node.fieldName
    let resolved ← resolveNode vars node key entry parent (path ++ [key])
    let others ← resolveNodes vars rest entries parent path
    return (key, resolved) :: others
termination_by structural nodes => nodes

end

end Resolver

namespace ResolverTable

/-- The tree with a value at every pending node. `server` is what the server
answered to the same query, if it was asked. -/
def resolve (table : ResolverTable) (tree : PathTree) (server : Option Json)
    (vars : Variables) : Except Failure PathTree :=
  Resolver.resolveNodes vars tree table server []

end ResolverTable

end QueryCache
