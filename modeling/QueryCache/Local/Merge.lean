import QueryCache.Json.Printer
import QueryCache.Local.PathTree

/-!
# Merging local values into a result

`merge` puts the values of the resolved nodes of a path tree into the result of
the server. Lists are transparent: what holds of an object holds of every object
that is reached through lists. A branch that the server did not return is
created, but where it returned `null` or a scalar nothing is put below that.

`mergeNotes` lists what stood in the way: scalars where objects were expected,
and nodes that are still pending.
-/

namespace QueryCache

namespace Json

mutual

/-- Changes every object that is reached through lists. -/
def mapObjects (f : List (String × Json) → List (String × Json)) : Json → Json
  | array items => array (mapObjectsInAll f items)
  | object members => object (f members)
  | other => other
termination_by structural value => value

/-- Changes every object that is reached from the items of a list. -/
def mapObjectsInAll (f : List (String × Json) → List (String × Json)) :
    List Json → List Json
  | [] => []
  | item :: rest => mapObjects f item :: mapObjectsInAll f rest
termination_by structural items => items

end

mutual

/-- Gathers from every object, and every scalar but `null`, that is reached
through lists. -/
def gather {α : Type} (onObject : List (String × Json) → List α)
    (onScalar : Json → List α) : Json → List α
  | array items => gatherFromAll onObject onScalar items
  | object members => onObject members
  | null => []
  | other => onScalar other
termination_by structural value => value

/-- Gathers from the items of a list. -/
def gatherFromAll {α : Type} (onObject : List (String × Json) → List α)
    (onScalar : Json → List α) : List Json → List α
  | [] => []
  | item :: rest =>
    gather onObject onScalar item ++ gatherFromAll onObject onScalar rest
termination_by structural items => items

end

end Json

/-- Something that stood in the way of a merge. -/
inductive MergeNote where
  /-- A scalar stands where local values belong into an object. -/
  | scalar (value : Json)
  /-- The local field under this key has no value. -/
  | unresolved (key : String)

namespace MergeNote

/-- The wording of a note. -/
def message : MergeNote → String
  | scalar value => "[merge] can not merge local fields into scalar value " ++ value.text
  | unresolved key => "[merge] local field '" ++ key ++ "' was never resolved"

end MergeNote

namespace PathNode

mutual

/-- The members of an object after the node under a key has been merged into
it. -/
def mergeInto : PathNode → String → List (String × Json) → List (String × Json)
  | ⟨_, some (.resolved value), _⟩, key, members => Table.insert members key value
  | ⟨_, some .pending, _⟩, _, members => members
  | ⟨_, none, children⟩, key, members =>
    let child := (Table.get? members key).getD .emptyObject
    Table.insert members key (child.mapObjects (mergeAllInto children))
termination_by structural node => node

/-- The members of an object after all nodes of a tree have been merged into
it. -/
def mergeAllInto :
    List (String × PathNode) → List (String × Json) → List (String × Json)
  | [], members => members
  | (key, node) :: rest, members => mergeAllInto rest (mergeInto node key members)
termination_by structural nodes => nodes

end

mutual

/-- What stands in the way of the node under a key. -/
def notes : PathNode → String → List (String × Json) → List MergeNote
  | ⟨_, some (.resolved _), _⟩, _, _ => []
  | ⟨_, some .pending, _⟩, key, _ => [.unresolved key]
  | ⟨_, none, children⟩, key, members =>
    let child := (Table.get? members key).getD .emptyObject
    child.gather (notesOfAll children) fun value => [.scalar value]
termination_by structural node => node

/-- What stands in the way of the nodes of a tree. -/
def notesOfAll : List (String × PathNode) → List (String × Json) → List MergeNote
  | [], _ => []
  | (key, node) :: rest, members => notes node key members ++ notesOfAll rest members
termination_by structural nodes => nodes

end

end PathNode

/-- The result of the server with the local values in it. -/
def merge (server : Json) (tree : PathTree) : Json :=
  server.mapObjects (PathNode.mergeAllInto tree)

/-- What stood in the way of a merge, in depth first key order. -/
def mergeNotes (server : Json) (tree : PathTree) : List MergeNote :=
  server.gather (PathNode.notesOfAll tree) fun value => [.scalar value]

end QueryCache
