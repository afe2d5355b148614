import QueryCache.Json.Basic

/-!
# Path trees

A path tree says where in a result the values of local fields belong. Its nodes
stand under the response keys of a query. A node is marked when its field is
local: pending while the value is unknown, resolved once it is there. An
unmarked node only leads to the nodes below it.

`PathTree.insert` combines nodes under one key. A mark wins over the nodes
below the other node, and the mark that came first stays; the nodes below two
unmarked nodes are combined in turn. A dead node, which has neither a mark nor
nodes below it, is not inserted.
-/

namespace QueryCache

/-- The state of a local field. -/
inductive Mark where
  /-- The value is still to be found. -/
  | pending
  /-- The value is there. -/
  | resolved (value : Json)

/-- A node of a path tree. The field name can differ from the response key under
which the node stands. -/
structure PathNode where
  fieldName : String
  mark : Option Mark
  children : List (String × PathNode)

/-- Nodes under their response keys, in the order of the keys. -/
abbrev PathTree := Table String PathNode

namespace PathNode

instance : Inhabited PathNode := ⟨"", none, []⟩

/-- A node with a pending value. -/
def pending (fieldName : String) : PathNode := ⟨fieldName, some .pending, []⟩

/-- The node stands for a local field. -/
def isLocal (node : PathNode) : Bool := node.mark.isSome

/-- The node has neither a mark nor nodes below it. -/
def isDead (node : PathNode) : Bool := node.mark.isNone && node.children.isEmpty

/-- The value of a resolved node. -/
def resolvedValue? (node : PathNode) : Option Json :=
  match node.mark with
  | some (.resolved value) => some value
  | _ => none

/-- Puts a node under a key, where `combine` gives the node that takes the
place of one that stands there already. -/
def place (tree : List (String × PathNode)) (key : String) (node : PathNode)
    (combine : PathNode → PathNode) : List (String × PathNode) :=
  if node.isDead then tree
  else
    match Table.get? tree key with
    | some existing => Table.insert tree key (combine existing)
    | none => Table.insert tree key node

mutual

/-- The node that `node` and an earlier node under the same key combine to. -/
def absorbedBy : PathNode → PathNode → PathNode
  | ⟨fieldName, mark, children⟩, existing =>
    if existing.isLocal then existing
    else if mark.isSome then ⟨fieldName, mark, children⟩
    else { existing with children := insertAll children existing.children }
termination_by structural node => node

/-- Inserts nodes into a tree, one after the other. -/
def insertAll :
    List (String × PathNode) → List (String × PathNode) → List (String × PathNode)
  | [], tree => tree
  | (key, node) :: rest, tree =>
    insertAll rest (place tree key node (absorbedBy node))
termination_by structural nodes => nodes

end

end PathNode

namespace PathTree

/-- Inserts a node. A dead node is dropped, and a node under a key that is
taken is absorbed by the one there. -/
def insert (tree : PathTree) (key : String) (node : PathNode) : PathTree :=
  PathNode.place tree key node node.absorbedBy

mutual

/-- A node below which, or at which, a value is pending. Below a mark nothing
counts. -/
def nodeHasPending : PathNode → Bool
  | ⟨_, some .pending, _⟩ => true
  | ⟨_, some (.resolved _), _⟩ => false
  | ⟨_, none, children⟩ => hasPending children
termination_by structural node => node

/-- A value is pending somewhere in the tree. -/
def hasPending : List (String × PathNode) → Bool
  | [] => false
  | (_, node) :: rest => nodeHasPending node || hasPending rest
termination_by structural tree => tree

end

mutual

/-- The paths from a node to the local fields at it or below it. -/
def nodePaths : PathNode → List (List String)
  | ⟨_, some _, _⟩ => [[]]
  | ⟨_, none, children⟩ => localPaths children
termination_by structural node => node

/-- The response key paths of the local fields, in depth first key order. -/
def localPaths : List (String × PathNode) → List (List String)
  | [] => []
  | (key, node) :: rest => (nodePaths node).map (key :: ·) ++ localPaths rest
termination_by structural tree => tree

end

/-- The node at a path of response keys. There is none at the empty path. -/
def nodeAt? : PathTree → List String → Option PathNode
  | _, [] => none
  | tree, [key] => Table.get? tree key
  | tree, key :: rest =>
    match Table.get? tree key with
    | some node => nodeAt? node.children rest
    | none => none

/-- Changes the nodes under the parent of a path. None when there is no such
parent. -/
def modifyAt? (f : PathTree → PathTree) : List String → PathTree → Option PathTree
  | [], tree => some (f tree)
  | key :: rest, tree => do
    let node ← Table.get? tree key
    let children ← modifyAt? f rest node.children
    return Table.insert tree key { node with children }

/-- Gives the node at a path a value. None when there is no such node. -/
def resolveAt? (value : Json) : List String → PathTree → Option PathTree
  | [], _ => none
  | [key], tree => do
    let node ← Table.get? tree key
    return Table.insert tree key { node with mark := some (.resolved value) }
  | key :: rest, tree => do
    let node ← Table.get? tree key
    let children ← resolveAt? value rest node.children
    return Table.insert tree key { node with children }

end PathTree

end QueryCache
