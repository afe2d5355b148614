import QueryCache.Local.PathTree
import QueryCache.Log
import QueryCache.Query.Basic

/-!
# Splitting a query

`Document.split` separates the fields that carry a directive, the local fields,
from those that the server answers. One walk through the selections gives both
halves: the document without local fields, from which fields and inline
fragments disappear when the walk uses up their selections, and the path tree
that says where the values of the local fields belong. Inline fragments leave
no trace in the path tree, and below a local field nothing counts.

The fields of fragment definitions are taken out too, but stand at no known
place of a result.
-/

namespace QueryCache

/-- The two halves of a query. -/
structure Split where
  /-- The query without its local fields. -/
  server : Document
  /-- Where the values of the local fields belong. -/
  pathTree : PathTree
  /-- Some definition has a local field. -/
  foundLocal : Bool
  /-- There is something left to ask the server for. -/
  sendToServer : Bool

/-- What a log says of a split. -/
def Split.logLine (foundLocal sendToServer : Bool) : LogLine :=
  ⟨.debug, "[split] found_local_field: " ++ toString foundLocal ++
    ", send_to_server: " ++ toString sendToServer⟩

namespace Selection

mutual

/-- What the server sees of a selection, and the path tree with the local
fields of the selection added to it. -/
def split (directive : String) : Selection → PathTree → Option Selection × PathTree
  | field head none, tree =>
    if head.hasDirective directive then
      (none, tree.insert head.responseKey (.pending head.name))
    else
      (some (field head none), tree.insert head.responseKey ⟨head.name, none, []⟩)
  | field head (some set), tree =>
    if head.hasDirective directive then
      (none, tree.insert head.responseKey (.pending head.name))
    else
      let (kept, children) := splitAll directive set []
      let tree := tree.insert head.responseKey ⟨head.name, none, children⟩
      if set.isEmpty || !kept.isEmpty then (some (field head (some kept)), tree)
      else (none, tree)
  | spread name directives, tree => (some (spread name directives), tree)
  | inline condition directives set, tree =>
    let (kept, tree) := splitAll directive set tree
    if set.isEmpty || !kept.isEmpty then
      (some (inline condition directives kept), tree)
    else
      (none, tree)
termination_by structural selection => selection

/-- What the server sees of the selections of a list, and their local fields. -/
def splitAll (directive : String) : List Selection → PathTree → SelectionSet × PathTree
  | [], tree => ([], tree)
  | selection :: rest, tree =>
    let (kept, tree) := split directive selection tree
    let (others, tree) := splitAll directive rest tree
    (kept.toList ++ others, tree)
termination_by structural set => set

end

end Selection

namespace Document

/-- What the server sees of some operations, and their local fields. -/
def splitOperations (directive : String) :
    List Operation → PathTree → List Operation × PathTree
  | [], tree => ([], tree)
  | op :: rest, tree =>
    let (kept, tree) := Selection.splitAll directive op.selections tree
    let (others, tree) := splitOperations directive rest tree
    ({ op with selections := kept } :: others, tree)

/-- What the server sees of a fragment, and its local fields. -/
def splitFragment (directive : String) (fragment : Fragment) : Fragment × PathTree :=
  let (kept, tree) := Selection.splitAll directive fragment.selections []
  ({ fragment with selections := kept }, tree)

/-- Separates the fields that carry a directive from the others. -/
def split (directive : String) (d : Document) : Split :=
  let (operations, pathTree) := splitOperations directive d.operations []
  let fragments := d.fragments.map (splitFragment directive)
  let hadSelections := d.operations.any fun op => !op.selections.isEmpty
  let keepsSelections := operations.any fun op => !op.selections.isEmpty
  { server := ⟨operations, fragments.map Prod.fst⟩
    pathTree
    foundLocal := !pathTree.isEmpty || fragments.any fun found => !found.2.isEmpty
    sendToServer := !hadSelections || keepsSelections }

end Document

end QueryCache
