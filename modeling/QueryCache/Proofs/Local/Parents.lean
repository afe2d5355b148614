import QueryCache.Proofs.Json.Difference
import QueryCache.Proofs.Local.Merged

/-!
# The parents that resolvers are given

Resolvers and merges walk one path tree, the first to look values of the server up and the
others to put values there. A pending node is resolved by one call of a function, which is
given the value at the path of the node (`Resolver.leaf_entriesAt`). A merge puts the value of the
node into every object that it reaches by the path, and it goes through lists. Where no list
stands on the way, there is one such object, and it is the value that the function was given
(`ResolverTable.parent_of_merged`).
-/

namespace QueryCache

namespace Json

/-- A list stands on the path or at its end. -/
def meetsList : List String → Json → Bool
  | _, array _ => true
  | key :: rest, object members => (Table.get? members key).any (meetsList rest)
  | _, _ => false

/-- Without lists there is at most one object at the end of a path. -/
theorem at?_of_mem_reached {path : List String} {value found : Json}
    {members : List (String × Json)} (hlist : value.meetsList path = false)
    (hfound : found ∈ value.reached path) (hmembers : members ∈ found.objects) :
    value.at? path = some (.object members) := by
  induction path generalizing value with
  | nil =>
      cases List.mem_singleton.1 hfound
      cases found with
      | array items => cases hlist
      | object found =>
          cases List.mem_singleton.1 hmembers
          rfl
      | _ => cases hmembers
  | cons key rest ih =>
      obtain ⟨outer, houter, child, hchild, hrest⟩ := mem_reached_cons.1 hfound
      cases value with
      | array items => cases hlist
      | object found =>
          cases List.mem_singleton.1 houter
          rw [meetsList, hchild] at hlist
          rw [at?_cons, member?, hchild]
          exact ih hlist hrest
      | _ => cases houter

end Json

namespace PathTree

theorem below_nil (path : List String) : below [] path = [] := by
  induction path with
  | nil => rfl
  | cons key rest ih => exact ih

theorem below_cons (tree : PathTree) (key : String) (rest : List String) :
    tree.below (key :: rest) = (tree.childrenAt key).below rest := rfl

/-- A path without local nodes goes through inner nodes, if there is something at its end. -/
theorem exists_of_below {tree : PathTree} {first key : String} {rest : List String}
    {node : PathNode} (hmarks : ¬ Marks tree (first :: rest))
    (hnode : Table.get? (tree.below (first :: rest)) key = some node) :
    ∃ fieldName children, Table.get? tree first = some ⟨fieldName, none, children⟩ := by
  rw [marks_cons_iff, not_or, isLocalAt] at hmarks
  rw [below_cons, childrenAt] at hnode
  rcases hfirst : Table.get? tree first with _ | ⟨fieldName, _ | mark, children⟩
  · rw [hfirst] at hnode
    cases (congrArg (Table.get? · key) (below_nil rest)).symm.trans hnode
  · exact ⟨fieldName, children, rfl⟩
  · rw [hfirst] at hmarks
    exact absurd rfl hmarks.1

variable {tree filled : PathTree}

theorem Sorted.below (h : tree.Sorted) (path : List String) : (tree.below path).Sorted := by
  induction path generalizing tree with
  | nil => exact h
  | cons key rest ih => exact ih (h.childrenAt key)

/-- Filling a tree makes no node local. -/
theorem Filled.marks_iff (h : tree.Filled filled) (path : List String) :
    Marks filled path ↔ Marks tree path := by
  induction path generalizing tree filled with
  | nil => exact Iff.rfl
  | cons key rest ih =>
      rw [marks_cons_iff, marks_cons_iff]
      rcases h.under key with ⟨hlocal, hlocal', -⟩ | ⟨hlocal, hlocal', hbelow⟩
      · simp [hlocal, hlocal']
      · simp [hlocal, hlocal', ih hbelow]

theorem filled_below (h : tree.Filled filled) {path : List String}
    (hmarks : ¬ Marks tree path) : (tree.below path).Filled (filled.below path) := by
  induction path generalizing tree filled with
  | nil => exact h
  | cons key rest ih =>
      rw [marks_cons_iff, not_or] at hmarks
      rcases h.under key with ⟨hlocal, -⟩ | ⟨-, -, hbelow⟩
      · exact absurd hlocal hmarks.1
      · exact ih hbelow hmarks.2

end PathTree

namespace Resolver

/-- The resolvers for the fields at the end of a path of response keys. The tree tells which
fields stand under the keys. -/
def entriesAt (tree : PathTree) (entries : List (String × Resolver)) :
    List String → List (String × Resolver)
  | [] => entries
  | key :: rest =>
    match (Table.get? tree key).bind fun node => Table.get? entries node.fieldName with
    | some (table inner) => entriesAt (tree.childrenAt key) inner rest
    | _ => []

variable {vars : Variables} {tree filled : List (String × PathNode)}
  {entries : List (String × Resolver)} {parent : Option Json} {path : List String}

/-- Every node of a tree is resolved by the entry under its field name. -/
theorem get?_resolveNodes (h : resolveNodes vars tree entries parent path = .ok filled)
    {key : String} {node : PathNode} (hnode : Table.get? tree key = some node) :
    ∃ resolved, resolveNode vars node key (Table.get? entries node.fieldName) parent
        (path ++ [key]) = .ok resolved ∧
      Table.get? filled key = some resolved := by
  induction tree generalizing filled with
  | nil => cases hnode
  | cons entry rest ih =>
      obtain ⟨first, firstNode⟩ := entry
      rw [resolveNodes] at h
      obtain ⟨resolved, hresolved, hnext⟩ := exists_of_bind_eq_ok h
      obtain ⟨others, hothers, hfilled⟩ := exists_of_bind_eq_ok hnext
      cases hfilled
      rw [Table.get?_cons] at hnode ⊢
      split at hnode
      · subst first
        cases hnode
        exact ⟨resolved, hresolved, if_pos rfl⟩
      · rw [if_neg ‹_›]
        exact ih hothers hnode

/-- A pending node on a path without local nodes is resolved by a function, which is given
what the server has at the end of the path. -/
theorem leaf_entriesAt (h : resolveNodes vars tree entries parent path = .ok filled)
    {keys : List String} {key fieldName : String} {children : PathTree}
    (hmarks : ¬ PathTree.Marks tree keys)
    (hnode : Table.get? (PathTree.below tree keys) key =
      some ⟨fieldName, some .pending, children⟩) :
    ∃ resolve value,
      Table.get? (entriesAt tree entries keys) fieldName = some (leaf resolve) ∧
      resolve ⟨path ++ (keys ++ [key]), fieldName,
        parent.bind fun value => value.at? keys, vars⟩ = .ok value ∧
      Table.get? (PathTree.below filled keys) key =
        some ⟨fieldName, some (.resolved value), children⟩ := by
  induction keys generalizing tree filled entries parent path with
  | nil =>
      obtain ⟨resolved, hresolved, hfilled⟩ := get?_resolveNodes h hnode
      rcases hentry : Table.get? entries fieldName with _ | (resolve | inner)
      · rw [hentry] at hresolved
        cases hresolved
      · rw [hentry, resolveNode] at hresolved
        obtain ⟨value, hvalue, hnext⟩ := exists_of_bind_eq_ok hresolved
        cases hnext
        refine ⟨resolve, value, hentry, ?_, hfilled⟩
        cases parent with
        | none => exact hvalue
        | some parent =>
            rw [Option.bind_some, Json.at?_nil]
            exact hvalue
      · rw [hentry] at hresolved
        cases hresolved
  | cons first rest ih =>
      obtain ⟨outerName, nodes, hfirst⟩ := PathTree.exists_of_below hmarks hnode
      obtain ⟨resolved, hresolved, hfilled⟩ := get?_resolveNodes h hfirst
      rw [PathTree.marks_cons_iff, not_or] at hmarks
      have hchildren : PathTree.childrenAt tree first = nodes := by
        rw [PathTree.childrenAt, hfirst]
        rfl
      rw [PathTree.below_cons, hchildren] at hnode
      rw [hchildren] at hmarks
      rcases hentry : Table.get? entries outerName with _ | (resolve | inner)
      · rw [hentry] at hresolved
        cases hresolved
      · rw [hentry] at hresolved
        cases hresolved
      · rw [hentry, resolveNode] at hresolved
        obtain ⟨others, hothers, hnext⟩ := exists_of_bind_eq_ok hresolved
        cases hnext
        obtain ⟨resolve, value, hresolve, hvalue, hbelow⟩ := ih hothers hmarks.2 hnode
        refine ⟨resolve, value, ?_, ?_, ?_⟩
        · rw [entriesAt, hfirst, Option.bind_some, hentry, hchildren]
          exact hresolve
        · have hparent : ((parent.bind fun value => value.member? first).bind
              fun value => value.at? rest) =
                parent.bind fun value => value.at? (first :: rest) := by
            cases parent with
            | none => rfl
            | some parent => exact (Json.at?_cons parent first rest).symm
          rw [hparent, List.append_assoc] at hvalue
          exact hvalue
        · rw [PathTree.below_cons, PathTree.childrenAt, hfilled]
          exact hbelow

end Resolver

/-- A pending node on a path without local nodes is resolved by one call, and what it returns
is merged under the key of the node into every object that is reached by the path. If no list
is in the way, the object, as the server gave it, is the parent that the call was given. -/
theorem ResolverTable.parent_of_merged {table : ResolverTable} {tree filled : PathTree}
    {server : Json} {vars : Variables} (hsorted : tree.Sorted)
    (hresolve : table.resolve tree (some server) vars = .ok filled) {path : List String}
    {key fieldName : String} {children : PathTree} (hmarks : ¬ PathTree.Marks tree path)
    (hnode : Table.get? (tree.below path) key = some ⟨fieldName, some .pending, children⟩) :
    ∃ resolve parent value,
      Table.get? (Resolver.entriesAt tree table path) fieldName = some (.leaf resolve) ∧
      resolve ⟨path ++ [key], fieldName, parent, vars⟩ = .ok value ∧
      Table.get? (filled.below path) key =
        some ⟨fieldName, some (.resolved value), children⟩ ∧
      ∀ found ∈ server.reached path,
        merge found (filled.below path) ∈ (merge server filled).reached path ∧
        ∀ members ∈ found.objects,
          Table.get? (PathNode.mergeAllInto (filled.below path) members) key = some value ∧
          (server.meetsList path = false → parent = some (.object members)) := by
  have hfilled := ResolverTable.filled_resolve hresolve
  have hnodup := (PathTree.filled_below hfilled hmarks).nodup_keys (hsorted.below path).1
  obtain ⟨resolve, value, hleaf, hvalue, hbelow⟩ := Resolver.leaf_entriesAt hresolve hmarks hnode
  refine ⟨resolve, server.at? path, value, hleaf, hvalue, hbelow, fun found hfound => ⟨?_, ?_⟩⟩
  · exact mem_reached_merge hsorted hfilled ((hfilled.marks_iff path).not.2 hmarks) hfound
  · intro members hmembers
    refine ⟨?_, fun hlist => Json.at?_of_mem_reached hlist hfound hmembers⟩
    exact PathTree.holds_mergeAllInto hnodup members key _ value hbelow rfl

/-- A resolver that gives a user back as it is given. -/
def ResolverTable.echo : ResolverTable :=
  [("users", .table [("self", .leaf fun args => .ok (args.parent.getD .null))])]

/-- A local field of users. -/
def PathTree.selfOfUsers (mark : Mark) : PathTree :=
  [("users", ⟨"users", none, [("self", ⟨"self", some mark, []⟩)]⟩)]

theorem PathTree.sorted_selfOfUsers (mark : Mark) : (selfOfUsers mark).Sorted := by
  simp [selfOfUsers, Sorted, Table.Sorted, SortedBelow, NodeSorted]

/-- The users themselves are not local. -/
theorem PathTree.not_marks_selfOfUsers (mark : Mark) : ¬ Marks (selfOfUsers mark) ["users"] := by
  simp [selfOfUsers, Marks, PathNode.isLocal, Table.get?_cons]

/-- One user, and no list, is given back. -/
theorem ResolverTable.parent_of_merged_user :
    let user : Json := .object [("id", .string "1")]
    let server : Json := .object [("users", user)]
    let tree := PathTree.selfOfUsers .pending
    let filled := PathTree.selfOfUsers (.resolved user)
    tree.Sorted ∧ echo.resolve tree (some server) [] = .ok filled ∧
      ¬ PathTree.Marks tree ["users"] ∧
      Table.get? (tree.below ["users"]) "self" = some ⟨"self", some .pending, []⟩ ∧
      ∃ resolve parent value,
        Table.get? (Resolver.entriesAt tree echo ["users"]) "self" = some (.leaf resolve) ∧
        resolve ⟨["users"] ++ ["self"], "self", parent, []⟩ = .ok value ∧
        Table.get? (filled.below ["users"]) "self" =
          some ⟨"self", some (.resolved value), []⟩ ∧
        ∀ found ∈ server.reached ["users"],
          merge found (filled.below ["users"]) ∈ (merge server filled).reached ["users"] ∧
          ∀ members ∈ found.objects,
            Table.get? (PathNode.mergeAllInto (filled.below ["users"]) members) "self" =
              some value ∧
            (server.meetsList ["users"] = false → parent = some (.object members)) := by
  intro user server tree filled
  have hsorted : tree.Sorted := PathTree.sorted_selfOfUsers .pending
  have hresolve : echo.resolve tree (some server) [] = .ok filled := rfl
  have hmarks : ¬ PathTree.Marks tree ["users"] := PathTree.not_marks_selfOfUsers .pending
  have hnode : Table.get? (tree.below ["users"]) "self" =
      some ⟨"self", some .pending, []⟩ := rfl
  exact ⟨hsorted, hresolve, hmarks, hnode, parent_of_merged hsorted hresolve hmarks hnode⟩

/-- Two users in a list are given one value, whose call was given none of them. -/
theorem ResolverTable.parent_of_listed_users :
    ¬ ∀ (table : ResolverTable) (tree filled : PathTree) (server : Json) (vars : Variables),
      tree.Sorted → table.resolve tree (some server) vars = .ok filled →
        ∀ (path : List String) (key fieldName : String) (children : PathTree),
          ¬ PathTree.Marks tree path →
          Table.get? (tree.below path) key = some ⟨fieldName, some .pending, children⟩ →
          ∀ found ∈ server.reached path, ∀ members ∈ found.objects, ∃ resolve value,
            Table.get? (Resolver.entriesAt tree table path) fieldName = some (.leaf resolve) ∧
            resolve ⟨path ++ [key], fieldName, some (.object members), vars⟩ = .ok value ∧
            Table.get? (PathNode.mergeAllInto (filled.below path) members) key =
              some value := by
  intro hclaim
  let first : Json := .object [("id", .string "1")]
  let second : Json := .object [("id", .string "2")]
  let users : Json := .array [first, second]
  let server : Json := .object [("users", users)]
  let tree := PathTree.selfOfUsers .pending
  let filled := PathTree.selfOfUsers (.resolved users)
  have hresolve : echo.resolve tree (some server) [] = .ok filled := rfl
  have hmarks : ¬ PathTree.Marks tree ["users"] := PathTree.not_marks_selfOfUsers .pending
  obtain ⟨resolve, value, hleaf, hvalue, hmerged⟩ := hclaim echo tree filled server []
    (PathTree.sorted_selfOfUsers .pending) hresolve ["users"] "self" "self" [] hmarks rfl
    users (List.mem_singleton_self _) [("id", .string "1")] List.mem_cons_self
  cases hleaf
  have hvalue' : first = value := Except.ok.inj hvalue
  have hmerged' : users = value := Option.some.inj hmerged
  exact absurd (hvalue'.trans hmerged'.symm) (by simp [first, users])

end QueryCache
