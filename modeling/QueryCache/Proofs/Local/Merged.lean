import QueryCache.Local.Merge
import QueryCache.Local.Resolver
import QueryCache.Proofs.Local.Marked

/-!
# Filled trees and what a merge makes of them

`PathTree.Filled` relates a tree to the trees that have a value wherever a value was pending,
which are what resolvers make (`ResolverTable.filled_resolve`).

A merge is described by what is found under one key afterwards: the value of a local node
(`PathTree.holds_mergeAllInto`), or the member that was there with the nodes below merged into
it, or into a new object (`PathTree.get?_mergeAllInto_inner`). Nothing that reads a merged
result has to follow the merge through its insertions.
-/

namespace QueryCache

/-! ### Objects behind lists -/

namespace Json

/-- The objects that a value reaches through lists. -/
def objects (value : Json) : List (List (String × Json)) :=
  value.gather (fun members => [members]) fun _ => []

/-- The values at the end of a path of keys, in every object on the way. -/
def reached : List String → Json → List Json
  | [], value => [value]
  | key :: rest, value =>
    value.objects.flatMap fun members => (Table.get? members key).toList.flatMap (reached rest)

theorem mem_reached_cons {key : String} {rest : List String} {value found : Json} :
    found ∈ value.reached (key :: rest) ↔ ∃ members ∈ value.objects, ∃ child,
      Table.get? members key = some child ∧ found ∈ child.reached rest := by
  simp [reached]

mutual

theorem objects_mapObjects (f : List (String × Json) → List (String × Json)) :
    ∀ value : Json, (value.mapObjects f).objects = value.objects.map f
  | array items => objects_mapObjectsInAll f items
  | object _ => rfl
  | null => rfl
  | bool _ => rfl
  | number _ => rfl
  | string _ => rfl
termination_by structural value => value

theorem objects_mapObjectsInAll (f : List (String × Json) → List (String × Json)) :
    ∀ items : List Json,
      gatherFromAll (fun members => [members]) (fun _ => []) (mapObjectsInAll f items) =
        (gatherFromAll (fun members => [members]) (fun _ => []) items).map f
  | [] => rfl
  | item :: rest => by
      have hitem := objects_mapObjects f item
      have hrest := objects_mapObjectsInAll f rest
      rw [objects, objects] at hitem
      rw [mapObjectsInAll, gatherFromAll, gatherFromAll, List.map_append, hitem, hrest]
termination_by structural items => items

end

mutual

theorem mapObjects_id : ∀ value : Json, value.mapObjects id = value
  | array items => congrArg array (mapObjectsInAll_id items)
  | object _ => rfl
  | null => rfl
  | bool _ => rfl
  | number _ => rfl
  | string _ => rfl
termination_by structural value => value

theorem mapObjectsInAll_id : ∀ items : List Json, mapObjectsInAll id items = items
  | [] => rfl
  | item :: rest => by rw [mapObjectsInAll, mapObjects_id item, mapObjectsInAll_id rest]
termination_by structural items => items

end

end Json

/-! ### Filled trees -/

namespace PathTree

mutual

/-- A node with a value wherever one was pending. All else is as it was. -/
inductive NodeFilled : PathNode → PathNode → Prop where
  | pending (fieldName : String) (value : Json) (children : PathTree) :
      NodeFilled ⟨fieldName, some .pending, children⟩
        ⟨fieldName, some (.resolved value), children⟩
  | resolved (fieldName : String) (value : Json) (children : PathTree) :
      NodeFilled ⟨fieldName, some (.resolved value), children⟩
        ⟨fieldName, some (.resolved value), children⟩
  | inner (fieldName : String) {children filled : PathTree} (hchildren : Filled children filled) :
      NodeFilled ⟨fieldName, none, children⟩ ⟨fieldName, none, filled⟩

/-- A tree with a value wherever one was pending. All else is as it was. -/
inductive Filled : PathTree → PathTree → Prop where
  | nil : Filled [] []
  | cons (key : String) {node filledNode : PathNode} {rest filledRest : PathTree}
      (hnode : NodeFilled node filledNode) (hrest : Filled rest filledRest) :
      Filled ((key, node) :: rest) ((key, filledNode) :: filledRest)

end

theorem Filled.keys {tree filled : PathTree} (h : Filled tree filled) :
    Table.keys filled = Table.keys tree := by
  induction tree generalizing filled with
  | nil =>
      cases h
      rfl
  | cons entry rest ih =>
      cases h with
      | cons key hnode hrest => exact congrArg (key :: ·) (ih hrest)

theorem Filled.get? {tree filled : PathTree} (h : Filled tree filled) (key : String) :
    Option.Rel NodeFilled (Table.get? tree key) (Table.get? filled key) := by
  induction tree generalizing filled with
  | nil =>
      cases h
      exact Option.Rel.none
  | cons entry rest ih =>
      cases h with
      | cons other hnode hrest =>
          rw [Table.get?_cons, Table.get?_cons]
          split
          · exact Option.Rel.some hnode
          · exact ih hrest

theorem Filled.nodup_keys {tree filled : PathTree} (h : Filled tree filled)
    (hsorted : Table.Sorted tree) : (Table.keys filled).Nodup :=
  h.keys ▸ Table.nodup_keys_of_sorted hsorted

end PathTree

namespace Resolver

open PathTree (NodeFilled Filled)

mutual

theorem filled_resolveNode (vars : Variables) :
    ∀ (node : PathNode) (key : String) (entry : Option Resolver) (parent : Option Json)
      (path : List String) {filled : PathNode},
      resolveNode vars node key entry parent path = .ok filled → NodeFilled node filled
  | ⟨fieldName, some (.resolved value), children⟩, key, entry, parent, path, filled, h => by
      rw [resolveNode] at h
      cases h
      exact .resolved fieldName value children
  | ⟨fieldName, some .pending, children⟩, key, some (leaf resolve), parent, path, filled, h => by
      rw [resolveNode] at h
      obtain ⟨value, -, hfilled⟩ := exists_of_bind_eq_ok h
      cases hfilled
      exact .pending fieldName value children
  | ⟨fieldName, none, children⟩, key, some (table entries), parent, path, filled, h => by
      rw [resolveNode] at h
      obtain ⟨below, hbelow, hfilled⟩ := exists_of_bind_eq_ok h
      cases hfilled
      exact .inner fieldName (filled_resolveNodes vars children entries _ path hbelow)
  | ⟨fieldName, some .pending, children⟩, key, none, parent, path, filled, h => by cases h
  | ⟨fieldName, some .pending, children⟩, key, some (table _), parent, path, filled, h => by
      cases h
  | ⟨fieldName, none, children⟩, key, none, parent, path, filled, h => by cases h
  | ⟨fieldName, none, children⟩, key, some (leaf _), parent, path, filled, h => by cases h
termination_by structural node => node

theorem filled_resolveNodes (vars : Variables) :
    ∀ (tree : List (String × PathNode)) (entries : List (String × Resolver))
      (parent : Option Json) (path : List String) {filled : List (String × PathNode)},
      resolveNodes vars tree entries parent path = .ok filled → Filled tree filled
  | [], entries, parent, path, filled, h => by
      cases h
      exact .nil
  | (key, node) :: rest, entries, parent, path, filled, h => by
      rw [resolveNodes] at h
      obtain ⟨resolved, hresolved, hnext⟩ := exists_of_bind_eq_ok h
      obtain ⟨others, hothers, hfilled⟩ := exists_of_bind_eq_ok hnext
      cases hfilled
      exact .cons key (filled_resolveNode vars node key _ parent _ hresolved)
        (filled_resolveNodes vars rest entries parent path hothers)
termination_by structural tree => tree

end

end Resolver

/-- Resolvers that succeed give every pending node a value and change nothing else. -/
theorem ResolverTable.filled_resolve {table : ResolverTable} {tree filled : PathTree}
    {server : Option Json} {vars : Variables}
    (h : table.resolve tree server vars = .ok filled) : tree.Filled filled :=
  Resolver.filled_resolveNodes vars tree table server [] h

/-! ### Members after a merge -/

namespace PathNode

/-- What stands under the key of a node after the node has been merged in. -/
def mergedAt : PathNode → Option Json → Option Json
  | ⟨_, some (.resolved value), _⟩, _ => some value
  | ⟨_, some .pending, _⟩, found => found
  | ⟨_, none, children⟩, found =>
    some ((found.getD .emptyObject).mapObjects (mergeAllInto children))

theorem get?_mergeInto (node : PathNode) (key other : String) (members : List (String × Json)) :
    Table.get? (mergeInto node key members) other =
      if other = key then node.mergedAt (Table.get? members key)
      else Table.get? members other := by
  obtain ⟨fieldName, _ | (_ | value), children⟩ := node
  · rw [mergeInto, Table.get?_insert]
    rfl
  · rw [mergeInto]
    split
    · subst other
      rfl
    · rfl
  · rw [mergeInto, Table.get?_insert]
    rfl

/-- Under the key of a node stands what this node makes of the member, under all other keys
the members are as they were. -/
theorem get?_mergeAllInto {tree : PathTree} (htree : (Table.keys tree).Nodup)
    (members : List (String × Json)) (key : String) :
    Table.get? (mergeAllInto tree members) key =
      (Table.get? tree key).elim (Table.get? members key) fun node =>
        node.mergedAt (Table.get? members key) := by
  induction tree generalizing members with
  | nil => rfl
  | cons entry rest ih =>
      obtain ⟨other, node⟩ := entry
      obtain ⟨hother, hrest⟩ := List.nodup_cons.1 htree
      rw [mergeAllInto, ih hrest, get?_mergeInto, Table.get?_cons]
      split
      · subst key
        rw [Table.get?_eq_none_iff.2 hother]
        rfl
      · rfl

end PathNode

namespace PathTree

/-- A local node stands under the key. -/
def isLocalAt (tree : PathTree) (key : String) : Bool :=
  (Table.get? tree key).any PathNode.isLocal

/-- The nodes below the node under the key. -/
def childrenAt (tree : PathTree) (key : String) : PathTree :=
  (Table.get? tree key).elim [] PathNode.children

theorem Sorted.childrenAt {tree : PathTree} (h : tree.Sorted) (key : String) :
    (tree.childrenAt key).Sorted := by
  rw [PathTree.childrenAt]
  cases hnode : Table.get? tree key with
  | none => exact sorted_nil
  | some node =>
      obtain ⟨fieldName, mark, children⟩ := node
      exact h.node hnode

/-- Under each key both trees have a local node, which has a value in the filled tree, or none
of them has one, and the nodes below are filled in turn. -/
theorem Filled.under {tree filled : PathTree} (h : tree.Filled filled) (key : String) :
    (tree.isLocalAt key = true ∧ filled.isLocalAt key = true ∧ ∃ node value,
        Table.get? filled key = some node ∧ node.resolvedValue? = some value) ∨
      (tree.isLocalAt key = false ∧ filled.isLocalAt key = false ∧
        (tree.childrenAt key).Filled (filled.childrenAt key)) := by
  have hfound := h.get? key
  rw [isLocalAt, isLocalAt, childrenAt, childrenAt]
  generalize Table.get? tree key = found, Table.get? filled key = filledFound at hfound ⊢
  cases hfound with
  | none => exact Or.inr ⟨rfl, rfl, .nil⟩
  | some hnode =>
      cases hnode with
      | pending fieldName value => exact Or.inl ⟨rfl, rfl, _, value, rfl, rfl⟩
      | resolved fieldName value => exact Or.inl ⟨rfl, rfl, _, value, rfl, rfl⟩
      | inner fieldName hchildren => exact Or.inr ⟨rfl, rfl, hchildren⟩

/-- A path is marked where it begins or further on. -/
theorem marks_cons_iff {tree : PathTree} {key : String} {rest : List String} :
    Marks tree (key :: rest) ↔
      tree.isLocalAt key = true ∨ Marks (tree.childrenAt key) rest := by
  rw [isLocalAt, childrenAt]
  constructor
  · rintro ⟨node, hnode, hmarks⟩
    rw [hnode]
    exact hmarks
  · cases hnode : Table.get? tree key with
    | none =>
        rintro (hlocal | hmarks)
        · cases hlocal
        · exact absurd hmarks (not_marks_nil rest)
    | some node => exact fun hmarks => ⟨node, hnode, hmarks⟩

/-- The nodes at the end of a path of keys. -/
def below (tree : PathTree) (path : List String) : PathTree := path.foldl childrenAt tree

/-- Every value at the top of the tree stands under its key. -/
def Holds (tree : PathTree) (members : List (String × Json)) : Prop :=
  ∀ key node value, Table.get? tree key = some node → node.resolvedValue? = some value →
    Table.get? members key = some value

/-- A tree without values at its top asks for nothing there. -/
theorem holds_of_unresolved {tree : PathTree}
    (h : ∀ entry ∈ tree, entry.2.resolvedValue? = none) (members : List (String × Json)) :
    tree.Holds members := by
  intro key node value hnode hvalue
  cases (h _ (Table.mem_of_get?_eq_some hnode)).symm.trans hvalue

theorem Holds.of_filled {tree filled : PathTree} {members : List (String × Json)}
    (h : filled.Holds members) (hfilled : tree.Filled filled) : tree.Holds members := by
  intro key node value hnode hvalue
  have hfound := hfilled.get? key
  rw [hnode] at hfound
  generalize hfilledNode : Table.get? filled key = found at hfound
  cases hfound with
  | some hnode =>
      cases hnode with
      | pending => cases hvalue
      | resolved => exact h key _ value hfilledNode hvalue
      | inner => cases hvalue

open PathNode (mergeAllInto get?_mergeAllInto)

section Merged

variable {tree : PathTree} {members : List (String × Json)} {key : String}

theorem holds_mergeAllInto (htree : (Table.keys tree).Nodup) (members : List (String × Json)) :
    tree.Holds (mergeAllInto tree members) := by
  rintro key ⟨fieldName, _ | (_ | resolved), children⟩ value hnode hvalue
  · cases hvalue
  · cases hvalue
  · rw [get?_mergeAllInto htree, hnode]
    exact hvalue

/-- Merging keeps every key. -/
theorem exists_get?_mergeAllInto (htree : (Table.keys tree).Nodup)
    (h : ∃ value, Table.get? members key = some value) :
    ∃ merged, Table.get? (mergeAllInto tree members) key = some merged := by
  obtain ⟨value, hvalue⟩ := h
  rw [get?_mergeAllInto htree, hvalue]
  rcases Table.get? tree key with _ | ⟨fieldName, _ | (_ | resolved), children⟩ <;>
    exact ⟨_, rfl⟩

/-- Where no local node stands, the nodes below are merged into what the key holds, or into a
new object when a node makes one. -/
theorem get?_mergeAllInto_inner (htree : (Table.keys tree).Nodup)
    (hlocal : tree.isLocalAt key = false)
    (hkey : (∃ value, Table.get? members key = some value) ∨ key ∈ Table.keys tree) :
    Table.get? (mergeAllInto tree members) key =
      some (((Table.get? members key).getD .emptyObject).mapObjects
        (mergeAllInto (tree.childrenAt key))) := by
  rw [get?_mergeAllInto htree]
  rw [isLocalAt] at hlocal
  rw [childrenAt]
  rw [Table.mem_keys_iff] at hkey
  rcases htreeAt : Table.get? tree key with _ | ⟨fieldName, _ | mark, children⟩
  · obtain ⟨value, hvalue⟩ := hkey.resolve_right (by simp [htreeAt])
    rw [hvalue]
    exact congrArg some (Json.mapObjects_id value).symm
  · rfl
  · rw [htreeAt] at hlocal
    cases hlocal

end Merged

end PathTree

/-- What was reached on a path without local nodes is still reached after a merge, with the
nodes there merged into it. -/
theorem mem_reached_merge {path : List String} {tree filled : PathTree} {value found : Json}
    (hsorted : tree.Sorted) (hfilled : tree.Filled filled) (hmarks : ¬ PathTree.Marks filled path)
    (hfound : found ∈ value.reached path) :
    merge found (filled.below path) ∈ (merge value filled).reached path := by
  induction path generalizing tree filled value with
  | nil =>
      cases List.mem_singleton.1 hfound
      exact List.mem_singleton_self _
  | cons key rest ih =>
      rw [PathTree.marks_cons_iff, not_or] at hmarks
      have hnodup := hfilled.nodup_keys hsorted.1
      rcases hfilled.under key with ⟨-, hlocal, -⟩ | ⟨-, hlocal, hbelow⟩
      · exact absurd hlocal hmarks.1
      · obtain ⟨members, hmembers, child, hchild, hrest⟩ := Json.mem_reached_cons.1 hfound
        refine Json.mem_reached_cons.2
          ⟨PathNode.mergeAllInto filled members, ?_, merge child (filled.childrenAt key), ?_, ?_⟩
        · rw [merge, Json.objects_mapObjects]
          exact List.mem_map_of_mem hmembers
        · rw [PathTree.get?_mergeAllInto_inner hnodup hlocal (Or.inl ⟨child, hchild⟩), hchild]
          rfl
        · exact ih (hsorted.childrenAt key) hbelow hmarks.2 hrest

end QueryCache
