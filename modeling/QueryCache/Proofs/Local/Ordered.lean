import QueryCache.Local.Merge
import QueryCache.Proofs.Json.Ordered
import QueryCache.Proofs.Local.Served

/-!
# Path trees with ordered values

`PathTree.Ordered` says that every value in a tree has its members in order.
Splitting makes trees without any values, and merging the values of an ordered
tree into an ordered result gives an ordered result (`merge_ordered`).
-/

namespace QueryCache

namespace PathTree

mutual

/-- Every value at the node and below it has its members in order. -/
def NodeOrdered : PathNode → Prop
  | ⟨_, some (.resolved value), children⟩ => value.Ordered ∧ Ordered children
  | ⟨_, some .pending, children⟩ => Ordered children
  | ⟨_, none, children⟩ => Ordered children
termination_by structural node => node

/-- Every value in the tree has its members in order. -/
def Ordered : List (String × PathNode) → Prop
  | [] => True
  | (_, node) :: rest => NodeOrdered node ∧ Ordered rest
termination_by structural tree => tree

end

theorem ordered_nil : Ordered [] := trivial

theorem ordered_iff {tree : List (String × PathNode)} :
    Ordered tree ↔ ∀ entry ∈ tree, NodeOrdered entry.2 := by
  induction tree with
  | nil => simp [Ordered]
  | cons entry rest ih =>
      obtain ⟨key, node⟩ := entry
      simp [Ordered, ih]

theorem ordered_children {node : PathNode} (h : NodeOrdered node) :
    Ordered node.children := by
  obtain ⟨fieldName, mark, children⟩ := node
  match mark with
  | none => exact h
  | some .pending => exact h
  | some (.resolved _) => exact h.2

theorem nodeOrdered_pending (fieldName : String) : NodeOrdered (.pending fieldName) :=
  trivial

theorem nodeOrdered_inner (fieldName : String) {children : PathTree}
    (h : Ordered children) : NodeOrdered ⟨fieldName, none, children⟩ := h

theorem ordered_insert_entry {tree : PathTree} (h : Ordered tree) (key : String)
    {node : PathNode} (hnode : NodeOrdered node) :
    Ordered (Table.insert tree key node) := by
  rw [ordered_iff] at h ⊢
  intro entry hmem
  rcases Table.mem_insert hmem with rfl | hmem
  · exact hnode
  · exact h entry hmem

theorem ordered_place {tree : PathTree} (h : Ordered tree) (key : String)
    {node : PathNode} (hnode : NodeOrdered node) {combine : PathNode → PathNode}
    (hcombine : ∀ existing, NodeOrdered existing → NodeOrdered (combine existing)) :
    Ordered (PathNode.place tree key node combine) := by
  rw [PathNode.place]
  split
  · exact h
  · split
    · rename_i existing hget
      have hexisting := ordered_iff.1 h _ (Table.mem_of_get?_eq_some hget)
      exact ordered_insert_entry h key (hcombine existing hexisting)
    · exact ordered_insert_entry h key hnode

mutual

theorem nodeOrdered_absorbedBy :
    ∀ (node existing : PathNode), NodeOrdered node → NodeOrdered existing →
      NodeOrdered (node.absorbedBy existing)
  | ⟨fieldName, mark, children⟩, existing, hnode, hexisting => by
      have hchildren := ordered_insertAll children existing.children
        (ordered_children hnode) (ordered_children hexisting)
      obtain ⟨existingName, existingMark, existingChildren⟩ := existing
      rw [PathNode.absorbedBy]
      split
      · exact hexisting
      · split
        · exact hnode
        · cases existingMark with
          | none => exact hchildren
          | some mark => simp_all [PathNode.isLocal]
termination_by structural node => node

theorem ordered_insertAll :
    ∀ (nodes tree : List (String × PathNode)), Ordered nodes → Ordered tree →
      Ordered (PathNode.insertAll nodes tree)
  | [], _, _, htree => htree
  | (key, node) :: rest, tree, hnodes, htree => by
      rw [PathNode.insertAll]
      refine ordered_insertAll rest _ hnodes.2 (ordered_place htree key hnodes.1 ?_)
      intro existing hexisting
      exact nodeOrdered_absorbedBy node existing hnodes.1 hexisting
termination_by structural nodes => nodes

end

theorem ordered_insert {tree : PathTree} (h : Ordered tree) (key : String)
    {node : PathNode} (hnode : NodeOrdered node) : Ordered (tree.insert key node) :=
  ordered_place h key hnode fun existing => nodeOrdered_absorbedBy node existing hnode

theorem keptBySplit_ordered : KeptBySplit Ordered where
  nil := ordered_nil
  pending key fieldName h := ordered_insert h key (nodeOrdered_pending fieldName)
  inner key fieldName h hchildren :=
    ordered_insert h key (nodeOrdered_inner fieldName hchildren)

end PathTree

/-- A path tree that comes from a split holds no values yet. -/
theorem Document.ordered_split (directive : String) (d : Document) :
    PathTree.Ordered (d.split directive).pathTree :=
  PathTree.keptBySplit_ordered.pathTree directive d

namespace Json

mutual

theorem ordered_mapObjects {f : List (String × Json) → List (String × Json)}
    (hf : ∀ members, Ordered (object members) → Ordered (object (f members))) :
    ∀ value : Json, Ordered value → Ordered (mapObjects f value)
  | array items, h => ordered_mapObjectsInAll hf items h
  | object members, h => hf members h
  | null, h => h
  | bool _, h => h
  | number _, h => h
  | string _, h => h
termination_by structural value => value

theorem ordered_mapObjectsInAll {f : List (String × Json) → List (String × Json)}
    (hf : ∀ members, Ordered (object members) → Ordered (object (f members))) :
    ∀ items : List Json, OrderedItems items → OrderedItems (mapObjectsInAll f items)
  | [], _ => trivial
  | item :: rest, h =>
      ⟨ordered_mapObjects hf item h.1, ordered_mapObjectsInAll hf rest h.2⟩
termination_by structural items => items

end

end Json

namespace PathNode

open Json

mutual

theorem ordered_mergeInto :
    ∀ (node : PathNode) (key : String) (members : List (String × Json)),
      PathTree.NodeOrdered node → Json.Ordered (object members) →
        Json.Ordered (object (mergeInto node key members))
  | ⟨_, some (.resolved value), _⟩, key, members, hnode, h =>
      ordered_insert h key hnode.1
  | ⟨_, some .pending, _⟩, _, _, _, h => h
  | ⟨_, none, children⟩, key, members, hnode, h => by
      rw [mergeInto]
      refine ordered_insert h key (ordered_mapObjects ?_ _ ?_)
      · intro inner hinner
        exact ordered_mergeAllInto children inner hnode hinner
      · cases hget : Table.get? members key with
        | none => exact ordered_emptyObject
        | some child => exact ordered_of_get? h hget
termination_by structural node => node

theorem ordered_mergeAllInto :
    ∀ (nodes : List (String × PathNode)) (members : List (String × Json)),
      PathTree.Ordered nodes → Json.Ordered (object members) →
        Json.Ordered (object (mergeAllInto nodes members))
  | [], _, _, h => h
  | (key, node) :: rest, members, hnodes, h =>
      ordered_mergeAllInto rest _ hnodes.2 (ordered_mergeInto node key members hnodes.1 h)
termination_by structural nodes => nodes

end

end PathNode

/-- Merging ordered values into an ordered result gives an ordered result. -/
theorem merge_ordered {server : Json} (hserver : server.Ordered) {tree : PathTree}
    (htree : PathTree.Ordered tree) : (merge server tree).Ordered :=
  Json.ordered_mapObjects
    (fun members h => PathNode.ordered_mergeAllInto tree members htree h) server hserver

end QueryCache
