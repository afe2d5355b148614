import QueryCache.Proofs.Json.Position
import QueryCache.Proofs.Local.Parents
import QueryCache.Proofs.Local.Paths

/-!
# What a merge leaves alone

A merge puts the values of resolved nodes under the last keys of their paths (`PathTree.Puts`). At
a position that stands neither at the end of such a path nor further on, a value keeps its shape:
lists keep their length, objects their keys, and all else stays as it is (`Json.KeepsShape`). The
keys that objects gain there are keys of the tree (`mem_keys_of_locate?_merge`). In the result every
object that the path of a value leads to holds the value (`PathTree.Puts.get?_of_merge`).

Under each key a merge does the same when it is done again, so a second merge changes nothing
(`merge_merge`, `merge_touches`).
-/

namespace QueryCache

open PathNode (mergedAt mergeInto mergeAllInto get?_mergeAllInto)

/-! ### Shapes -/

namespace Json

/-- A list stays a list of the same length, an object stays an object and keeps its keys, and all
else stays as it is. -/
def KeepsShape : Json → Json → Prop
  | array items, merged => ∃ others, merged = array others ∧ others.length = items.length
  | object members, merged =>
    ∃ others, merged = object others ∧ Table.keys members ⊆ Table.keys others
  | scalar, merged => merged = scalar

theorem KeepsShape.refl (value : Json) : value.KeepsShape value := by
  cases value with
  | array items => exact ⟨items, rfl, rfl⟩
  | object members => exact ⟨members, rfl, List.Subset.refl _⟩
  | _ => rfl

theorem mapObjectsInAll_eq_map (f : List (String × Json) → List (String × Json))
    (items : List Json) : mapObjectsInAll f items = items.map (mapObjects f) := by
  induction items with
  | nil => rfl
  | cons item rest ih => rw [mapObjectsInAll, ih, List.map_cons]

end Json

theorem merge_array (items : List Json) (tree : PathTree) :
    merge (.array items) tree = .array (items.map fun item => merge item tree) :=
  congrArg Json.array (Json.mapObjectsInAll_eq_map _ items)

theorem merge_object (members : Json.Members) (tree : PathTree) :
    merge (.object members) tree = .object (mergeAllInto tree members) := rfl

theorem child?_item_merge (value : Json) (tree : PathTree) (index : ℕ) :
    (merge value tree).child? (.item index) =
      (value.child? (.item index)).map fun item => merge item tree := by
  cases value with
  | array items =>
      rw [merge_array]
      exact List.getElem?_map
  | _ => rfl

theorem exists_of_merge_eq_object {value : Json} {tree : PathTree} {members : Json.Members}
    (h : merge value tree = .object members) :
    ∃ before, value = .object before ∧ members = mergeAllInto tree before := by
  cases value with
  | object before =>
      cases h
      exact ⟨before, rfl, rfl⟩
  | array items =>
      rw [merge_array] at h
      cases h
  | _ => cases h

theorem keepsShape_merge {tree : PathTree} (htree : (Table.keys tree).Nodup) (value : Json) :
    value.KeepsShape (merge value tree) := by
  cases value with
  | array items => exact ⟨_, merge_array items tree, List.length_map _⟩
  | object members =>
      refine ⟨_, rfl, fun name hname => Table.mem_keys_iff.2 ?_⟩
      exact PathTree.exists_get?_mergeAllInto htree (Table.mem_keys_iff.1 hname)
  | _ => rfl

/-! ### Where values are put -/

namespace PathTree

variable {tree : PathTree} {path rest : List String} {key : String} {value : Json}

/-- At the end of the path stands a resolved node with this value, and no other local node stands
on the path. -/
def Puts (tree : PathTree) (path : List String) (value : Json) : Prop :=
  path ∈ localPaths tree ∧
    ∃ node, tree.nodeAt? path = some node ∧ node.resolvedValue? = some value

/-- A value is put at the end of the path or somewhere on it. -/
def Overwrites (tree : PathTree) (path : List String) : Prop :=
  ∃ front value, tree.Puts front value ∧ front <+: path

theorem puts_singleton {node : PathNode} (hnode : Table.get? tree key = some node)
    (hvalue : node.resolvedValue? = some value) : tree.Puts [key] value := by
  obtain ⟨fieldName, _ | mark, children⟩ := node
  · cases hvalue
  · exact ⟨mem_localPaths_of_get? hnode (List.mem_singleton_self _), _, hnode, hvalue⟩

theorem Puts.ne_nil (h : tree.Puts path value) : path ≠ [] := ne_nil_of_mem_localPaths h.1

theorem Puts.cons {fieldName : String} {children : PathTree}
    (hnode : Table.get? tree key = some ⟨fieldName, none, children⟩)
    (h : children.Puts rest value) : tree.Puts (key :: rest) value := by
  obtain ⟨hrest, node, hat, hvalue⟩ := id h
  refine ⟨mem_localPaths_of_get? hnode hrest, node, ?_, hvalue⟩
  rw [nodeAt?_cons _ _ h.ne_nil, hnode]
  exact hat

/-- A value is put under a key of the tree, or below an unmarked node. -/
theorem Puts.cases (h : tree.Puts (key :: rest) value) (hsorted : tree.Sorted) :
    (rest = [] ∧ ∃ node, Table.get? tree key = some node ∧ node.resolvedValue? = some value) ∨
      ∃ fieldName children, Table.get? tree key = some ⟨fieldName, none, children⟩ ∧
        Puts children rest value := by
  obtain ⟨hpath, node, hat, hvalue⟩ := h
  rcases cases_of_mem_localPaths hsorted.1 hpath with
    ⟨rfl, -⟩ | ⟨fieldName, children, hnode, hrest⟩
  · exact Or.inl ⟨rfl, node, hat, hvalue⟩
  · rw [nodeAt?_cons _ _ (ne_nil_of_mem_localPaths hrest), hnode] at hat
    exact Or.inr ⟨fieldName, children, hnode, hrest, node, hat, hvalue⟩

theorem Overwrites.cons {fieldName : String} {children : PathTree}
    (hnode : Table.get? tree key = some ⟨fieldName, none, children⟩)
    (h : children.Overwrites rest) : tree.Overwrites (key :: rest) := by
  obtain ⟨front, value, hputs, hfront⟩ := h
  exact ⟨key :: front, value, hputs.cons hnode, List.cons_prefix_cons.2 ⟨rfl, hfront⟩⟩

/-- Where no value is put, a merge leaves a member alone or goes on below an unmarked node. -/
theorem get?_mergeAllInto_of_not_overwrites (hsorted : tree.Sorted)
    (h : ¬ tree.Overwrites (key :: rest)) (members : Json.Members) :
    Table.get? (mergeAllInto tree members) key = Table.get? members key ∨
      ∃ fieldName children, Table.get? tree key = some ⟨fieldName, none, children⟩ ∧
        ¬ Overwrites children rest ∧
        Table.get? (mergeAllInto tree members) key =
          some (merge ((Table.get? members key).getD .emptyObject) children) := by
  rw [get?_mergeAllInto (Table.nodup_keys_of_sorted hsorted.1)]
  rcases hnode : Table.get? tree key with _ | ⟨fieldName, _ | (_ | value), children⟩
  · exact Or.inl rfl
  · exact Or.inr ⟨fieldName, children, rfl, fun hbelow => h (hbelow.cons hnode), rfl⟩
  · exact Or.inl rfl
  · exact absurd ⟨[key], value, puts_singleton hnode rfl, ⟨rest, rfl⟩⟩ h

theorem childrenAt_of_get? {fieldName : String} {mark : Option Mark} {children : PathTree}
    (hnode : Table.get? tree key = some ⟨fieldName, mark, children⟩) :
    tree.childrenAt key = children := by
  rw [childrenAt, hnode]
  rfl

end PathTree

/-! ### Positions in a merged value -/

section Positions

variable {tree : PathTree} {position : Json.Position} {value found : Json}

/-- Where no value is put, a merge leaves what stands there alone, or merges into it what the tree
has there. -/
theorem locate?_merge (hsorted : tree.Sorted) (hfound : value.locate? position = some found)
    (h : ¬ tree.Overwrites position.keys) :
    (merge value tree).locate? position = some found ∨
      (merge value tree).locate? position = some (merge found (tree.below position.keys)) := by
  induction position generalizing value tree with
  | nil =>
      cases hfound
      exact Or.inr rfl
  | cons step rest ih =>
      obtain ⟨child, hchild, hrest⟩ := Json.locate?_cons_eq_some_iff.1 hfound
      rw [Json.locate?_cons]
      cases step with
      | item index =>
          rw [child?_item_merge, hchild]
          exact ih hsorted hrest h
      | key name =>
          obtain ⟨members, rfl, hmember⟩ := Json.child?_key_eq_some_iff.1 hchild
          rcases PathTree.get?_mergeAllInto_of_not_overwrites hsorted h members with
            hsame | ⟨fieldName, children, hnode, hbelow, hmerged⟩
          · left
            rw [merge_object, Json.child?, hsame, hmember]
            exact hrest
          · rw [merge_object, Json.child?, hmerged, hmember, Json.Position.keys_cons_key,
              PathTree.below_cons, PathTree.childrenAt_of_get? hnode]
            exact ih (hsorted.node hnode) hrest hbelow

/-- An object that a merge leaves behind has the keys that were there, and keys of the tree. -/
theorem mem_keys_of_locate?_merge (hsorted : tree.Sorted) {members : Json.Members}
    (hfound : (merge value tree).locate? position = some (.object members))
    (h : ¬ tree.Overwrites position.keys) {name : String} (hname : name ∈ Table.keys members) :
    (∃ before, value.locate? position = some (.object before) ∧ name ∈ Table.keys before) ∨
      name ∈ Table.keys (tree.below position.keys) := by
  induction position generalizing value tree with
  | nil =>
      obtain ⟨before, rfl, rfl⟩ := exists_of_merge_eq_object (Option.some.inj hfound)
      rw [Table.mem_keys_iff, get?_mergeAllInto (Table.nodup_keys_of_sorted hsorted.1)] at hname
      cases hnode : Table.get? tree name with
      | none =>
          rw [hnode] at hname
          exact Or.inl ⟨before, rfl, Table.mem_keys_iff.2 hname⟩
      | some node => exact Or.inr (Table.mem_keys_iff.2 ⟨node, hnode⟩)
  | cons step rest ih =>
      obtain ⟨child, hchild, hrest⟩ := Json.locate?_cons_eq_some_iff.1 hfound
      cases step with
      | item index =>
          rw [child?_item_merge, Option.map_eq_some_iff] at hchild
          obtain ⟨item, hitem, rfl⟩ := hchild
          rw [Json.locate?_cons, hitem]
          exact ih hsorted hrest h
      | key key =>
          obtain ⟨after, hafter, hmember⟩ := Json.child?_key_eq_some_iff.1 hchild
          obtain ⟨before, rfl, rfl⟩ := exists_of_merge_eq_object hafter
          rw [Json.locate?_cons, Json.child?]
          rcases PathTree.get?_mergeAllInto_of_not_overwrites hsorted h before with
            hsame | ⟨fieldName, children, hnode, hbelow, hmerged⟩
          · left
            rw [← hsame, hmember]
            exact ⟨members, hrest, hname⟩
          · cases hmember.symm.trans hmerged
            rw [Json.Position.keys_cons_key, PathTree.below_cons,
              PathTree.childrenAt_of_get? hnode]
            refine (ih (hsorted.node hnode) hrest hbelow).imp_left ?_
            rintro ⟨inner, hinner, hmem⟩
            cases hget : Table.get? before key with
            | some child =>
                rw [hget] at hinner
                exact ⟨inner, hinner, hmem⟩
            | none =>
                -- Nothing stands in an object that the merge has made.
                rw [hget] at hinner
                cases rest with
                | nil =>
                    cases hinner
                    cases hmem
                | cons step _ => cases step <;> cases hinner

/-- In every object that the path of a value leads to, the value stands under the last key. -/
theorem PathTree.Puts.get?_of_merge {path : List String} {key : String} {put : Json}
    (h : tree.Puts (path ++ [key]) put) (hsorted : tree.Sorted) {members : Json.Members}
    (hkeys : position.keys = path)
    (hfound : (merge value tree).locate? position = some (.object members)) :
    Table.get? members key = some put := by
  induction position generalizing value tree path with
  | nil =>
      subst hkeys
      obtain ⟨before, rfl, rfl⟩ := exists_of_merge_eq_object (Option.some.inj hfound)
      rcases h.cases hsorted with ⟨-, node, hnode, hvalue⟩ | ⟨_, _, -, hbelow⟩
      · exact PathTree.holds_mergeAllInto (Table.nodup_keys_of_sorted hsorted.1) before key node put
          hnode hvalue
      · exact absurd rfl hbelow.ne_nil
  | cons step rest ih =>
      obtain ⟨child, hchild, hrest⟩ := Json.locate?_cons_eq_some_iff.1 hfound
      cases step with
      | item index =>
          rw [child?_item_merge, Option.map_eq_some_iff] at hchild
          obtain ⟨item, -, rfl⟩ := hchild
          exact ih h hsorted hkeys hrest
      | key name =>
          subst hkeys
          obtain ⟨after, hafter, hmember⟩ := Json.child?_key_eq_some_iff.1 hchild
          obtain ⟨before, rfl, rfl⟩ := exists_of_merge_eq_object hafter
          rcases h.cases hsorted with ⟨hnil, -⟩ | ⟨fieldName, children, hnode, hbelow⟩
          · exact absurd hnil (List.append_ne_nil_of_right_ne_nil _ (List.cons_ne_nil _ _))
          · rw [get?_mergeAllInto (Table.nodup_keys_of_sorted hsorted.1), hnode] at hmember
            cases hmember
            exact ih hbelow (hsorted.node hnode) rfl hrest

end Positions

/-! ### Merging again -/

namespace Json

mutual

theorem mapObjects_mapObjects {f : List (String × Json) → List (String × Json)}
    (hf : ∀ members, Ordered (object members) → f (f members) = f members) :
    ∀ value : Json, Ordered value → (value.mapObjects f).mapObjects f = value.mapObjects f
  | array items, h => congrArg array (mapObjectsInAll_mapObjectsInAll hf items h)
  | object members, h => congrArg object (hf members h)
  | null, _ => rfl
  | bool _, _ => rfl
  | number _, _ => rfl
  | string _, _ => rfl
termination_by structural value => value

theorem mapObjectsInAll_mapObjectsInAll {f : List (String × Json) → List (String × Json)}
    (hf : ∀ members, Ordered (object members) → f (f members) = f members) :
    ∀ items : List Json, OrderedItems items →
      mapObjectsInAll f (mapObjectsInAll f items) = mapObjectsInAll f items
  | [], _ => rfl
  | item :: rest, h => by
      rw [mapObjectsInAll, mapObjectsInAll, mapObjects_mapObjects hf item h.1,
        mapObjectsInAll_mapObjectsInAll hf rest h.2]
termination_by structural items => items

end

end Json

namespace PathNode

theorem sorted_mergeAllInto (tree : PathTree) {members : Json.Members}
    (h : Table.Sorted members) : Table.Sorted (mergeAllInto tree members) := by
  induction tree generalizing members with
  | nil => exact h
  | cons entry rest ih =>
      obtain ⟨key, fieldName, _ | (_ | value), children⟩ := entry
      · exact ih (Table.sorted_insert h _ _)
      · exact ih h
      · exact ih (Table.sorted_insert h _ _)

/-- The node does under its key what it does when it has been merged in once. -/
def Settles (node : PathNode) : Prop :=
  ∀ found : Option Json, (∀ value ∈ found, value.Ordered) →
    node.mergedAt (node.mergedAt found) = node.mergedAt found

theorem mergeAllInto_mergeAllInto {tree : PathTree} (hsorted : Table.Sorted tree)
    (h : ∀ entry ∈ tree, Settles entry.2) {members : Json.Members}
    (hmembers : Json.Ordered (.object members)) :
    mergeAllInto tree (mergeAllInto tree members) = mergeAllInto tree members := by
  have hnodup := Table.nodup_keys_of_sorted hsorted
  have honce := sorted_mergeAllInto tree (Json.ordered_object_iff.1 hmembers).1
  refine Table.eq_of_get?_eq (sorted_mergeAllInto tree honce) honce fun key => ?_
  rw [get?_mergeAllInto hnodup, get?_mergeAllInto hnodup]
  cases hnode : Table.get? tree key with
  | none => rfl
  | some node =>
      refine h _ (Table.mem_of_get?_eq_some hnode) _ fun value hvalue => ?_
      exact Json.ordered_of_get? hmembers hvalue

mutual

theorem settles_of_nodeSorted : ∀ node : PathNode, PathTree.NodeSorted node → Settles node
  | ⟨_, some (.resolved _), _⟩, _, _, _ => rfl
  | ⟨_, some .pending, _⟩, _, _, _ => rfl
  | ⟨_, none, children⟩, ⟨hsorted, hbelow⟩, found, hfound => by
      have hchildren := settles_of_mem children hbelow
      refine congrArg some (Json.mapObjects_mapObjects
        (fun members => mergeAllInto_mergeAllInto hsorted hchildren) _ ?_)
      cases found with
      | none => exact Json.ordered_emptyObject
      | some value => exact hfound value rfl
termination_by structural node => node

theorem settles_of_mem : ∀ tree : List (String × PathNode), PathTree.SortedBelow tree →
    ∀ entry ∈ tree, Settles entry.2
  | [], _, _, hentry => absurd hentry List.not_mem_nil
  | (_, node) :: rest, ⟨hnode, hrest⟩, entry, hentry => by
      rcases List.mem_cons.1 hentry with rfl | hentry
      · exact settles_of_nodeSorted node hnode
      · exact settles_of_mem rest hrest entry hentry
termination_by structural tree => tree

end

end PathNode

/-- A second merge changes nothing. -/
theorem merge_merge {server : Json} (hserver : server.Ordered) {tree : PathTree}
    (hsorted : tree.Sorted) : merge (merge server tree) tree = merge server tree :=
  Json.mapObjects_mapObjects (fun _ => PathNode.mergeAllInto_mergeAllInto hsorted.1
    (PathNode.settles_of_mem tree hsorted.2)) server hserver

/-- A merge can be repeated. Where it puts no value it keeps the shape of what is there, and the
keys that it adds are keys of the tree. Every object that the path of a value leads to has the value
under the last key. -/
theorem merge_touches {server : Json} (hserver : server.Ordered) {tree : PathTree}
    (hsorted : tree.Sorted) :
    merge (merge server tree) tree = merge server tree ∧
      (∀ position found, server.locate? position = some found →
        ¬ tree.Overwrites position.keys →
          ∃ merged, (merge server tree).locate? position = some merged ∧
            found.KeepsShape merged) ∧
      (∀ position members, (merge server tree).locate? position = some (.object members) →
        ¬ tree.Overwrites position.keys → ∀ name ∈ Table.keys members,
          (∃ before, server.locate? position = some (.object before) ∧
            name ∈ Table.keys before) ∨
          name ∈ Table.keys (tree.below position.keys)) ∧
      ∀ path key value, tree.Puts (path ++ [key]) value → ∀ position members,
        position.keys = path → (merge server tree).locate? position = some (.object members) →
          Table.get? members key = some value := by
  refine ⟨merge_merge hserver hsorted, fun position found hfound h => ?_,
    fun position members hfound h name hname => mem_keys_of_locate?_merge hsorted hfound h hname,
    fun path key value h position members hkeys hfound => h.get?_of_merge hsorted hkeys hfound⟩
  have hbelow := Table.nodup_keys_of_sorted (hsorted.below position.keys).1
  rcases locate?_merge hsorted hfound h with hsame | hmerged
  · exact ⟨found, hsame, .refl found⟩
  · exact ⟨_, hmerged, keepsShape_merge hbelow found⟩

/-- The values of local fields of a club, a name and users. -/
def PathTree.ofClub (size first online : Json) : PathTree :=
  [("club", ⟨"club", none, [("size", ⟨"size", some (.resolved size), []⟩)]⟩),
    ("name", ⟨"name", none, [("first", ⟨"first", some (.resolved first), []⟩)]⟩),
    ("users", ⟨"users", none, [("online", ⟨"online", some (.resolved online), []⟩)]⟩)]

theorem PathTree.sorted_ofClub (size first online : Json) : (ofClub size first online).Sorted := by
  have hkeys : ["club", "name", "users"].Pairwise (· < ·) := by decide
  have hsorted : Table.Sorted (ofClub size first online) :=
    (List.pairwise_map (l := ofClub size first online)).1 hkeys
  have hone (key : String) (node : PathNode) : Table.Sorted [(key, node)] :=
    List.pairwise_singleton _ _
  refine ⟨hsorted, ?_⟩
  exact ⟨⟨hone _ _, sorted_nil, trivial⟩, ⟨hone _ _, sorted_nil, trivial⟩,
    ⟨hone _ _, sorted_nil, trivial⟩, trivial⟩

/-- The server has no club, a text for a name, and users in lists beside one that is missing. The
club is made, the name stays a text, and the users keep their places. -/
theorem merge_touches_club :
    let user (id : String) (others : Json.Members) : Json := .object (("id", .string id) :: others)
    let users (others : Json.Members) : Json :=
      .array [user "1" others, .null, .array [user "2" others]]
    let server : Json := .object [("name", .string "Al"), ("users", users [])]
    let tree := PathTree.ofClub (.string "3") (.string "A") (.bool true)
    server.Ordered ∧ tree.Sorted ∧
      merge server tree = .object [("club", .object [("size", .string "3")]),
        ("name", .string "Al"), ("users", users [("online", .bool true)])] ∧
      merge (merge server tree) tree = merge server tree ∧
      ¬ tree.Overwrites ["users"] ∧
      (∃ merged, (merge server tree).locate? [.key "users"] = some merged ∧
        (users []).KeepsShape merged) ∧
      tree.Puts ["users", "online"] (.bool true) ∧
      ∀ position members, position.keys = ["users"] →
        (merge server tree).locate? position = some (.object members) →
          Table.get? members "online" = some (.bool true) := by
  intro user users server tree
  have hkeys : "name" < "users" := by decide
  have hone (id : String) : (user id []).Ordered :=
    ⟨List.pairwise_singleton _ _, trivial, trivial⟩
  have hserver : server.Ordered :=
    ⟨List.pairwise_pair.2 hkeys, trivial,
      ⟨hone "1", trivial, ⟨hone "2", trivial⟩, trivial⟩, trivial⟩
  have hsorted : tree.Sorted := PathTree.sorted_ofClub _ _ _
  have hputs : tree.Puts ["users", "online"] (.bool true) :=
    ⟨List.mem_of_elem_eq_true rfl, _, rfl, rfl⟩
  have hover : ¬ tree.Overwrites ["users"] := by
    rintro ⟨front, value, ⟨hfront, -⟩, hstart⟩
    have hnone : ∀ front ∈ [["club", "size"], ["name", "first"], ["users", "online"]],
        ¬ front <+: ["users"] := by decide
    exact hnone front hfront hstart
  obtain ⟨hagain, hshape, -, hvalues⟩ := merge_touches hserver hsorted
  exact ⟨hserver, hsorted, rfl, hagain, hover, hshape [.key "users"] (users []) rfl hover, hputs,
    hvalues ["users"] "online" _ hputs⟩

end QueryCache
