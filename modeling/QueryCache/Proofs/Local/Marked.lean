import QueryCache.Proofs.Local.Served
import QueryCache.Proofs.Table.Lookup

/-!
# What a path tree covers

The path tree of a split covers the local fields of the query: on the path to each of them a
node is local (`Document.marks_split`). That node may stand above the field, where another
selection of the same response key is local itself. A selection that leaves nothing for the
server has a local field (`Selection.exists_localPath`), so there is a node for it as well.

All trees that a split makes are sorted at every level (`Document.sorted_split`).
-/

namespace QueryCache

namespace PathTree

/-- Some node on the path is local. -/
def Marks : List (String × PathNode) → List String → Prop
  | _, [] => False
  | tree, key :: rest =>
    ∃ node, Table.get? tree key = some node ∧
      (node.isLocal = true ∨ Marks node.children rest)
termination_by structural _ path => path

/-- The node is local, or some node on the path from it is. -/
def NodeMarks (node : PathNode) (path : List String) : Prop :=
  node.isLocal = true ∨ Marks node.children path

theorem not_marks_nil (path : List String) : ¬ Marks [] path := by
  cases path with
  | nil => exact id
  | cons key rest =>
      rintro ⟨node, hnode, -⟩
      simp at hnode

theorem not_nodeMarks_of_isDead {node : PathNode} (h : node.isDead = true)
    (path : List String) : ¬ NodeMarks node path := by
  rw [PathNode.isDead, Bool.and_eq_true, Option.isNone_iff_eq_none, List.isEmpty_iff] at h
  rw [NodeMarks, PathNode.isLocal, h.1, h.2]
  rintro (hlocal | hmarks)
  · cases hlocal
  · exact not_marks_nil path hmarks

/-- A node that is put under a key marks paths there, and takes no marks away if those that
it is combined with keep theirs. -/
theorem marks_place {tree : PathTree} {key : String} {node : PathNode}
    {combine : PathNode → PathNode}
    (hcombine : ∀ existing path, NodeMarks node path ∨ NodeMarks existing path →
      NodeMarks (combine existing) path) {other : String} {rest : List String}
    (h : other = key ∧ NodeMarks node rest ∨ Marks tree (other :: rest)) :
    Marks (PathNode.place tree key node combine) (other :: rest) := by
  rw [PathNode.place]
  split
  · rename_i hdead
    rcases h with ⟨-, hnode⟩ | htree
    · exact absurd hnode (not_nodeMarks_of_isDead hdead rest)
    · exact htree
  · by_cases hkey : other = key
    · subst hkey
      cases hexisting : Table.get? tree other with
      | some existing =>
          refine ⟨_, Table.get?_insert_self _ _ _, hcombine existing rest ?_⟩
          rcases h with ⟨-, hnode⟩ | ⟨found, hfound, hmarks⟩
          · exact Or.inl hnode
          · cases hexisting.symm.trans hfound
            exact Or.inr hmarks
      | none =>
          refine ⟨_, Table.get?_insert_self _ _ _, ?_⟩
          rcases h with ⟨-, hnode⟩ | ⟨found, hfound, -⟩
          · exact hnode
          · cases hexisting.symm.trans hfound
    · rcases h with ⟨heq, -⟩ | ⟨found, hfound, hmarks⟩
      · exact absurd heq hkey
      · refine ⟨found, ?_, hmarks⟩
        split <;> rw [Table.get?_insert_of_ne _ _ hkey, hfound]

mutual

theorem nodeMarks_absorbedBy :
    ∀ (node existing : PathNode) (path : List String),
      NodeMarks node path ∨ NodeMarks existing path → NodeMarks (node.absorbedBy existing) path
  | ⟨fieldName, mark, children⟩, existing, path, h => by
      rw [PathNode.absorbedBy]
      split
      · exact Or.inl ‹_›
      · split
        · exact Or.inl ‹_›
        · right
          refine marks_insertAll children existing.children path ?_
          rcases h with (hlocal | hmarks) | (hlocal | hmarks)
          · exact absurd hlocal ‹_›
          · exact Or.inl hmarks
          · exact absurd hlocal ‹_›
          · exact Or.inr hmarks
termination_by structural node => node

theorem marks_insertAll :
    ∀ (nodes tree : List (String × PathNode)) (path : List String),
      Marks nodes path ∨ Marks tree path → Marks (PathNode.insertAll nodes tree) path
  | [], _, path, h => h.resolve_left (not_marks_nil path)
  | (key, node) :: rest, tree, [], h => by
      rcases h with h | h <;> exact h.elim
  | (key, node) :: rest, tree, other :: path, h => by
      rw [PathNode.insertAll]
      refine marks_insertAll rest _ (other :: path) ?_
      by_cases hkey : other = key
      · right
        refine marks_place (fun existing path => nodeMarks_absorbedBy node existing path) ?_
        rcases h with ⟨found, hfound, hmarks⟩ | htree
        · rw [Table.get?_cons, if_pos hkey] at hfound
          cases hfound
          exact Or.inl ⟨hkey, hmarks⟩
        · exact Or.inr htree
      · rcases h with ⟨found, hfound, hmarks⟩ | htree
        · rw [Table.get?_cons, if_neg hkey] at hfound
          exact Or.inl ⟨found, hfound, hmarks⟩
        · right
          exact marks_place (fun existing path => nodeMarks_absorbedBy node existing path)
            (Or.inr htree)
termination_by structural nodes => nodes

end

/-- An inserted node marks its paths. -/
theorem marks_insert_self {tree : PathTree} {node : PathNode} {rest : List String}
    (h : NodeMarks node rest) (key : String) : Marks (tree.insert key node) (key :: rest) :=
  marks_place (fun existing path => nodeMarks_absorbedBy node existing path) (Or.inl ⟨rfl, h⟩)

/-- What was marked before an insertion is marked after it. -/
theorem Marks.insert {tree : PathTree} {path : List String} (h : Marks tree path)
    (key : String) (node : PathNode) : Marks (tree.insert key node) path := by
  cases path with
  | nil => exact h.elim
  | cons other rest =>
      exact marks_place (fun existing path => nodeMarks_absorbedBy node existing path)
        (Or.inr h)

end PathTree

/-! ### Local fields -/

namespace Selection

mutual

/-- The paths of response keys that lead to the local fields of a selection. -/
def localPaths (directive : String) : Selection → List (List String)
  | field head none => if head.hasDirective directive then [[head.responseKey]] else []
  | field head (some set) =>
    let below := localPathsOfAll directive set
    if head.hasDirective directive then [[head.responseKey]]
    else below.map (head.responseKey :: ·)
  | spread _ _ => []
  | inline _ _ set => localPathsOfAll directive set
termination_by structural selection => selection

/-- The paths of response keys that lead to the local fields of a list of selections. -/
def localPathsOfAll (directive : String) : List Selection → List (List String)
  | [] => []
  | selection :: rest => localPaths directive selection ++ localPathsOfAll directive rest
termination_by structural set => set

end

open PathTree (Marks marks_insert_self)

theorem marks_pending {head : FieldHead} {tree : PathTree} {path : List String}
    (h : path ∈ [[head.responseKey]] ∨ Marks tree path) :
    Marks (tree.insert head.responseKey (.pending head.name)) path := by
  rcases h with hpath | hmarks
  · rw [List.mem_singleton.1 hpath]
    exact marks_insert_self (Or.inl rfl) _
  · exact hmarks.insert _ _

mutual

/-- A split marks the local fields of a selection, and keeps what is marked. -/
theorem marks_split (directive : String) :
    ∀ (selection : Selection) (tree : PathTree) (path : List String),
      path ∈ localPaths directive selection ∨ Marks tree path →
        Marks (split directive selection tree).2 path
  | field head none, tree, path, h => by
      rw [localPaths] at h
      rw [split]
      split at h
      · rw [if_pos ‹_›]
        exact marks_pending h
      · rw [if_neg ‹_›]
        exact (h.resolve_left List.not_mem_nil).insert head.responseKey ⟨head.name, none, []⟩
  | field head (some set), tree, path, h => by
      have hset := marks_splitAll directive set []
      rw [localPaths] at h
      rw [split]
      split at h
      · rw [if_pos ‹_›]
        exact marks_pending h
      · rw [if_neg ‹_›]
        have hinsert : Marks (tree.insert head.responseKey
            ⟨head.name, none, (splitAll directive set []).2⟩) path := by
          rcases h with hpath | hmarks
          · obtain ⟨below, hbelow, rfl⟩ := List.mem_map.1 hpath
            exact marks_insert_self (Or.inr (hset below (Or.inl hbelow))) _
          · exact hmarks.insert _ _
        dsimp only
        split <;> exact hinsert
  | spread name directives, tree, path, h => h.resolve_left List.not_mem_nil
  | inline condition directives set, tree, path, h => by
      have hset := marks_splitAll directive set tree path h
      rw [split]
      dsimp only
      split <;> exact hset
termination_by structural selection => selection

theorem marks_splitAll (directive : String) :
    ∀ (set : List Selection) (tree : PathTree) (path : List String),
      path ∈ localPathsOfAll directive set ∨ Marks tree path →
        Marks (splitAll directive set tree).2 path
  | [], tree, path, h => h.resolve_left List.not_mem_nil
  | selection :: rest, tree, path, h => by
      refine marks_splitAll directive rest _ path ?_
      rw [localPathsOfAll, List.mem_append, or_assoc] at h
      rcases h with hfirst | hrest | hmarks
      · exact Or.inr (marks_split directive selection tree path (Or.inl hfirst))
      · exact Or.inl hrest
      · exact Or.inr (marks_split directive selection tree path (Or.inr hmarks))
termination_by structural set => set

end

mutual

/-- What leaves nothing for the server has a local field. -/
theorem exists_localPath (directive : String) :
    ∀ selection : Selection, served directive selection = none →
      ∃ path, path ∈ localPaths directive selection
  | field head none, h => by
      rw [served] at h
      split at h
      · rw [localPaths, if_pos ‹_›]
        exact ⟨_, List.mem_singleton_self _⟩
      · cases h
  | field head (some set), h => by
      rw [served] at h
      split at h
      · rw [localPaths, if_pos ‹_›]
        exact ⟨_, List.mem_singleton_self _⟩
      · rw [localPaths, if_neg ‹_›]
        split at h
        · cases h
        · obtain ⟨hset, hkept⟩ := used_up_iff.1 ‹_›
          obtain ⟨path, hpath⟩ := exists_localPathOfAll directive set hset hkept
          exact ⟨_, List.mem_map_of_mem hpath⟩
  | spread name directives, h => by cases h
  | inline condition directives set, h => by
      rw [served] at h
      split at h
      · cases h
      · obtain ⟨hset, hkept⟩ := used_up_iff.1 ‹_›
        exact exists_localPathOfAll directive set hset hkept
termination_by structural selection => selection

theorem exists_localPathOfAll (directive : String) :
    ∀ set : List Selection, set ≠ [] → servedAll directive set = [] →
      ∃ path, path ∈ localPathsOfAll directive set
  | [], hset, _ => absurd rfl hset
  | selection :: rest, _, h => by
      rw [servedAll, List.append_eq_nil_iff, Option.toList_eq_nil_iff] at h
      obtain ⟨path, hpath⟩ := exists_localPath directive selection h.1
      exact ⟨path, List.mem_append_left _ hpath⟩
termination_by structural set => set

end

end Selection

namespace Document

theorem marks_splitOperations (directive : String) (operations : List Operation)
    (tree : PathTree) {path : List String}
    (h : (∃ op ∈ operations, path ∈ Selection.localPathsOfAll directive op.selections) ∨
      PathTree.Marks tree path) :
    PathTree.Marks (splitOperations directive operations tree).2 path := by
  induction operations generalizing tree with
  | nil =>
      rcases h with ⟨op, hop, -⟩ | hmarks
      · cases hop
      · exact hmarks
  | cons op rest ih =>
      refine ih _ ?_
      rcases h with ⟨other, hother, hpath⟩ | hmarks
      · rcases List.mem_cons.1 hother with rfl | hother
        · exact Or.inr (Selection.marks_splitAll directive _ tree path (Or.inl hpath))
        · exact Or.inl ⟨other, hother, hpath⟩
      · exact Or.inr (Selection.marks_splitAll directive _ tree path (Or.inr hmarks))

/-- The path tree of a split covers the local fields of every operation. -/
theorem marks_split (directive : String) {d : Document} {op : Operation}
    (hop : op ∈ d.operations) {path : List String}
    (hpath : path ∈ Selection.localPathsOfAll directive op.selections) :
    PathTree.Marks (d.split directive).pathTree path :=
  marks_splitOperations directive d.operations [] (Or.inl ⟨op, hop, hpath⟩)

end Document

/-! ### Sorted trees -/

namespace PathTree

mutual

/-- Below the node every tree is in the order of its keys. -/
def NodeSorted : PathNode → Prop
  | ⟨_, _, children⟩ => Table.Sorted children ∧ SortedBelow children
termination_by structural node => node

/-- Below the nodes every tree is in the order of its keys. -/
def SortedBelow : List (String × PathNode) → Prop
  | [] => True
  | (_, node) :: rest => NodeSorted node ∧ SortedBelow rest
termination_by structural tree => tree

end

/-- The tree and all trees in it are in the order of their keys. -/
def Sorted (tree : PathTree) : Prop := Table.Sorted tree ∧ SortedBelow tree

theorem sorted_nil : Sorted [] := ⟨Table.sorted_nil, trivial⟩

theorem sortedBelow_iff {tree : List (String × PathNode)} :
    SortedBelow tree ↔ ∀ entry ∈ tree, NodeSorted entry.2 := by
  induction tree with
  | nil => simp [SortedBelow]
  | cons entry rest ih =>
      obtain ⟨key, node⟩ := entry
      simp [SortedBelow, ih]

theorem nodeSorted_pending (fieldName : String) : NodeSorted (.pending fieldName) :=
  sorted_nil

theorem nodeSorted_inner (fieldName : String) {children : PathTree} (h : Sorted children) :
    NodeSorted ⟨fieldName, none, children⟩ := h

theorem Sorted.node {tree : PathTree} (h : Sorted tree) {key : String} {node : PathNode}
    (hnode : Table.get? tree key = some node) : NodeSorted node :=
  sortedBelow_iff.1 h.2 _ (Table.mem_of_get?_eq_some hnode)

theorem Sorted.insert_entry {tree : PathTree} (h : Sorted tree) (key : String)
    {node : PathNode} (hnode : NodeSorted node) : Sorted (Table.insert tree key node) := by
  refine ⟨Table.sorted_insert h.1 key node, sortedBelow_iff.2 fun entry hentry => ?_⟩
  rcases Table.mem_insert hentry with rfl | hentry
  · exact hnode
  · exact sortedBelow_iff.1 h.2 entry hentry

theorem Sorted.place {tree : PathTree} (h : Sorted tree) (key : String) {node : PathNode}
    (hnode : NodeSorted node) {combine : PathNode → PathNode}
    (hcombine : ∀ existing, NodeSorted existing → NodeSorted (combine existing)) :
    Sorted (PathNode.place tree key node combine) := by
  rw [PathNode.place]
  split
  · exact h
  · split
    · exact h.insert_entry key (hcombine _ (h.node ‹_›))
    · exact h.insert_entry key hnode

mutual

theorem nodeSorted_absorbedBy :
    ∀ (node existing : PathNode), NodeSorted node → NodeSorted existing →
      NodeSorted (node.absorbedBy existing)
  | ⟨fieldName, mark, children⟩, ⟨existingName, existingMark, existingChildren⟩, hnode,
      hexisting => by
      rw [PathNode.absorbedBy]
      split
      · exact hexisting
      · split
        · exact hnode
        · exact sorted_insertAll children existingChildren hnode.2 hexisting
termination_by structural node => node

theorem sorted_insertAll :
    ∀ (nodes tree : List (String × PathNode)), SortedBelow nodes → Sorted tree →
      Sorted (PathNode.insertAll nodes tree)
  | [], _, _, htree => htree
  | (key, node) :: rest, tree, hnodes, htree => by
      rw [PathNode.insertAll]
      refine sorted_insertAll rest _ hnodes.2 (htree.place key hnodes.1 ?_)
      intro existing hexisting
      exact nodeSorted_absorbedBy node existing hnodes.1 hexisting
termination_by structural nodes => nodes

end

theorem Sorted.insert {tree : PathTree} (h : Sorted tree) (key : String) {node : PathNode}
    (hnode : NodeSorted node) : Sorted (tree.insert key node) :=
  h.place key hnode fun existing => nodeSorted_absorbedBy node existing hnode

theorem keptBySplit_sorted : KeptBySplit Sorted where
  nil := sorted_nil
  pending key fieldName h := h.insert key (nodeSorted_pending fieldName)
  inner key fieldName h hchildren := h.insert key (nodeSorted_inner fieldName hchildren)

end PathTree

theorem Document.sorted_split (directive : String) (d : Document) :
    PathTree.Sorted (d.split directive).pathTree :=
  PathTree.keptBySplit_sorted.pathTree directive d

end QueryCache
