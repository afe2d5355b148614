import QueryCache.Proofs.Local.Paths

/-!
# Building a path tree

`PathTree.ofNodes` inserts nodes one after the other. Of two nodes under one key the tree keeps the
mark that came first and the field name of the earlier unmarked node, so the order shows in the
tree. It does not show in its local paths: each insertion marks what the node marks by itself
(`PathTree.marks_ofNodes_iff`), and the local paths are the shortest of the marked ones.

A node that brings no new marks changes nothing (`PathTree.insert_eq_self`), so neither does one
that has been inserted before.
-/

namespace QueryCache

namespace PathTree

variable {allowed : Mark → Prop}

/-! ### Nodes that bring no new marks -/

/-- The node under the key marks what the node that is put there marks, so it stays if the
combination of the two is no other node. -/
theorem place_eq_self {tree : PathTree} (htree : Sorted tree) {key : String} {node : PathNode}
    (hsome : ∃ path, NodeMarks node path)
    (h : ∀ path, NodeMarks node path → Marks tree (key :: path)) {combine : PathNode → PathNode}
    (hcombine : ∀ existing, NodeSorted existing →
      (∀ path, NodeMarks node path → NodeMarks existing path) → combine existing = existing) :
    PathNode.place tree key node combine = tree := by
  obtain ⟨path, hpath⟩ := hsome
  obtain ⟨existing, hexisting, -⟩ := h path hpath
  have hstays : combine existing = existing := by
    refine hcombine existing (htree.node hexisting) fun path hpath => ?_
    obtain ⟨found, hfound, hmarks⟩ := h path hpath
    cases hexisting.symm.trans hfound
    exact hmarks
  rw [PathNode.place, hexisting]
  split
  · rfl
  · exact (congrArg _ hstays).trans (Table.insert_eq_self htree.1 hexisting)

/-- A normal node marks some path. -/
theorem exists_nodeMarks {node : PathNode} (hsorted : NodeSorted node)
    (hnormal : NodeNormal allowed node) : ∃ path, NodeMarks node path := by
  obtain ⟨path, hpath⟩ := List.exists_mem_of_ne_nil _ (nodePaths_ne_nil node hnormal)
  exact ⟨path, (nodeMarks_iff node path hsorted).2 ⟨path, hpath, List.prefix_rfl⟩⟩

theorem marks_cons_of_mem {key : String} {node : PathNode} {rest : List (String × PathNode)}
    (hsorted : Table.Sorted ((key, node) :: rest)) {path : List String} (h : Marks rest path) :
    Marks ((key, node) :: rest) path := by
  cases path with
  | nil => exact h.elim
  | cons other path =>
      obtain ⟨found, hfound, hmarks⟩ := h
      have hmem := List.mem_cons_of_mem (key, node) (Table.mem_of_get?_eq_some hfound)
      exact ⟨found, Table.get?_eq_some_of_mem (Table.nodup_keys_of_sorted hsorted) hmem, hmarks⟩

mutual

theorem absorbedBy_eq_self :
    ∀ (node existing : PathNode), NodeSorted node → NodeNormal allowed node →
      NodeSorted existing → (∀ path, NodeMarks node path → NodeMarks existing path) →
        node.absorbedBy existing = existing
  | ⟨fieldName, some mark, children⟩, existing, _, _, _, h => by
      -- Only a local node marks the empty path.
      have hlocal : existing.isLocal = true := (h [] (Or.inl rfl)).resolve_right id
      rw [PathNode.absorbedBy, if_pos hlocal]
  | ⟨fieldName, none, children⟩, ⟨existingName, mark, existingChildren⟩, hsorted, hnormal,
      hexisting, h => by
      rw [PathNode.absorbedBy]
      split
      · rfl
      · have hchildren : PathNode.insertAll children existingChildren = existingChildren := by
          refine insertAll_eq_self children existingChildren hsorted hnormal.2 hexisting ?_
          exact fun path hpath => (h path (Or.inr hpath)).resolve_left ‹_›
        rw [hchildren]
        rfl
termination_by structural node => node

theorem insertAll_eq_self :
    ∀ (nodes tree : List (String × PathNode)), Sorted nodes → Normal allowed nodes →
      Sorted tree → (∀ path, Marks nodes path → Marks tree path) →
        PathNode.insertAll nodes tree = tree
  | [], _, _, _, _, _ => rfl
  | (key, node) :: rest, tree, ⟨hsorted, hnode, hbelow⟩, ⟨hnormal, hothers⟩, htree, h => by
      have hplace : PathNode.place tree key node (PathNode.absorbedBy node) = tree := by
        refine place_eq_self htree (exists_nodeMarks hnode hnormal) (fun path hpath => ?_)
          fun existing => absorbedBy_eq_self node existing hnode hnormal
        exact h (key :: path) ⟨node, by rw [Table.get?_cons, if_pos rfl], hpath⟩
      rw [PathNode.insertAll, hplace]
      refine insertAll_eq_self rest tree ⟨hsorted.tail, hbelow⟩ hothers htree fun path hpath => ?_
      exact h path (marks_cons_of_mem hsorted hpath)
termination_by structural nodes => nodes

end

/-- A dead node, or a normal one that brings no new marks, changes nothing. -/
theorem insert_eq_self {tree : PathTree} (htree : Sorted tree) {key : String} {node : PathNode}
    (hsorted : NodeSorted node) (hnode : node.isDead = true ∨ NodeNormal allowed node)
    (h : ∀ path, NodeMarks node path → Marks tree (key :: path)) :
    tree.insert key node = tree := by
  rcases hnode with hdead | hnormal
  · rw [insert, PathNode.place, if_pos hdead]
  · exact place_eq_self htree (exists_nodeMarks hsorted hnormal) h
      fun existing => absorbedBy_eq_self node existing hsorted hnormal

/-! ### Sequences of insertions -/

/-- The tree of some nodes that are inserted one after the other. -/
def ofNodes (nodes : List (String × PathNode)) : PathTree :=
  nodes.foldl (fun tree entry => PathTree.insert tree entry.1 entry.2) []

variable {nodes : List (String × PathNode)}

theorem sorted_ofNodes (hsorted : ∀ entry ∈ nodes, NodeSorted entry.2) :
    Sorted (ofNodes nodes) :=
  List.foldlRecOn nodes _ sorted_nil fun _ htree entry hentry =>
    htree.insert entry.1 (hsorted entry hentry)

theorem normal_ofNodes
    (hnodes : ∀ entry ∈ nodes, entry.2.isDead = true ∨ NodeNormal allowed entry.2) :
    Normal allowed (ofNodes nodes) := by
  refine List.foldlRecOn nodes _ trivial fun tree htree entry hentry => ?_
  refine normal_insert htree entry.1 fun hdead => (hnodes entry hentry).resolve_left ?_
  exact Bool.eq_false_iff.1 hdead

theorem marks_foldl_insert_iff (hsorted : ∀ entry ∈ nodes, NodeSorted entry.2) (tree : PathTree)
    (path : List String) :
    Marks (nodes.foldl (fun tree entry => PathTree.insert tree entry.1 entry.2) tree) path ↔
      (∃ found ∈ localPaths nodes, found <+: path) ∨ Marks tree path := by
  induction nodes generalizing tree with
  | nil => simp [localPaths]
  | cons entry rest ih =>
      obtain ⟨key, node⟩ := entry
      obtain ⟨hnode, hrest⟩ := List.forall_mem_cons.1 hsorted
      have hbelow (path : List String) := nodeMarks_iff node path hnode
      rw [List.foldl_cons, ih hrest, marks_insert_iff hnode, localPaths]
      simp only [hbelow, ← exists_map_cons_prefix_iff, List.mem_append, or_and_right, exists_or]
      exact or_left_comm.trans or_assoc.symm

/-- The marked paths are those that go on from a local path of one of the nodes. -/
theorem marks_ofNodes_iff (hsorted : ∀ entry ∈ nodes, NodeSorted entry.2) (path : List String) :
    Marks (ofNodes nodes) path ↔ ∃ found ∈ localPaths nodes, found <+: path :=
  (marks_foldl_insert_iff hsorted [] path).trans (or_iff_left (not_marks_nil path))

theorem mem_localPaths_ofNodes_iff (hsorted : ∀ entry ∈ nodes, NodeSorted entry.2)
    {path : List String} :
    path ∈ localPaths (ofNodes nodes) ↔
      path ∈ localPaths nodes ∧ ∀ other ∈ localPaths nodes, other <+: path → other = path :=
  mem_localPaths_iff_of_marks (sorted_ofNodes hsorted) (marks_ofNodes_iff hsorted)

theorem mem_localPaths_iff_of_perm {other : List (String × PathNode)} (h : other.Perm nodes)
    {path : List String} : path ∈ localPaths other ↔ path ∈ localPaths nodes := by
  have hsubset {first second : List (String × PathNode)} (h : first ⊆ second)
      (hpath : path ∈ localPaths first) : path ∈ localPaths second := by
    obtain ⟨key, node, rest, hmem, hrest, rfl⟩ := exists_of_mem_localPaths hpath
    exact mem_localPaths_of_mem (h hmem) hrest
  exact ⟨hsubset h.subset, hsubset h.symm.subset⟩

/-- Trees of the same nodes have the same local paths, whatever the order of the nodes. -/
theorem localPaths_ofNodes_eq_of_perm {other : List (String × PathNode)} (h : other.Perm nodes)
    (hsorted : ∀ entry ∈ nodes, NodeSorted entry.2) :
    localPaths (ofNodes other) = localPaths (ofNodes nodes) := by
  have hother : ∀ entry ∈ other, NodeSorted entry.2 :=
    fun entry hentry => hsorted entry (h.mem_iff.1 hentry)
  have hpairwise := pairwise_localPaths _ (sorted_ofNodes hother)
  have hpairwise' := pairwise_localPaths _ (sorted_ofNodes hsorted)
  have hperm : (localPaths (ofNodes other)).Perm (localPaths (ofNodes nodes)) := by
    refine (List.perm_ext_iff_of_nodup hpairwise.nodup hpairwise'.nodup).2 fun path => ?_
    rw [mem_localPaths_ofNodes_iff hother, mem_localPaths_ofNodes_iff hsorted]
    simp only [mem_localPaths_iff_of_perm h]
  refine hperm.eq_of_pairwise (fun a b _ _ hab hba => ?_) hpairwise hpairwise'
  exact absurd hba (List.lt_asymm hab)

/-- A tree that is built from normal and dead nodes is normal. Its local paths are those of the
nodes that go on from no other one, in lexicographic order, whatever the order of the insertions.
To insert one of the nodes once more changes nothing. -/
theorem ofNodes_laws (hsorted : ∀ entry ∈ nodes, NodeSorted entry.2)
    (hnodes : ∀ entry ∈ nodes, entry.2.isDead = true ∨ NodeNormal allowed entry.2) :
    Normal allowed (ofNodes nodes) ∧
      (localPaths (ofNodes nodes)).Pairwise (· < ·) ∧
      (∀ path, path ∈ localPaths (ofNodes nodes) ↔
        path ∈ localPaths nodes ∧ ∀ other ∈ localPaths nodes, other <+: path → other = path) ∧
      (∀ other, other.Perm nodes → localPaths (ofNodes other) = localPaths (ofNodes nodes)) ∧
      (∀ key node, (key, node) ∈ nodes → (ofNodes nodes).insert key node = ofNodes nodes) := by
  refine ⟨normal_ofNodes hnodes, pairwise_localPaths _ (sorted_ofNodes hsorted),
    fun path => mem_localPaths_ofNodes_iff hsorted,
    fun other h => localPaths_ofNodes_eq_of_perm h hsorted, fun key node hmem => ?_⟩
  have hnode : NodeSorted node := hsorted _ hmem
  refine insert_eq_self (sorted_ofNodes hsorted) hnode (hnodes _ hmem) fun path hpath => ?_
  obtain ⟨below, hbelow, hstart⟩ := (nodeMarks_iff node path hnode).1 hpath
  exact (marks_ofNodes_iff hsorted _).2
    ⟨key :: below, mem_localPaths_of_mem hmem hbelow, List.cons_prefix_cons.2 ⟨rfl, hstart⟩⟩

/-- A title below the rank of a user, a dead node, and the rank itself with a mood that is
resolved. -/
def ranks : List (String × PathNode) :=
  [("me", ⟨"me", none, [("rank", ⟨"rank", none, [("title", .pending "title")]⟩)]⟩),
    ("name", ⟨"name", none, []⟩),
    ("me", ⟨"user", none, [("mood", ⟨"mood", some (.resolved .null), []⟩),
      ("rank", .pending "rank")]⟩)]

/-- The title stands below the rank, also when it is inserted last. -/
theorem ofNodes_laws_ranks :
    (∀ entry ∈ ranks, NodeSorted entry.2) ∧
      (∀ entry ∈ ranks, entry.2.isDead = true ∨ NodeNormal (fun _ => True) entry.2) ∧
      Normal (fun _ => True) (ofNodes ranks) ∧
      localPaths (ofNodes ranks) = [["me", "mood"], ["me", "rank"]] ∧
      localPaths (ofNodes ranks.reverse) = [["me", "mood"], ["me", "rank"]] ∧
      (∀ entry ∈ ranks, PathTree.insert (ofNodes ranks) entry.1 entry.2 = ofNodes ranks) := by
  have hsorted : ∀ entry ∈ ranks, NodeSorted entry.2 := by
    have hlt : "mood" < "rank" := by decide
    have hrank : NodeSorted ⟨"rank", none, [("title", .pending "title")]⟩ :=
      ⟨List.pairwise_singleton _ _, nodeSorted_pending _, trivial⟩
    exact sortedBelow_iff.1 ⟨⟨List.pairwise_singleton _ _, hrank, trivial⟩, sorted_nil,
      ⟨List.pairwise_pair.2 hlt, sorted_nil, nodeSorted_pending _, trivial⟩, trivial⟩
  have hnodes : ∀ entry ∈ ranks,
      entry.2.isDead = true ∨ NodeNormal (fun _ => True) entry.2 := by
    simp [ranks, NodeNormal, Normal, PathNode.isDead, PathNode.pending]
  obtain ⟨hnormal, -, -, hperm, hagain⟩ := ofNodes_laws hsorted hnodes
  have hpaths : localPaths (ofNodes ranks) = [["me", "mood"], ["me", "rank"]] := by
    decide +kernel
  exact ⟨hsorted, hnodes, hnormal, hpaths, (hperm _ ranks.reverse_perm).trans hpaths,
    fun entry hentry => hagain entry.1 entry.2 hentry⟩

end PathTree

end QueryCache
