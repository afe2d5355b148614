import QueryCache.Proofs.Local.Marked

/-!
# The local paths of a path tree

`PathTree.localPaths` lists the paths of the local nodes in depth first order. In a sorted tree
this is the lexicographic order (`pairwise_localPaths`), and no path in the list is the start of
another one (`eq_of_prefix`). A path is marked exactly if it goes on from one in the list
(`marks_iff`), so whatever paths the marked ones go on from, the shortest of those are the list
(`mem_localPaths_iff_of_marks`).

In a normal tree a local node has nothing below it, and any other node leads to a local one.
Insertion keeps trees normal, so the nodes of a split are pending leaves or lead to some
(`keptBySplit_normal`).
-/

namespace QueryCache

namespace PathTree

/-! ### What insertion marks -/

/-- A node that is put under a key marks no other paths than it marks itself. -/
theorem marks_of_place {tree : PathTree} {key : String} {node : PathNode}
    {combine : PathNode → PathNode}
    (hcombine : ∀ existing path, NodeMarks (combine existing) path →
      NodeMarks node path ∨ NodeMarks existing path) {other : String} {rest : List String}
    (h : Marks (PathNode.place tree key node combine) (other :: rest)) :
    other = key ∧ NodeMarks node rest ∨ Marks tree (other :: rest) := by
  rw [PathNode.place] at h
  split at h
  · exact Or.inr h
  · obtain ⟨found, hfound, hmarks⟩ := h
    by_cases hkey : other = key
    · subst hkey
      split at hfound
      · rename_i existing hexisting
        rw [Table.get?_insert_self] at hfound
        cases hfound
        rcases hcombine existing rest hmarks with hnode | hexists
        · exact Or.inl ⟨rfl, hnode⟩
        · exact Or.inr ⟨existing, hexisting, hexists⟩
      · rw [Table.get?_insert_self] at hfound
        cases hfound
        exact Or.inl ⟨rfl, hmarks⟩
    · right
      refine ⟨found, ?_, hmarks⟩
      split at hfound <;> rwa [Table.get?_insert_of_ne _ _ hkey] at hfound

mutual

theorem nodeMarks_of_absorbedBy :
    ∀ (node existing : PathNode) (path : List String), NodeSorted node →
      NodeMarks (node.absorbedBy existing) path → NodeMarks node path ∨ NodeMarks existing path
  | ⟨fieldName, mark, children⟩, existing, path, hsorted, h => by
      rw [PathNode.absorbedBy] at h
      split at h
      · exact Or.inr h
      · split at h
        · exact Or.inl h
        · rcases h with hlocal | hmarks
          · exact absurd hlocal ‹_›
          · exact (marks_of_insertAll children existing.children path hsorted hmarks).imp
              Or.inr Or.inr
termination_by structural node => node

theorem marks_of_insertAll :
    ∀ (nodes tree : List (String × PathNode)) (path : List String), Sorted nodes →
      Marks (PathNode.insertAll nodes tree) path → Marks nodes path ∨ Marks tree path
  | [], _, path, _, h => Or.inr h
  | (key, node) :: rest, tree, [], _, h => h.elim
  | (key, node) :: rest, tree, other :: path, ⟨hsorted, hnode, hbelow⟩, h => by
      rw [PathNode.insertAll] at h
      have hnodup := Table.nodup_keys_of_sorted hsorted
      rcases marks_of_insertAll rest _ (other :: path) ⟨hsorted.tail, hbelow⟩ h with h | h
      · obtain ⟨found, hfound, hmarks⟩ := h
        have hne : other ≠ key := by
          rintro rfl
          exact (List.nodup_cons.1 hnodup).1 (Table.mem_keys_iff.2 ⟨found, hfound⟩)
        exact Or.inl ⟨found, by rwa [Table.get?_cons, if_neg hne], hmarks⟩
      · have hcombine := fun existing path =>
          nodeMarks_of_absorbedBy node existing path hnode
        rcases marks_of_place hcombine h with ⟨rfl, hmarks⟩ | h
        · exact Or.inl ⟨node, by rw [Table.get?_cons, if_pos rfl], hmarks⟩
        · exact Or.inr h
termination_by structural nodes => nodes

end

/-- An insertion marks what the node marks under its key, besides what was marked before. -/
theorem marks_insert_iff {tree : PathTree} {key : String} {node : PathNode}
    (hnode : NodeSorted node) {path : List String} :
    Marks (tree.insert key node) path ↔
      (∃ rest, path = key :: rest ∧ NodeMarks node rest) ∨ Marks tree path := by
  constructor
  · intro h
    cases path with
    | nil => exact h.elim
    | cons other rest =>
        have hcombine := fun existing path => nodeMarks_of_absorbedBy node existing path hnode
        exact (marks_of_place hcombine h).imp_left fun ⟨hkey, hmarks⟩ =>
          ⟨rest, by rw [hkey], hmarks⟩
  · rintro (⟨rest, rfl, hmarks⟩ | hmarks)
    · exact marks_insert_self hmarks key
    · exact hmarks.insert key node

/-! ### The list of local paths -/

/-- A local path begins with a key of the tree. -/
theorem exists_of_mem_localPaths {tree : List (String × PathNode)} {path : List String}
    (h : path ∈ localPaths tree) :
    ∃ key node rest, (key, node) ∈ tree ∧ rest ∈ nodePaths node ∧ path = key :: rest := by
  induction tree with
  | nil => cases h
  | cons entry others ih =>
      obtain ⟨key, node⟩ := entry
      rw [localPaths, List.mem_append, List.mem_map] at h
      rcases h with ⟨rest, hrest, rfl⟩ | h
      · exact ⟨key, node, rest, List.mem_cons_self, hrest, rfl⟩
      · obtain ⟨other, found, rest, hmem, hrest, heq⟩ := ih h
        exact ⟨other, found, rest, List.mem_cons_of_mem _ hmem, hrest, heq⟩

theorem ne_nil_of_mem_localPaths {tree : List (String × PathNode)} {path : List String}
    (h : path ∈ localPaths tree) : path ≠ [] := by
  obtain ⟨_, _, _, -, -, rfl⟩ := exists_of_mem_localPaths h
  exact List.cons_ne_nil _ _

theorem mem_localPaths_cons_iff {key : String} {node : PathNode}
    {others : List (String × PathNode)} {path : List String} :
    path ∈ localPaths ((key, node) :: others) ↔
      (∃ rest ∈ nodePaths node, path = key :: rest) ∨ path ∈ localPaths others := by
  rw [localPaths, List.mem_append, List.mem_map]
  simp only [eq_comm]

theorem mem_localPaths_of_mem {tree : List (String × PathNode)} {key : String}
    {rest : List String} {node : PathNode} (hmem : (key, node) ∈ tree)
    (hrest : rest ∈ nodePaths node) : key :: rest ∈ localPaths tree := by
  induction tree with
  | nil => cases hmem
  | cons entry others ih =>
      rcases List.mem_cons.1 hmem with rfl | hmem
      · exact mem_localPaths_cons_iff.2 (Or.inl ⟨rest, hrest, rfl⟩)
      · exact mem_localPaths_cons_iff.2 (Or.inr (ih hmem))

theorem mem_localPaths_of_get? {tree : PathTree} {key : String} {rest : List String}
    {node : PathNode} (hnode : Table.get? tree key = some node) (hrest : rest ∈ nodePaths node) :
    key :: rest ∈ localPaths tree :=
  mem_localPaths_of_mem (Table.mem_of_get?_eq_some hnode) hrest

theorem exists_map_cons_prefix_iff {key : String} {paths : List (List String)}
    {path : List String} :
    (∃ found ∈ paths.map (key :: ·), found <+: path) ↔
      ∃ rest, path = key :: rest ∧ ∃ found ∈ paths, found <+: rest := by
  constructor
  · rintro ⟨_, hfound, rest, rfl⟩
    obtain ⟨found, hmem, rfl⟩ := List.mem_map.1 hfound
    exact ⟨found ++ rest, rfl, found, hmem, rest, rfl⟩
  · rintro ⟨rest, rfl, found, hfound, hstart⟩
    exact ⟨_, List.mem_map_of_mem hfound, List.cons_prefix_cons.2 ⟨rfl, hstart⟩⟩

/-- A local path ends at a marked node, or goes on below an unmarked one. -/
theorem cases_of_mem_localPaths {tree : PathTree} (hsorted : Table.Sorted tree) {key : String}
    {rest : List String} (h : key :: rest ∈ localPaths tree) :
    (rest = [] ∧ ∃ fieldName mark children,
        Table.get? tree key = some ⟨fieldName, some mark, children⟩) ∨
      ∃ fieldName children, Table.get? tree key = some ⟨fieldName, none, children⟩ ∧
        rest ∈ localPaths children := by
  obtain ⟨_, ⟨fieldName, mark, children⟩, _, hmem, hrest, heq⟩ := exists_of_mem_localPaths h
  cases heq
  have hnode := Table.get?_eq_some_of_mem (Table.nodup_keys_of_sorted hsorted) hmem
  cases mark with
  | some mark => exact Or.inl ⟨List.mem_singleton.1 hrest, fieldName, mark, children, hnode⟩
  | none => exact Or.inr ⟨fieldName, children, hnode, hrest⟩

mutual

theorem pairwise_nodePaths :
    ∀ node : PathNode, NodeSorted node → (nodePaths node).Pairwise (· < ·)
  | ⟨_, some _, _⟩, _ => List.pairwise_singleton _ _
  | ⟨_, none, children⟩, h => pairwise_localPaths children h
termination_by structural node => node

/-- The local paths are in lexicographic order, each of them once. -/
theorem pairwise_localPaths :
    ∀ tree : List (String × PathNode), Sorted tree → (localPaths tree).Pairwise (· < ·)
  | [], _ => List.Pairwise.nil
  | (key, node) :: others, ⟨hsorted, hnode, hbelow⟩ => by
      rw [localPaths, List.pairwise_append, List.pairwise_map]
      refine ⟨(pairwise_nodePaths node hnode).imp List.cons_lt_cons_self.2,
        pairwise_localPaths others ⟨hsorted.tail, hbelow⟩, ?_⟩
      intro path hpath other hother
      obtain ⟨rest, -, rfl⟩ := List.mem_map.1 hpath
      obtain ⟨otherKey, found, tail, hmem, -, rfl⟩ := exists_of_mem_localPaths hother
      exact List.cons_lt_cons_iff.2 (Or.inl (List.rel_of_pairwise_cons hsorted hmem))
termination_by structural tree => tree

end

mutual

theorem nodeMarks_iff :
    ∀ (node : PathNode) (path : List String), NodeSorted node →
      (NodeMarks node path ↔ ∃ found ∈ nodePaths node, found <+: path)
  | ⟨_, some _, _⟩, path, _ => by
      simp [NodeMarks, PathNode.isLocal, nodePaths, List.nil_prefix]
  | ⟨_, none, children⟩, path, h => by
      rw [nodePaths, ← marks_iff children path h]
      exact or_iff_right Bool.false_ne_true
termination_by structural node => node

/-- A path is marked exactly if it goes on from a local path. -/
theorem marks_iff :
    ∀ (tree : List (String × PathNode)) (path : List String), Sorted tree →
      (Marks tree path ↔ ∃ found ∈ localPaths tree, found <+: path)
  | [], path, _ => by simp [not_marks_nil, localPaths]
  | (key, node) :: others, [], _ => by
      refine ⟨False.elim, fun ⟨found, hfound, hstart⟩ => ?_⟩
      obtain ⟨_, _, _, -, -, rfl⟩ := exists_of_mem_localPaths hfound
      exact absurd hstart (by simp)
  | (key, node) :: others, other :: rest, ⟨hsorted, hnode, hbelow⟩ => by
      have hnodup := (List.nodup_cons.1 (Table.nodup_keys_of_sorted hsorted)).1
      have ihNode := nodeMarks_iff node rest hnode
      have ihOthers := marks_iff others (other :: rest) ⟨hsorted.tail, hbelow⟩
      rw [Marks, Table.get?_cons]
      by_cases hkey : other = key
      · subst hkey
        rw [if_pos rfl]
        refine ⟨fun ⟨found, heq, hmarks⟩ => ?_, fun ⟨found, hfound, hstart⟩ => ⟨node, rfl, ?_⟩⟩
        · cases heq
          obtain ⟨below, hmem, hstart⟩ := ihNode.1 hmarks
          exact ⟨other :: below, mem_localPaths_cons_iff.2 (Or.inl ⟨below, hmem, rfl⟩),
            List.cons_prefix_cons.2 ⟨rfl, hstart⟩⟩
        · rcases mem_localPaths_cons_iff.1 hfound with ⟨below, hmem, rfl⟩ | hfound
          · exact ihNode.2 ⟨below, hmem, (List.cons_prefix_cons.1 hstart).2⟩
          · -- The path begins with the key of a later node, of which there is none.
            obtain ⟨_, found, _, hmem, -, rfl⟩ := exists_of_mem_localPaths hfound
            rw [(List.cons_prefix_cons.1 hstart).1] at hmem
            exact absurd (List.mem_map_of_mem hmem) hnodup
      · rw [if_neg hkey]
        refine ihOthers.trans ⟨fun ⟨found, hfound, hstart⟩ => ?_, fun ⟨found, hfound, hstart⟩ => ?_⟩
        · exact ⟨found, mem_localPaths_cons_iff.2 (Or.inr hfound), hstart⟩
        · rcases mem_localPaths_cons_iff.1 hfound with ⟨below, -, rfl⟩ | hfound
          · exact absurd (List.cons_prefix_cons.1 hstart).1.symm hkey
          · exact ⟨found, hfound, hstart⟩
termination_by structural tree => tree

end

mutual

theorem eq_of_prefix_nodePaths :
    ∀ (node : PathNode) {path other : List String}, NodeSorted node →
      path ∈ nodePaths node → other ∈ nodePaths node → other <+: path → other = path
  | ⟨_, some _, _⟩, path, other, _, hpath, hother, _ => by
      rw [nodePaths, List.mem_singleton] at hpath hother
      rw [hpath, hother]
  | ⟨_, none, children⟩, path, other, h, hpath, hother, hstart =>
      eq_of_prefix children h hpath hother hstart
termination_by structural node => node

/-- No local path is the start of another one. -/
theorem eq_of_prefix :
    ∀ (tree : List (String × PathNode)) {path other : List String}, Sorted tree →
      path ∈ localPaths tree → other ∈ localPaths tree → other <+: path → other = path
  | [], _, _, _, hpath, _, _ => absurd hpath List.not_mem_nil
  | (key, node) :: others, path, other, ⟨hsorted, hnode, hbelow⟩, hpath, hother, hstart => by
      have hnodup := (List.nodup_cons.1 (Table.nodup_keys_of_sorted hsorted)).1
      -- Paths below different nodes begin with different keys.
      have hapart : ∀ rest later, later ∈ localPaths others →
          ¬ key :: rest <+: later ∧ ¬ later <+: key :: rest := by
        intro rest later hlater
        obtain ⟨otherKey, found, tail, hmem, -, rfl⟩ := exists_of_mem_localPaths hlater
        have hne : key ≠ otherKey := by
          rintro rfl
          exact hnodup (List.mem_map.2 ⟨_, hmem, rfl⟩)
        exact ⟨fun h => hne (List.cons_prefix_cons.1 h).1,
          fun h => hne (List.cons_prefix_cons.1 h).1.symm⟩
      rcases mem_localPaths_cons_iff.1 hpath with ⟨rest, hrest, rfl⟩ | hpath
      · rcases mem_localPaths_cons_iff.1 hother with ⟨rest', hrest', rfl⟩ | hother
        · rw [eq_of_prefix_nodePaths node hnode hrest hrest' (List.cons_prefix_cons.1 hstart).2]
        · exact absurd hstart (hapart rest other hother).2
      · rcases mem_localPaths_cons_iff.1 hother with ⟨rest', -, rfl⟩ | hother
        · exact absurd hstart (hapart rest' path hpath).1
        · exact eq_of_prefix others ⟨hsorted.tail, hbelow⟩ hpath hother hstart
termination_by structural tree => tree

end

/-- When the marked paths are those that go on from some paths, the local paths are the ones of
these that go on from no other. -/
theorem mem_localPaths_iff_of_marks {tree : PathTree} (h : tree.Sorted)
    {P : List String → Prop}
    (hmarks : ∀ path, Marks tree path ↔ ∃ found, P found ∧ found <+: path) {path : List String} :
    path ∈ localPaths tree ↔ P path ∧ ∀ other, P other → other <+: path → other = path := by
  have hcovers (path : List String) :
      (∃ found ∈ localPaths tree, found <+: path) ↔ ∃ found, P found ∧ found <+: path :=
    (marks_iff tree path h).symm.trans (hmarks path)
  constructor
  · intro hpath
    have hleast : ∀ other, P other → other <+: path → other = path := by
      intro other hother hstart
      obtain ⟨found, hfound, hbelow⟩ := (hcovers other).2 ⟨other, hother, List.prefix_rfl⟩
      have heq := eq_of_prefix tree h hpath hfound (hbelow.trans hstart)
      exact hstart.eq_of_length_le (heq ▸ hbelow.length_le)
    obtain ⟨found, hfound, hstart⟩ := (hcovers path).1 ⟨path, hpath, List.prefix_rfl⟩
    exact ⟨hleast found hfound hstart ▸ hfound, hleast⟩
  · rintro ⟨hpath, hleast⟩
    obtain ⟨found, hfound, hstart⟩ := (hcovers path).2 ⟨path, hpath, List.prefix_rfl⟩
    obtain ⟨other, hother, hbelow⟩ := (hcovers found).1 ⟨found, hfound, List.prefix_rfl⟩
    have heq := hleast other hother (hbelow.trans hstart)
    have hsame : found = path := hstart.eq_of_length_le (heq ▸ hbelow.length_le)
    exact hsame ▸ hfound

/-! ### Normal trees -/

section Normal

variable {allowed : Mark → Prop}

mutual

/-- A node with an allowed mark and nothing below it, or without a mark and above such nodes. -/
def NodeNormal (allowed : Mark → Prop) : PathNode → Prop
  | ⟨_, some mark, children⟩ => allowed mark ∧ children = []
  | ⟨_, none, children⟩ => children ≠ [] ∧ Normal allowed children
termination_by structural node => node

/-- Every node is marked in an allowed way and has nothing below it, or leads to such nodes. -/
def Normal (allowed : Mark → Prop) : List (String × PathNode) → Prop
  | [] => True
  | (_, node) :: rest => NodeNormal allowed node ∧ Normal allowed rest
termination_by structural tree => tree

end

theorem normal_iff {tree : List (String × PathNode)} :
    Normal allowed tree ↔ ∀ entry ∈ tree, NodeNormal allowed entry.2 := by
  induction tree with
  | nil => simp [Normal]
  | cons entry rest ih =>
      obtain ⟨key, node⟩ := entry
      simp [Normal, ih]

theorem NodeNormal.isDead_eq {node : PathNode} (h : NodeNormal allowed node) :
    node.isDead = false := by
  obtain ⟨fieldName, mark, children⟩ := node
  cases mark with
  | some mark => rfl
  | none => simpa [PathNode.isDead] using h.1

theorem NodeNormal.children {node : PathNode} (h : NodeNormal allowed node) :
    Normal allowed node.children := by
  obtain ⟨fieldName, mark, children⟩ := node
  cases mark with
  | some mark =>
      rw [show children = [] from h.2]
      trivial
  | none => exact h.2

theorem normal_get? {tree : PathTree} (h : Normal allowed tree) {key : String}
    {node : PathNode} (hnode : Table.get? tree key = some node) : NodeNormal allowed node :=
  normal_iff.1 h _ (Table.mem_of_get?_eq_some hnode)

theorem normal_insert_entry {tree : PathTree} (h : Normal allowed tree) (key : String)
    {node : PathNode} (hnode : NodeNormal allowed node) :
    Normal allowed (Table.insert tree key node) := by
  refine normal_iff.2 fun entry hentry => ?_
  rcases Table.mem_insert hentry with rfl | hentry
  · exact hnode
  · exact normal_iff.1 h entry hentry

theorem place_ne_nil {tree : PathTree} (h : tree ≠ []) (key : String) (node : PathNode)
    (combine : PathNode → PathNode) : PathNode.place tree key node combine ≠ [] := by
  rw [PathNode.place]
  split
  · exact h
  · split <;> exact Table.insert_ne_nil _ _ _

theorem insertAll_ne_nil {tree : List (String × PathNode)} (h : tree ≠ [])
    (nodes : List (String × PathNode)) : PathNode.insertAll nodes tree ≠ [] := by
  induction nodes generalizing tree with
  | nil => exact h
  | cons entry rest ih => exact ih (place_ne_nil h _ _ _)

theorem normal_place {tree : PathTree} (h : Normal allowed tree) (key : String)
    {node : PathNode} (hnode : node.isDead = false → NodeNormal allowed node)
    {combine : PathNode → PathNode}
    (hcombine : NodeNormal allowed node → ∀ existing, NodeNormal allowed existing →
      NodeNormal allowed (combine existing)) :
    Normal allowed (PathNode.place tree key node combine) := by
  rw [PathNode.place]
  split
  · exact h
  · have hnode := hnode (Bool.eq_false_iff.2 ‹_›)
    split
    · exact normal_insert_entry h key (hcombine hnode _ (normal_get? h ‹_›))
    · exact normal_insert_entry h key hnode

mutual

theorem nodeNormal_absorbedBy :
    ∀ (node existing : PathNode), NodeNormal allowed node → NodeNormal allowed existing →
      NodeNormal allowed (node.absorbedBy existing)
  | ⟨fieldName, some mark, children⟩, existing, hnode, hexisting => by
      rw [PathNode.absorbedBy]
      split
      · exact hexisting
      · exact hnode
  | ⟨fieldName, none, children⟩, ⟨existingName, some mark, existingChildren⟩, _, hexisting =>
      hexisting
  | ⟨fieldName, none, children⟩, ⟨existingName, none, existingChildren⟩, hnode, hexisting =>
      ⟨insertAll_ne_nil hexisting.1 children,
        normal_insertAll children existingChildren hnode.2 hexisting.2⟩
termination_by structural node => node

theorem normal_insertAll :
    ∀ (nodes tree : List (String × PathNode)), Normal allowed nodes → Normal allowed tree →
      Normal allowed (PathNode.insertAll nodes tree)
  | [], _, _, htree => htree
  | (key, node) :: rest, tree, hnodes, htree => by
      refine normal_insertAll rest _ hnodes.2 (normal_place htree key (fun _ => hnodes.1) ?_)
      exact fun hnode existing => nodeNormal_absorbedBy node existing hnode
termination_by structural nodes => nodes

end

/-- The insertion of a normal node or a dead one keeps a tree normal. -/
theorem normal_insert {tree : PathTree} (h : Normal allowed tree) (key : String)
    {node : PathNode} (hnode : node.isDead = false → NodeNormal allowed node) :
    Normal allowed (tree.insert key node) :=
  normal_place h key hnode fun hnode existing => nodeNormal_absorbedBy node existing hnode

/-- A split makes pending leaves and what leads to them. -/
theorem keptBySplit_normal : KeptBySplit (Normal (· = .pending)) where
  nil := trivial
  pending key fieldName h := normal_insert h key fun _ => ⟨rfl, rfl⟩
  inner key fieldName h hchildren := normal_insert h key fun hdead => by
    refine ⟨fun hnil => ?_, hchildren⟩
    rw [PathNode.isDead, hnil] at hdead
    cases hdead

/-! ### Nodes on paths -/

theorem nodeAt?_cons (tree : PathTree) (key : String) {rest : List String} (h : rest ≠ []) :
    nodeAt? tree (key :: rest) =
      (Table.get? tree key).bind fun node => nodeAt? node.children rest := by
  obtain ⟨next, others, rfl⟩ := List.exists_cons_of_ne_nil h
  cases hget : Table.get? tree key <;> simp [nodeAt?, hget]

theorem nodeNormal_nodeAt? {tree : PathTree} (h : Normal allowed tree) {path : List String}
    {node : PathNode} (hnode : tree.nodeAt? path = some node) : NodeNormal allowed node := by
  induction path generalizing tree with
  | nil => cases hnode
  | cons key rest ih =>
      by_cases hrest : rest = []
      · subst hrest
        exact normal_get? h hnode
      · rw [nodeAt?_cons tree key hrest, Option.bind_eq_some_iff] at hnode
        obtain ⟨above, habove, hnode⟩ := hnode
        exact ih (normal_get? h habove).children hnode

/-- At a local path stands a local node. -/
theorem exists_nodeAt?_of_mem_localPaths {tree : PathTree} (hsorted : tree.Sorted)
    {path : List String} (h : path ∈ localPaths tree) :
    ∃ node, tree.nodeAt? path = some node ∧ node.isLocal = true := by
  induction path generalizing tree with
  | nil => exact absurd rfl (ne_nil_of_mem_localPaths h)
  | cons key rest ih =>
      rcases cases_of_mem_localPaths hsorted.1 h with
        ⟨rfl, fieldName, mark, children, hnode⟩ | ⟨fieldName, children, hnode, hrest⟩
      · exact ⟨_, hnode, rfl⟩
      · rw [nodeAt?_cons tree key (ne_nil_of_mem_localPaths hrest), hnode]
        exact ih (hsorted.node hnode) hrest

theorem NodeNormal.eq_pending {node : PathNode} (h : NodeNormal (· = .pending) node)
    (hlocal : node.isLocal = true) : node = .pending node.fieldName := by
  obtain ⟨fieldName, mark, children⟩ := node
  cases mark with
  | none => cases hlocal
  | some mark =>
      obtain ⟨rfl, rfl⟩ := h
      rfl

mutual

theorem nodeHasPending_of_normal :
    ∀ node : PathNode, NodeNormal (· = .pending) node → nodeHasPending node = true
  | ⟨_, some .pending, _⟩, _ => rfl
  | ⟨_, none, []⟩, h => absurd rfl h.1
  | ⟨_, none, entry :: rest⟩, h => hasPending_of_normal (entry :: rest) h.2 h.1
termination_by structural node => node

theorem hasPending_of_normal :
    ∀ tree : List (String × PathNode), Normal (· = .pending) tree → tree ≠ [] →
      hasPending tree = true
  | [], _, hne => absurd rfl hne
  | (key, node) :: rest, h, _ => by
      rw [hasPending, nodeHasPending_of_normal node h.1, Bool.true_or]
termination_by structural tree => tree

end

mutual

theorem nodePaths_ne_nil :
    ∀ node : PathNode, NodeNormal allowed node → nodePaths node ≠ []
  | ⟨_, some _, _⟩, _ => List.cons_ne_nil _ _
  | ⟨_, none, children⟩, h => localPaths_ne_nil children h.2 h.1
termination_by structural node => node

/-- Every node leads to a local one. -/
theorem localPaths_ne_nil :
    ∀ tree : List (String × PathNode), Normal allowed tree → tree ≠ [] → localPaths tree ≠ []
  | [], _, hne => absurd rfl hne
  | (key, node) :: rest, h, _ => by
      rw [localPaths]
      exact List.append_ne_nil_of_left_ne_nil
        (mt List.map_eq_nil_iff.1 (nodePaths_ne_nil node h.1)) _
termination_by structural tree => tree

end

end Normal

end PathTree

end QueryCache
