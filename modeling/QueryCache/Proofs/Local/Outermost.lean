import QueryCache.Proofs.Local.Concealed
import QueryCache.Proofs.Local.Paths

/-!
# The local paths of a query

A local field stands at a path of response keys when the fields on the way to it, through inline
fragments and spreads, are not local themselves (`Selection.LocalAt`). Inlining fragments keeps
these paths (`Document.localAt_inlineFragments_iff`), and a split marks the paths that go on from
them (`Document.marks_split_iff`). So the path tree of a query lists those of them that go on from
no other one, in order, and has nodes for nothing else (`Document.localPaths_split`).
-/

namespace QueryCache

open PathTree (Marks NodeMarks exists_map_cons_prefix_iff marks_insert_iff)

namespace Selection

/-- A local field stands at the path, and no local field above it. A spread of a fragment stands
for the selections of the fragment. -/
inductive LocalAt (directive : String) (fragments : List Fragment) :
    Selection → List String → Prop
  | marked {head : FieldHead} {set : Option SelectionSet}
      (isLocal : head.hasDirective directive = true) :
      LocalAt directive fragments (field head set) [head.responseKey]
  | nested {head : FieldHead} {set : SelectionSet} {selection : Selection} {path : List String}
      (notLocal : head.hasDirective directive = false) (mem : selection ∈ set)
      (inside : LocalAt directive fragments selection path) :
      LocalAt directive fragments (field head (some set)) (head.responseKey :: path)
  | inline {condition : Option String} {directives : List Directive} {set : SelectionSet}
      {selection : Selection} {path : List String} (mem : selection ∈ set)
      (inside : LocalAt directive fragments selection path) :
      LocalAt directive fragments (inline condition directives set) path
  | spread {name : String} {directives : List Directive} {fragment : Fragment}
      {selection : Selection} {path : List String}
      (found : Fragment.find? fragments name = some fragment)
      (mem : selection ∈ fragment.selections)
      (inside : LocalAt directive fragments selection path) :
      LocalAt directive fragments (spread name directives) path

/-! ### Splitting -/

theorem prefix_singleton_iff {key : String} {path : List String} :
    [key] <+: path ↔ ∃ rest, path = key :: rest := by
  constructor
  · rintro ⟨rest, rfl⟩
    exact ⟨rest, rfl⟩
  · rintro ⟨rest, rfl⟩
    exact ⟨rest, rfl⟩

theorem marks_pending_iff {head : FieldHead} {tree : PathTree} {path : List String} :
    Marks (tree.insert head.responseKey (.pending head.name)) path ↔
      (∃ found ∈ [[head.responseKey]], found <+: path) ∨ Marks tree path := by
  rw [marks_insert_iff (PathTree.nodeSorted_pending head.name)]
  refine or_congr_left ?_
  have hpending (rest : List String) : NodeMarks (.pending head.name) rest := Or.inl rfl
  simp [prefix_singleton_iff, hpending]

mutual

/-- A split marks the paths that go on from the local fields of a selection. -/
theorem marks_split_iff (directive : String) :
    ∀ (selection : Selection) (tree : PathTree) (path : List String),
      Marks (split directive selection tree).2 path ↔
        (∃ found ∈ localPaths directive selection, found <+: path) ∨ Marks tree path
  | field head none, tree, path => by
      rw [split, localPaths]
      split
      · exact marks_pending_iff
      · have hdead (rest : List String) : ¬ NodeMarks ⟨head.name, none, []⟩ rest :=
          PathTree.not_nodeMarks_of_isDead rfl rest
        rw [marks_insert_iff (PathTree.nodeSorted_inner head.name PathTree.sorted_nil)]
        simp [hdead]
  | field head (some set), tree, path => by
      have hsorted := PathTree.keptBySplit_sorted.splitAll directive set [] PathTree.sorted_nil
      rw [split, localPaths]
      split
      · exact marks_pending_iff
      · have hbelow (rest : List String) :
            NodeMarks ⟨head.name, none, (splitAll directive set []).2⟩ rest ↔
              ∃ found ∈ localPathsOfAll directive set, found <+: rest := by
          refine (or_iff_right Bool.false_ne_true).trans ?_
          rw [marks_splitAll_iff directive set, or_iff_left (PathTree.not_marks_nil rest)]
        have hinsert : Marks (tree.insert head.responseKey
            ⟨head.name, none, (splitAll directive set []).2⟩) path ↔ _ :=
          marks_insert_iff (PathTree.nodeSorted_inner head.name hsorted)
        simp only [hbelow, ← exists_map_cons_prefix_iff] at hinsert
        dsimp only
        split <;> exact hinsert
  | spread name directives, tree, path => by simp [split, localPaths]
  | inline condition directives set, tree, path => by
      have hset := marks_splitAll_iff directive set tree path
      rw [split, localPaths]
      dsimp only
      split <;> exact hset
termination_by structural selection => selection

theorem marks_splitAll_iff (directive : String) :
    ∀ (set : List Selection) (tree : PathTree) (path : List String),
      Marks (splitAll directive set tree).2 path ↔
        (∃ found ∈ localPathsOfAll directive set, found <+: path) ∨ Marks tree path
  | [], tree, path => by simp [splitAll, localPathsOfAll]
  | selection :: rest, tree, path => by
      rw [splitAll, localPathsOfAll]
      refine (marks_splitAll_iff directive rest _ path).trans ?_
      rw [marks_split_iff directive selection]
      simp only [List.mem_append, or_and_right, exists_or]
      exact or_left_comm.trans or_assoc.symm
termination_by structural set => set

end

end Selection

namespace Document

theorem marks_splitOperations_iff (directive : String) (operations : List Operation)
    (tree : PathTree) (path : List String) :
    Marks (splitOperations directive operations tree).2 path ↔
      (∃ found, (∃ op ∈ operations,
        found ∈ Selection.localPathsOfAll directive op.selections) ∧ found <+: path) ∨
        Marks tree path := by
  induction operations generalizing tree with
  | nil => simp [splitOperations]
  | cons op rest ih =>
      rw [splitOperations]
      refine (ih _).trans ?_
      rw [Selection.marks_splitAll_iff]
      simp only [List.exists_mem_cons_iff, or_and_right, exists_or]
      exact or_left_comm.trans or_assoc.symm

end Document

/-! ### Inlining fragments -/

namespace Selection

variable {directive : String} {fragments : List Fragment}

theorem localAt_field_iff {head : FieldHead} {set : Option SelectionSet} {path : List String}
    (h : head.hasDirective directive = true) :
    LocalAt directive fragments (field head set) path ↔ path = [head.responseKey] := by
  constructor
  · intro hlocal
    cases hlocal with
    | marked => rfl
    | nested notLocal => cases notLocal.symm.trans h
  · rintro rfl
    exact .marked h

theorem localAt_nested_iff {head : FieldHead} {set : SelectionSet} {path : List String}
    (h : head.hasDirective directive = false) :
    LocalAt directive fragments (field head (some set)) path ↔
      ∃ rest, path = head.responseKey :: rest ∧
        ∃ selection ∈ set, LocalAt directive fragments selection rest := by
  constructor
  · intro hlocal
    cases hlocal with
    | marked isLocal => cases isLocal.symm.trans h
    | nested _ mem inside => exact ⟨_, rfl, _, mem, inside⟩
  · rintro ⟨rest, rfl, selection, mem, inside⟩
    exact .nested h mem inside

theorem localAt_inline_iff {condition : Option String} {directives : List Directive}
    {set : SelectionSet} {path : List String} :
    LocalAt directive fragments (inline condition directives set) path ↔
      ∃ selection ∈ set, LocalAt directive fragments selection path := by
  constructor
  · intro hlocal
    cases hlocal with
    | inline mem inside => exact ⟨_, mem, inside⟩
  · rintro ⟨selection, mem, inside⟩
    exact .inline mem inside

theorem localAt_spread_iff {name : String} {directives : List Directive} {path : List String} :
    LocalAt directive fragments (spread name directives) path ↔
      ∃ fragment, Fragment.find? fragments name = some fragment ∧
        ∃ selection ∈ fragment.selections, LocalAt directive fragments selection path := by
  constructor
  · intro hlocal
    cases hlocal with
    | spread found mem inside => exact ⟨_, found, _, mem, inside⟩
  · rintro ⟨fragment, found, selection, mem, inside⟩
    exact .spread found mem inside

/-- The local fields of what takes the place of a spread are those of the spread. -/
def KeepsLocal (directive : String) (fragments : List Fragment)
    (expand : String → List Directive → Except QueryFault Selection) : Prop :=
  ∀ name directives expanded, expand name directives = .ok expanded →
    ∀ path, path ∈ localPaths directive expanded ↔
      LocalAt directive fragments (spread name directives) path

mutual

theorem mem_localPaths_expandSpreads_iff
    {expand : String → List Directive → Except QueryFault Selection}
    (hexpand : KeepsLocal directive fragments expand) :
    ∀ (selection : Selection) {expanded : Selection},
      expandSpreads expand selection = .ok expanded → ∀ path,
        (path ∈ localPaths directive expanded ↔ LocalAt directive fragments selection path)
  | field head none, _, h, path => by
      cases h
      rw [localPaths]
      split
      · rw [localAt_field_iff ‹_›, List.mem_singleton]
      · refine ⟨fun h => absurd h List.not_mem_nil, fun h => ?_⟩
        cases h with
        | marked isLocal => exact absurd isLocal ‹_›
  | field head (some set), _, h, path => by
      obtain ⟨set', hset, rfl⟩ := exists_of_expandSpreads_branch h
      have ih := mem_localPathsOfAll_expandSpreadsInAll_iff hexpand set hset
      rw [localPaths]
      split
      · rw [localAt_field_iff ‹_›, List.mem_singleton]
      · rw [localAt_nested_iff (Bool.eq_false_iff.2 ‹_›), List.mem_map]
        simp only [ih, eq_comm, and_comm]
  | spread name directives, _, h, path => hexpand name directives _ h path
  | inline condition directives set, _, h, path => by
      obtain ⟨set', hset, rfl⟩ := exists_of_expandSpreads_inline h
      rw [localPaths, localAt_inline_iff]
      exact mem_localPathsOfAll_expandSpreadsInAll_iff hexpand set hset path
termination_by structural selection => selection

theorem mem_localPathsOfAll_expandSpreadsInAll_iff
    {expand : String → List Directive → Except QueryFault Selection}
    (hexpand : KeepsLocal directive fragments expand) :
    ∀ (set : List Selection) {expanded : List Selection},
      expandSpreadsInAll expand set = .ok expanded → ∀ path,
        (path ∈ localPathsOfAll directive expanded ↔
          ∃ selection ∈ set, LocalAt directive fragments selection path)
  | [], _, h, path => by
      cases h
      simp [localPathsOfAll]
  | selection :: rest, _, h, path => by
      obtain ⟨first, others, hfirst, hothers, rfl⟩ := exists_of_expandSpreadsInAll_cons h
      rw [localPathsOfAll, List.mem_append, List.exists_mem_cons_iff,
        mem_localPaths_expandSpreads_iff hexpand selection hfirst,
        mem_localPathsOfAll_expandSpreadsInAll_iff hexpand rest hothers]
termination_by structural set => set

end

end Selection

open Selection (KeepsLocal)

variable {directive : String}

/-- A fragment takes the place of its spread with all its local fields. -/
theorem Fragment.keepsLocal_expand {fragments : List Fragment} (fuel : Nat)
    (visiting : List String) :
    KeepsLocal directive fragments (expand fragments fuel visiting) := by
  refine forall_expand (fun within hwithin name fragment directives set hfragment hset path => ?_)
    fuel visiting
  rw [Selection.localPaths, Selection.localAt_spread_iff,
    Selection.mem_localPathsOfAll_expandSpreadsInAll_iff hwithin _ hset]
  simp [hfragment]

namespace Document

/-- A local field of some operation stands at the path, and none above it. -/
def LocalAt (directive : String) (d : Document) (path : List String) : Prop :=
  ∃ op ∈ d.operations, ∃ selection ∈ op.selections,
    Selection.LocalAt directive d.fragments selection path

theorem localAt_expandOperations_iff {fragments : List Fragment}
    {expand : String → List Directive → Except QueryFault Selection}
    (hexpand : KeepsLocal directive fragments expand) {operations expanded : List Operation}
    (h : List.Forall₂ (fun op op' => expandOperation expand op = .ok op') operations expanded)
    (path : List String) :
    (∃ op ∈ expanded, path ∈ Selection.localPathsOfAll directive op.selections) ↔
      ∃ op ∈ operations, ∃ selection ∈ op.selections,
        Selection.LocalAt directive fragments selection path := by
  induction h with
  | nil => simp
  | cons hop _ ih =>
      obtain ⟨set, hset, rfl⟩ := exists_of_expandOperation hop
      rw [List.exists_mem_cons_iff, List.exists_mem_cons_iff, ih,
        Selection.mem_localPathsOfAll_expandSpreadsInAll_iff hexpand _ hset]

/-- Inlining fragments leaves no fragments, and local fields where they were. -/
theorem localAt_inlineFragments_iff (directive : String) {d inlined : Document}
    (h : d.inlineFragments = .ok inlined) :
    inlined.fragments = [] ∧ ∀ path,
      ((∃ op ∈ inlined.operations, path ∈ Selection.localPathsOfAll directive op.selections) ↔
        d.LocalAt directive path) := by
  rcases of_inlineFragments h with ⟨hnone, rfl⟩ | ⟨operations, rfl, hoperations⟩
  · have hexpand : KeepsLocal directive inlined.fragments
        fun name directives => .ok (.spread name directives) := by
      intro name directives expanded hexpanded path
      cases hexpanded
      rw [Selection.localAt_spread_iff, hnone]
      simp [Selection.localPaths, Fragment.find?]
    refine ⟨hnone, fun path => exists_congr fun op => and_congr_right fun _ => ?_⟩
    exact Selection.mem_localPathsOfAll_expandSpreadsInAll_iff hexpand op.selections
      (Selection.expandSpreadsInAll_spread op.selections) path
  · exact ⟨rfl, localAt_expandOperations_iff (Fragment.keepsLocal_expand _ _) hoperations⟩

/-- The path tree of a query lists, in lexicographic order and once each, the paths of its
outermost local fields that go on from no other such path. At each of them it has a pending node
with nothing below it, and no node of it is dead. It has pending nodes, and the split has found
local fields, exactly if the query has one. -/
theorem localPaths_split (directive : String) {d inlined : Document}
    (hinlined : d.inlineFragments = .ok inlined) :
    let tree := (inlined.split directive).pathTree
    (PathTree.localPaths tree).Pairwise (· < ·) ∧
      (∀ path, path ∈ PathTree.localPaths tree ↔ d.LocalAt directive path ∧
        ∀ other, d.LocalAt directive other → other <+: path → other = path) ∧
      (∀ path ∈ PathTree.localPaths tree, ∃ fieldName,
        tree.nodeAt? path = some (.pending fieldName)) ∧
      (∀ path node, tree.nodeAt? path = some node → node.isDead = false) ∧
      ((inlined.split directive).foundLocal = true ↔ ∃ path, d.LocalAt directive path) ∧
      (PathTree.hasPending tree = true ↔ ∃ path, d.LocalAt directive path) := by
  intro tree
  obtain ⟨hfragments, hlocal⟩ := localAt_inlineFragments_iff directive hinlined
  have hsorted : tree.Sorted := sorted_split directive inlined
  have hnormal : PathTree.Normal (· = .pending) tree :=
    PathTree.keptBySplit_normal.pathTree directive inlined
  have hmarks (path : List String) :
      Marks tree path ↔ ∃ found, d.LocalAt directive found ∧ found <+: path := by
    simp only [← hlocal]
    refine (marks_splitOperations_iff directive inlined.operations [] path).trans ?_
    exact or_iff_left (PathTree.not_marks_nil path)
  have hsome : tree ≠ [] ↔ ∃ path, d.LocalAt directive path := by
    constructor
    · intro hne
      obtain ⟨path, hpath⟩ := List.exists_mem_of_ne_nil _
        (PathTree.localPaths_ne_nil tree hnormal hne)
      exact ⟨path, ((PathTree.mem_localPaths_iff_of_marks hsorted hmarks).1 hpath).1⟩
    · rintro ⟨path, hpath⟩ hnil
      have hmarked := (hmarks path).2 ⟨path, hpath, List.prefix_rfl⟩
      rw [hnil] at hmarked
      exact PathTree.not_marks_nil path hmarked
  refine ⟨PathTree.pairwise_localPaths tree hsorted,
    fun path => PathTree.mem_localPaths_iff_of_marks hsorted hmarks, fun path hpath => ?_,
    fun path node hnode => (PathTree.nodeNormal_nodeAt? hnormal hnode).isDead_eq, ?_, ?_⟩
  · obtain ⟨node, hnode, hmark⟩ := PathTree.exists_nodeAt?_of_mem_localPaths hsorted hpath
    have hpending := (PathTree.nodeNormal_nodeAt? hnormal hnode).eq_pending hmark
    exact ⟨node.fieldName, by rw [hnode, ← hpending]⟩
  · have hfound : (inlined.split directive).foundLocal = !tree.isEmpty := by
      simp [split, hfragments, tree]
    rw [hfound, ← hsome]
    simp
  · rw [← hsome]
    refine ⟨?_, PathTree.hasPending_of_normal tree hnormal⟩
    rintro hpending hnil
    rw [hnil] at hpending
    cases hpending

/-- A user with a local rank, which stands in a fragment, and in another operation a rank of the
user with a local title. -/
def ofRank : Document :=
  let marked (name : String) : Selection := .field ⟨none, name, [], [⟨"local", []⟩]⟩ none
  ⟨[⟨.query, some "a", [], [], [.field (.leaf "me") (some [.spread "Rest" []])]⟩,
    ⟨.query, some "b", [], [], [.field ⟨some "me", "user", [], []⟩
      (some [.field (.leaf "rank") (some [marked "title"])])]⟩],
    [⟨"Rest", "User", [], [.field (.leaf "name") none, marked "rank"]⟩]⟩

/-- The title stands below the rank, so the rank alone is listed. -/
theorem localPaths_split_rank :
    ∃ inlined, ofRank.inlineFragments = .ok inlined ∧
      let tree := (inlined.split "local").pathTree
      PathTree.localPaths tree = [["me", "rank"]] ∧
      ofRank.LocalAt "local" ["me", "rank"] ∧ ofRank.LocalAt "local" ["me", "rank", "title"] ∧
      (∀ other, ofRank.LocalAt "local" other → other <+: ["me", "rank"] →
        other = ["me", "rank"]) ∧
      (∃ fieldName, tree.nodeAt? ["me", "rank"] = some (.pending fieldName)) ∧
      (∀ path node, tree.nodeAt? path = some node → node.isDead = false) ∧
      (inlined.split "local").foundLocal = true ∧ PathTree.hasPending tree = true := by
  obtain ⟨inlined, hinlined⟩ : ∃ inlined, ofRank.inlineFragments = .ok inlined := ⟨_, rfl⟩
  obtain ⟨-, hiff, hpending, halive, hfound, hhas⟩ := localPaths_split "local" hinlined
  have hpaths : PathTree.localPaths (inlined.split "local").pathTree = [["me", "rank"]] := by
    cases hinlined
    rfl
  have hmem := hpaths ▸ List.mem_singleton_self ["me", "rank"]
  obtain ⟨hrank, hleast⟩ := (hiff _).1 hmem
  have htitle : ofRank.LocalAt "local" ["me", "rank", "title"] :=
    ⟨_, List.mem_cons_of_mem _ List.mem_cons_self, _, List.mem_cons_self,
      .nested rfl List.mem_cons_self (.nested rfl List.mem_cons_self (.marked rfl))⟩
  exact ⟨inlined, hinlined, hpaths, hrank, htitle, hleast, hpending _ hmem, halive,
    hfound.2 ⟨_, hrank⟩, hhas.2 ⟨_, hrank⟩⟩

end Document

end QueryCache
