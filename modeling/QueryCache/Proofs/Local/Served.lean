import QueryCache.Local.Split

/-!
# The two halves of a split

A split builds the server's part and the path tree in one walk. `Selection.served` is the
server's part by itself: it does not depend on the path tree that is being built
(`Selection.fst_split`), so what is sent and where local values belong can be studied apart.

The path tree is built by insertions only, of pending nodes and of nodes above trees that were
built in the same way. What these insertions keep holds of the tree
(`PathTree.KeptBySplit.pathTree`).
-/

namespace QueryCache

namespace Selection

mutual

/-- A selection without its local fields. There is none when they used up its selections. -/
def served (directive : String) : Selection → Option Selection
  | field head none =>
    if head.hasDirective directive then none else some (field head none)
  | field head (some set) =>
    let kept := servedAll directive set
    if head.hasDirective directive then none
    else if set.isEmpty || !kept.isEmpty then some (field head (some kept))
    else none
  | spread name directives => some (spread name directives)
  | inline condition directives set =>
    let kept := servedAll directive set
    if set.isEmpty || !kept.isEmpty then some (inline condition directives kept) else none
termination_by structural selection => selection

/-- The selections of a list without their local fields. -/
def servedAll (directive : String) : List Selection → SelectionSet
  | [] => []
  | selection :: rest => (served directive selection).toList ++ servedAll directive rest
termination_by structural set => set

end

/-- What used up the selections of a set: there were some, and none is left. -/
theorem used_up_iff {set kept : SelectionSet} :
    ¬ (set.isEmpty || !kept.isEmpty) = true ↔ set ≠ [] ∧ kept = [] := by
  simp

mutual

theorem fst_split (directive : String) :
    ∀ (selection : Selection) (tree : PathTree),
      (split directive selection tree).1 = served directive selection
  | field head none, tree => by
      rw [split, served]
      split <;> rfl
  | field head (some set), tree => by
      have hset := fst_splitAll directive set []
      rw [split, served]
      split
      · rfl
      · simp only [hset]
        split <;> rfl
  | spread name directives, tree => rfl
  | inline condition directives set, tree => by
      have hset := fst_splitAll directive set tree
      rw [split, served]
      simp only [hset]
      split <;> rfl
termination_by structural selection => selection

theorem fst_splitAll (directive : String) :
    ∀ (set : List Selection) (tree : PathTree),
      (splitAll directive set tree).1 = servedAll directive set
  | [], tree => rfl
  | selection :: rest, tree => by
      have hselection := fst_split directive selection tree
      have hrest := fst_splitAll directive rest (split directive selection tree).2
      rw [splitAll, servedAll]
      simp only [hselection, hrest]
termination_by structural set => set

end

end Selection

namespace Document

/-- An operation without its local fields. -/
def servedOperation (directive : String) (op : Operation) : Operation :=
  { op with selections := Selection.servedAll directive op.selections }

/-- A fragment without its local fields. -/
def servedFragment (directive : String) (fragment : Fragment) : Fragment :=
  { fragment with selections := Selection.servedAll directive fragment.selections }

theorem fst_splitOperations (directive : String) (operations : List Operation)
    (tree : PathTree) :
    (splitOperations directive operations tree).1 =
      operations.map (servedOperation directive) := by
  induction operations generalizing tree with
  | nil => rfl
  | cons op rest ih =>
      rw [splitOperations, List.map_cons]
      simp only [ih, Selection.fst_splitAll]
      rfl

theorem operations_split (directive : String) (d : Document) :
    (d.split directive).server.operations = d.operations.map (servedOperation directive) :=
  fst_splitOperations directive d.operations []

theorem fragments_split (directive : String) (d : Document) :
    (d.split directive).server.fragments = d.fragments.map (servedFragment directive) := by
  change (d.fragments.map (splitFragment directive)).map Prod.fst = _
  rw [List.map_map]
  refine List.map_congr_left fun fragment _ => ?_
  simp only [Function.comp_apply, splitFragment, Selection.fst_splitAll]
  rfl

/-- The server is asked unless local fields have used up all selections. -/
theorem sendToServer_split (directive : String) (d : Document) :
    (d.split directive).sendToServer =
      (!(d.operations.any fun op => !op.selections.isEmpty) ||
        d.operations.any fun op => !(Selection.servedAll directive op.selections).isEmpty) := by
  have hoperations := fst_splitOperations directive d.operations []
  rw [split]
  simp only [hoperations, List.any_map]
  rfl

end Document

/-! ### Path trees -/

/-- It holds of the empty tree, and every insertion of a split keeps it. -/
structure PathTree.KeptBySplit (P : PathTree → Prop) : Prop where
  nil : P []
  pending : ∀ {tree : PathTree} (key fieldName : String), P tree →
    P (tree.insert key (.pending fieldName))
  inner : ∀ {tree children : PathTree} (key fieldName : String), P tree → P children →
    P (tree.insert key ⟨fieldName, none, children⟩)

namespace PathTree.KeptBySplit

variable {P : PathTree → Prop}

mutual

theorem split (h : KeptBySplit P) (directive : String) :
    ∀ (selection : Selection) (tree : PathTree), P tree →
      P (Selection.split directive selection tree).2
  | .field head none, tree, htree => by
      rw [Selection.split]
      split
      · exact h.pending _ _ htree
      · exact h.inner head.responseKey head.name htree h.nil
  | .field head (some set), tree, htree => by
      have hchildren := splitAll h directive set [] h.nil
      rw [Selection.split]
      split
      · exact h.pending _ _ htree
      · dsimp only
        split <;> exact h.inner _ _ htree hchildren
  | .spread name directives, tree, htree => htree
  | .inline condition directives set, tree, htree => by
      have hset := splitAll h directive set tree htree
      rw [Selection.split]
      dsimp only
      split <;> exact hset
termination_by structural selection => selection

theorem splitAll (h : KeptBySplit P) (directive : String) :
    ∀ (set : List Selection) (tree : PathTree), P tree →
      P (Selection.splitAll directive set tree).2
  | [], _, htree => htree
  | selection :: rest, tree, htree =>
      splitAll h directive rest _ (split h directive selection tree htree)
termination_by structural set => set

end

theorem splitOperations (h : KeptBySplit P) (directive : String) (operations : List Operation)
    {tree : PathTree} (htree : P tree) :
    P (Document.splitOperations directive operations tree).2 := by
  induction operations generalizing tree with
  | nil => exact htree
  | cons op rest ih => exact ih (h.splitAll directive op.selections tree htree)

/-- What the insertions of a split keep holds of the path tree of every document. -/
theorem pathTree (h : KeptBySplit P) (directive : String) (d : Document) :
    P (d.split directive).pathTree :=
  h.splitOperations directive d.operations h.nil

end PathTree.KeptBySplit

end QueryCache
