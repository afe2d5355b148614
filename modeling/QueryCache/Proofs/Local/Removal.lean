import QueryCache.Proofs.Local.Concealed
import QueryCache.Proofs.Local.Remainder

/-!
# Splitting off fields and removing them

A split finds the fields that it takes out by their directive, and `Document.removeFields` by
their names. Where both find the same fields of a full document, they leave the same of it
(`Document.server_split_eq_removeFields`): the fields and inline fragments whose selections are
used up go with them, whether that is seen from how many selections a set had before or only from
how many it has left.

A document in which no field is local is all for the server, and its path tree is empty
(`Document.split_of_freeOf`). So a split of what a split has left changes nothing.
-/

namespace QueryCache

namespace Selection

mutual

/-- Every field in the selection has the property. -/
def EachField (p : FieldHead → Prop) : Selection → Prop
  | field head none => p head
  | field head (some set) => p head ∧ EachFieldOfAll p set
  | spread _ _ => True
  | inline _ _ set => EachFieldOfAll p set
termination_by structural selection => selection

/-- Every field in the selections of a list has the property. -/
def EachFieldOfAll (p : FieldHead → Prop) : List Selection → Prop
  | [] => True
  | selection :: rest => EachField p selection ∧ EachFieldOfAll p rest
termination_by structural set => set

end

section Removing

variable {directive : String} {names : List String}

mutual

/-- A set that is full keeps something or is used up, so it does not matter whether the set was
empty before. -/
theorem served_eq_removeFields :
    ∀ selection : Selection, Full selection →
      EachField (fun head => head.hasDirective directive = true ↔ head.name ∈ names) selection →
        served directive selection = removeFields names selection
  | field head none, _, hfields => by
      rw [served, removeFields]
      exact if_congr (hfields.trans List.contains_iff_mem.symm) rfl rfl
  | field head (some set), ⟨_, hfull⟩, ⟨hhead, hfields⟩ => by
      have hset := servedAll_eq_removeFieldsFromAll set hfull hfields
      rw [served, removeFields, hset]
      exact if_congr (hhead.trans List.contains_iff_mem.symm) rfl rfl
  | spread _ _, _, _ => rfl
  | inline condition directives set, ⟨hne, hfull⟩, hfields => by
      have hset := servedAll_eq_removeFieldsFromAll set hfull hfields
      rw [served, removeFields, hset]
      by_cases hleft : removeFieldsFromAll names set = []
      · simp [hleft, hne]
      · simp [hleft]
termination_by structural selection => selection

theorem servedAll_eq_removeFieldsFromAll :
    ∀ set : List Selection, AllFull set →
      EachFieldOfAll (fun head => head.hasDirective directive = true ↔ head.name ∈ names) set →
        servedAll directive set = removeFieldsFromAll names set
  | [], _, _ => rfl
  | selection :: rest, ⟨hfull, hrest⟩, ⟨hfields, hothers⟩ => by
      rw [servedAll, removeFieldsFromAll, served_eq_removeFields selection hfull hfields,
        servedAll_eq_removeFieldsFromAll rest hrest hothers]
      cases removeFields names selection <;> rfl
termination_by structural set => set

end

end Removing

/-! ### Splitting again -/

/-- A field without local fields below it leaves no trace in a path tree. -/
theorem insert_bare (tree : PathTree) (key fieldName : String) :
    tree.insert key ⟨fieldName, none, []⟩ = tree := rfl

mutual

theorem split_of_freeOf (directive : String) :
    ∀ (selection : Selection) (tree : PathTree), FreeOf directive selection →
      split directive selection tree = (some selection, tree)
  | field head none, tree, hhead => by
      rw [split, if_neg (Bool.eq_false_iff.1 hhead), insert_bare]
  | field head (some set), tree, ⟨hhead, hset⟩ => by
      rw [split, if_neg (Bool.eq_false_iff.1 hhead), splitAll_of_allFreeOf directive set [] hset]
      simp [insert_bare]
  | spread _ _, _, _ => rfl
  | inline condition directives set, tree, hset => by
      rw [split, splitAll_of_allFreeOf directive set tree hset]
      simp
termination_by structural selection => selection

/-- Nothing is taken out of a set without local fields, not even an empty set in it. -/
theorem splitAll_of_allFreeOf (directive : String) :
    ∀ (set : List Selection) (tree : PathTree), AllFreeOf directive set →
      splitAll directive set tree = (set, tree)
  | [], _, _ => rfl
  | selection :: rest, tree, ⟨hselection, hrest⟩ => by
      rw [splitAll, split_of_freeOf directive selection tree hselection]
      simp [splitAll_of_allFreeOf directive rest tree hrest]
termination_by structural set => set

end

end Selection

namespace Document

/-- Every field in the document has the property. -/
def EachField (p : FieldHead → Prop) (d : Document) : Prop :=
  ∀ set ∈ d.sets, Selection.EachFieldOfAll p set

theorem server_split (directive : String) (d : Document) :
    (d.split directive).server = d.mapSets (Selection.servedAll directive) :=
  congrArg₂ Document.mk (operations_split directive d) (fragments_split directive d)

/-- What becomes of a document is decided by what becomes of its sets. -/
theorem mapSets_congr {f g : SelectionSet → SelectionSet} {d : Document}
    (h : ∀ set ∈ d.sets, f set = g set) : d.mapSets f = d.mapSets g := by
  rw [mapSets, mapSets]
  congr 1
  · refine List.map_congr_left fun op hop => ?_
    rw [h _ (mem_sets_of_operation hop)]
  · refine List.map_congr_left fun fragment hfragment => ?_
    rw [h _ (mem_sets_of_fragment hfragment)]

theorem splitOperations_of_freeOf (directive : String) {operations : List Operation}
    (tree : PathTree) (h : ∀ op ∈ operations, Selection.AllFreeOf directive op.selections) :
    splitOperations directive operations tree = (operations, tree) := by
  induction operations with
  | nil => rfl
  | cons op rest ih =>
      obtain ⟨hop, hrest⟩ := List.forall_mem_cons.1 h
      rw [splitOperations, Selection.splitAll_of_allFreeOf directive op.selections tree hop]
      simp only [ih hrest]

/-- A document without local fields is all for the server, and no value has to be found for it. -/
theorem split_of_freeOf {directive : String} {d : Document} (h : d.FreeOf directive) :
    (d.split directive).server = d ∧ (d.split directive).pathTree = [] ∧
      (d.split directive).foundLocal = false := by
  have hoperations := splitOperations_of_freeOf directive [] h.operations
  have hfragments : d.fragments.map (splitFragment directive) =
      d.fragments.map fun fragment => (fragment, []) := by
    refine List.map_congr_left fun fragment hfragment => ?_
    rw [splitFragment, Selection.splitAll_of_allFreeOf directive _ [] (h.fragments _ hfragment)]
  rw [split, hoperations, hfragments]
  simp [Function.comp_def]

/-- Where the fields with a directive are those of some names, a full document without the ones
is the document without the others. A second split leaves it as it is, and finds nothing. -/
theorem server_split_eq_removeFields {directive : String} {names : List String} {d : Document}
    (hfull : d.Full)
    (hfields : d.EachField fun head => head.hasDirective directive = true ↔ head.name ∈ names) :
    (d.split directive).server = d.removeFields names ∧
      ((d.removeFields names).split directive).server = d.removeFields names ∧
      ((d.removeFields names).split directive).pathTree = [] ∧
      ((d.removeFields names).split directive).foundLocal = false := by
  have heq : (d.split directive).server = d.removeFields names := by
    rw [server_split, removeFields]
    refine mapSets_congr fun set hset => ?_
    exact Selection.servedAll_eq_removeFieldsFromAll set (hfull set hset).2 (hfields set hset)
  exact ⟨heq, split_of_freeOf (heq ▸ freeOf_split directive d)⟩

/-- A user with a local mood, which stands among preferences, in an inline fragment and in a club
of the fragment that is spread. -/
def ofMoods : Document :=
  let mood (set : Option SelectionSet) : Selection :=
    .field ⟨some "m", "mood", [], [⟨"local", []⟩]⟩ set
  ⟨[.ofName "profile" [.field (.leaf "me") (some [.field (.leaf "id") none,
      .field (.leaf "prefs") (some [mood none]), .spread "Rest" [],
      .inline (some "Admin") [] [mood (some [.field (.leaf "scale") none])]])]],
    [⟨"Rest", "User", [], [.field (.leaf "name") none,
      .field (.leaf "club") (some [mood none])]⟩]⟩

/-- The preferences, the inline fragment and the club are used up. -/
theorem server_split_eq_removeFields_moods :
    ofMoods.Full ∧ ofMoods.EachField
        (fun head => head.hasDirective "local" = true ↔ head.name ∈ ["mood"]) ∧
      (ofMoods.split "local").server = ofMoods.removeFields ["mood"] ∧
      ((ofMoods.removeFields ["mood"]).split "local").server = ofMoods.removeFields ["mood"] ∧
      ((ofMoods.removeFields ["mood"]).split "local").pathTree = [] ∧
      ((ofMoods.removeFields ["mood"]).split "local").foundLocal = false ∧
      ofMoods.removeFields ["mood"] = ⟨[.ofName "profile" [.field (.leaf "me")
          (some [.field (.leaf "id") none, .spread "Rest" []])]],
        [⟨"Rest", "User", [], [.field (.leaf "name") none]⟩]⟩ := by
  have hfull : ofMoods.Full := by
    simp [Full, sets, ofMoods, Operation.ofName, Selection.Full, Selection.AllFull]
  have hfields : ofMoods.EachField
      fun head => head.hasDirective "local" = true ↔ head.name ∈ ["mood"] := by
    simp [EachField, sets, ofMoods, Operation.ofName, Selection.EachField,
      Selection.EachFieldOfAll, FieldHead.hasDirective, FieldHead.leaf]
  obtain ⟨hserver, hagain, htree, hfound⟩ := server_split_eq_removeFields hfull hfields
  exact ⟨hfull, hfields, hserver, hagain, htree, hfound, rfl⟩

end Document

end QueryCache
