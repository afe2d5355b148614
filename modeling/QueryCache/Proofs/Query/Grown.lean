import QueryCache.Proofs.Query.Survivors

/-!
# Adding fields and removing them again

Adding fields lets a document grow at the ends of its selection sets and nowhere else: every set
keeps its selections and gets bare fields of the names that it lacks (`Document.Grown`). Adding
the same fields again finds all of them there, and removing them takes away what was added,
from the inside out, as long as no set was empty and no field had one of the names before
(`Document.addFields_laws`).
-/

namespace QueryCache

open SelectionSet (leaves missing)

namespace Selection

/-- The second selection is the first one, with bare fields of the missing names at the end of each
selection set in it. -/
inductive Grown (names : List String) : Selection → Selection → Prop
  | leaf (head : FieldHead) : Grown names (field head none) (field head none)
  | branch (head : FieldHead) {set kept : SelectionSet}
      (each : List.Forall₂ (Grown names) set kept) :
      Grown names (field head (some set))
        (field head (some (kept ++ leaves (missing names set))))
  | spread (name : String) (directives : List Directive) :
      Grown names (spread name directives) (spread name directives)
  | inline (condition : Option String) (directives : List Directive) {set kept : SelectionSet}
      (each : List.Forall₂ (Grown names) set kept) :
      Grown names (inline condition directives set)
        (inline condition directives (kept ++ leaves (missing names set)))

end Selection

namespace SelectionSet

/-- The second set is the first one, grown in each selection, with bare fields of the missing names
at the end. -/
def Grown (names : List String) (set grown : SelectionSet) : Prop :=
  ∃ kept, List.Forall₂ (Selection.Grown names) set kept ∧
    grown = kept ++ leaves (missing names set)

theorem addMissing_eq_self {names : List String} {set : SelectionSet}
    (h : ∀ name ∈ names, set.hasField name = true) : set.addMissing names = set := by
  have hnone : missing names set = [] :=
    List.eq_nil_iff_forall_not_mem.2 fun name hname =>
      (mem_missing.1 hname).2 (h name (mem_missing.1 hname).1)
  rw [addMissing_eq, hnone]
  exact List.append_nil set

theorem hasField_addFieldsToAll (names : List String) (set : SelectionSet) (name : String) :
    hasField (Selection.addFieldsToAll names set) name = set.hasField name := by
  rw [Bool.eq_iff_iff, hasField_iff, hasField_iff, heads_addFieldsToAll]

theorem addFields_eq (names : List String) (set : SelectionSet) :
    set.addFields names = Selection.addFieldsToAll names set ++ leaves (missing names set) := by
  rw [addFields, addMissing_eq, missing, missing]
  simp only [hasField_addFieldsToAll]

/-- Bare fields have no selection sets to add something to. -/
theorem addFieldsToAll_append_leaves (names : List String) (set : SelectionSet)
    (added : List String) :
    Selection.addFieldsToAll names (set ++ leaves added) =
      Selection.addFieldsToAll names set ++ leaves added := by
  simp [Selection.addFieldsToAll_eq_map, leaves, Selection.addFields]

end SelectionSet

namespace Selection

variable {names : List String}

/-! ### Growing -/

theorem addFields_branch (names : List String) (head : FieldHead) (set : SelectionSet) :
    addFields names (field head (some set)) = field head (some (set.addFields names)) := rfl

theorem addFields_inline (names : List String) (condition : Option String)
    (directives : List Directive) (set : SelectionSet) :
    addFields names (inline condition directives set) =
      inline condition directives (set.addFields names) := rfl

mutual

theorem grown_addFields (names : List String) :
    ∀ selection : Selection, Grown names selection (addFields names selection)
  | field head none => .leaf head
  | field head (some set) => by
      rw [addFields_branch, SelectionSet.addFields_eq]
      exact .branch head (grown_addFieldsToAll names set)
  | spread name directives => .spread name directives
  | inline condition directives set => by
      rw [addFields_inline, SelectionSet.addFields_eq]
      exact .inline condition directives (grown_addFieldsToAll names set)
termination_by structural selection => selection

theorem grown_addFieldsToAll (names : List String) :
    ∀ set : List Selection, List.Forall₂ (Grown names) set (addFieldsToAll names set)
  | [] => .nil
  | selection :: rest => .cons (grown_addFields names selection) (grown_addFieldsToAll names rest)
termination_by structural set => set

end

/-! ### Adding the same fields again -/

/-- A set in which nothing is missing any more stays as it is. -/
theorem addFields_addFields_set {set : SelectionSet}
    (h : addFieldsToAll names (addFieldsToAll names set) = addFieldsToAll names set) :
    (set.addFields names).addFields names = set.addFields names := by
  have hinside : addFieldsToAll names (set.addFields names) = set.addFields names := by
    rw [SelectionSet.addFields_eq, SelectionSet.addFieldsToAll_append_leaves, h]
  rw [SelectionSet.addFields, hinside]
  exact SelectionSet.addMissing_eq_self fun name hname =>
    SelectionSet.hasField_addFields hname set

mutual

theorem addFields_addFields (names : List String) :
    ∀ selection : Selection,
      addFields names (addFields names selection) = addFields names selection
  | field _ none => rfl
  | field head (some set) => by
      rw [addFields_branch, addFields_branch,
        addFields_addFields_set (addFieldsToAll_addFieldsToAll names set)]
  | spread _ _ => rfl
  | inline condition directives set => by
      rw [addFields_inline, addFields_inline,
        addFields_addFields_set (addFieldsToAll_addFieldsToAll names set)]
termination_by structural selection => selection

theorem addFieldsToAll_addFieldsToAll (names : List String) :
    ∀ set : List Selection,
      addFieldsToAll names (addFieldsToAll names set) = addFieldsToAll names set
  | [] => rfl
  | selection :: rest =>
      congrArg₂ List.cons (addFields_addFields names selection)
        (addFieldsToAll_addFieldsToAll names rest)
termination_by structural set => set

end

/-! ### Removing what was added -/

theorem removeFieldsFromAll_append (names : List String) (set others : List Selection) :
    removeFieldsFromAll names (set ++ others) =
      removeFieldsFromAll names set ++ removeFieldsFromAll names others := by
  induction set with
  | nil => rfl
  | cons selection rest ih =>
      rw [List.cons_append, removeFieldsFromAll_cons, removeFieldsFromAll_cons, ih,
        List.append_assoc]

theorem removeFieldsFromAll_leaves {added : List String} (h : ∀ name ∈ added, name ∈ names) :
    removeFieldsFromAll names (leaves added) = [] := by
  induction added with
  | nil => rfl
  | cons name rest ih =>
      obtain ⟨hname, hrest⟩ := List.forall_mem_cons.1 h
      have hgone : removeFields names (field (.leaf name) none) = none :=
        if_pos (List.contains_iff_mem.2 hname)
      change removeFieldsFromAll names (field (.leaf name) none :: leaves rest) = []
      rw [removeFieldsFromAll_cons, hgone, ih hrest]
      rfl

/-- All that a set has got at its end is removed. -/
theorem removeFields_addFields_set {set : SelectionSet}
    (h : removeFieldsFromAll names (addFieldsToAll names set) = set) :
    (set.addFields names).removeFields names = set := by
  rw [SelectionSet.removeFields, SelectionSet.addFields_eq, removeFieldsFromAll_append,
    removeFieldsFromAll_leaves fun name hname => (SelectionSet.mem_missing.1 hname).1,
    List.append_nil, h]

mutual

/-- The sets inside are restored first. None of them is used up by that, since none was empty. -/
theorem removeFields_addFields :
    ∀ selection : Selection, Full selection → EachField (fun head => head.name ∉ names) selection →
      removeFields names (addFields names selection) = some selection
  | field head none, _, hhead => by
      rw [addFields, removeFields, if_neg (mt List.contains_iff_mem.1 hhead)]
  | field head (some set), ⟨hne, hfull⟩, ⟨hhead, hfields⟩ => by
      have hset : removeFieldsFromAll names (SelectionSet.addFields names set) = set :=
        removeFields_addFields_set (removeFieldsFromAll_addFieldsToAll set hfull hfields)
      rw [addFields_branch, removeFields, if_neg (mt List.contains_iff_mem.1 hhead), hset]
      simp [hne]
  | spread _ _, _, _ => rfl
  | inline condition directives set, ⟨hne, hfull⟩, hfields => by
      have hset : removeFieldsFromAll names (SelectionSet.addFields names set) = set :=
        removeFields_addFields_set (removeFieldsFromAll_addFieldsToAll set hfull hfields)
      rw [addFields_inline, removeFields, hset]
      simp [hne]
termination_by structural selection => selection

theorem removeFieldsFromAll_addFieldsToAll :
    ∀ set : List Selection, AllFull set → EachFieldOfAll (fun head => head.name ∉ names) set →
      removeFieldsFromAll names (addFieldsToAll names set) = set
  | [], _, _ => rfl
  | selection :: rest, ⟨hfull, hrest⟩, ⟨hfields, hothers⟩ => by
      rw [addFieldsToAll, removeFieldsFromAll_cons, removeFields_addFields selection hfull hfields,
        removeFieldsFromAll_addFieldsToAll rest hrest hothers]
      rfl
termination_by structural set => set

end

end Selection

namespace Document

/-- The second document is the first one, in which each selection set has bare fields of the missing
names at the end. -/
structure Grown (names : List String) (d grown : Document) : Prop where
  operations : List.Forall₂
    (fun op op' => ∃ set, op.selections.Grown names set ∧ op' = { op with selections := set })
    d.operations grown.operations
  fragments : List.Forall₂
    (fun fragment fragment' => ∃ set, fragment.selections.Grown names set ∧
      fragment' = { fragment with selections := set })
    d.fragments grown.fragments

theorem grown_addFields (names : List String) (d : Document) :
    d.Grown names (d.addFields names) := by
  have hset (set : SelectionSet) : set.Grown names (set.addFields names) :=
    ⟨_, Selection.grown_addFieldsToAll names set, SelectionSet.addFields_eq names set⟩
  constructor
  · exact List.forall₂_map_right_iff.2
      (List.forall₂_same.2 fun op _ => ⟨_, hset op.selections, rfl⟩)
  · exact List.forall₂_map_right_iff.2
      (List.forall₂_same.2 fun fragment _ => ⟨_, hset fragment.selections, rfl⟩)

theorem mapSets_mapSets (f g : SelectionSet → SelectionSet) (d : Document) :
    (d.mapSets f).mapSets g = d.mapSets (g ∘ f) := by
  simp [mapSets, Function.comp_def]

/-- Fields are added at the ends of selection sets, and every set has a field of each name then.
Adding them twice is adding them once. Where no set was empty and no field had one of the names,
removing them gives the document back. -/
theorem addFields_laws (names : List String) (d : Document) :
    d.Grown names (d.addFields names) ∧
      (∀ set, (d.addFields names).HasSet set → ∀ name ∈ names, set.hasField name = true) ∧
      (d.addFields names).addFields names = d.addFields names ∧
      (d.Full → d.EachField (fun head => head.name ∉ names) →
        (d.addFields names).removeFields names = d) := by
  refine ⟨grown_addFields names d, fun set hset name hname => ?_, ?_, fun hfull hfields => ?_⟩
  · obtain ⟨asked, -, rfl⟩ := exists_of_hasSet_addFields hset
    exact SelectionSet.hasField_addFields hname asked
  · rw [addFields, addFields, mapSets_mapSets]
    refine mapSets_congr fun set _ => ?_
    exact Selection.addFields_addFields_set (Selection.addFieldsToAll_addFieldsToAll names set)
  · rw [removeFields, addFields, mapSets_mapSets]
    refine (mapSets_congr fun set hset => ?_).trans (mapSets_id d)
    exact Selection.removeFields_addFields_set
      (Selection.removeFieldsFromAll_addFieldsToAll set (hfull set hset).2 (hfields set hset))

/-- The leader of a club, with an inline fragment and the fragment that is spread. -/
def ofLeader : Document :=
  ⟨[.ofName "club" [.field (.leaf "club") (some [.field ⟨some "head", "leader", [], []⟩
      (some [.spread "Rest" [], .inline (some "Admin") [] [.field (.leaf "rank") none]])])]],
    [⟨"Rest", "User", [], [.field (.leaf "name") none]⟩]⟩

/-- A name that is given twice is added once. -/
theorem addFields_laws_leader :
    ofLeader.Full ∧
      ofLeader.EachField (fun head => head.name ∉ ["__typename", "id", "__typename"]) ∧
      (ofLeader.addFields ["__typename", "id", "__typename"]).removeFields
        ["__typename", "id", "__typename"] = ofLeader ∧
      ofLeader.Grown ["__typename", "id", "__typename"]
        (ofLeader.addFields ["__typename", "id", "__typename"]) ∧
      (ofLeader.addFields ["__typename", "id", "__typename"]).fragments =
        [⟨"Rest", "User", [], .field (.leaf "name") none :: leaves ["__typename", "id"]⟩] := by
  have hfull : ofLeader.Full := by
    simp [Full, sets, ofLeader, Operation.ofName, Selection.Full, Selection.AllFull]
  have hfields : ofLeader.EachField
      fun head => head.name ∉ ["__typename", "id", "__typename"] := by
    simp [EachField, sets, ofLeader, Operation.ofName, Selection.EachField,
      Selection.EachFieldOfAll, FieldHead.leaf]
  obtain ⟨hgrown, -, -, hback⟩ := addFields_laws ["__typename", "id", "__typename"] ofLeader
  exact ⟨hfull, hfields, hback hfull hfields, hgrown, rfl⟩

end Document

end QueryCache
