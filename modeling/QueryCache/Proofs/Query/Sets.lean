import QueryCache.Query.Fields

/-!
# The selection sets of a document

`Document.sets` are the selection sets of the definitions, and `Document.HasSet` says of a set
that it stands somewhere in one of them (`SelectionSet.Within`). Adding fields to a document
changes every one of its sets and brings no other sets in
(`Document.exists_of_hasSet_addFields`). A set that is changed keeps its fields and gets bare
fields of the names that were missing (`SelectionSet.addMissing_eq`).
-/

namespace QueryCache

namespace SelectionSet

/-- The set is the other one, or the selections of a field or a fragment that stands in it. -/
inductive Within (set : SelectionSet) : SelectionSet → Prop
  | here : Within set set
  | field {head : FieldHead} {inner outer : SelectionSet}
      (mem : .field head (some inner) ∈ outer) (inside : Within set inner) : Within set outer
  | inline {condition : Option String} {directives : List Directive}
      {inner outer : SelectionSet} (mem : .inline condition directives inner ∈ outer)
      (inside : Within set inner) : Within set outer

/-- The heads of the fields that are selected directly. -/
def heads (set : SelectionSet) : List FieldHead :=
  set.filterMap fun
    | .field head _ => some head
    | _ => none

theorem hasField_iff {set : SelectionSet} {name : String} :
    set.hasField name = true ↔ ∃ head ∈ set.heads, head.name = name := by
  rw [hasField, heads, List.any_eq_true]
  constructor
  · rintro ⟨selection, hmem, hname⟩
    cases selection with
    | field head inner => exact ⟨head, List.mem_filterMap.2 ⟨_, hmem, rfl⟩, by
        simpa [Selection.isFieldNamed] using hname⟩
    | spread _ _ => cases hname
    | inline _ _ _ => cases hname
  · rintro ⟨head, hmem, hname⟩
    obtain ⟨selection, hmem, hhead⟩ := List.mem_filterMap.1 hmem
    cases selection with
    | field found inner =>
        cases hhead
        exact ⟨_, hmem, by simpa [Selection.isFieldNamed] using hname⟩
    | spread _ _ => cases hhead
    | inline _ _ _ => cases hhead

/-! ### Added fields -/

/-- Bare fields. -/
def leaves (names : List String) : SelectionSet :=
  names.map fun name => .field (.leaf name) none

theorem heads_append (set others : SelectionSet) :
    heads (set ++ others) = heads set ++ heads others :=
  List.filterMap_append

theorem heads_leaves (names : List String) : heads (leaves names) = names.map FieldHead.leaf := by
  rw [heads, leaves, List.filterMap_map, ← List.filterMap_eq_map]
  rfl

theorem hasField_append_leaves {set : SelectionSet} {names : List String} {name : String} :
    hasField (set ++ leaves names) name = true ↔ set.hasField name = true ∨ name ∈ names := by
  simp only [hasField_iff, heads_append, heads_leaves, List.mem_append, List.mem_map]
  constructor
  · rintro ⟨head, hhead | ⟨other, hother, rfl⟩, hname⟩
    · exact Or.inl ⟨head, hhead, hname⟩
    · exact Or.inr (hname ▸ hother)
  · rintro (⟨head, hhead, hname⟩ | hname)
    · exact ⟨head, Or.inl hhead, hname⟩
    · exact ⟨.leaf name, Or.inr ⟨name, hname, rfl⟩, rfl⟩

/-- The names that no field has, each once, in the order in which they are listed first. -/
def missing (names : List String) (set : SelectionSet) : List String :=
  (names.filter fun name => !set.hasField name).eraseDups

theorem mem_missing {names : List String} {set : SelectionSet} {name : String} :
    name ∈ set.missing names ↔ name ∈ names ∧ ¬ set.hasField name = true := by
  rw [missing, List.mem_eraseDups, List.mem_filter, Bool.not_eq_true', Bool.not_eq_true]

/-- What is added are bare fields at the end, of the names that no field had. -/
theorem addMissing_eq (names : List String) (set : SelectionSet) :
    set.addMissing names = set ++ leaves (set.missing names) := by
  induction names generalizing set with
  | nil => exact (List.append_nil set).symm
  | cons first rest ih =>
      change addMissing rest (addField set first) = _
      by_cases hfirst : set.hasField first = true
      · rw [addField, if_pos hfirst, ih, missing, missing,
          List.filter_cons_of_neg (by simp [hfirst])]
      · have hgrown (name : String) : hasField (set ++ leaves [first]) name =
            (set.hasField name || name == first) := by
          rw [Bool.eq_iff_iff, hasField_append_leaves, Bool.or_eq_true, beq_iff_eq,
            List.mem_singleton]
        have hadded :
            missing (first :: rest) set = first :: missing rest (set ++ leaves [first]) := by
          rw [missing, List.filter_cons_of_pos (by simpa using hfirst), List.eraseDups_cons,
            List.filter_filter, missing]
          simp only [hgrown, Bool.not_or, Bool.and_comm]
        rw [addField, if_neg hfirst, hadded]
        exact (ih _).trans (List.append_assoc _ _ _)

theorem exists_addMissing (names : List String) (set : SelectionSet) :
    ∃ added, set.addMissing names = set ++ leaves added ∧
      ∀ name, name ∈ added ↔ name ∈ names ∧ ¬ set.hasField name = true :=
  ⟨set.missing names, addMissing_eq names set, fun _ => mem_missing⟩

end SelectionSet

namespace Selection

open SelectionSet (leaves)

theorem addFieldsToAll_eq_map (names : List String) (set : List Selection) :
    addFieldsToAll names set = set.map (addFields names) := by
  induction set with
  | nil => rfl
  | cons selection rest ih => rw [addFieldsToAll, List.map_cons, ih]

end Selection

namespace SelectionSet

open Selection (addFieldsToAll_eq_map)

theorem heads_addFieldsToAll (names : List String) (set : SelectionSet) :
    heads (Selection.addFieldsToAll names set) = heads set := by
  induction set with
  | nil => rfl
  | cons selection rest ih =>
      cases selection with
      | field head inner => cases inner <;> exact congrArg (head :: ·) ih
      | spread _ _ => exact ih
      | inline _ _ _ => exact ih

/-- The heads of a set with added fields are its own, and those of the names that were
missing. -/
theorem exists_heads_addFields (names : List String) (set : SelectionSet) :
    ∃ added : List String, heads (set.addFields names) = heads set ++ added.map FieldHead.leaf ∧
      ∀ name, name ∈ added ↔ name ∈ names ∧ ¬ set.hasField name = true := by
  obtain ⟨added, heq, hadded⟩ := exists_addMissing names (Selection.addFieldsToAll names set)
  refine ⟨added, ?_, fun name => ?_⟩
  · rw [addFields, heq, heads_append, heads_leaves, heads_addFieldsToAll]
  · rw [hadded, hasField_iff, hasField_iff, heads_addFieldsToAll]

/-- Every set with added fields has a field of each name. -/
theorem hasField_addFields {names : List String} {name : String} (h : name ∈ names)
    (set : SelectionSet) : (set.addFields names).hasField name = true := by
  obtain ⟨added, heads_eq, hadded⟩ := exists_heads_addFields names set
  rw [hasField_iff, heads_eq]
  by_cases hfield : set.hasField name = true
  · obtain ⟨head, hhead, hname⟩ := hasField_iff.1 hfield
    exact ⟨head, List.mem_append_left _ hhead, hname⟩
  · refine ⟨.leaf name, List.mem_append_right _ ?_, rfl⟩
    exact List.mem_map_of_mem ((hadded name).2 ⟨h, hfield⟩)

/-- A selection that stands in a set with added fields and has selections of its own was there
before, with fewer fields in these. -/
theorem exists_of_mem_addFields {names : List String} {set : SelectionSet}
    {selection : Selection} (h : selection ∈ set.addFields names) :
    (∃ original ∈ set, selection = original.addFields names) ∨
      ∃ name, selection = .field (.leaf name) none := by
  obtain ⟨added, heq, -⟩ := exists_addMissing names (Selection.addFieldsToAll names set)
  rw [addFields, heq, List.mem_append, addFieldsToAll_eq_map] at h
  rcases h with h | h
  · obtain ⟨original, horiginal, rfl⟩ := List.mem_map.1 h
    exact Or.inl ⟨original, horiginal, rfl⟩
  · obtain ⟨name, -, rfl⟩ := List.mem_map.1 h
    exact Or.inr ⟨name, rfl⟩

theorem exists_of_within_addFields {names : List String} {set changed : SelectionSet}
    (h : Within set changed) {outer : SelectionSet} (houter : changed = outer.addFields names) :
    ∃ asked, Within asked outer ∧ set = asked.addFields names := by
  induction h generalizing outer with
  | here => exact ⟨outer, .here, houter⟩
  | @field head inner _ mem _ ih =>
      rcases exists_of_mem_addFields (houter ▸ mem) with ⟨original, horiginal, heq⟩ | ⟨name, heq⟩
      · cases original with
        | field found below =>
            cases below with
            | none => cases heq
            | some below =>
                cases heq
                obtain ⟨asked, hasked, hset⟩ := ih rfl
                exact ⟨asked, .field horiginal hasked, hset⟩
        | spread _ _ => cases heq
        | inline _ _ _ => cases heq
      · cases heq
  | @inline condition directives inner _ mem _ ih =>
      rcases exists_of_mem_addFields (houter ▸ mem) with ⟨original, horiginal, heq⟩ | ⟨name, heq⟩
      · cases original with
        | field found below => cases below <;> cases heq
        | spread _ _ => cases heq
        | inline _ _ below =>
            cases heq
            obtain ⟨asked, hasked, hset⟩ := ih rfl
            exact ⟨asked, .inline horiginal hasked, hset⟩
      · cases heq

end SelectionSet

namespace Document

/-- The selection sets of the definitions. -/
def sets (d : Document) : List SelectionSet :=
  d.operations.map Operation.selections ++ d.fragments.map Fragment.selections

/-- The set stands somewhere in the document. -/
def HasSet (d : Document) (set : SelectionSet) : Prop := ∃ outer ∈ d.sets, set.Within outer

theorem mem_sets_of_operation {d : Document} {op : Operation} (h : op ∈ d.operations) :
    op.selections ∈ d.sets :=
  List.mem_append_left _ (List.mem_map_of_mem h)

theorem mem_sets_of_fragment {d : Document} {fragment : Fragment} (h : fragment ∈ d.fragments) :
    fragment.selections ∈ d.sets :=
  List.mem_append_right _ (List.mem_map_of_mem h)

theorem sets_mapSets (f : SelectionSet → SelectionSet) (d : Document) :
    (d.mapSets f).sets = d.sets.map f := by
  rw [sets, sets, mapSets]
  simp only [List.map_append, List.map_map]
  rfl

/-- Every set of a document with added fields is a set of the document with added fields. -/
theorem exists_of_hasSet_addFields {d : Document} {names : List String} {set : SelectionSet}
    (h : (d.addFields names).HasSet set) :
    ∃ asked, d.HasSet asked ∧ set = asked.addFields names := by
  obtain ⟨changed, hchanged, hset⟩ := h
  rw [addFields, sets_mapSets] at hchanged
  obtain ⟨outer, houter, rfl⟩ := List.mem_map.1 hchanged
  obtain ⟨asked, hasked, rfl⟩ := SelectionSet.exists_of_within_addFields hset rfl
  exact ⟨asked, ⟨outer, houter, hasked⟩, rfl⟩

end Document

end QueryCache
