import QueryCache.Query.Basic

/-!
# Adding and removing fields by name

`Document.addFields` puts bare fields at the end of every selection set that
does not select them yet. `Document.removeFields` takes fields out by name, and
with them every field and inline fragment whose selections are used up by that,
so that no selection set becomes empty below the definitions.
-/

namespace QueryCache

namespace SelectionSet

/-- The set selects a field of this name directly. -/
def hasField (set : SelectionSet) (name : String) : Bool :=
  set.any (Selection.isFieldNamed name)

/-- Adds a bare field at the end, unless there is one of this name. -/
def addField (set : SelectionSet) (name : String) : SelectionSet :=
  if hasField set name then set else set ++ [.field (.leaf name) none]

/-- Adds the missing ones of some fields in their order. -/
def addMissing (names : List String) (set : SelectionSet) : SelectionSet :=
  names.foldl addField set

end SelectionSet

namespace Selection

mutual

/-- Adds fields to every selection set inside a selection. -/
def addFields (names : List String) : Selection → Selection
  | field head none => field head none
  | field head (some set) =>
    field head (some (SelectionSet.addMissing names (addFieldsToAll names set)))
  | spread name directives => spread name directives
  | inline condition directives set =>
    inline condition directives
      (SelectionSet.addMissing names (addFieldsToAll names set))
termination_by structural selection => selection

/-- Adds fields to every selection set inside the selections of a list. -/
def addFieldsToAll (names : List String) : List Selection → List Selection
  | [] => []
  | selection :: rest => addFields names selection :: addFieldsToAll names rest
termination_by structural set => set

end

mutual

/-- What is left of a selection without the fields of these names. -/
def removeFields (names : List String) : Selection → Option Selection
  | field head none => if names.contains head.name then none else some (field head none)
  | field head (some set) =>
    if names.contains head.name then none
    else
      let kept := removeFieldsFromAll names set
      if set.isEmpty || !kept.isEmpty then some (field head (some kept)) else none
  | spread name directives => some (spread name directives)
  | inline condition directives set =>
    let kept := removeFieldsFromAll names set
    if kept.isEmpty then none else some (inline condition directives kept)
termination_by structural selection => selection

/-- What is left of the selections of a list. -/
def removeFieldsFromAll (names : List String) : List Selection → List Selection
  | [] => []
  | selection :: rest =>
    match removeFields names selection with
    | some kept => kept :: removeFieldsFromAll names rest
    | none => removeFieldsFromAll names rest
termination_by structural set => set

end

end Selection

namespace SelectionSet

/-- Adds fields to a selection set and to every one inside it. -/
def addFields (names : List String) (set : SelectionSet) : SelectionSet :=
  addMissing names (Selection.addFieldsToAll names set)

/-- Removes fields from a selection set and from every one inside it. -/
def removeFields (names : List String) (set : SelectionSet) : SelectionSet :=
  Selection.removeFieldsFromAll names set

end SelectionSet

namespace Document

/-- Changes the selection set of every definition. -/
def mapSets (f : SelectionSet → SelectionSet) (d : Document) : Document :=
  ⟨d.operations.map fun op => { op with selections := f op.selections },
    d.fragments.map fun fragment => { fragment with selections := f fragment.selections }⟩

/-- The document with these fields in every selection set. -/
def addFields (names : List String) (d : Document) : Document :=
  d.mapSets (SelectionSet.addFields names)

/-- The document without the fields of these names. -/
def removeFields (names : List String) (d : Document) : Document :=
  d.mapSets (SelectionSet.removeFields names)

end Document

end QueryCache
