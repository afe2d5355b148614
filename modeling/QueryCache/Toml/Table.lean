import QueryCache.Table
import QueryCache.Toml.Basic

/-!
# Putting tables together

The lines of a document fill its tables one after the other. A name can be
given a value once. `TomlTable.change?` goes down a path and changes the table
at its end: missing tables on the way come into being, and the last table of a
list stands for the list. Entries cannot reach into a table that a header names,
and nothing can reach into a table that is written as a value. A header can
still name a table that so far only lay on the way to others.
-/

namespace QueryCache

/-- The entries of a table with increasing names. -/
abbrev TomlTable := List (String × Toml)

namespace TomlTable

/-- A way to change a table that came about in a certain way. -/
abbrev Change := TableOrigin → TomlTable → Option TomlTable

/-- What leads down a path. -/
inductive Reach where
  /-- A header. -/
  | header
  /-- The key of an entry. -/
  | entry
deriving DecidableEq

namespace Reach

/-- How a table comes about that was missing on the way. -/
def created : Reach → TableOrigin
  | header => .implied
  | entry => .dotted

/-- A table may be passed through. -/
def passes : Reach → TableOrigin → Bool
  | _, .literal => false
  | entry, .header => false
  | _, _ => true

end Reach

/-- Changes the last item of a list. -/
def changeLast? {α : Type} (change : α → Option α) : List α → Option (List α)
  | [] => none
  | [x] => (change x).map ([·])
  | x :: rest => (changeLast? change rest).map (x :: ·)

/-- Changes the table at the end of a path. -/
def change? (reach : Reach) (change : Change) : List String → Change
  | [], origin, table => change origin table
  | name :: path, _, table =>
    match Table.get? table name with
    | none => do
      let inner ← change? reach change path reach.created []
      return Table.insert table name (.table reach.created inner)
    | some (.table origin inner) =>
      if reach.passes origin then do
        let inner ← change? reach change path origin inner
        return Table.insert table name (.table origin inner)
      else none
    | some (.tables items) => do
      let items ← changeLast? (change? reach change path .header) items
      return Table.insert table name (.tables items)
    | some _ => none

/-- Gives a value to a name that has none. -/
def give? (name : String) (value : Toml) (table : TomlTable) : Option TomlTable :=
  if Table.contains table name then none else some (Table.insert table name value)

/-- Adds an entry. A key of several names ends in a table that such keys alone
fill. -/
def add? (key : TomlKey) (value : Toml) : Change :=
  change? .entry
    (fun origin table =>
      if (origin == .dotted) == key.path.isEmpty then none else give? key.name value table)
    key.path

/-- Opens a table for the entries after its header. -/
def openTable? (key : TomlKey) (root : TomlTable) : Option TomlTable :=
  change? .header
    (fun _ table =>
      match Table.get? table key.name with
      | none => some (Table.insert table key.name (.table .header []))
      | some (.table .implied inner) =>
        some (Table.insert table key.name (.table .header inner))
      | some _ => none)
    key.path .header root

/-- Opens a new last table of a list. -/
def openItem? (key : TomlKey) (root : TomlTable) : Option TomlTable :=
  change? .header
    (fun _ table =>
      match Table.get? table key.name with
      | none => some (Table.insert table key.name (.tables [[]]))
      | some (.tables items) => some (Table.insert table key.name (.tables (items ++ [[]])))
      | some _ => none)
    key.path .header root

end TomlTable

namespace TomlTree

mutual

/-- The value of a tree; none where a table gives a name twice. -/
def value? : TomlTree → Option Toml
  | string value => some (.string value)
  | integer value => some (.integer value)
  | float => some .float
  | bool value => some (.bool value)
  | moment value => some (.moment value)
  | array items => (values? items).map .array
  | table entries => (filled? entries []).map (.table .literal)
termination_by structural tree => tree

/-- The values of the items of an array. -/
def values? : List TomlTree → Option (List Toml)
  | [] => some []
  | tree :: rest => do
    let value ← value? tree
    let values ← values? rest
    return value :: values
termination_by structural trees => trees

/-- A table with the entries of another one added in order. -/
def filled? : List (TomlKey × TomlTree) → TomlTable → Option TomlTable
  | [], filled => some filled
  | (key, tree) :: rest, filled => do
    let value ← value? tree
    filled? rest (← TomlTable.add? key value .header filled)
termination_by structural entries => entries

end

end TomlTree

namespace TomlTable

/-- A document whose lines have been read up to some place, and the path of the
table that the next entries belong to. -/
structure Draft where
  root : TomlTable
  place : List String

/-- Takes in the next line. -/
def Draft.read? (draft : Draft) : TomlLine → Option Draft
  | .entry key tree => do
    let value ← tree.value?
    let root ← change? .header (add? key value) draft.place .header draft.root
    return { draft with root }
  | .header key => do
    return ⟨← openTable? key draft.root, key.path ++ [key.name]⟩
  | .item key => do
    return ⟨← openItem? key draft.root, key.path ++ [key.name]⟩

/-- The table of a whole document. -/
def ofLines? (lines : List TomlLine) : Option TomlTable :=
  (lines.foldlM Draft.read? ⟨[], []⟩).map Draft.root

end TomlTable

end QueryCache
