import QueryCache.Text.Blank
import QueryCache.Text.Hexadecimal
import QueryCache.Text.Split

/-!
# Tables of code points

What is known of single characters is kept as runs of code points with a common
value, in the order of the code points, and looked up by halving. `find?` only
gives runs that hold the code point: `bounds_of_find?`.

Tables are written as text, one run a word: its first and its last code point in
hexadecimal digits with a hyphen between them, or one code point by itself.
-/

namespace QueryCache

namespace Unicode

/-- The code points from `first` to `last` with their common value. -/
structure CodeRun (α : Type) where
  first : Nat
  last : Nat
  value : α

/-- Runs in the order of their code points. -/
abbrev CodeTable (α : Type) := Array (CodeRun α)

namespace CodeTable

variable {α : Type}

/-- The run of a code point among those at the places from `low` on and before
`high`. -/
def search (table : CodeTable α) (code low high : Nat) : Option (CodeRun α) :=
  if low < high then
    let middle := (low + high) / 2
    match table[middle]? with
    | none => none
    | some run =>
      if code < run.first then search table code low middle
      else if run.last < code then search table code (middle + 1) high
      else some run
  else none
termination_by high - low

/-- The run of a code point. -/
def find? (table : CodeTable α) (code : Nat) : Option (CodeRun α) :=
  table.search code 0 table.size

/-- The value of a code point. -/
def get? (table : CodeTable α) (code : Nat) : Option α :=
  (table.find? code).map CodeRun.value

/-- Some run holds the code point. -/
def contains (table : CodeTable α) (code : Nat) : Bool := (table.find? code).isSome

theorem bounds_of_search {table : CodeTable α} {code low high : Nat} {run : CodeRun α}
    (h : table.search code low high = some run) : run.first ≤ code ∧ code ≤ run.last := by
  fun_induction search table code low high with
  | case1 => simp at h
  | case2 _ _ _ _ _ _ _ ih => exact ih h
  | case3 _ _ _ _ _ _ _ _ ih => exact ih h
  | case4 =>
    cases h
    omega
  | case5 => simp at h

theorem bounds_of_find? {table : CodeTable α} {code : Nat} {run : CodeRun α}
    (h : table.find? code = some run) : run.first ≤ code ∧ code ≤ run.last :=
  bounds_of_search h

/-! ### Reading -/

/-- The first and the last code point that a word names. -/
def bounds? (word : List Char) : Option (Nat × Nat) := do
  match Text.split (· == '-') word with
  | [code] =>
    let code ← Text.hexNumber? code
    return (code, code)
  | [first, last] => return (← Text.hexNumber? first, ← Text.hexNumber? last)
  | _ => none

/-- A table from its runs in any order. -/
def ofRuns (runs : List (CodeRun α)) : CodeTable α :=
  (runs.mergeSort fun a b => a.first ≤ b.first).toArray

/-- The runs of the words of a text, where `read?` gives a word its meaning. -/
def runsOfText (read? : List Char → Option (CodeRun α)) (text : String) :
    List (CodeRun α) :=
  (Text.wordsFrom [] text.toList).filterMap read?

/-- The table in which every code point of a text has the value before the
text. -/
def ofGroups (groups : List (α × String)) : CodeTable α :=
  ofRuns <| groups.flatMap fun (value, text) =>
    runsOfText (fun word => (bounds? word).map fun (first, last) => ⟨first, last, value⟩)
      text

/-- The table of the code points of a text. -/
def ofText (text : String) : CodeTable Unit := ofGroups [((), text)]

end CodeTable

end Unicode

end QueryCache
