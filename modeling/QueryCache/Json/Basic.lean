import QueryCache.Number.Basic
import QueryCache.Table

/-!
# JSON values

The value type of results, variables and entity snapshots. An object is a
table of its members, ordered by key. `Json.same` is the equality that the
cache compares results with: it is numeric on numbers, so `0.0` and `-0.0` are
the same value, and it looks at the members of objects one by one.
-/

namespace QueryCache

/-- A JSON value. -/
inductive Json where
  | null
  | bool (value : Bool)
  | number (value : Number)
  | string (value : String)
  | array (items : List Json)
  | object (members : List (String × Json))

namespace Json

instance : Inhabited Json := ⟨null⟩

/-- The members of a JSON object. -/
abbrev Members := Table String Json

/-- The object without members. -/
def emptyObject : Json := .object []

/-- The member of an object under a name; other values have no members. -/
def member? : Json → String → Option Json
  | object members, name => Table.get? members name
  | _, _ => none

/-- The text of a string value. -/
def string? : Json → Option String
  | string value => some value
  | _ => none

mutual

/-- Equality of values, with numbers compared by `Number.same`. -/
def same : Json → Json → Bool
  | null, null => true
  | bool a, bool b => a == b
  | number a, number b => a.same b
  | string a, string b => a == b
  | array xs, array ys => sameItems xs ys
  | object xs, object ys => sameMembers xs ys
  | _, _ => false
termination_by structural x => x

/-- Equality of lists, item by item. -/
def sameItems : List Json → List Json → Bool
  | [], [] => true
  | x :: xs, y :: ys => same x y && sameItems xs ys
  | _, _ => false
termination_by structural xs => xs

/-- Equality of tables of members, entry by entry. -/
def sameMembers : List (String × Json) → List (String × Json) → Bool
  | [], [] => true
  | (k, x) :: xs, (l, y) :: ys => k == l && same x y && sameMembers xs ys
  | _, _ => false
termination_by structural xs => xs

end

mutual

/-- Every object in the value has its members in order. -/
def Ordered : Json → Prop
  | array items => OrderedItems items
  | object members => Table.Sorted members ∧ OrderedMembers members
  | _ => True
termination_by structural x => x

/-- Every item of a list is ordered. -/
def OrderedItems : List Json → Prop
  | [] => True
  | x :: xs => Ordered x ∧ OrderedItems xs
termination_by structural xs => xs

/-- Every member of a table is ordered. -/
def OrderedMembers : List (String × Json) → Prop
  | [] => True
  | (_, x) :: xs => Ordered x ∧ OrderedMembers xs
termination_by structural xs => xs

end

end Json

end QueryCache
