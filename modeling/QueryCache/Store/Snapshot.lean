import QueryCache.Json.Basic

/-!
# Comparing and combining snapshots

Two snapshots of an entity rarely hold the same fields. `Json.differs` compares
only what both hold: objects differ when a shared member does, lists when their
lengths or two items at one place do, and other values when they are not equal.
`Json.absorb` gives the stored snapshot the fields of a new one, member by
member at the top; the new values win.
-/

namespace QueryCache

namespace Json

mutual

/-- A new value differs from the stored one where both have something. -/
def differsFrom : Json → Json → Bool
  | object new, object stored => memberDiffers new stored
  | array new, array stored =>
    new.length != stored.length || itemDiffers new stored
  | new, stored => !same stored new
termination_by structural new => new

/-- A member differs from the stored member of its name. -/
def memberDiffers : List (String × Json) → List (String × Json) → Bool
  | [], _ => false
  | (name, value) :: rest, stored =>
    (match Table.get? stored name with
      | some old => differsFrom value old
      | none => false) || memberDiffers rest stored
termination_by structural new => new

/-- An item differs from the stored item at its place. -/
def itemDiffers : List Json → List Json → Bool
  | value :: rest, old :: stored => differsFrom value old || itemDiffers rest stored
  | _, _ => false
termination_by structural new => new

end

/-- The stored value and a new one differ in what both hold. -/
def differs (stored new : Json) : Bool := differsFrom new stored

/-- The stored value with the members of a new one. Values that are not both
objects are replaced. -/
def absorb (stored new : Json) : Json :=
  match stored, new with
  | object old, object members => object (Table.insertAll old members)
  | _, value => value

end Json

end QueryCache
