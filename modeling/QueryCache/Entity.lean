import QueryCache.Json.Basic

/-!
# Entities

An entity is an object that carries a type name and an identifier. Its key is
made of both. `flatten` collects the entities of a result, at any depth, into a
table of snapshots. When one entity occurs several times in a result, its
snapshot holds the fields of all occurrences, the later ones winning; an object
comes before the objects inside it, and these in the order of their keys.
-/

namespace QueryCache

/-- The key of an entity. -/
structure EntityKey where
  text : String
deriving DecidableEq

namespace EntityKey

instance : LT EntityKey := ⟨fun a b => a.text < b.text⟩

instance : DecidableLT EntityKey := fun a b =>
  inferInstanceAs (Decidable (a.text < b.text))

theorem lt_iff (a b : EntityKey) : a < b ↔ a.text < b.text := Iff.rfl

instance : Trans (α := EntityKey) (· < ·) (· < ·) (· < ·) :=
  ⟨fun {a b c} (hab : a.text < b.text) (hbc : b.text < c.text) =>
    String.lt_trans hab hbc⟩

instance : Std.Trichotomous (α := EntityKey) (· < ·) := ⟨fun a b hab hba => by
  obtain ⟨a⟩ := a
  obtain ⟨b⟩ := b
  exact congrArg EntityKey.mk
    (Std.Trichotomous.trichotomous (r := (· < ·)) a b hab hba)⟩

/-- The key of a type name and an identifier. -/
def ofParts (typeName id : String) : EntityKey := ⟨typeName ++ "-" ++ id⟩

end EntityKey

/-- The fields that make an object an entity. -/
structure Identity where
  typenameField : String
  idField : String
deriving DecidableEq

namespace Identity

/-- The text of an identifier: a string itself, or the text of a number. -/
def idText? : Json → Option String
  | .string id => some id
  | .number id => some (String.ofList id.text)
  | _ => none

/-- The key of an object, if it is an entity. -/
def keyOf? (identity : Identity) (members : Json.Members) : Option EntityKey := do
  let typeName ← (← Table.get? members identity.typenameField).string?
  let id ← idText? (← Table.get? members identity.idField)
  return .ofParts typeName id

end Identity

/-- Snapshots under entity keys. -/
abbrev Snapshots := Table EntityKey Json

namespace Snapshots

/-- Records an occurrence of an entity. -/
def record (found : Snapshots) (key : EntityKey) (members : Json.Members) :
    Snapshots :=
  match Table.get? found key with
  | none => Table.insert found key (.object members)
  | some (.object earlier) =>
    Table.insert found key (.object (Table.insertAll earlier members))
  | some _ => found

end Snapshots

namespace Json

mutual

/-- Records the entities of a value. -/
def collect (identity : Identity) : Json → Snapshots → Snapshots
  | array items, found => collectFromItems identity items found
  | object members, found =>
    let found := match identity.keyOf? members with
      | some key => found.record key members
      | none => found
    collectFromMembers identity members found
  | _, found => found
termination_by structural value => value

/-- Records the entities of the items of a list. -/
def collectFromItems (identity : Identity) : List Json → Snapshots → Snapshots
  | [], found => found
  | item :: rest, found =>
    collectFromItems identity rest (collect identity item found)
termination_by structural items => items

/-- Records the entities of the members of an object. -/
def collectFromMembers (identity : Identity) :
    List (String × Json) → Snapshots → Snapshots
  | [], found => found
  | (_, value) :: rest, found =>
    collectFromMembers identity rest (collect identity value found)
termination_by structural members => members

end

end Json

/-- The entities of a result. -/
def flatten (result : Json) (identity : Identity) : Snapshots :=
  result.collect identity []

end QueryCache
