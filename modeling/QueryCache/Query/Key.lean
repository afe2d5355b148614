import QueryCache.Json.Printer
import QueryCache.Query.Printer

/-!
# Query keys

A cached query is found under the written form of its document, followed by its
variables when it has any. The variables are JSON text with the members of
every object in order.
-/

namespace QueryCache

/-- The key of a cached query. -/
structure QueryKey where
  text : String
deriving DecidableEq

namespace QueryKey

instance : LT QueryKey := ⟨fun a b => a.text < b.text⟩

instance : DecidableLT QueryKey := fun a b =>
  inferInstanceAs (Decidable (a.text < b.text))

theorem lt_iff (a b : QueryKey) : a < b ↔ a.text < b.text := Iff.rfl

instance : Trans (α := QueryKey) (· < ·) (· < ·) (· < ·) :=
  ⟨fun {a b c} (hab : a.text < b.text) (hbc : b.text < c.text) =>
    String.lt_trans hab hbc⟩

instance : Std.Trichotomous (α := QueryKey) (· < ·) := ⟨fun a b hab hba => by
  obtain ⟨a⟩ := a
  obtain ⟨b⟩ := b
  exact congrArg QueryKey.mk (Std.Trichotomous.trichotomous (r := (· < ·)) a b hab hba)⟩

/-- What stands between the document and the variables. It opens a comment, and
a document that was read from a text is written without comments. -/
def separator : String := "\n# variables "

/-- The key of a document with variables. -/
def ofQuery (d : Document) (vars : Variables) : QueryKey :=
  match vars with
  | [] => ⟨d.text⟩
  | _ => ⟨d.text ++ separator ++ (Json.object vars).text⟩

end QueryKey

end QueryCache
