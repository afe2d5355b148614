import QueryCache.Json.Basic

/-!
# Query documents

The tree of a query text. A document holds operations and named fragments; both
hold selection sets. A selection is a field, which may have selections of its
own, a spread of a named fragment, or an inline fragment.

Literals are kept in their printed form, since nothing in a query layer has to
evaluate them. `none` and `some []` as the selections of a field differ: the
first is a leaf, the second a field with an empty selection set, which no query
text has but a tree built by hand can have.
-/

namespace QueryCache

/-- What an operation does with the data it names. -/
inductive OperationKind where
  | query
  | mutation
  | subscription
deriving DecidableEq

/-- A named argument with its printed value. -/
structure Argument where
  name : String
  value : String
deriving DecidableEq

/-- A directive with its arguments. -/
structure Directive where
  name : String
  arguments : List Argument
deriving DecidableEq

/-- All of a field but its selections. -/
structure FieldHead where
  aliasName : Option String
  name : String
  arguments : List Argument
  directives : List Directive
deriving DecidableEq

/-- One entry of a selection set. -/
inductive Selection where
  | field (head : FieldHead) (selections : Option (List Selection))
  | spread (name : String) (directives : List Directive)
  | inline (condition : Option String) (directives : List Directive)
      (selections : List Selection)

/-- The selections of an operation, a fragment or a field. -/
abbrev SelectionSet := List Selection

/-- The declaration of a variable. The type and the default value are kept in
their printed form. -/
structure VariableDefinition where
  name : String
  type : String
  default : Option String
  directives : List Directive
deriving DecidableEq

namespace FieldHead

/-- The head of a bare field. -/
def leaf (name : String) : FieldHead := ⟨none, name, [], []⟩

/-- The key under which the field stands in a result. -/
def responseKey (head : FieldHead) : String := head.aliasName.getD head.name

/-- The field carries a directive of this name. -/
def hasDirective (head : FieldHead) (name : String) : Bool :=
  head.directives.any fun directive => directive.name == name

end FieldHead

namespace Selection

instance : Inhabited Selection := ⟨spread "" []⟩

mutual

/-- Selections are compared part by part. -/
def decEq : (a b : Selection) → Decidable (a = b)
  | field h none, field h' none =>
    if e : h = h' then isTrue (by rw [e]) else isFalse (by simp [e])
  | field h (some s), field h' (some s') =>
    if e : h = h' then
      match decEqSet s s' with
      | isTrue e' => isTrue (by rw [e, e'])
      | isFalse ne => isFalse (by simp [ne])
    else isFalse (by simp [e])
  | spread n ds, spread n' ds' =>
    if e : n = n' ∧ ds = ds' then isTrue (by rw [e.1, e.2])
    else isFalse (by simpa using e)
  | inline c ds s, inline c' ds' s' =>
    if e : c = c' ∧ ds = ds' then
      match decEqSet s s' with
      | isTrue e' => isTrue (by rw [e.1, e.2, e'])
      | isFalse ne => isFalse (by simp [ne])
    else isFalse (by simp only [inline.injEq]; exact fun h => e ⟨h.1, h.2.1⟩)
  | field _ none, field _ (some _) => isFalse (by simp)
  | field _ (some _), field _ none => isFalse (by simp)
  | field _ _, spread _ _ => isFalse (by simp)
  | field _ _, inline _ _ _ => isFalse (by simp)
  | spread _ _, field _ _ => isFalse (by simp)
  | spread _ _, inline _ _ _ => isFalse (by simp)
  | inline _ _ _, field _ _ => isFalse (by simp)
  | inline _ _ _, spread _ _ => isFalse (by simp)
termination_by structural a => a

/-- Selection sets are compared item by item. -/
def decEqSet : (s t : List Selection) → Decidable (s = t)
  | [], [] => isTrue rfl
  | a :: s, b :: t =>
    match decEq a b, decEqSet s t with
    | isTrue e, isTrue e' => isTrue (by rw [e, e'])
    | isFalse ne, _ => isFalse (by simp [ne])
    | _, isFalse ne => isFalse (by simp [ne])
  | [], _ :: _ => isFalse (by simp)
  | _ :: _, [] => isFalse (by simp)
termination_by structural s => s

end

instance : DecidableEq Selection := decEq

/-- The selection is a field of this name. Aliases do not count. -/
def isFieldNamed (name : String) : Selection → Bool
  | field head _ => head.name == name
  | _ => false

end Selection

/-- A named operation or an anonymous one. -/
structure Operation where
  kind : OperationKind
  name : Option String
  /-- The variables that the operation declares. -/
  declared : List VariableDefinition
  directives : List Directive
  selections : SelectionSet
deriving DecidableEq

/-- A named fragment. -/
structure Fragment where
  name : String
  condition : String
  directives : List Directive
  selections : SelectionSet
deriving DecidableEq

/-- A query document. -/
structure Document where
  operations : List Operation
  fragments : List Fragment
deriving DecidableEq

/-- The variables that go along with a query. -/
abbrev Variables := Json.Members

namespace Operation

/-- An anonymous query without variables and directives is written as a bare
selection set. -/
def isShorthand (op : Operation) : Bool :=
  op.kind == .query && op.name.isNone && op.declared.isEmpty &&
    op.directives.isEmpty

end Operation

namespace Document

/-- The name of the first operation that has one. -/
def operationName (d : Document) : Option String :=
  d.operations.findSome? Operation.name

end Document

end QueryCache
