import QueryCache.Query.Grammar

/-!
# From query text to document

`Document.ofText?` reads a text. The grammar comes first and decides over the
whole text; then the first fault in it counts; then the definitions are put
together in their order. An anonymous operation allows no other one, and the
names of operations and those of fragments are unique. The document holds its
operations and its fragments sorted by name, so that texts which list them in
another order give the same document.
-/

namespace QueryCache

/-- Why a query is refused. -/
inductive QueryFault where
  /-- The text does not match the grammar. -/
  | grammar
  /-- A number is larger than every double. -/
  | invalidNumber
  /-- Selections nest too deeply. -/
  | recursionLimit
  /-- There is an anonymous operation and another one. -/
  | multipleOperations
  /-- Two operations have this name. -/
  | duplicateOperation (name : String)
  /-- Two fragments have this name. -/
  | duplicateFragment (name : String)
  /-- There are only fragments. -/
  | missingOperation
  /-- A spread names no fragment. -/
  | unknownFragment (name : String)
  /-- A fragment spreads itself, along these names. -/
  | fragmentCycle (chain : List String)
  /-- A fault that another party reports. -/
  | reported (message : String)
deriving DecidableEq

namespace QueryFault

/-- The wording of a fault. -/
def message : QueryFault → String
  | grammar => "malformed query"
  | invalidNumber => "invalid number"
  | recursionLimit => "recursion limit exceeded."
  | multipleOperations => "document contains multiple operations"
  | duplicateOperation name => "operation " ++ name ++ " is defined twice"
  | duplicateFragment name => "fragment " ++ name ++ " is defined twice"
  | missingOperation => "document does not contain an operation"
  | unknownFragment name => "Unknown fragment '" ++ name ++ "'"
  | fragmentCycle chain => "Fragment cycle: " ++ " -> ".intercalate chain
  | reported text => text

/-- The fault that the grammar has met. -/
def ofFault : Fault → QueryFault
  | .invalidNumber => invalidNumber
  | .recursionLimit => recursionLimit

end QueryFault

namespace Document

/-- The document without definitions. -/
def empty : Document := ⟨[], []⟩

/-- Adds an operation at the end. -/
def addOperation (d : Document) (op : Operation) : Except QueryFault Document :=
  match op.name with
  | none =>
    if d.operations.isEmpty then .ok { d with operations := [op] }
    else .error .multipleOperations
  | some name =>
    if d.operations.any fun other => other.name.isNone then
      .error .multipleOperations
    else if d.operations.any fun other => other.name == some name then
      .error (.duplicateOperation name)
    else
      .ok { d with operations := d.operations ++ [op] }

/-- Adds a fragment at the end. -/
def addFragment (d : Document) (fragment : Fragment) :
    Except QueryFault Document :=
  if d.fragments.any fun other => other.name == fragment.name then
    .error (.duplicateFragment fragment.name)
  else
    .ok { d with fragments := d.fragments ++ [fragment] }

/-- Adds a definition at the end. -/
def addDefinition (d : Document) : Definition → Except QueryFault Document
  | .operation op => d.addOperation op
  | .fragment fragment => d.addFragment fragment

/-- The order of operations: an anonymous one first, the others by name. -/
def operationLe (a b : Operation) : Bool :=
  match a.name, b.name with
  | none, _ => true
  | some _, none => false
  | some x, some y => x ≤ y

/-- The order of fragments, by name. -/
def fragmentLe (a b : Fragment) : Bool := a.name ≤ b.name

/-- Operations and fragments in the order of their names. -/
def sorted (d : Document) : Document :=
  ⟨d.operations.mergeSort operationLe, d.fragments.mergeSort fragmentLe⟩

/-- The document of a sequence of definitions. -/
def ofDefinitions (definitions : List Definition) : Except QueryFault Document := do
  let d ← definitions.foldlM addDefinition empty
  if d.operations.isEmpty then .error .missingOperation
  else .ok d.sorted

/-- The document that a text holds. -/
def ofText? (text : String) : Except QueryFault Document :=
  match Parser.definitions ⟨text.toList, none⟩ with
  | none => .error .grammar
  | some (definitions, cursor) =>
    match cursor.fault with
    | some fault => .error (.ofFault fault)
    | none => ofDefinitions definitions

end Document

end QueryCache
