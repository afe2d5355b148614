import QueryCache.Query.Scan

/-!
# The grammar of query documents

The constructs of a query text, from arguments up to definitions, in the order
in which their alternatives are tried. Directives of a variable stand between
its type and its default value. A text is a sequence of at least one operation
or fragment.

Selection sets may nest `Parser.nestingLimit` levels below the set of an
operation or fragment; a deeper one is a fault.
-/

namespace QueryCache

/-- An operation or a fragment. -/
inductive Definition where
  | operation (op : Operation)
  | fragment (fragment : Fragment)
deriving DecidableEq

namespace Parser

/-- How many levels of selections may stand below the outermost ones. -/
def nestingLimit : Nat := 64

/-- The items of an optional list. -/
def orEmpty {α : Type} (p : Parser (List α)) : Parser (List α) := do
  return (← optional p).getD []

/-- A name with a value. -/
def argument : Parser Argument := do
  let argumentName ← name
  token ":"
  let argumentValue ← value true
  return ⟨argumentName, argumentValue⟩

/-- Arguments in parentheses. -/
def arguments : Parser (List Argument) := do
  token "("
  let args ← many1 argument
  token ")"
  return args

/-- A directive. -/
def directive : Parser Directive := do
  token "@"
  let directiveName ← name
  let args ← orEmpty arguments
  return ⟨directiveName, args⟩

/-- Any number of directives. -/
def directives : Parser (List Directive) := many directive

/-- A name and a colon. -/
def aliasName : Parser String := do
  let found ← name
  token ":"
  return found

/-- All of a field but its selections. -/
def fieldHead : Parser FieldHead := do
  let alternative ← optional aliasName
  let fieldName ← name
  let args ← orEmpty arguments
  let ds ← directives
  return ⟨alternative, fieldName, args, ds⟩

/-- A selection set at a level. `fuel` bounds the nesting. -/
def selectionSet : Nat → Nat → Parser SelectionSet
  | 0, _ => fail
  | fuel + 1, level =>
    let inner := selectionSet fuel (level + 1)
    let field : Parser Selection := do
      let head ← fieldHead
      let selections ← optional inner
      return .field head selections
    let inline : Parser Selection := do
      token "..."
      let typeCondition ← optional condition
      let ds ← directives
      let selections ← inner
      return .inline typeCondition ds selections
    let spread : Parser Selection := do
      token "..."
      noCondition
      let fragmentName ← name
      let ds ← directives
      return .spread fragmentName ds
    do
      token "\x7b"
      if nestingLimit < level then raise .recursionLimit
      let items ← many1 (orElse field (orElse inline spread))
      token "\x7d"
      return items

/-- The selection set of an operation or a fragment. -/
def outermostSet : Parser SelectionSet := fun cursor =>
  selectionSet cursor.rest.length 0 cursor

/-- The declaration of a variable. -/
def variableDefinition : Parser VariableDefinition := do
  token "$"
  let variableName ← name
  token ":"
  let variableType ← type
  let ds ← directives
  let default ← optional do
    token "="
    value false
  return ⟨variableName, variableType, default, ds⟩

/-- Variable declarations in parentheses. -/
def variableDefinitions : Parser (List VariableDefinition) := do
  token "("
  let declared ← many variableDefinition
  token ")"
  return declared

/-- The keyword of an operation. -/
def operationKind : Parser OperationKind :=
  let keyword (kind : OperationKind) : Parser OperationKind := do
    token kind.keyword
    return kind
  orElse (keyword .query) (orElse (keyword .mutation) (keyword .subscription))

/-- An operation with its keyword. -/
def fullOperation : Parser Operation := do
  let kind ← operationKind
  let operationName ← optional name
  let declared ← orEmpty variableDefinitions
  let ds ← directives
  let selections ← outermostSet
  return ⟨kind, operationName, declared, ds, selections⟩

/-- A query that is written as its selection set alone. -/
def shorthand : Parser Operation := do
  let selections ← outermostSet
  return ⟨.query, none, [], [], selections⟩

/-- A fragment definition. -/
def fragment : Parser Fragment := do
  token "fragment"
  let fragmentName ← name
  let typeCondition ← condition
  let ds ← directives
  let selections ← outermostSet
  return ⟨fragmentName, typeCondition, ds, selections⟩

/-- An operation or a fragment. -/
def definition : Parser Definition :=
  orElse (Definition.operation <$> orElse fullOperation shorthand)
    (Definition.fragment <$> fragment)

/-- The end of the text, after blanks and comments. -/
def endOfText : Parser Unit := fun cursor =>
  if (skip cursor.rest).isEmpty then some ((), cursor) else none

/-- A whole document. -/
def definitions : Parser (List Definition) := do
  let found ← many1 definition
  endOfText
  return found

end Parser

end QueryCache
