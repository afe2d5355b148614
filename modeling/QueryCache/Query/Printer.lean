import QueryCache.Query.Basic

/-!
# The written form of a query document

`Document.text` writes every document in one way, so equal documents have equal
texts. A selection set takes a line for each selection, indented by two blanks
for each level, and an empty one is written as a pair of braces. An anonymous
query without variables and directives is written as its selection set alone.
-/

namespace QueryCache

namespace OperationKind

/-- The keyword of an operation. -/
def keyword : OperationKind → String
  | query => "query"
  | mutation => "mutation"
  | subscription => "subscription"

end OperationKind

/-- Items with a comma and a blank between them. -/
def commaSeparated : List (List Char) → List Char
  | [] => []
  | [item] => item
  | item :: rest => item ++ ',' :: ' ' :: commaSeparated rest

/-- A name, a colon and a value. -/
def Argument.chars (arg : Argument) : List Char :=
  arg.name.toList ++ ':' :: ' ' :: arg.value.toList

/-- Arguments in parentheses; nothing when there are none. -/
def argumentChars : List Argument → List Char
  | [] => []
  | args => '(' :: commaSeparated (args.map Argument.chars) ++ [')']

/-- A directive after a blank. -/
def Directive.chars (directive : Directive) : List Char :=
  ' ' :: '@' :: directive.name.toList ++ argumentChars directive.arguments

/-- Directives in their order. -/
def directiveChars (directives : List Directive) : List Char :=
  directives.flatMap Directive.chars

/-- The head of a field. -/
def FieldHead.chars (head : FieldHead) : List Char :=
  let aliasChars := match head.aliasName with
    | some name => name.toList ++ [':', ' ']
    | none => []
  aliasChars ++ head.name.toList ++ argumentChars head.arguments ++
    directiveChars head.directives

/-- The blanks before a line. -/
def indent (depth : Nat) : List Char := List.replicate (2 * depth) ' '

/-- Lines in braces, where the closing brace stands at `depth`. -/
def braced (depth : Nat) : List Char → List Char
  | [] => ['\x7b', '\x7d']
  | lines => '\x7b' :: '\n' :: lines ++ indent depth ++ ['\x7d']

namespace Selection

mutual

/-- A selection that starts on a line at `depth`. -/
def chars (depth : Nat) : Selection → List Char
  | field head none => head.chars
  | field head (some set) =>
    head.chars ++ ' ' :: braced depth (lines (depth + 1) set)
  | spread name directives =>
    '.' :: '.' :: '.' :: name.toList ++ directiveChars directives
  | inline condition directives set =>
    let conditionChars := match condition with
      | some name => ' ' :: 'o' :: 'n' :: ' ' :: name.toList
      | none => []
    '.' :: '.' :: '.' :: conditionChars ++ directiveChars directives ++
      ' ' :: braced depth (lines (depth + 1) set)
termination_by structural selection => selection

/-- A line for each selection. -/
def lines (depth : Nat) : List Selection → List Char
  | [] => []
  | selection :: rest =>
    indent depth ++ chars depth selection ++ '\n' :: lines depth rest
termination_by structural set => set

end

end Selection

/-- A selection set whose closing brace stands at `depth`. -/
def setChars (depth : Nat) (set : SelectionSet) : List Char :=
  braced depth (Selection.lines (depth + 1) set)

/-- The text of a selection set that stands alone. -/
def setText (set : SelectionSet) : String := String.ofList (setChars 0 set)

/-- A variable with its type, its default value and its directives. -/
def VariableDefinition.chars (v : VariableDefinition) : List Char :=
  let defaultChars := match v.default with
    | some value => ' ' :: '=' :: ' ' :: value.toList
    | none => []
  '$' :: v.name.toList ++ ':' :: ' ' :: v.type.toList ++ defaultChars ++
    directiveChars v.directives

/-- Variable definitions in parentheses; nothing when there are none. -/
def variableChars : List VariableDefinition → List Char
  | [] => []
  | vars => '(' :: commaSeparated (vars.map VariableDefinition.chars) ++ [')']

/-- What stands before the selection set of an operation. -/
def Operation.headChars (op : Operation) : List Char :=
  if op.isShorthand then []
  else
    let nameChars := match op.name with
      | some name => ' ' :: name.toList
      | none => []
    op.kind.keyword.toList ++ nameChars ++ variableChars op.declared ++
      directiveChars op.directives ++ [' ']

/-- An operation. -/
def Operation.chars (op : Operation) : List Char :=
  op.headChars ++ setChars 0 op.selections

/-- A fragment definition. -/
def Fragment.chars (fragment : Fragment) : List Char :=
  "fragment ".toList ++ fragment.name.toList ++ " on ".toList ++
    fragment.condition.toList ++ directiveChars fragment.directives ++
    ' ' :: setChars 0 fragment.selections

/-- Definitions with an empty line between them. -/
def paragraphs : List (List Char) → List Char
  | [] => []
  | [item] => item
  | item :: rest => item ++ '\n' :: '\n' :: paragraphs rest

namespace Document

/-- The characters of the written form. -/
def chars (d : Document) : List Char :=
  paragraphs (d.operations.map Operation.chars ++ d.fragments.map Fragment.chars)

/-- The written form. -/
def text (d : Document) : String := String.ofList d.chars

end Document

end QueryCache
