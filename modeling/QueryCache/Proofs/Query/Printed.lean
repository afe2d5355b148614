import QueryCache.Query.Parser
import QueryCache.Query.Printer

/-!
# The parts of a written document

The printed form of each construct as its parts and what follows them, associated to the
right, so that a reader or a comparison can go through it from the left. A part that may
be left out is `o.elim [] chars`.
-/

namespace QueryCache

/-! ### Fields -/

/-- The printed forms of items in parentheses; nothing when there are none. -/
def parenthesized {α : Type} (chars : α → List Char) : List α → List Char
  | [] => []
  | items => '(' :: commaSeparated (items.map chars) ++ [')']

theorem parenthesized_cons_append {α : Type} (chars : α → List Char) (x : α) (xs : List α)
    (rest : List Char) :
    parenthesized chars (x :: xs) ++ rest =
      '(' :: (commaSeparated ((x :: xs).map chars) ++ ')' :: rest) := by
  simp [parenthesized]

theorem argumentChars_eq (args : List Argument) :
    argumentChars args = parenthesized Argument.chars args := by
  cases args <;> rfl

/-- A name and a colon. -/
def aliasChars (name : String) : List Char := name.toList ++ [':', ' ']

theorem FieldHead.chars_append (head : FieldHead) (rest : List Char) :
    head.chars ++ rest = head.aliasName.elim [] aliasChars ++ (head.name.toList ++
      (argumentChars head.arguments ++ (directiveChars head.directives ++ rest))) := by
  rw [FieldHead.chars]
  cases head.aliasName <;> simp [aliasChars]

/-! ### Selections -/

theorem indent_succ (depth : Nat) : indent (depth + 1) = indent depth ++ [' ', ' '] :=
  List.replicate_append_replicate.symm

theorem braced_append {lines : List Char} (h : lines ≠ []) (depth : Nat) (rest : List Char) :
    braced depth lines ++ rest = '\x7b' :: '\n' :: (lines ++ (indent depth ++ '\x7d' :: rest)) := by
  cases lines with
  | nil => exact absurd rfl h
  | cons c cs => simp [braced]

/-- The selections of a field, if it has any. -/
def bodyChars (depth : Nat) (selections : Option (List Selection)) : List Char :=
  selections.elim [] fun set => ' ' :: setChars depth set

/-- A type condition after a blank. -/
def conditionChars (name : String) : List Char := ' ' :: 'o' :: 'n' :: ' ' :: name.toList

namespace Selection

theorem lines_cons (depth : Nat) (selection : Selection) (set : List Selection)
    (rest : List Char) :
    lines depth (selection :: set) ++ rest = indent depth ++
      (chars depth selection ++ '\n' :: (lines depth set ++ rest)) := by
  rw [lines]
  simp

theorem lines_ne_nil {set : List Selection} (h : set ≠ []) (depth : Nat) :
    lines depth set ≠ [] := by
  cases set with
  | nil => exact absurd rfl h
  | cons selection set =>
      rw [lines]
      simp

theorem chars_field (depth : Nat) (head : FieldHead) (selections : Option (List Selection))
    (rest : List Char) :
    chars depth (.field head selections) ++ rest =
      head.chars ++ (bodyChars depth selections ++ rest) := by
  cases selections <;> simp [chars, bodyChars, setChars]

theorem chars_spread (depth : Nat) (name : String) (ds : List Directive) (rest : List Char) :
    chars depth (.spread name ds) ++ rest =
      '.' :: '.' :: '.' :: (name.toList ++ (directiveChars ds ++ rest)) := by
  simp [chars]

theorem chars_inline (depth : Nat) (condition : Option String) (ds : List Directive)
    (set : List Selection) (rest : List Char) :
    chars depth (.inline condition ds set) ++ rest =
      '.' :: '.' :: '.' :: (condition.elim [] conditionChars ++
        (directiveChars ds ++ ' ' :: (setChars depth set ++ rest))) := by
  cases condition <;> simp [chars, conditionChars, setChars]

end Selection

theorem setChars_append {set : List Selection} (h : set ≠ []) (depth : Nat)
    (rest : List Char) :
    setChars depth set ++ rest = '\x7b' :: '\n' ::
      (Selection.lines (depth + 1) set ++ (indent depth ++ '\x7d' :: rest)) :=
  braced_append (Selection.lines_ne_nil h _) depth rest

/-! ### Definitions -/

/-- A default value after an equals sign. -/
def defaultChars (value : String) : List Char := ' ' :: '=' :: ' ' :: value.toList

theorem VariableDefinition.chars_append (v : VariableDefinition) (rest : List Char) :
    v.chars ++ rest = '$' :: (v.name.toList ++ ':' :: ' ' :: (v.type.toList ++
      (v.default.elim [] defaultChars ++ (directiveChars v.directives ++ rest)))) := by
  rw [VariableDefinition.chars]
  cases v.default <;> simp [defaultChars]

theorem variableChars_eq (vars : List VariableDefinition) :
    variableChars vars = parenthesized VariableDefinition.chars vars := by
  cases vars <;> rfl

/-- A name after a blank. -/
def nameChars (name : String) : List Char := ' ' :: name.toList

/-- The first letter of the keyword of an operation. -/
def OperationKind.initial : OperationKind → Char
  | query => 'q'
  | mutation => 'm'
  | subscription => 's'

theorem OperationKind.keyword_eq_cons (kind : OperationKind) :
    ∃ cs, kind.keyword.toList = kind.initial :: cs := by
  cases kind <;> exact ⟨_, rfl⟩

namespace Operation

theorem isShorthand_iff {op : Operation} :
    op.isShorthand = true ↔ op = ⟨.query, none, [], [], op.selections⟩ := by
  obtain ⟨kind, name, declared, directives, selections⟩ := op
  simp [isShorthand, and_assoc]

theorem chars_of_isShorthand {op : Operation} (h : op.isShorthand = true) :
    op.chars = setChars 0 op.selections := by
  rw [chars, headChars, if_pos h, List.nil_append]

theorem chars_append {op : Operation} (h : op.isShorthand = false) (rest : List Char) :
    op.chars ++ rest = op.kind.keyword.toList ++ (op.name.elim [] nameChars ++
      (variableChars op.declared ++ (directiveChars op.directives ++
        ' ' :: (setChars 0 op.selections ++ rest)))) := by
  rw [chars, headChars, if_neg (by simp [h])]
  cases op.name <;> simp [nameChars]

end Operation

theorem Fragment.chars_append (fragment : Fragment) (rest : List Char) :
    fragment.chars ++ rest = "fragment ".toList ++ (fragment.name.toList ++
      (conditionChars fragment.condition ++ (directiveChars fragment.directives ++
        ' ' :: (setChars 0 fragment.selections ++ rest)))) := by
  have hon : " on ".toList = [' ', 'o', 'n', ' '] := rfl
  unfold Fragment.chars conditionChars
  simp only [hon, List.append_assoc, List.cons_append, List.nil_append]

/-- The printed form of a definition. -/
def Definition.chars : Definition → List Char
  | .operation op => op.chars
  | .fragment f => f.chars

/-- The operation, if the definition is one. -/
def Definition.operation? : Definition → Option Operation
  | operation op => some op
  | fragment _ => none

/-- The fragment, if the definition is one. -/
def Definition.fragment? : Definition → Option Fragment
  | operation _ => none
  | fragment f => some f

namespace Document

/-- The definitions of a document in the order in which they are written. -/
def definitions (d : Document) : List Definition :=
  d.operations.map .operation ++ d.fragments.map .fragment

theorem chars_eq (d : Document) :
    d.chars = paragraphs (d.definitions.map Definition.chars) := by
  rw [chars, definitions, List.map_append, List.map_map, List.map_map]
  rfl

theorem filterMap_operation?_definitions (d : Document) :
    d.definitions.filterMap Definition.operation? = d.operations := by
  simp [definitions, List.filterMap_map, Function.comp_def, Definition.operation?]

theorem filterMap_fragment?_definitions (d : Document) :
    d.definitions.filterMap Definition.fragment? = d.fragments := by
  simp [definitions, List.filterMap_map, Function.comp_def, Definition.fragment?]

theorem definitions_injective : Function.Injective definitions := by
  intro d d' heq
  have hoperations : d.operations = d'.operations := by
    rw [← filterMap_operation?_definitions, heq, filterMap_operation?_definitions]
  have hfragments : d.fragments = d'.fragments := by
    rw [← filterMap_fragment?_definitions, heq, filterMap_fragment?_definitions]
  obtain ⟨operations, fragments⟩ := d
  obtain rfl : operations = d'.operations := hoperations
  obtain rfl : fragments = d'.fragments := hfragments
  rfl

end Document

theorem paragraphs_cons_cons (item next : List Char) (others : List (List Char)) :
    paragraphs (item :: next :: others) =
      item ++ '\n' :: '\n' :: paragraphs (next :: others) := rfl

end QueryCache
