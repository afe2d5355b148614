import QueryCache.Failure
import QueryCache.Proofs.Query.Printed
import QueryCache.Proofs.Query.Values

/-!
# The documents that can be read

A document that was read from a text is `Document.WellFormed`: its names are names, its
values are the printed forms of literals, no selection set in it is empty or nests too
deeply, and its definitions stand under distinct names and in their order. A tree that is
built by hand need not be.
-/

namespace QueryCache

open QueryCache.Parser (IsName IsValue TypeText nestingLimit isNameStart)

/-- An argument as it can be read. -/
structure Argument.WellFormed (arg : Argument) : Prop where
  name : IsName arg.name
  value : IsValue true arg.value

/-- A directive as it can be read. -/
structure Directive.WellFormed (directive : Directive) : Prop where
  name : IsName directive.name
  arguments : ∀ arg ∈ directive.arguments, arg.WellFormed

/-- The head of a field as it can be read. -/
structure FieldHead.WellFormed (head : FieldHead) : Prop where
  aliasName : ∀ name ∈ head.aliasName, IsName name
  name : IsName head.name
  arguments : ∀ arg ∈ head.arguments, arg.WellFormed
  directives : ∀ directive ∈ head.directives, directive.WellFormed

/-- A selection as it can be read in a set at this level. -/
inductive Selection.WellFormed : Nat → Selection → Prop
  | leaf {level : Nat} {head : FieldHead} (head_wellFormed : head.WellFormed) :
      WellFormed level (.field head none)
  | field {level : Nat} {head : FieldHead} {set : List Selection}
      (head_wellFormed : head.WellFormed) (limit : level < nestingLimit) (nonempty : set ≠ [])
      (items : ∀ selection ∈ set, WellFormed (level + 1) selection) :
      WellFormed level (.field head (some set))
  | spread {level : Nat} {name : String} {directives : List Directive} (isName : IsName name)
      (directives_wellFormed : ∀ directive ∈ directives, directive.WellFormed) :
      WellFormed level (.spread name directives)
  | inline {level : Nat} {condition : Option String} {directives : List Directive}
      {set : List Selection} (isName : ∀ name ∈ condition, IsName name)
      (directives_wellFormed : ∀ directive ∈ directives, directive.WellFormed)
      (limit : level < nestingLimit) (nonempty : set ≠ [])
      (items : ∀ selection ∈ set, WellFormed (level + 1) selection) :
      WellFormed level (.inline condition directives set)

/-- A selection set as it can be read at this level. -/
structure SelectionSet.WellFormed (level : Nat) (set : SelectionSet) : Prop where
  limit : level ≤ nestingLimit
  nonempty : set ≠ []
  items : ∀ selection ∈ set, selection.WellFormed level

/-- The declaration of a variable as it can be read. -/
structure VariableDefinition.WellFormed (v : VariableDefinition) : Prop where
  name : IsName v.name
  type : TypeText v.type.toList
  default : ∀ value ∈ v.default, IsValue false value
  directives : ∀ directive ∈ v.directives, directive.WellFormed

/-- An operation as it can be read. -/
structure Operation.WellFormed (op : Operation) : Prop where
  name : ∀ name ∈ op.name, IsName name
  declared : ∀ v ∈ op.declared, v.WellFormed
  directives : ∀ directive ∈ op.directives, directive.WellFormed
  selections : op.selections.WellFormed 0

/-- A fragment as it can be read. -/
structure Fragment.WellFormed (fragment : Fragment) : Prop where
  name : IsName fragment.name
  condition : IsName fragment.condition
  directives : ∀ directive ∈ fragment.directives, directive.WellFormed
  selections : fragment.selections.WellFormed 0

/-- A definition as it can be read. -/
inductive Definition.WellFormed : Definition → Prop
  | operation {op : Operation} (op_wellFormed : op.WellFormed) : WellFormed (.operation op)
  | fragment {fragment : Fragment} (fragment_wellFormed : fragment.WellFormed) :
      WellFormed (.fragment fragment)

/-- Two operations that can stand in one document. -/
def Operation.Compatible (a b : Operation) : Prop :=
  a.name ≠ none ∧ b.name ≠ none ∧ a.name ≠ b.name

namespace Document

/-- The operations and fragments of the document stand under distinct names, and an
anonymous operation stands alone. -/
structure Distinct (d : Document) : Prop where
  operations : d.operations.Pairwise Operation.Compatible
  fragments : d.fragments.Pairwise fun a b => a.name ≠ b.name

/-- A document as it can be read. -/
structure WellFormed (d : Document) : Prop where
  nonempty : d.operations ≠ []
  operations : ∀ op ∈ d.operations, op.WellFormed
  fragments : ∀ fragment ∈ d.fragments, fragment.WellFormed
  distinct : d.Distinct
  sorted : d.sorted = d

end Document

namespace Parser

/-! ### What the readers of the grammar ensure -/

theorem ensures_argument : Ensures argument Argument.WellFormed :=
  ensures_name.bind fun _ => (ensures_token ":").bind fun _ => (ensures_value true).bind fun _ =>
    ensures_pure fun hvalue _ hname => ⟨hname, hvalue⟩

theorem ensures_arguments : Ensures arguments fun args => ∀ arg ∈ args, arg.WellFormed :=
  (ensures_token "(").bind fun _ => ensures_argument.many1.bind fun _ =>
    (ensures_token ")").bind fun _ => ensures_pure fun _ hargs _ => hargs.2

theorem ensures_directive : Ensures directive Directive.WellFormed :=
  (ensures_token "@").bind fun _ => ensures_name.bind fun _ => ensures_arguments.orEmpty.bind
    fun _ => ensures_pure fun hargs hname _ => ⟨hname, hargs⟩

theorem ensures_directives :
    Ensures directives fun ds => ∀ directive ∈ ds, directive.WellFormed :=
  ensures_directive.many

theorem ensures_aliasName : Ensures aliasName IsName :=
  ensures_name.bind fun _ => (ensures_token ":").bind fun _ => ensures_pure fun _ hname => hname

theorem ensures_fieldHead : Ensures fieldHead FieldHead.WellFormed :=
  ensures_aliasName.optional.bind fun _ => ensures_name.bind fun _ =>
    ensures_arguments.orEmpty.bind fun _ => ensures_directives.bind fun _ =>
      ensures_pure fun hdirectives hargs hname halias =>
        ⟨halias, hname, hargs, hdirectives⟩

/-- A field with the sets that the reader gives. -/
def fieldSelection (inner : Parser SelectionSet) : Parser Selection := do
  let head ← fieldHead
  let selections ← optional inner
  return .field head selections

/-- An inline fragment with the sets that the reader gives. -/
def inlineSelection (inner : Parser SelectionSet) : Parser Selection := do
  token "..."
  let typeCondition ← optional condition
  let ds ← directives
  let selections ← inner
  return .inline typeCondition ds selections

/-- A spread of a fragment. -/
def spreadSelection : Parser Selection := do
  token "..."
  noCondition
  let fragmentName ← name
  let ds ← directives
  return .spread fragmentName ds

/-- One entry of a selection set. -/
def selection (inner : Parser SelectionSet) : Parser Selection :=
  orElse (fieldSelection inner) (orElse (inlineSelection inner) spreadSelection)

/-- A fault, if the level is beyond the limit. -/
def limited (level : Nat) : Parser Unit :=
  if nestingLimit < level then raise .recursionLimit else pure ()

theorem selectionSet_succ (fuel level : Nat) :
    selectionSet (fuel + 1) level = (do
      token "\x7b"
      limited level
      let items ← many1 (selection (selectionSet fuel (level + 1)))
      token "\x7d"
      return items) := by
  rw [limited]
  by_cases h : nestingLimit < level <;> simp only [selectionSet, h, if_true, if_false] <;> rfl

theorem ensures_fieldSelection {inner : Parser SelectionSet} {level : Nat}
    (h : Ensures inner (SelectionSet.WellFormed (level + 1))) :
    Ensures (fieldSelection inner) (Selection.WellFormed level) := by
  refine ensures_fieldHead.bind fun _ => h.optional.bind fun selections => ensures_pure ?_
  intro hset hhead
  cases selections with
  | none => exact .leaf hhead
  | some set =>
      obtain ⟨hlimit, hnonempty, hitems⟩ := hset set rfl
      exact .field hhead hlimit hnonempty hitems

theorem ensures_inlineSelection {inner : Parser SelectionSet} {level : Nat}
    (h : Ensures inner (SelectionSet.WellFormed (level + 1))) :
    Ensures (inlineSelection inner) (Selection.WellFormed level) :=
  (ensures_token "...").bind fun _ => ensures_condition.optional.bind fun _ =>
    ensures_directives.bind fun _ => h.bind fun _ =>
      ensures_pure fun hset hdirectives hcondition _ =>
        .inline hcondition hdirectives hset.limit hset.nonempty hset.items

theorem ensures_spreadSelection (level : Nat) :
    Ensures spreadSelection (Selection.WellFormed level) :=
  (ensures_token "...").bind fun _ => ensures_noCondition.bind fun _ => ensures_name.bind fun _ =>
    ensures_directives.bind fun _ => ensures_pure fun hdirectives hname _ _ =>
      .spread hname hdirectives

theorem ensures_limited (level : Nat) :
    Ensures (limited level) fun _ => level ≤ nestingLimit := by
  rw [limited]
  split
  · exact ensures_raise _
  · exact ensures_pure (by omega)

theorem ensures_selection_of {inner : Parser SelectionSet} {level : Nat}
    (h : Ensures inner (SelectionSet.WellFormed (level + 1))) :
    Ensures (selection inner) (Selection.WellFormed level) :=
  (ensures_fieldSelection h).orElse <|
    (ensures_inlineSelection h).orElse (ensures_spreadSelection level)

theorem ensures_selectionSet (fuel level : Nat) :
    Ensures (selectionSet fuel level) (SelectionSet.WellFormed level) := by
  induction fuel generalizing level with
  | zero => exact ensures_fail
  | succ fuel ih =>
      rw [selectionSet_succ]
      exact (ensures_token _).bind fun _ => (ensures_limited level).bind fun _ =>
        (ensures_selection_of (ih _)).many1.bind fun _ => (ensures_token _).bind fun _ =>
          ensures_pure fun _ hitems hlimit _ => ⟨hlimit, hitems.1, hitems.2⟩

theorem ensures_selection (fuel level : Nat) :
    Ensures (selection (selectionSet fuel (level + 1))) (Selection.WellFormed level) :=
  ensures_selection_of (ensures_selectionSet fuel _)

theorem ensures_outermostSet : Ensures outermostSet (SelectionSet.WellFormed 0) :=
  fun cursor => ensures_selectionSet _ 0 cursor

/-- The value after an equals sign. -/
def defaultValue : Parser String := do
  token "="
  value false

theorem ensures_defaultValue : Ensures defaultValue (IsValue false) :=
  (ensures_token "=").bind fun _ => (ensures_value false).mono fun _ hvalue _ => hvalue

theorem ensures_variableDefinition :
    Ensures variableDefinition VariableDefinition.WellFormed :=
  (ensures_token "$").bind fun _ => ensures_name.bind fun _ => (ensures_token ":").bind fun _ =>
    ensures_type.bind fun _ => ensures_directives.bind fun _ =>
      ensures_defaultValue.optional.bind fun _ =>
        ensures_pure fun hdefault hdirectives htype _ hname _ =>
          ⟨hname, htype, hdefault, hdirectives⟩

theorem ensures_variableDefinitions :
    Ensures variableDefinitions fun declared => ∀ v ∈ declared, v.WellFormed :=
  (ensures_token "(").bind fun _ => ensures_variableDefinition.many.bind fun _ =>
    (ensures_token ")").bind fun _ => ensures_pure fun _ hdeclared _ => hdeclared

theorem ensures_keyword (kind : OperationKind) :
    Ensures (do token kind.keyword; return kind) fun _ => True :=
  (ensures_token _).bind fun _ => ensures_pure fun _ => trivial

theorem ensures_operationKind : Ensures operationKind fun _ => True :=
  (ensures_keyword _).orElse ((ensures_keyword _).orElse (ensures_keyword _))

theorem ensures_fullOperation : Ensures fullOperation Operation.WellFormed :=
  ensures_operationKind.bind fun _ => ensures_name.optional.bind fun _ =>
    ensures_variableDefinitions.orEmpty.bind fun _ => ensures_directives.bind fun _ =>
      ensures_outermostSet.bind fun _ =>
        ensures_pure fun hselections hdirectives hdeclared hname _ =>
          ⟨hname, hdeclared, hdirectives, hselections⟩

theorem ensures_shorthand : Ensures shorthand Operation.WellFormed :=
  ensures_outermostSet.bind fun _ => ensures_pure fun hselections =>
    ⟨by simp, by simp, by simp, hselections⟩

theorem ensures_fragment : Ensures fragment Fragment.WellFormed :=
  (ensures_token "fragment").bind fun _ => ensures_name.bind fun _ =>
    ensures_condition.bind fun _ => ensures_directives.bind fun _ =>
      ensures_outermostSet.bind fun _ =>
        ensures_pure fun hselections hdirectives hcondition hname _ =>
          ⟨hname, hcondition, hdirectives, hselections⟩

theorem ensures_definition : Ensures definition Definition.WellFormed :=
  ((ensures_fullOperation.orElse ensures_shorthand).map fun _ hop => .operation hop).orElse
    (ensures_fragment.map fun _ hfragment => .fragment hfragment)

theorem ensures_endOfText : Ensures endOfText fun _ => True := by
  intro cursor x next hread hfault
  rw [endOfText] at hread
  split at hread
  · cases hread
    exact ⟨hfault, trivial⟩
  · cases hread

theorem ensures_definitions :
    Ensures definitions fun found => ∀ definition ∈ found, definition.WellFormed :=
  ensures_definition.many1.bind fun _ => ensures_endOfText.bind fun _ =>
    ensures_pure fun _ hfound => hfound.2

end Parser

/-! ### First characters -/

/-- The head of a field begins with a name. -/
theorem FieldHead.WellFormed.chars_eq_cons {head : FieldHead} (h : head.WellFormed) :
    ∃ c cs, head.chars = c :: cs ∧ isNameStart c = true := by
  have hname : ∀ {name : String}, IsName name → ∀ rest,
      ∃ c cs, name.toList ++ rest = c :: cs ∧ isNameStart c = true := by
    rintro name ⟨c, cs, heq, hc, -⟩ rest
    exact ⟨c, cs ++ rest, by rw [heq]; rfl, hc⟩
  obtain ⟨alternative, name, args, ds⟩ := head
  have heq := FieldHead.chars_append ⟨alternative, name, args, ds⟩ []
  rw [List.append_nil] at heq
  rw [heq]
  cases alternative with
  | none => exact hname h.name _
  | some alternative =>
      rw [Option.elim_some, aliasChars, List.append_assoc]
      exact hname (h.aliasName alternative rfl) _

/-- A field begins with a name, and every other selection with a dot. -/
theorem Selection.WellFormed.chars_eq_cons {level : Nat} {selection : Selection}
    (h : selection.WellFormed level) (depth : Nat) (rest : List Char) :
    ∃ c cs, chars depth selection ++ rest = c :: cs ∧
      (isNameStart c = true ∧ (∃ head selections, selection = .field head selections) ∨
        c = '.' ∧ ∀ head selections, selection ≠ .field head selections) := by
  cases selection with
  | field head selections =>
      have hhead : head.WellFormed := by cases h <;> assumption
      obtain ⟨c, cs, heq, hc⟩ := hhead.chars_eq_cons
      exact ⟨c, _, by rw [chars_field, heq]; rfl, .inl ⟨hc, head, selections, rfl⟩⟩
  | spread name ds => exact ⟨'.', _, chars_spread .., .inr ⟨rfl, by simp⟩⟩
  | inline condition ds set => exact ⟨'.', _, chars_inline .., .inr ⟨rfl, by simp⟩⟩

/-- An operation begins with a brace or with its keyword. -/
theorem Operation.WellFormed.head?_chars {op : Operation} (h : op.WellFormed)
    (rest : List Char) :
    (op.chars ++ rest).head? = some (if op.isShorthand then '\x7b' else op.kind.initial) := by
  cases hshort : op.isShorthand with
  | true =>
      rw [chars_of_isShorthand hshort, setChars_append h.selections.nonempty]
      rfl
  | false =>
      obtain ⟨cs, heq⟩ := op.kind.keyword_eq_cons
      rw [chars_append hshort, heq]
      rfl

theorem Fragment.head?_chars (fragment : Fragment) (rest : List Char) :
    (fragment.chars ++ rest).head? = some 'f' := by
  rw [chars_append]
  rfl

namespace Document

/-! ### Putting definitions together -/

variable {d d' : Document}

/-- Definitions are added one after the other. -/
theorem exists_of_foldlM_cons {definition : Definition} {found : List Definition}
    (h : (definition :: found).foldlM addDefinition d = .ok d') :
    ∃ next, d.addDefinition definition = .ok next ∧
      found.foldlM addDefinition next = .ok d' := by
  rw [List.foldlM_cons] at h
  exact exists_of_bind_eq_ok h

theorem addOperation_eq_ok {op : Operation} (h : d.addOperation op = .ok d') :
    d' = { d with operations := d.operations ++ [op] } ∧
      ∀ other ∈ d.operations, other.Compatible op := by
  rw [addOperation] at h
  cases hname : op.name with
  | none =>
      simp only [hname] at h
      split at h
      · rename_i hempty
        cases h
        rw [List.isEmpty_iff.1 hempty]
        exact ⟨rfl, by simp⟩
      · cases h
  | some name =>
      simp only [hname] at h
      split at h
      · cases h
      · rename_i hanonymous
        split at h
        · cases h
        · rename_i hother
          cases h
          refine ⟨rfl, fun other hmem => ⟨?_, by simp [hname], ?_⟩⟩
          · rintro hnone
            exact hanonymous (List.any_eq_true.2 ⟨other, hmem, by simp [hnone]⟩)
          · rintro heq
            exact hother (List.any_eq_true.2 ⟨other, hmem, by simp [heq, hname]⟩)

theorem addFragment_eq_ok {fragment : Fragment} (h : d.addFragment fragment = .ok d') :
    d' = { d with fragments := d.fragments ++ [fragment] } ∧
      ∀ other ∈ d.fragments, other.name ≠ fragment.name := by
  rw [addFragment] at h
  split at h
  · cases h
  · rename_i hother
    cases h
    exact ⟨rfl, fun other hmem heq =>
      hother (List.any_eq_true.2 ⟨other, hmem, by simp [heq]⟩)⟩

/-- The definitions of the document are well-formed and can stand together. -/
structure Sound (d : Document) : Prop where
  operations : ∀ op ∈ d.operations, op.WellFormed
  fragments : ∀ fragment ∈ d.fragments, fragment.WellFormed
  distinct : d.Distinct

theorem sound_empty : empty.Sound :=
  ⟨by simp [empty], by simp [empty], by simp [empty], by simp [empty]⟩

theorem pairwise_append_singleton {α : Type} {r : α → α → Prop} {xs : List α} {x : α}
    (h : xs.Pairwise r) (hx : ∀ y ∈ xs, r y x) : (xs ++ [x]).Pairwise r :=
  List.pairwise_append.2 ⟨h, List.pairwise_singleton r x,
    fun y hy _ hmem => List.mem_singleton.1 hmem ▸ hx y hy⟩

theorem Sound.addDefinition {definition : Definition} (hd : d.Sound)
    (hdefinition : definition.WellFormed) (h : d.addDefinition definition = .ok d') :
    d'.Sound := by
  cases hdefinition with
  | @operation op hop =>
      obtain ⟨rfl, hcompatible⟩ := addOperation_eq_ok h
      refine ⟨fun other hmem => ?_, hd.fragments,
        pairwise_append_singleton hd.distinct.operations hcompatible, hd.distinct.fragments⟩
      rcases List.mem_append.1 hmem with hmem | hmem
      · exact hd.operations other hmem
      · exact List.mem_singleton.1 hmem ▸ hop
  | @fragment fragment hfragment =>
      obtain ⟨rfl, hdistinct⟩ := addFragment_eq_ok h
      refine ⟨hd.operations, fun other hmem => ?_, hd.distinct.operations,
        pairwise_append_singleton hd.distinct.fragments hdistinct⟩
      rcases List.mem_append.1 hmem with hmem | hmem
      · exact hd.fragments other hmem
      · exact List.mem_singleton.1 hmem ▸ hfragment

theorem Sound.foldlM {definitions : List Definition} (hd : d.Sound)
    (hdefinitions : ∀ definition ∈ definitions, definition.WellFormed)
    (h : definitions.foldlM Document.addDefinition d = .ok d') : d'.Sound := by
  induction definitions generalizing d with
  | nil =>
      cases h
      exact hd
  | cons definition definitions ih =>
      obtain ⟨next, hadd, hrest⟩ := exists_of_foldlM_cons h
      exact ih (hd.addDefinition (hdefinitions _ List.mem_cons_self) hadd)
        (fun other hmem => hdefinitions other (List.mem_cons_of_mem _ hmem)) hrest

theorem WellFormed.definitions_ne_nil (h : d.WellFormed) : d.definitions ≠ [] := by
  simp [definitions, h.nonempty]

theorem WellFormed.definition (h : d.WellFormed) :
    ∀ definition ∈ d.definitions, definition.WellFormed := by
  intro definition hmem
  rcases List.mem_append.1 hmem with hmem | hmem
  · obtain ⟨op, hop, rfl⟩ := List.mem_map.1 hmem
    exact .operation (h.operations op hop)
  · obtain ⟨fragment, hfragment, rfl⟩ := List.mem_map.1 hmem
    exact .fragment (h.fragments fragment hfragment)

/-! ### The order of definitions -/

theorem operationLe_trans (a b c : Operation) (hab : operationLe a b = true)
    (hbc : operationLe b c = true) : operationLe a c = true := by
  unfold operationLe at *
  cases ha : a.name <;> cases hb : b.name <;> cases hc : c.name <;>
    simp_all only [decide_eq_true_eq, Bool.false_eq_true]
  exact String.le_trans hab hbc

theorem operationLe_total (a b : Operation) : (operationLe a b || operationLe b a) = true := by
  unfold operationLe
  cases a.name <;> cases b.name <;> simp [String.le_total]

theorem fragmentLe_trans (a b c : Fragment) (hab : fragmentLe a b = true)
    (hbc : fragmentLe b c = true) : fragmentLe a c = true := by
  simp only [fragmentLe, decide_eq_true_eq] at *
  exact String.le_trans hab hbc

theorem fragmentLe_total (a b : Fragment) : (fragmentLe a b || fragmentLe b a) = true := by
  simp [fragmentLe, String.le_total]

/-- Sorting once is enough. -/
theorem sorted_sorted (d : Document) : d.sorted.sorted = d.sorted := by
  rw [sorted, sorted]
  congr 1
  · exact List.mergeSort_of_pairwise (List.pairwise_mergeSort operationLe_trans operationLe_total _)
  · exact List.mergeSort_of_pairwise (List.pairwise_mergeSort fragmentLe_trans fragmentLe_total _)

theorem Compatible.symm {a b : Operation} (h : a.Compatible b) : b.Compatible a :=
  ⟨h.2.1, h.1, h.2.2.symm⟩

theorem Sound.sorted (hd : d.Sound) : d.sorted.Sound := by
  have hoperations : d.sorted.operations.Perm d.operations := List.mergeSort_perm _ _
  have hfragments : d.sorted.fragments.Perm d.fragments := List.mergeSort_perm _ _
  exact ⟨fun op hmem => hd.operations op (hoperations.mem_iff.1 hmem),
    fun fragment hmem => hd.fragments fragment (hfragments.mem_iff.1 hmem),
    (hoperations.pairwise_iff Compatible.symm).2 hd.distinct.operations,
    (hfragments.pairwise_iff Ne.symm).2 hd.distinct.fragments⟩

theorem ofDefinitions_eq_ok {definitions : List Definition}
    (h : ofDefinitions definitions = .ok d) :
    ∃ found, definitions.foldlM addDefinition empty = .ok found ∧ found.operations ≠ [] ∧
      found.sorted = d := by
  rw [ofDefinitions] at h
  cases hfold : definitions.foldlM addDefinition empty with
  | error fault =>
      rw [hfold] at h
      cases h
  | ok found =>
      rw [hfold] at h
      change (if found.operations.isEmpty then _ else _) = _ at h
      split at h
      · cases h
      · rename_i hempty
        exact ⟨found, rfl, fun heq => hempty (by rw [heq]; rfl), Except.ok.inj h⟩

theorem wellFormed_ofDefinitions {definitions : List Definition}
    (hdefinitions : ∀ definition ∈ definitions, definition.WellFormed)
    (h : ofDefinitions definitions = .ok d) : d.WellFormed := by
  obtain ⟨found, hfold, hne, rfl⟩ := ofDefinitions_eq_ok h
  have hsound : found.Sound := sound_empty.foldlM hdefinitions hfold
  refine ⟨fun hnil => hne ?_, hsound.sorted.operations, hsound.sorted.fragments,
    hsound.sorted.distinct, sorted_sorted found⟩
  have hperm : found.sorted.operations.Perm found.operations := List.mergeSort_perm _ _
  rw [hnil] at hperm
  exact List.nil_perm.1 hperm

theorem ofText?_eq_ok {text : String} (h : ofText? text = .ok d) :
    ∃ found cursor, Parser.definitions ⟨text.toList, none⟩ = some (found, cursor) ∧
      cursor.fault = none ∧ ofDefinitions found = .ok d := by
  unfold ofText? at h
  rcases hread : Parser.definitions ⟨text.toList, none⟩ with _ | ⟨found, cursor⟩
  · rw [hread] at h
    cases h
  · rw [hread] at h
    rcases hfault : cursor.fault with _ | fault
    · simp only [hfault] at h
      exact ⟨found, cursor, rfl, hfault, h⟩
    · simp only [hfault] at h
      cases h

/-- What a text is read as is well-formed. -/
theorem wellFormed_ofText? {text : String} (h : ofText? text = .ok d) : d.WellFormed := by
  obtain ⟨found, cursor, hread, hfault, h⟩ := ofText?_eq_ok h
  exact wellFormed_ofDefinitions (Parser.ensures_definitions _ found cursor hread hfault).2 h

end Document

end QueryCache
