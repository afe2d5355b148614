import QueryCache.Proofs.Query.Selections

/-!
# Reading written definitions

Operations and fragments are read back from their texts exactly if they are legible: their
selections and values are, and no variable has both a default value and directives. A default
value is written before the directives and looked for behind them. Whatever is read of the text
of a definition stands under its name.
-/

namespace QueryCache

open QueryCache.Parser

/-! ### Legible definitions -/

/-- The declaration has legible parts, and no directives beside a default value. -/
structure VariableDefinition.Legible (v : VariableDefinition) : Prop where
  default : ∀ value ∈ v.default, IsLegibleValue false value
  directives : ∀ directive ∈ v.directives, directive.Legible
  separate : v.default = none ∨ v.directives = []

/-- All parts of the operation are legible. -/
structure Operation.Legible (op : Operation) : Prop where
  declared : ∀ v ∈ op.declared, v.Legible
  directives : ∀ directive ∈ op.directives, directive.Legible
  selections : op.selections.Legible

/-- All parts of the fragment are legible. -/
structure Fragment.Legible (fragment : Fragment) : Prop where
  directives : ∀ directive ∈ fragment.directives, directive.Legible
  selections : fragment.selections.Legible

/-- An operation or a fragment with legible parts. -/
def Definition.Legible : Definition → Prop
  | .operation op => op.Legible
  | .fragment f => f.Legible

namespace Parser

variable {text rest : List Char}

/-! ### Variables -/

/-- The declaration of a variable ends before this text. -/
structure ClosesVariable (rest : List Char) : Prop extends ClosesHead rest where
  type : EndsType rest
  literal : EndsLiteral rest
  noDefault : (skip rest).head? ≠ some '='

theorem closesVariable_comma (rest : List Char) : ClosesVariable (',' :: ' ' :: '$' :: rest) := by
  have hskip : skip (',' :: ' ' :: '$' :: rest) = '$' :: rest := by
    rw [skip_comma, skip_space, skip_solid rfl]
  refine ⟨⟨endsName_of_head rfl _, ?_⟩, ?_, endsLiteral_comma _, by simp [hskip]⟩
  · rw [hskip]
    rintro c ⟨rfl⟩
    decide
  · rintro c ⟨rfl⟩
    decide

theorem closesVariable_parenthesis (rest : List Char) : ClosesVariable (')' :: rest) := by
  have hskip : skip (')' :: rest) = ')' :: rest := skip_solid rfl _
  refine ⟨⟨endsName_of_head rfl _, ?_⟩, ?_, endsLiteral_parenthesis _, by simp [hskip]⟩
  · rw [hskip]
    rintro c ⟨rfl⟩
    decide
  · rintro c ⟨rfl⟩
    decide

theorem ClosesVariable.endsType (h : ClosesVariable rest) (default : Option String)
    (ds : List Directive) :
    EndsType (default.elim [] defaultChars ++ (directiveChars ds ++ rest)) := by
  have hblank : ∀ rest, EndsType (' ' :: rest) := by
    rintro rest c ⟨rfl⟩
    decide
  cases default with
  | some value => exact hblank _
  | none =>
      cases ds with
      | cons directive ds => exact hblank _
      | nil => exact h.type

theorem TypeText.skip {type : List Char} (h : TypeText type) (rest : List Char) :
    skip (type ++ rest) = type ++ rest := by
  cases h with
  | name hname required => rw [List.append_assoc, hname.skip]
  | list item required => exact skip_solid rfl _

/-- What is read of a declaration after its type. -/
def variableTail (name type : String) : Parser VariableDefinition := do
  let ds ← directives
  let default ← optional defaultValue
  return ⟨name, type, default, ds⟩

/-- Directives are not looked for behind a default value. -/
theorem rereads_variableTail_default {name type value : String} {ds : List Directive}
    (hvalue : IsValue false value) (hrest : ClosesVariable rest) :
    Rereads (variableTail name type) (defaultChars value ++ (directiveChars ds ++ rest))
      ⟨name, type, some value, ds⟩ rest (IsLegibleValue false value ∧ ds = []) := by
  have hequals : skip (defaultChars value ++ (directiveChars ds ++ rest)) =
      '=' :: ' ' :: (value.toList ++ (directiveChars ds ++ rest)) := by
    rw [defaultChars, List.cons_append, skip_space]
    exact skip_solid rfl _
  have htoken : Reads (token "=") (defaultChars value ++ (directiveChars ds ++ rest)) ()
      (' ' :: (value.toList ++ (directiveChars ds ++ rest))) := reads_token hequals
  have hnone : Reads directives (defaultChars value ++ (directiveChars ds ++ rest)) []
      (defaultChars value ++ (directiveChars ds ++ rest)) := by
    refine (ReadsAll.nil ((refuses_token_of_head (c := '@') rfl ?_).bind _)).many
    rw [hequals]
    simp
  cases ds with
  | nil =>
      have hdefault : Rereads defaultValue (defaultChars value ++ rest) value rest
          (IsLegibleValue false value) :=
        htoken.rereads_bind <|
          hvalue.rereads (by rw [skip_space]; exact hvalue.skip rest) hrest.literal
      exact (hnone.rereads_bind (hdefault.optional.bind_pure fun _ heq =>
        (VariableDefinition.mk.inj heq).2.2.1)).congr (by simp)
  | cons directive ds =>
      have hends : Ensures (do
          let default ← optional defaultValue
          return (⟨name, type, default, []⟩ : VariableDefinition)) fun found =>
            found.directives = [] :=
        ensures_defaultValue.optional.bind fun _ => ensures_pure fun _ => rfl
      exact (hnone.rereads_bind (hends.rereads (by simp))).congr (by simp)

theorem rereads_variableTail_noDefault {name type : String} {ds : List Directive}
    (hds : ∀ directive ∈ ds, directive.WellFormed) (hrest : ClosesVariable rest) :
    Rereads (variableTail name type) (directiveChars ds ++ rest) ⟨name, type, none, ds⟩ rest
      (∀ directive ∈ ds, directive.Legible) := by
  have hrefuses : Refuses defaultValue rest :=
    (refuses_token_of_head rfl hrest.noDefault).bind _
  have hnone : Reads (do
      let default ← optional defaultValue
      return (⟨name, type, default, ds⟩ : VariableDefinition)) rest ⟨name, type, none, ds⟩ rest :=
    hrefuses.optional.bind (reads_pure _ _)
  have hends : ∀ ds', Ensures (do
      let default ← optional defaultValue
      return (⟨name, type, default, ds'⟩ : VariableDefinition)) fun found =>
        found = ⟨name, type, none, ds⟩ → ds' = ds := fun _ =>
    ensures_defaultValue.optional.bind fun _ => ensures_pure fun _ heq =>
      (VariableDefinition.mk.inj heq).2.2.2
  exact ((rereads_directives hds hrest.toClosesHead).bind hends
    hnone.rereads).congr (by rw [and_true])

theorem respells_variableDefinition {v : VariableDefinition} (h : v.WellFormed) :
    Respells variableDefinition ClosesVariable v.chars v v.Legible := by
  refine ⟨⟨'$', _, by rw [← List.append_nil v.chars, v.chars_append], rfl⟩,
    fun {text rest} htext hrest => ?_⟩
  obtain ⟨name, type, default, ds⟩ := v
  rw [VariableDefinition.chars_append] at htext
  have hname := reads_name (h.name.skip (':' :: ' ' :: (type.toList ++
    (default.elim [] defaultChars ++ (directiveChars ds ++ rest))))) h.name (endsName_of_head rfl _)
  have htype : Reads Parser.type (' ' :: (type.toList ++
      (default.elim [] defaultChars ++ (directiveChars ds ++ rest)))) type
      (default.elim [] defaultChars ++ (directiveChars ds ++ rest)) :=
    reads_type (by rw [skip_space, h.type.skip]) h.type (hrest.endsType default ds)
  have htail : Rereads (variableTail name type) (default.elim [] defaultChars ++
      (directiveChars ds ++ rest)) ⟨name, type, default, ds⟩ rest
      (VariableDefinition.Legible ⟨name, type, default, ds⟩) := by
    cases default with
    | none =>
        exact (rereads_variableTail_noDefault h.directives hrest).congr
          ⟨fun hds => ⟨by simp, hds, .inl rfl⟩, fun hl => hl.directives⟩
    | some value =>
        refine (rereads_variableTail_default (h.default value rfl) hrest).congr ⟨?_, fun hl =>
          ⟨hl.default value rfl, hl.separate.resolve_left (by simp)⟩⟩
        rintro ⟨hvalue, rfl⟩
        exact ⟨by simpa using hvalue, by simp, .inr rfl⟩
  exact (reads_token htext).rereads_bind <| hname.rereads_bind <|
    (reads_token_cons rfl rfl _).rereads_bind <| htype.rereads_bind htail

theorem refuses_variableDefinition (rest : List Char) :
    Refuses variableDefinition (')' :: rest) :=
  (refuses_token_of_head (c := '$') rfl (by rw [skip_solid rfl]; simp)).bind _

theorem rereads_orEmpty_variableDefinitions {vars : List VariableDefinition}
    (h : ∀ v ∈ vars, v.WellFormed) (hrest : (skip rest).head? ≠ some '(') :
    Rereads (orEmpty variableDefinitions) (variableChars vars ++ rest) vars rest
      (∀ v ∈ vars, v.Legible) := by
  cases vars with
  | nil =>
      have hrefuses : Refuses variableDefinitions rest := (refuses_token_of_head rfl hrest).bind _
      exact hrefuses.orEmpty.rereads.congr (by simp)
  | cons v vars =>
      have hrespells := forall₂_map_chars fun v hmem => respells_variableDefinition (h v hmem)
      have hcomma : ∀ item ∈ (v :: vars).map VariableDefinition.chars, ∀ rest,
          ClosesVariable (',' :: ' ' :: (item ++ rest)) := by
        intro item hmem rest
        obtain ⟨w, -, rfl⟩ := List.mem_map.1 hmem
        rw [w.chars_append]
        exact closesVariable_comma _
      have hall := rereadsAll_commaSeparated hrespells hcomma (closesVariable_parenthesis rest)
        (refuses_variableDefinition rest) (by simp) (skip_commaSeparated hrespells (by simp) _)
      have hparenthesized : Rereads variableDefinitions (variableChars (v :: vars) ++ rest)
          (v :: vars) rest (∀ w ∈ v :: vars, w.Legible) := by
        rw [variableChars_eq]
        exact rereads_parenthesized (by simp) (hall.many ensures_variableDefinition)
      exact hparenthesized.orEmpty (by simp)

/-! ### Operations -/

theorem rereads_outermostSet {set : SelectionSet} (h : set.WellFormed 0)
    (htext : skip text = setChars 0 set ++ rest) :
    Rereads outermostSet text set rest set.Legible := by
  have hlength : (setChars 0 set).length ≤ text.length := by
    have := length_skip_le text
    rw [htext, List.length_append] at this
    omega
  have hset : Rereads (selectionSet text.length 0) text set rest set.Legible :=
    rereads_selectionSet h.nonempty h.limit hlength
      (fun n hn => Selection.rereadsAll_lines h.items hn) htext
  exact ⟨hset.reads, hset.recovers⟩

/-- The keyword of one kind of operations. -/
def keyword (kind : OperationKind) : Parser OperationKind := do
  token kind.keyword
  return kind

theorem refuses_keyword {kind : OperationKind} (h : (skip text).head? ≠ some kind.initial) :
    Refuses (keyword kind) text := by
  obtain ⟨cs, heq⟩ := kind.keyword_eq_cons
  exact (refuses_token_of_head heq h).bind _

theorem reads_operationKind {kind : OperationKind}
    (htext : skip text = kind.keyword.toList ++ rest) : Reads operationKind text kind rest := by
  have hreads : Reads (keyword kind) text kind rest := (reads_token htext).bind (reads_pure _ _)
  have hrefuses : ∀ {other : OperationKind}, kind.initial ≠ other.initial →
      Refuses (keyword other) text := by
    intro other hne
    obtain ⟨cs, heq⟩ := kind.keyword_eq_cons
    exact refuses_keyword (by rw [htext, heq]; simpa using hne)
  cases kind with
  | query => exact hreads.orElse _
  | mutation =>
      have hquery : Refuses (keyword .query) text := hrefuses (by decide)
      exact hquery.orElse (hreads.orElse _)
  | subscription =>
      have hquery : Refuses (keyword .query) text := hrefuses (by decide)
      have hmutation : Refuses (keyword .mutation) text := hrefuses (by decide)
      exact hquery.orElse (hmutation.orElse hreads)

theorem refuses_operationKind (h : ∀ kind, (skip text).head? ≠ some (OperationKind.initial kind)) :
    Refuses operationKind text :=
  (refuses_keyword (h .query)).orElse_refuses <|
    (refuses_keyword (h .mutation)).orElse_refuses (refuses_keyword (h .subscription))

theorem refuses_shorthand (h : (skip text).head? ≠ some '\x7b') : Refuses shorthand text := by
  have hset : Refuses outermostSet text := fun fault => refuses_selectionSet _ _ h fault
  exact hset.bind _

/-- What comes after the name of an operation is no name. -/
theorem isNameStart_variables {vars : List VariableDefinition} {ds : List Directive}
    {set : SelectionSet} (hne : set ≠ []) :
    ∀ c ∈ (skip (variableChars vars ++ (directiveChars ds ++
      ' ' :: (setChars 0 set ++ rest)))).head?, isNameStart c = false := by
  intro c hc
  cases vars with
  | cons v vars =>
      cases hc
      rfl
  | nil =>
      cases ds with
      | cons directive ds =>
          cases hc
          rfl
      | nil =>
          rw [variableChars, List.nil_append, directiveChars, List.flatMap_nil, List.nil_append,
            skip_space, skip_setChars hne, setChars_append hne] at hc
          cases hc
          rfl

/-- What is read of an operation after its name. -/
def operationTail (kind : OperationKind) (name : Option String) : Parser Operation := do
  let declared ← orEmpty variableDefinitions
  let ds ← directives
  let selections ← outermostSet
  return ⟨kind, name, declared, ds, selections⟩

theorem ensures_operationTail (kind : OperationKind) (name : Option String) :
    Ensures (operationTail kind name) fun op => op.name = name :=
  ensures_variableDefinitions.orEmpty.bind fun _ => ensures_directives.bind fun _ =>
    ensures_outermostSet.bind fun _ => ensures_pure fun _ _ _ => rfl

theorem ensures_shorthand_name : Ensures shorthand fun op => op.name = none :=
  ensures_outermostSet.bind fun _ => ensures_pure fun _ => rfl

theorem rereads_operationTail {op : Operation} (h : op.WellFormed) :
    Rereads (operationTail op.kind op.name) (variableChars op.declared ++
      (directiveChars op.directives ++ ' ' :: (setChars 0 op.selections ++ rest))) op rest
      op.Legible := by
  have hne := h.selections.nonempty
  have hclose := closesHead_setChars hne 0 rest
  have htext : skip (' ' :: (setChars 0 op.selections ++ rest)) =
      setChars 0 op.selections ++ rest := by rw [skip_space, skip_setChars hne]
  have hselections := (rereads_outermostSet h.selections htext).bind_pure
      (f := fun set => (⟨op.kind, op.name, op.declared, op.directives, set⟩ : Operation))
      fun _ heq => (Operation.mk.inj heq).2.2.2.2
  have hshowsDirectives : ∀ ds, Ensures (do
      let selections ← outermostSet
      return (⟨op.kind, op.name, op.declared, ds, selections⟩ : Operation)) fun found =>
        found = op → ds = op.directives := fun _ =>
    ensures_outermostSet.bind fun _ => ensures_pure fun _ heq => by rw [← heq]
  have hshowsDeclared : ∀ declared, Ensures (do
      let ds ← directives
      let selections ← outermostSet
      return (⟨op.kind, op.name, declared, ds, selections⟩ : Operation)) fun found =>
        found = op → declared = op.declared := fun _ =>
    ensures_directives.bind fun _ => ensures_outermostSet.bind fun _ =>
      ensures_pure fun _ _ heq => by rw [← heq]
  have hdeclared := rereads_orEmpty_variableDefinitions h.declared
    (hclose.endsArguments_directives op.directives).2
  exact (hdeclared.bind hshowsDeclared <| (rereads_directives h.directives hclose).bind
    hshowsDirectives hselections).congr
    ⟨fun hl => ⟨hl.1, hl.2.1, hl.2.2⟩, fun hl => ⟨hl.declared, hl.directives, hl.selections⟩⟩

/-- The keyword and the name of an operation are always read back. -/
theorem rereads_fullOperation {op found : Operation} {rest' : List Char} {R : Prop}
    (h : op.WellFormed) (hshort : op.isShorthand = false)
    (htext : skip text = op.chars ++ rest)
    (htail : Rereads (operationTail op.kind op.name) (variableChars op.declared ++
      (directiveChars op.directives ++ ' ' :: (setChars 0 op.selections ++ rest))) found rest' R) :
    Rereads (orElse fullOperation shorthand) text found rest' R := by
  have hne := h.selections.nonempty
  have hclose := closesHead_setChars hne 0 rest
  have hbrace : (skip text).head? ≠ some '\x7b' := by
    rw [htext, h.head?_chars, hshort]
    cases op.kind <;> simp [OperationKind.initial]
  rw [op.chars_append hshort] at htext
  have hname : Reads (optional Parser.name) (op.name.elim [] nameChars ++
      (variableChars op.declared ++ (directiveChars op.directives ++
        ' ' :: (setChars 0 op.selections ++ rest)))) op.name (variableChars op.declared ++
      (directiveChars op.directives ++ ' ' :: (setChars 0 op.selections ++ rest))) := by
    cases hname : op.name with
    | none => exact (refuses_name (isNameStart_variables hne)).optional
    | some name =>
        refine (reads_spaced_name (h.name name hname) ?_).optional
        cases op.declared with
        | nil => exact (hclose.endsArguments_directives op.directives).1
        | cons v vars => exact endsName_of_head rfl _
  have hfull : Rereads fullOperation text found rest' R :=
    (reads_operationKind htext).rereads_bind (hname.rereads_bind htail)
  exact hfull.orElse (refuses_shorthand hbrace).rereads

theorem refuses_fullOperation_of_shorthand {op : Operation} (h : op.WellFormed)
    (hshort : op.isShorthand = true) (htext : skip text = op.chars ++ rest) :
    Refuses fullOperation text := by
  refine (refuses_operationKind fun kind => ?_).bind _
  rw [htext, h.head?_chars, hshort]
  cases kind <;> simp [OperationKind.initial]

theorem rereads_operation {op : Operation} (h : op.WellFormed)
    (htext : skip text = op.chars ++ rest) :
    Rereads (orElse fullOperation shorthand) text op rest op.Legible := by
  cases hshort : op.isShorthand with
  | false => exact rereads_fullOperation h hshort htext (rereads_operationTail h)
  | true =>
      have hrefuses := refuses_fullOperation_of_shorthand h hshort htext
      rw [op.chars_of_isShorthand hshort] at htext
      have hset : Rereads shorthand text ⟨.query, none, [], [], op.selections⟩ rest
          op.selections.Legible :=
        (rereads_outermostSet h.selections htext).bind_pure fun _ heq =>
          (Operation.mk.inj heq).2.2.2.2
      rw [← Operation.isShorthand_iff.1 hshort] at hset
      refine (hrefuses.orElse_rereads hset).congr ⟨fun hl => ?_, fun hl => hl.selections⟩
      rw [Operation.isShorthand_iff.1 hshort]
      exact ⟨by simp, by simp, hl⟩

/-- No operation of another name is read. -/
theorem never_operation {op found : Operation} {rest' : List Char} (h : op.WellFormed)
    (htext : skip text = op.chars ++ rest) (hname : found.name ≠ op.name) :
    Rereads (orElse fullOperation shorthand) text found rest' False := by
  cases hshort : op.isShorthand with
  | false =>
      exact rereads_fullOperation h hshort htext ((ensures_operationTail _ _).rereads hname)
  | true =>
      rw [Operation.isShorthand_iff.1 hshort] at hname
      exact (refuses_fullOperation_of_shorthand h hshort htext).orElse_rereads
        (ensures_shorthand_name.rereads hname)

theorem refuses_operation (h : ∀ c ∈ ['q', 'm', 's', '\x7b'], (skip text).head? ≠ some c) :
    Refuses (orElse fullOperation shorthand) text := by
  have hfull : Refuses fullOperation text := by
    refine (refuses_operationKind fun kind => h _ ?_).bind _
    cases kind <;> simp [OperationKind.initial]
  exact hfull.orElse_refuses (refuses_shorthand (h _ (by simp)))

/-! ### Fragments -/

/-- What is read of a fragment after its name. -/
def fragmentTail (name : String) : Parser Fragment := do
  let typeCondition ← condition
  let ds ← directives
  let selections ← outermostSet
  return ⟨name, typeCondition, ds, selections⟩

theorem ensures_fragmentTail (name : String) :
    Ensures (fragmentTail name) fun f => f.name = name :=
  ensures_condition.bind fun _ => ensures_directives.bind fun _ =>
    ensures_outermostSet.bind fun _ => ensures_pure fun _ _ _ => rfl

theorem rereads_fragmentTail {f : Fragment} (h : f.WellFormed) :
    Rereads (fragmentTail f.name) (conditionChars f.condition ++ (directiveChars f.directives ++
      ' ' :: (setChars 0 f.selections ++ rest))) f rest f.Legible := by
  have hne := h.selections.nonempty
  have hclose := closesHead_setChars hne 0 rest
  have hcondition := reads_condition (skip_conditionChars f.condition
    (directiveChars f.directives ++ ' ' :: (setChars 0 f.selections ++ rest)))
    h.condition (hclose.endsArguments_directives _).1
  have htext : skip (' ' :: (setChars 0 f.selections ++ rest)) =
      setChars 0 f.selections ++ rest := by rw [skip_space, skip_setChars hne]
  have hselections := (rereads_outermostSet h.selections htext).bind_pure
      (f := fun set => (⟨f.name, f.condition, f.directives, set⟩ : Fragment))
      fun _ heq => (Fragment.mk.inj heq).2.2.2
  have hshowsDirectives : ∀ ds, Ensures (do
      let selections ← outermostSet
      return (⟨f.name, f.condition, ds, selections⟩ : Fragment)) fun found =>
        found = f → ds = f.directives := fun _ =>
    ensures_outermostSet.bind fun _ => ensures_pure fun _ heq => by rw [← heq]
  exact hcondition.rereads_bind <| ((rereads_directives h.directives hclose).bind hshowsDirectives
    hselections).congr
    ⟨fun hl => ⟨hl.1, hl.2⟩, fun hl => ⟨hl.directives, hl.selections⟩⟩

/-- The name of a fragment is always read back. -/
theorem rereads_fragment {f found : Fragment} {rest' : List Char} {R : Prop} (h : f.WellFormed)
    (htext : skip text = f.chars ++ rest)
    (htail : Rereads (fragmentTail f.name) (conditionChars f.condition ++
      (directiveChars f.directives ++ ' ' :: (setChars 0 f.selections ++ rest))) found rest' R) :
    Rereads Parser.fragment text found rest' R := by
  rw [f.chars_append] at htext
  have hkeyword : Reads (token "fragment") text () (' ' :: (f.name.toList ++
      (conditionChars f.condition ++ (directiveChars f.directives ++
        ' ' :: (setChars 0 f.selections ++ rest))))) := reads_token htext
  exact hkeyword.rereads_bind <|
    (reads_spaced_name h.name (endsName_of_head rfl _)).rereads_bind htail

end Parser

/-! ### Definitions -/

/-- The name of a definition. Operations and fragments are named apart. -/
def Definition.key : Definition → Option String ⊕ String
  | .operation op => .inl op.name
  | .fragment f => .inr f.name

namespace Parser

variable {text rest : List Char}

theorem ensures_operation_form {p : Parser Operation} {P : Operation → Prop} (h : Ensures p P) :
    Ensures (Definition.operation <$> p) fun found => ∃ op, found = .operation op :=
  h.map fun op _ => ⟨op, rfl⟩

theorem ensures_fragment_form :
    Ensures (Definition.fragment <$> fragment) fun found => ∃ f, found = .fragment f :=
  ensures_fragment.map fun f _ => ⟨f, rfl⟩

theorem refuses_fragment_of_operation {op : Operation} (h : op.WellFormed)
    (htext : skip text = op.chars ++ rest) : Refuses fragment text := by
  refine (refuses_token_of_head (c := 'f') rfl ?_).bind _
  rw [htext, h.head?_chars]
  split
  · decide
  · cases op.kind <;> decide

theorem refuses_operation_of_fragment {f : Fragment} (htext : skip text = f.chars ++ rest) :
    Refuses (orElse fullOperation shorthand) text := by
  refine refuses_operation fun c hc => ?_
  rw [htext, f.head?_chars]
  rintro ⟨rfl⟩
  revert hc
  decide

theorem rereads_definition {definition : Definition} (h : definition.WellFormed)
    (htext : skip text = definition.chars ++ rest) :
    Rereads Parser.definition text definition rest definition.Legible := by
  cases h with
  | operation hop =>
      have hoperation := (rereads_operation hop htext).map fun _ _ => Definition.operation.inj
      exact hoperation.orElse ((refuses_fragment_of_operation hop htext).map _).rereads
  | fragment hf =>
      have hfragment := (rereads_fragment hf htext (rereads_fragmentTail hf)).map fun _ _ =>
        Definition.fragment.inj
      exact ((refuses_operation_of_fragment htext).map _).orElse_rereads hfragment

/-- A definition is never read under another name. -/
theorem never_definition {definition found : Definition} {rest' : List Char}
    (h : definition.WellFormed) (htext : skip text = definition.chars ++ rest)
    (hkey : found.key ≠ definition.key) :
    Rereads Parser.definition text found rest' False := by
  have hforms := ensures_fullOperation.orElse ensures_shorthand
  cases h with
  | operation hop =>
      have hrefuses := (refuses_fragment_of_operation hop htext).map Definition.fragment
      refine Rereads.orElse ?_ hrefuses.rereads
      cases found with
      | fragment f => exact (ensures_operation_form hforms).rereads (by simp)
      | operation other =>
          refine (never_operation hop htext fun hname => hkey ?_).map fun _ _ =>
            Definition.operation.inj
          exact congrArg Sum.inl hname
  | fragment hf =>
      refine ((refuses_operation_of_fragment htext).map _).orElse_rereads ?_
      cases found with
      | operation op => exact ensures_fragment_form.rereads (by simp)
      | fragment other =>
          refine (rereads_fragment hf htext ((ensures_fragmentTail _).rereads fun hname =>
            hkey ?_)).map fun _ _ => Definition.fragment.inj
          exact congrArg Sum.inr hname

theorem respells_definition {definition : Definition} (h : definition.WellFormed) :
    Respells Parser.definition (fun _ => True) definition.chars definition definition.Legible := by
  refine ⟨?_, fun htext _ => rereads_definition h htext⟩
  have hchars : ∀ {c : Char} {chars : List Char}, (chars ++ []).head? = some c →
      isSolid c = true → ∃ c cs, chars = c :: cs ∧ isSolid c = true := by
    intro c chars hhead hc
    rw [List.append_nil] at hhead
    obtain ⟨cs, heq⟩ := List.head?_eq_some_iff.1 hhead
    exact ⟨c, cs, heq, hc⟩
  cases h with
  | @operation op hop =>
      refine hchars (hop.head?_chars []) ?_
      split
      · rfl
      · cases op.kind <;> rfl
  | @fragment f _ => exact hchars (f.head?_chars []) rfl

theorem refuses_definition_of_end (h : skip text = []) : Refuses definition text := by
  have hfragment : Refuses Parser.fragment text :=
    (refuses_token_of_head rfl (by simp [h])).bind _
  exact ((refuses_operation (by simp [h])).map _).orElse_refuses (hfragment.map _)

theorem skip_paragraphs {definitions : List Definition} (hne : definitions ≠ [])
    (h : ∀ definition ∈ definitions, definition.WellFormed) :
    skip (paragraphs (definitions.map Definition.chars)) =
      paragraphs (definitions.map Definition.chars) := by
  obtain ⟨first, others, rfl⟩ := List.exists_cons_of_ne_nil hne
  have hrespells := respells_definition (h first List.mem_cons_self)
  cases others with
  | nil =>
      have hskip := hrespells.skip []
      rw [List.append_nil] at hskip
      exact hskip
  | cons => exact hrespells.skip _

/-- The text after the first definition. -/
theorem exists_paragraphs_append (first : Definition) {others : List Definition}
    (h : ∀ definition ∈ others, definition.WellFormed) :
    ∃ rest, paragraphs ((first :: others).map Definition.chars) = first.chars ++ rest ∧
      skip rest = paragraphs (others.map Definition.chars) := by
  cases others with
  | nil => exact ⟨[], (List.append_nil _).symm, rfl⟩
  | cons next others =>
      refine ⟨_, paragraphs_cons_cons .., ?_⟩
      rw [skip_newline, skip_newline]
      exact skip_paragraphs (by simp) h

/-- Legible definitions are read from their paragraphs. -/
theorem readsAll_paragraphs {definitions : List Definition}
    (h : ∀ definition ∈ definitions, definition.WellFormed)
    (hl : ∀ definition ∈ definitions, definition.Legible)
    (htext : skip text = paragraphs (definitions.map Definition.chars)) :
    ∃ rest, ReadsAll definition text definitions rest ∧ skip rest = [] := by
  induction definitions generalizing text with
  | nil => exact ⟨text, .nil (refuses_definition_of_end htext), htext⟩
  | cons first others ih =>
      obtain ⟨hfirst, hothers⟩ := List.forall_mem_cons.1 h
      obtain ⟨hlfirst, hlothers⟩ := List.forall_mem_cons.1 hl
      obtain ⟨rest, heq, hrest⟩ := exists_paragraphs_append first hothers
      rw [heq] at htext
      obtain ⟨rest', hall, hend⟩ := ih hothers hlothers hrest
      exact ⟨rest', .cons ((rereads_definition hfirst htext).reads hlfirst)
        ((respells_definition hfirst).length_lt htext) hall, hend⟩

/-- If as many definitions as were written are read, and none under the name of another one,
then each of them was read back. -/
theorem legible_of_manyWithin {definitions found : List Definition} {fuel : Nat} {next : Cursor}
    (h : ∀ definition ∈ definitions, definition.WellFormed)
    (hkeys : ∀ a ∈ definitions, ∀ b ∈ found, b.key = a.key → b = a)
    (hlength : found.length = definitions.length)
    (htext : skip text = paragraphs (definitions.map Definition.chars))
    (hread : manyWithin definition fuel ⟨text, none⟩ = (found, next))
    (hfault : next.fault = none) : ∀ definition ∈ definitions, definition.Legible := by
  induction definitions generalizing text found fuel with
  | nil => simp
  | cons first others ih =>
      obtain ⟨hfirst, hothers⟩ := List.forall_mem_cons.1 h
      obtain ⟨rest, heq, hrest⟩ := exists_paragraphs_append first hothers
      obtain ⟨x, xs, rfl⟩ := List.exists_cons_of_length_eq_add_one hlength
      obtain ⟨fuel, middle, hx, hxs⟩ := exists_of_manyWithin_cons hread
      have hmiddle := (ensures_definition.manyWithin fuel middle (by rw [hxs]; exact hfault)).1
      rw [heq] at htext
      have hkey : x.key = first.key := by
        by_contra hne
        have hnever : Rereads definition text x [] False := never_definition hfirst htext hne
        exact (hnever.recovers middle hx hmiddle).1
      obtain rfl : x = first :=
        hkeys first List.mem_cons_self x List.mem_cons_self hkey
      obtain ⟨hl, hnext⟩ := (rereads_definition hfirst htext).recovers middle hx hmiddle
      obtain ⟨_, _⟩ := middle
      cases hmiddle
      cases hnext
      refine List.forall_mem_cons.2 ⟨hl, ih hothers (fun a ha b hb => ?_) (by simpa using hlength)
        hrest hxs⟩
      exact hkeys a (List.mem_cons_of_mem _ ha) b (List.mem_cons_of_mem _ hb)

end Parser

end QueryCache
