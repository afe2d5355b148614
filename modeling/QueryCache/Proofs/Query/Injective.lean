import QueryCache.Proofs.Query.Unambiguous

/-!
# Documents are told apart by their texts

Operations, fragments and whole documents that were read have the same text only if they are
the same: `Document.text_injective`. Where other text stands behind a document, it must not
begin with the empty line that another definition begins with.
-/

namespace QueryCache

open QueryCache.Parser

variable {rest rest' : List Char}

/-! ### Variables -/

namespace VariableDefinition

/-- The declaration of a variable ends before this text. -/
def Ends (rest : List Char) : Prop := rest.head? = some ',' ∨ rest.head? = some ')'

theorem Ends.endsHead (h : Ends rest) : EndsHead rest := by
  cases rest with
  | nil => simp [Ends] at h
  | cons c rest =>
      have hc : c = ',' ∨ c = ')' := by simpa [Ends] using h
      rcases hc with rfl | rfl <;>
        exact ⟨⟨endsName_of_head rfl _, by simp⟩, by simp [StartsDirective], by simp⟩

/-- A part of a declaration ends before this text. -/
def EndsPart (rest : List Char) : Prop := ∃ c others, rest = c :: others ∧ c ∈ [' ', ',', ')']

theorem EndsPart.type (h : EndsPart rest) : EndsType rest := by
  obtain ⟨c, others, rfl, hc⟩ := h
  rintro _ ⟨rfl⟩
  obtain rfl | rfl | rfl : c = ' ' ∨ c = ',' ∨ c = ')' := by simpa using hc
  · decide
  · decide
  · decide

theorem EndsPart.literal (h : EndsPart rest) : EndsLiteral rest := by
  obtain ⟨c, others, rfl, hc⟩ := h
  rintro _ ⟨rfl⟩
  obtain rfl | rfl | rfl : c = ' ' ∨ c = ',' ∨ c = ')' := by simpa using hc
  · decide
  · decide
  · decide

theorem Ends.endsPart (h : Ends rest) (ds : List Directive) :
    EndsPart (directiveChars ds ++ rest) := by
  cases ds with
  | cons directive ds => exact ⟨' ', _, rfl, by simp⟩
  | nil =>
      rcases h with h | h <;> obtain ⟨others, rfl⟩ := List.head?_eq_some_iff.1 h
      · exact ⟨',', others, rfl, by simp⟩
      · exact ⟨')', others, rfl, by simp⟩

theorem EndsPart.default (h : EndsPart rest) (default : Option String) :
    EndsPart (default.elim [] defaultChars ++ rest) := by
  cases default with
  | none => exact h
  | some value => exact ⟨' ', _, rfl, by simp⟩

/-- A default value starts here. -/
def StartsDefault (text : List Char) : Prop := [' ', '='] <+: text

theorem Ends.not_startsDefault (h : Ends rest) (ds : List Directive) :
    ¬ StartsDefault (directiveChars ds ++ rest) := by
  cases ds with
  | cons directive ds => simp [StartsDefault, directiveChars, Directive.chars]
  | nil =>
      rcases h with h | h <;> obtain ⟨others, rfl⟩ := List.head?_eq_some_iff.1 h <;>
        simp [StartsDefault, directiveChars]

theorem unambiguous_default :
    Unambiguous (fun o : Option String => ∀ value ∈ o, IsValue false value)
      (fun o => o.elim [] defaultChars) fun rest => EndsLiteral rest ∧ ¬ StartsDefault rest := by
  have hvalue : Unambiguous (IsValue false) defaultChars EndsLiteral := by
    intro a b rest rest' ha hb hrest hrest' heq
    simp only [defaultChars, List.cons_append, List.cons.injEq, true_and] at heq
    exact unambiguous_value false ha hb hrest hrest' heq
  exact hvalue.option fun _ _ => ⟨_, rfl⟩

theorem unambiguous : Unambiguous WellFormed chars Ends := by
  rintro ⟨name, type, default, ds⟩ ⟨name', type', default', ds'⟩ rest rest'
    ⟨hname, htype, hdefault, hds⟩ ⟨hname', htype', hdefault', hds'⟩ hrest hrest' heq
  rw [chars_append, chars_append] at heq
  have hpart := hrest.endsPart ds
  have hpart' := hrest'.endsPart ds'
  obtain ⟨rfl, hafterName⟩ := unambiguous_name hname hname' (endsName_of_head rfl _)
    (endsName_of_head rfl _) (List.cons.inj heq).2
  obtain ⟨rfl, hafterType⟩ := unambiguous_type htype htype' (hpart.default default).type
    (hpart'.default default').type (List.cons.inj (List.cons.inj hafterName).2).2
  obtain ⟨rfl, hafterDefault⟩ := unambiguous_default hdefault hdefault'
    ⟨hpart.literal, hrest.not_startsDefault ds⟩ ⟨hpart'.literal, hrest'.not_startsDefault ds'⟩
    hafterType
  obtain ⟨rfl, hsame⟩ := unambiguous_directives hds hds' hrest.endsHead.directives
    hrest'.endsHead.directives hafterDefault
  exact ⟨rfl, hsame⟩

theorem unambiguous_variables :
    Unambiguous (fun vars => ∀ v ∈ vars, WellFormed v) variableChars
      fun rest => rest.head? ≠ some '(' := by
  intro vars vars' rest rest' hvars hvars' hrest hrest' heq
  rw [variableChars_eq, variableChars_eq] at heq
  exact unambiguous.parenthesized (fun _ => .inl rfl) (fun _ => .inr rfl) hvars hvars' hrest hrest'
    heq

end VariableDefinition

/-! ### Definitions -/

namespace SelectionSet

variable {set set' : SelectionSet} {level depth : Nat} {ds ds' : List Directive}

theorem endsHead_set (h : set ≠ []) : EndsHead (' ' :: (setChars depth set ++ rest)) := by
  rw [setChars_append h]
  exact endsHead_brace _

theorem chars_append_inj (h : set.WellFormed level) (h' : set'.WellFormed level)
    (heq : setChars depth set ++ rest = setChars depth set' ++ rest') :
    set = set' ∧ rest = rest' :=
  Selection.lines_append_inj h.items h'.items
    (Selection.lines_eq_of_setChars h.nonempty h'.nonempty heq)

/-- Directives and the selections behind them are told apart. -/
theorem directives_append_inj (hds : ∀ directive ∈ ds, directive.WellFormed)
    (hds' : ∀ directive ∈ ds', directive.WellFormed) (h : set.WellFormed level)
    (h' : set'.WellFormed level)
    (heq : directiveChars ds ++ ' ' :: (setChars depth set ++ rest) =
      directiveChars ds' ++ ' ' :: (setChars depth set' ++ rest')) :
    ds = ds' ∧ set = set' ∧ rest = rest' := by
  obtain ⟨rfl, hset⟩ := unambiguous_directives hds hds' (endsHead_set h.nonempty).directives
    (endsHead_set h'.nonempty).directives heq
  exact ⟨rfl, chars_append_inj h h' (List.cons.inj hset).2⟩

end SelectionSet

namespace Operation

/-- The name of an operation starts here. -/
def StartsName (text : List Char) : Prop := ∃ c rest, text = ' ' :: c :: rest ∧ isNameStart c = true

theorem unambiguous_name :
    Unambiguous (fun o : Option String => ∀ name ∈ o, IsName name)
      (fun o => o.elim [] nameChars) fun rest => EndsName rest ∧ ¬ StartsName rest := by
  have hname : Unambiguous IsName nameChars EndsName := by
    intro a b rest rest' ha hb hrest hrest' heq
    simp only [nameChars, List.cons_append, List.cons.injEq, true_and] at heq
    exact Parser.unambiguous_name ha hb hrest hrest' heq
  refine hname.option fun {name} h rest => ?_
  obtain ⟨c, cs, heq, hc, -⟩ := h
  exact ⟨c, cs ++ rest, by rw [nameChars, heq]; rfl, hc⟩

/-- What comes after the name of an operation. -/
theorem endsName_variables (vars : List VariableDefinition) (ds : List Directive)
    {set : SelectionSet} (h : set ≠ []) :
    EndsName (variableChars vars ++ (directiveChars ds ++ ' ' :: (setChars 0 set ++ rest))) ∧
      ¬ StartsName (variableChars vars ++
        (directiveChars ds ++ ' ' :: (setChars 0 set ++ rest))) := by
  cases vars with
  | cons v vars =>
      refine ⟨endsName_of_head rfl _, ?_⟩
      rintro ⟨c, others, heq, -⟩
      cases heq
  | nil =>
      refine ⟨((SelectionSet.endsHead_set h).directive.directiveChars ds).1, ?_⟩
      rintro ⟨c, others, heq, hc⟩
      cases ds with
      | cons directive ds =>
          cases heq
          cases hc
      | nil =>
          rw [setChars_append h] at heq
          cases heq
          cases hc

theorem keyword_append_inj {kind kind' : OperationKind}
    (heq : kind.keyword.toList ++ rest = kind'.keyword.toList ++ rest') :
    kind = kind' ∧ rest = rest' := by
  have hfirst : kind.initial = kind'.initial := by
    obtain ⟨cs, hcs⟩ := kind.keyword_eq_cons
    obtain ⟨cs', hcs'⟩ := kind'.keyword_eq_cons
    rw [hcs, hcs'] at heq
    exact (List.cons.inj heq).1
  have hkind : kind = kind' := by
    cases kind <;> cases kind' <;> first | rfl | cases hfirst
  exact ⟨hkind, List.append_cancel_left (hkind ▸ heq)⟩

theorem initial_ne (kind : OperationKind) : kind.initial ≠ '\x7b' ∧ kind.initial ≠ 'f' := by
  cases kind <;> decide

theorem chars_append_inj {a b : Operation} (ha : a.WellFormed) (hb : b.WellFormed)
    (heq : a.chars ++ rest = b.chars ++ rest') : a = b ∧ rest = rest' := by
  have hhead : a.isShorthand = true ↔ b.isShorthand = true := by
    have hinitial := (ha.head?_chars rest).symm.trans
      ((congrArg List.head? heq).trans (hb.head?_chars rest'))
    cases hshort : a.isShorthand <;> cases hshort' : b.isShorthand <;>
      simp [hshort, hshort', (initial_ne _).1, (initial_ne _).1.symm] at hinitial ⊢
  cases hshort : a.isShorthand with
  | true =>
      have hshort' := hhead.1 hshort
      rw [chars_of_isShorthand hshort, chars_of_isShorthand hshort'] at heq
      obtain ⟨hset, hsame⟩ := SelectionSet.chars_append_inj ha.selections hb.selections heq
      rw [isShorthand_iff.1 hshort, isShorthand_iff.1 hshort', hset]
      exact ⟨rfl, hsame⟩
  | false =>
      have hshort' : b.isShorthand = false := by simpa [hshort] using hhead.symm
      rw [chars_append hshort, chars_append hshort'] at heq
      obtain ⟨kind, name, vars, ds, set⟩ := a
      obtain ⟨kind', name', vars', ds', set'⟩ := b
      obtain ⟨rfl, hafterKind⟩ := keyword_append_inj heq
      obtain ⟨rfl, hafterName⟩ := unambiguous_name ha.name hb.name
        (endsName_variables vars ds ha.selections.nonempty)
        (endsName_variables vars' ds' hb.selections.nonempty) hafterKind
      obtain ⟨rfl, hafterVariables⟩ := VariableDefinition.unambiguous_variables ha.declared
        hb.declared
        ((SelectionSet.endsHead_set ha.selections.nonempty).directive.directiveChars ds).2
        ((SelectionSet.endsHead_set hb.selections.nonempty).directive.directiveChars ds').2
        hafterName
      obtain ⟨rfl, rfl, hsame⟩ := SelectionSet.directives_append_inj ha.directives hb.directives
        ha.selections hb.selections hafterVariables
      exact ⟨rfl, hsame⟩

end Operation

namespace Fragment

theorem chars_append_inj {a b : Fragment} (ha : a.WellFormed) (hb : b.WellFormed)
    (heq : a.chars ++ rest = b.chars ++ rest') : a = b ∧ rest = rest' := by
  rw [chars_append, chars_append] at heq
  obtain ⟨name, condition, ds, set⟩ := a
  obtain ⟨name', condition', ds', set'⟩ := b
  obtain ⟨rfl, hafterName⟩ := unambiguous_name ha.name hb.name (endsName_of_head rfl _)
    (endsName_of_head rfl _) (List.append_cancel_left heq)
  obtain ⟨rfl, hafterCondition⟩ := unambiguous_conditionChars ha.condition hb.condition
    ((SelectionSet.endsHead_set ha.selections.nonempty).directive.directiveChars ds).1
    ((SelectionSet.endsHead_set hb.selections.nonempty).directive.directiveChars ds').1
    hafterName
  obtain ⟨rfl, rfl, hsame⟩ := SelectionSet.directives_append_inj ha.directives hb.directives
    ha.selections hb.selections hafterCondition
  exact ⟨rfl, hsame⟩

end Fragment

namespace Definition

theorem operation_ne_fragment {op : Operation} (h : op.WellFormed) (fragment : Fragment) :
    op.chars ++ rest ≠ fragment.chars ++ rest' := by
  intro heq
  have hhead := (h.head?_chars rest).symm.trans
    ((congrArg List.head? heq).trans (fragment.head?_chars rest'))
  cases hshort : op.isShorthand <;> simp [hshort, (Operation.initial_ne _).2] at hhead

theorem unambiguous : Unambiguous WellFormed chars fun _ => True := by
  rintro a b rest rest' ha hb - - heq
  cases ha with
  | @operation op hop =>
      cases hb with
      | operation hop' =>
          obtain ⟨rfl, hsame⟩ := Operation.chars_append_inj hop hop' heq
          exact ⟨rfl, hsame⟩
      | @fragment f hf => exact absurd heq (operation_ne_fragment hop f)
  | @fragment f hf =>
      cases hb with
      | operation hop' => exact absurd heq.symm (operation_ne_fragment hop' f)
      | fragment hf' =>
          obtain ⟨rfl, hsame⟩ := Fragment.chars_append_inj hf hf' heq
          exact ⟨rfl, hsame⟩

/-- Paragraphs are told apart if what follows does not go on like another paragraph. -/
theorem paragraphs_append_inj {as bs : List Definition} (hne : as ≠ []) (hne' : bs ≠ [])
    (has : ∀ definition ∈ as, definition.WellFormed)
    (hbs : ∀ definition ∈ bs, definition.WellFormed) (hrest : ¬ ['\n', '\n'] <+: rest)
    (hrest' : ¬ ['\n', '\n'] <+: rest')
    (heq : paragraphs (as.map chars) ++ rest = paragraphs (bs.map chars) ++ rest') :
    as = bs ∧ rest = rest' := by
  induction as generalizing bs with
  | nil => exact absurd rfl hne
  | cons a as ih =>
      obtain ⟨b, bs, rfl⟩ := List.exists_cons_of_ne_nil hne'
      obtain ⟨ha, htail⟩ := List.forall_mem_cons.1 has
      obtain ⟨hb, htail'⟩ := List.forall_mem_cons.1 hbs
      cases as with
      | nil =>
          cases bs with
          | nil =>
              obtain ⟨rfl, hsame⟩ := unambiguous ha hb trivial trivial heq
              exact ⟨rfl, hsame⟩
          | cons next bs =>
              rw [List.map_cons, List.map_cons, List.map_cons, paragraphs_cons_cons,
                List.append_assoc] at heq
              obtain ⟨-, hsame⟩ := unambiguous ha hb trivial trivial heq
              exact absurd ⟨_, hsame.symm⟩ hrest
      | cons next as =>
          rw [List.map_cons, List.map_cons, paragraphs_cons_cons, List.append_assoc] at heq
          cases bs with
          | nil =>
              obtain ⟨-, hsame⟩ := unambiguous ha hb trivial trivial heq
              exact absurd ⟨_, hsame⟩ hrest'
          | cons next' bs =>
              rw [List.map_cons, List.map_cons, paragraphs_cons_cons, List.append_assoc] at heq
              obtain ⟨rfl, hsame⟩ := unambiguous ha hb trivial trivial heq
              obtain ⟨hothers, hrest⟩ := ih (by simp) (by simp) htail htail'
                (List.cons.inj (List.cons.inj hsame).2).2
              exact ⟨congrArg _ hothers, hrest⟩

end Definition

namespace Document

variable {d d' : Document}

/-- Two documents are told apart by their texts, whatever stands behind them, as long as it
does not go on like another definition. -/
theorem chars_append_inj (h : d.WellFormed) (h' : d'.WellFormed) (hrest : ¬ ['\n', '\n'] <+: rest)
    (hrest' : ¬ ['\n', '\n'] <+: rest') (heq : d.chars ++ rest = d'.chars ++ rest') :
    d = d' ∧ rest = rest' := by
  rw [chars_eq, chars_eq] at heq
  obtain ⟨hdefinitions, hsame⟩ := Definition.paragraphs_append_inj h.definitions_ne_nil
    h'.definitions_ne_nil h.definition h'.definition hrest hrest' heq
  exact ⟨definitions_injective hdefinitions, hsame⟩

/-- Documents with one text are the same. -/
theorem text_injective (h : d.WellFormed) (h' : d'.WellFormed) (heq : d.text = d'.text) :
    d = d' := by
  have hchars : d.chars ++ [] = d'.chars ++ [] := by
    rw [List.append_nil, List.append_nil]
    exact String.ofList_injective heq
  exact (chars_append_inj h h' (by simp) (by simp) hchars).1

end Document

end QueryCache
