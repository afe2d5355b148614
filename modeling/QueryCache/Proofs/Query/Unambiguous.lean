import QueryCache.Proofs.Query.Printed
import QueryCache.Proofs.Query.WellFormed

/-!
# Written documents are told apart

The printed forms of two well-formed constructs are never the same, and neither is the
beginning of the other as long as what follows cannot belong to them:
`Parser.Unambiguous`. Printed forms that a reader would misread are told apart as well,
since nothing here depends on what is read.
-/

namespace QueryCache

namespace Parser

variable {α β : Type}

/-- From the printed form of such a value and what follows it, both can be told. -/
def Unambiguous (P : α → Prop) (chars : α → List Char) (follow : List Char → Prop) : Prop :=
  ∀ ⦃x y rest rest'⦄, P x → P y → follow rest → follow rest' →
    chars x ++ rest = chars y ++ rest' → x = y ∧ rest = rest'

variable {P : α → Prop} {chars : α → List Char} {follow starts : List Char → Prop}

theorem unambiguous_name : Unambiguous IsName String.toList EndsName := by
  intro a b rest rest' ha hb hrest hrest' heq
  have hread := readName?_append ha hrest
  rw [heq, readName?_append hb hrest'] at hread
  simpa [eq_comm] using hread

theorem unambiguous_type :
    Unambiguous (fun type => TypeText type.toList) String.toList EndsType := by
  intro a b rest rest' ha hb hrest hrest' heq
  have hread := readType?_append ha (Nat.le_max_left _ b.toList.length) hrest
  rw [heq, readType?_append hb (Nat.le_max_right _ _) hrest'] at hread
  simpa [eq_comm, String.toList_inj] using hread

theorem unambiguous_value (withVariables : Bool) :
    Unambiguous (IsValue withVariables) String.toList EndsLiteral :=
  fun _ _ _ _ ha hb hrest hrest' heq => ha.append_inj hb hrest hrest' heq

/-- A part that may be left out can be told if what follows does not start like it. -/
theorem Unambiguous.option (h : Unambiguous P chars follow)
    (hstarts : ∀ {x}, P x → ∀ rest, starts (chars x ++ rest)) :
    Unambiguous (fun o : Option α => ∀ x ∈ o, P x) (fun o => o.elim [] chars)
      fun rest => follow rest ∧ ¬ starts rest := by
  intro o o' rest rest' ho ho' hrest hrest' heq
  dsimp only at heq
  cases o with
  | none =>
      cases o' with
      | none => exact ⟨rfl, heq⟩
      | some y =>
          have hrest' : rest = chars y ++ rest' := heq
          exact absurd (hrest' ▸ hstarts (ho' y rfl) rest') hrest.2
  | some x =>
      cases o' with
      | none =>
          have hrest : chars x ++ rest = rest' := heq
          exact absurd (hrest ▸ hstarts (ho x rfl) rest) hrest'.2
      | some y =>
          obtain ⟨rfl, hsame⟩ := h (ho x rfl) (ho' y rfl) hrest.1 hrest'.1 heq
          exact ⟨rfl, hsame⟩

/-- Parts that stand one after the other can be told if what follows does not start like
one of them. -/
theorem Unambiguous.flatMap (h : Unambiguous P chars follow)
    (hstarts : ∀ {x}, P x → ∀ rest, starts (chars x ++ rest))
    (hfollow : ∀ {rest}, starts rest → follow rest) :
    Unambiguous (fun xs : List α => ∀ x ∈ xs, P x) (List.flatMap chars)
      fun rest => follow rest ∧ ¬ starts rest := by
  have hends : ∀ {xs : List α} {rest}, (∀ x ∈ xs, P x) → follow rest →
      follow (xs.flatMap chars ++ rest) := by
    intro xs rest hxs hrest
    cases xs with
    | nil => exact hrest
    | cons x xs =>
        rw [List.flatMap_cons, List.append_assoc]
        exact hfollow (hstarts (hxs x List.mem_cons_self) _)
  intro xs ys rest rest' hxs hys hrest hrest' heq
  induction xs generalizing ys with
  | nil =>
      cases ys with
      | nil => exact ⟨rfl, heq⟩
      | cons y ys =>
          rw [List.flatMap_nil, List.nil_append, List.flatMap_cons, List.append_assoc] at heq
          exact absurd (heq ▸ hstarts (hys y List.mem_cons_self) _) hrest.2
  | cons x xs ih =>
      rw [List.flatMap_cons, List.append_assoc] at heq
      cases ys with
      | nil =>
          rw [List.flatMap_nil, List.nil_append] at heq
          exact absurd (heq ▸ hstarts (hxs x List.mem_cons_self) _) hrest'.2
      | cons y ys =>
          rw [List.flatMap_cons, List.append_assoc] at heq
          obtain ⟨hx, htail⟩ := List.forall_mem_cons.1 hxs
          obtain ⟨hy, htail'⟩ := List.forall_mem_cons.1 hys
          obtain ⟨rfl, hothers⟩ := h hx hy (hends htail hrest.1) (hends htail' hrest'.1) heq
          obtain ⟨hitems, hsame⟩ := ih htail htail' hothers
          exact ⟨congrArg _ hitems, hsame⟩

/-- Items with commas between them and a parenthesis behind them can be told. -/
theorem Unambiguous.commaSeparated (h : Unambiguous P chars follow)
    (hcomma : ∀ rest, follow (',' :: rest)) (hclosing : ∀ rest, follow (')' :: rest))
    {x y : α} {xs ys : List α} {rest rest' : List Char} (hx : P x) (hy : P y)
    (hxs : ∀ x ∈ xs, P x) (hys : ∀ y ∈ ys, P y)
    (heq : QueryCache.commaSeparated ((x :: xs).map chars) ++ ')' :: rest =
      QueryCache.commaSeparated ((y :: ys).map chars) ++ ')' :: rest') :
    x :: xs = y :: ys ∧ rest = rest' := by
  induction xs generalizing x y ys with
  | nil =>
      cases ys with
      | nil =>
          obtain ⟨rfl, hsame⟩ := h hx hy (hclosing rest) (hclosing rest') heq
          exact ⟨rfl, (List.cons.inj hsame).2⟩
      | cons z ys =>
          rw [List.map_cons, List.map_cons, List.map_cons, commaSeparated_cons_cons,
            List.append_assoc] at heq
          obtain ⟨-, hsame⟩ := h hx hy (hclosing rest) (hcomma _) heq
          cases hsame
  | cons w xs ih =>
      rw [List.map_cons, List.map_cons, commaSeparated_cons_cons, List.append_assoc] at heq
      cases ys with
      | nil =>
          obtain ⟨-, hsame⟩ := h hx hy (hcomma _) (hclosing rest') heq
          cases hsame
      | cons z ys =>
          rw [List.map_cons, List.map_cons, commaSeparated_cons_cons, List.append_assoc] at heq
          obtain ⟨rfl, hsame⟩ := h hx hy (hcomma _) (hcomma _) heq
          obtain ⟨hw, hxs⟩ := List.forall_mem_cons.1 hxs
          obtain ⟨hz, hys⟩ := List.forall_mem_cons.1 hys
          obtain ⟨hitems, hrest⟩ := ih hw hz hxs hys (List.cons.inj (List.cons.inj hsame).2).2
          exact ⟨congrArg _ hitems, hrest⟩

theorem Unambiguous.parenthesized (h : Unambiguous P chars follow)
    (hcomma : ∀ rest, follow (',' :: rest)) (hclosing : ∀ rest, follow (')' :: rest)) :
    Unambiguous (fun xs : List α => ∀ x ∈ xs, P x) (QueryCache.parenthesized chars)
      fun rest => rest.head? ≠ some '(' := by
  intro xs ys rest rest' hxs hys hrest hrest' heq
  cases xs with
  | nil =>
      cases ys with
      | nil => exact ⟨rfl, heq⟩
      | cons y ys => exact absurd (congrArg List.head? heq) hrest
  | cons x xs =>
      cases ys with
      | nil => exact absurd (congrArg List.head? heq).symm hrest'
      | cons y ys =>
          obtain ⟨hx, hxs⟩ := List.forall_mem_cons.1 hxs
          obtain ⟨hy, hys⟩ := List.forall_mem_cons.1 hys
          rw [parenthesized_cons_append, parenthesized_cons_append] at heq
          exact h.commaSeparated hcomma hclosing hx hy hxs hys (List.cons.inj heq).2

/-! ### Arguments and directives -/

theorem unambiguous_argument :
    Unambiguous Argument.WellFormed Argument.chars EndsLiteral := by
  rintro ⟨name, value⟩ ⟨name', value'⟩ rest rest' ⟨hname, hvalue⟩ ⟨hname', hvalue'⟩ hrest hrest'
    heq
  simp only [Argument.chars, List.append_assoc, List.cons_append] at heq
  obtain ⟨rfl, hafter⟩ := unambiguous_name hname hname' (endsName_of_head rfl _)
    (endsName_of_head rfl _) heq
  obtain ⟨rfl, hsame⟩ := unambiguous_value true hvalue hvalue' hrest hrest'
    (List.cons.inj (List.cons.inj hafter).2).2
  exact ⟨rfl, hsame⟩

theorem unambiguous_arguments :
    Unambiguous (fun args => ∀ arg ∈ args, Argument.WellFormed arg) argumentChars
      fun rest => rest.head? ≠ some '(' := by
  intro args args' rest rest' hargs hargs' hrest hrest' heq
  rw [argumentChars_eq, argumentChars_eq] at heq
  exact unambiguous_argument.parenthesized endsLiteral_comma endsLiteral_parenthesis hargs hargs'
    hrest hrest' heq

/-- A directive starts here. -/
def StartsDirective (text : List Char) : Prop := [' ', '@'] <+: text

/-- No directive goes on with this text. -/
def EndsDirective (rest : List Char) : Prop := EndsName rest ∧ rest.head? ≠ some '('

theorem endsName_argumentChars {rest : List Char} (h : EndsDirective rest)
    (args : List Argument) : EndsName (argumentChars args ++ rest) := by
  cases args with
  | nil => exact h.1
  | cons arg args => exact endsName_of_head rfl _

theorem unambiguous_directive :
    Unambiguous Directive.WellFormed Directive.chars EndsDirective := by
  rintro ⟨name, args⟩ ⟨name', args'⟩ rest rest' ⟨hname, hargs⟩ ⟨hname', hargs'⟩ hrest hrest' heq
  simp only [Directive.chars, List.append_assoc, List.cons_append, List.cons.injEq,
    true_and] at heq
  obtain ⟨rfl, hafter⟩ := unambiguous_name hname hname' (endsName_argumentChars hrest args)
    (endsName_argumentChars hrest' args') heq
  obtain ⟨rfl, hsame⟩ := unambiguous_arguments hargs hargs' hrest.2 hrest'.2 hafter
  exact ⟨rfl, hsame⟩

theorem StartsDirective.endsDirective {text : List Char} (h : StartsDirective text) :
    EndsDirective text := by
  obtain ⟨rest, rfl⟩ := h
  exact ⟨endsName_of_head rfl _, by simp⟩

theorem unambiguous_directives :
    Unambiguous (fun ds => ∀ directive ∈ ds, Directive.WellFormed directive) directiveChars
      fun rest => EndsDirective rest ∧ ¬ StartsDirective rest :=
  unambiguous_directive.flatMap (fun _ _ => ⟨_, rfl⟩) StartsDirective.endsDirective

theorem EndsDirective.directiveChars {rest : List Char} (h : EndsDirective rest)
    (ds : List Directive) : EndsDirective (directiveChars ds ++ rest) := by
  cases ds with
  | nil => exact h
  | cons directive ds => exact StartsDirective.endsDirective ⟨_, rfl⟩

/-! ### Heads of fields -/

/-- The head of a field ends before this text. -/
structure EndsHead (rest : List Char) : Prop where
  directive : EndsDirective rest
  noDirective : ¬ StartsDirective rest
  noColon : rest.head? ≠ some ':'

theorem EndsHead.directives {rest : List Char} (h : EndsHead rest) :
    EndsDirective rest ∧ ¬ StartsDirective rest := ⟨h.directive, h.noDirective⟩

theorem endsHead_newline (rest : List Char) : EndsHead ('\n' :: rest) :=
  ⟨⟨endsName_of_head rfl _, by simp⟩, by simp [StartsDirective], by simp⟩

theorem endsHead_brace (rest : List Char) : EndsHead (' ' :: '\x7b' :: rest) :=
  ⟨⟨endsName_of_head rfl _, by simp⟩, by simp [StartsDirective], by simp⟩

/-- An alias starts here. -/
def StartsAlias (text : List Char) : Prop :=
  ∃ name rest, IsName name ∧ text = name.toList ++ ':' :: rest

theorem unambiguous_alias :
    Unambiguous (fun o : Option String => ∀ name ∈ o, IsName name) (fun o => o.elim [] aliasChars)
      fun rest => ¬ StartsAlias rest := by
  have hname : Unambiguous IsName aliasChars fun _ => True := by
    intro a b rest rest' ha hb _ _ heq
    simp only [aliasChars, List.append_assoc, List.cons_append] at heq
    obtain ⟨rfl, hsame⟩ := unambiguous_name ha hb (endsName_of_head rfl _)
      (endsName_of_head rfl _) heq
    exact ⟨rfl, (List.cons.inj (List.cons.inj hsame).2).2⟩
  have hstarts : ∀ {name}, IsName name → ∀ rest, StartsAlias (aliasChars name ++ rest) :=
    fun {name} hname rest => ⟨name, ' ' :: rest, hname, by simp [aliasChars]⟩
  intro o o' rest rest' ho ho' hrest hrest' heq
  exact hname.option hstarts ho ho' ⟨trivial, hrest⟩ ⟨trivial, hrest'⟩ heq

/-- After the name of a field no colon follows, so the name is no alias. -/
theorem not_startsAlias {name : String} (hname : IsName name) {rest : List Char}
    (hrest : EndsHead rest) (args : List Argument) (ds : List Directive) :
    ¬ StartsAlias (name.toList ++ (argumentChars args ++ (directiveChars ds ++ rest))) := by
  rintro ⟨other, others, hother, heq⟩
  obtain ⟨-, hcolon⟩ := unambiguous_name hname hother
    (endsName_argumentChars (hrest.directive.directiveChars ds) args)
    (endsName_of_head rfl _) heq
  cases args with
  | cons arg args => cases hcolon
  | nil =>
      cases ds with
      | cons directive ds => cases hcolon
      | nil =>
          have hhead : rest = ':' :: others := hcolon
          exact hrest.noColon (by rw [hhead]; rfl)

theorem unambiguous_fieldHead :
    Unambiguous FieldHead.WellFormed FieldHead.chars EndsHead := by
  rintro ⟨alternative, name, args, ds⟩ ⟨alternative', name', args', ds'⟩ rest rest'
    ⟨halias, hname, hargs, hds⟩ ⟨halias', hname', hargs', hds'⟩ hrest hrest' heq
  rw [FieldHead.chars_append, FieldHead.chars_append] at heq
  have hdirectives := hrest.directive.directiveChars ds
  have hdirectives' := hrest'.directive.directiveChars ds'
  obtain ⟨rfl, hafterAlias⟩ := unambiguous_alias halias halias'
    (not_startsAlias hname hrest args ds) (not_startsAlias hname' hrest' args' ds') heq
  obtain ⟨rfl, hafterName⟩ := unambiguous_name hname hname'
    (endsName_argumentChars hdirectives args) (endsName_argumentChars hdirectives' args')
    hafterAlias
  obtain ⟨rfl, hafterArguments⟩ := unambiguous_arguments hargs hargs' hdirectives.2
    hdirectives'.2 hafterName
  obtain ⟨rfl, hsame⟩ := unambiguous_directives hds hds' hrest.directives hrest'.directives
    hafterArguments
  exact ⟨rfl, hsame⟩

/-! ### Selections -/

/-- A type condition starts here. -/
def StartsCondition (text : List Char) : Prop := [' ', 'o'] <+: text

theorem unambiguous_conditionChars : Unambiguous IsName conditionChars EndsName := by
  intro a b rest rest' ha hb hrest hrest' heq
  simp only [conditionChars, List.cons_append, List.cons.injEq, true_and] at heq
  exact unambiguous_name ha hb hrest hrest' heq

theorem unambiguous_condition :
    Unambiguous (fun o : Option String => ∀ name ∈ o, IsName name)
      (fun o => o.elim [] conditionChars) fun rest => EndsName rest ∧ ¬ StartsCondition rest :=
  unambiguous_conditionChars.option fun _ _ => ⟨_, rfl⟩

/-- What comes after the type condition of an inline fragment. -/
theorem endsCondition (ds : List Directive) (rest : List Char) :
    EndsName (directiveChars ds ++ ' ' :: '\x7b' :: rest) ∧
      ¬ StartsCondition (directiveChars ds ++ ' ' :: '\x7b' :: rest) := by
  refine ⟨((endsHead_brace rest).directive.directiveChars ds).1, ?_⟩
  cases ds with
  | nil => simp [StartsCondition, directiveChars]
  | cons directive ds => simp [StartsCondition, directiveChars, Directive.chars]

/-- After its dots, a blank follows in an inline fragment. -/
theorem inline_eq_cons (condition : Option String) (ds : List Directive) (rest : List Char) :
    ∃ cs, condition.elim [] conditionChars ++ (directiveChars ds ++ ' ' :: rest) = ' ' :: cs := by
  cases condition with
  | some name => exact ⟨_, rfl⟩
  | none =>
      cases ds with
      | nil => exact ⟨_, rfl⟩
      | cons directive ds => exact ⟨_, rfl⟩

end Parser

namespace Selection

open QueryCache.Parser

variable {level depth : Nat} {rest rest' : List Char}

theorem field_ne_dot {head : FieldHead} (h : head.WellFormed) {selections : Option (List Selection)}
    {others : List Char} : chars depth (.field head selections) ++ rest ≠ '.' :: others := by
  obtain ⟨c, cs, heq, hc⟩ := h.chars_eq_cons
  rw [chars_field, heq]
  rintro ⟨rfl⟩
  cases hc

theorem spread_ne_inline {name : String} (h : IsName name) {ds ds' : List Directive}
    {condition : Option String} {set : List Selection} :
    chars depth (.spread name ds) ++ rest ≠ chars depth (.inline condition ds' set) ++ rest' := by
  obtain ⟨c, cs, heq, hc, -⟩ := h
  obtain ⟨others, hothers⟩ := inline_eq_cons condition ds' (setChars depth set ++ rest')
  rw [chars_spread, chars_inline, heq, hothers]
  simp only [List.cons_append, ne_eq, List.cons.injEq, true_and, not_and]
  rintro rfl
  cases hc

theorem endsHead_body {head : FieldHead} {selections : Option (List Selection)}
    (h : WellFormed level (.field head selections)) :
    EndsHead (bodyChars depth selections ++ '\n' :: rest) := by
  cases h with
  | leaf => exact endsHead_newline rest
  | field _ _ hne =>
      rw [bodyChars, Option.elim_some, List.cons_append, setChars_append hne]
      exact endsHead_brace _

theorem lines_eq_of_setChars {set set' : List Selection} (h : set ≠ []) (h' : set' ≠ [])
    (heq : setChars depth set ++ rest = setChars depth set' ++ rest') :
    lines (depth + 1) set ++ (indent depth ++ '\x7d' :: rest) =
      lines (depth + 1) set' ++ (indent depth ++ '\x7d' :: rest') := by
  rw [setChars_append h, setChars_append h'] at heq
  exact (List.cons.inj (List.cons.inj heq).2).2

mutual

/-- Two selections on one level are told apart by their lines. -/
theorem chars_append_inj : ∀ {a b : Selection} {level depth : Nat} {rest rest' : List Char},
    a.WellFormed level → b.WellFormed level →
    chars depth a ++ '\n' :: rest = chars depth b ++ '\n' :: rest' → a = b ∧ rest = rest'
  | .field head selections, b, level, depth, rest, rest', ha, hb, heq => by
      have hhead : head.WellFormed := by cases ha <;> assumption
      cases b with
      | spread name ds => exact absurd (heq.trans (chars_spread ..)) (field_ne_dot hhead)
      | inline condition ds set =>
          exact absurd (heq.trans (chars_inline ..)) (field_ne_dot hhead)
      | field head' selections' =>
          have hhead' : head'.WellFormed := by cases hb <;> assumption
          rw [chars_field, chars_field] at heq
          obtain ⟨rfl, hbody⟩ := unambiguous_fieldHead hhead hhead' (endsHead_body ha)
            (endsHead_body hb) heq
          match selections, selections' with
          | none, none => exact ⟨rfl, (List.cons.inj hbody).2⟩
          | none, some set' => cases hbody
          | some set, none => cases hbody
          | some set, some set' =>
              cases ha with
              | field _ _ hne hitems =>
                cases hb with
                | field _ _ hne' hitems' =>
                  obtain ⟨rfl, hsame⟩ := lines_append_inj hitems hitems'
                    (lines_eq_of_setChars hne hne' (List.cons.inj hbody).2)
                  exact ⟨rfl, (List.cons.inj hsame).2⟩
  | .spread name ds, b, level, depth, rest, rest', ha, hb, heq => by
      obtain ⟨hname, hds⟩ : IsName name ∧ ∀ directive ∈ ds, directive.WellFormed := by
        cases ha with
        | spread hname hds => exact ⟨hname, hds⟩
      cases hb with
      | leaf hhead => exact absurd (heq.symm.trans (chars_spread ..)) (field_ne_dot hhead)
      | field hhead => exact absurd (heq.symm.trans (chars_spread ..)) (field_ne_dot hhead)
      | inline => exact absurd heq (spread_ne_inline hname)
      | @spread _ name' ds' hname' hds' =>
          rw [chars_spread, chars_spread] at heq
          obtain ⟨rfl, hafter⟩ := unambiguous_name hname hname'
            ((endsHead_newline rest).directive.directiveChars ds).1
            ((endsHead_newline rest').directive.directiveChars ds').1 (by simpa using heq)
          obtain ⟨rfl, hsame⟩ := unambiguous_directives hds hds'
            (endsHead_newline rest).directives (endsHead_newline rest').directives hafter
          exact ⟨rfl, (List.cons.inj hsame).2⟩
  | .inline condition ds set, b, level, depth, rest, rest', ha, hb, heq => by
      cases hb with
      | leaf hhead => exact absurd (heq.symm.trans (chars_inline ..)) (field_ne_dot hhead)
      | field hhead => exact absurd (heq.symm.trans (chars_inline ..)) (field_ne_dot hhead)
      | spread hname => exact absurd heq.symm (spread_ne_inline hname)
      | @inline _ condition' ds' set' hname' hds' _ hne' hitems' =>
          cases ha with
          | inline hname hds _ hne hitems =>
            rw [chars_inline, chars_inline] at heq
            rw [setChars_append hne, setChars_append hne'] at heq
            obtain ⟨rfl, hafter⟩ := unambiguous_condition hname hname' (endsCondition ds _)
              (endsCondition ds' _) (by simpa using heq)
            obtain ⟨rfl, hset⟩ := unambiguous_directives hds hds'
              (endsHead_brace _).directives (endsHead_brace _).directives hafter
            obtain ⟨rfl, hsame⟩ := lines_append_inj hitems hitems' (by simpa using hset)
            exact ⟨rfl, (List.cons.inj hsame).2⟩
termination_by structural a => a

/-- Two lists of selections are told apart by their lines. -/
theorem lines_append_inj : ∀ {s t : List Selection} {level depth : Nat} {rest rest' : List Char},
    (∀ a ∈ s, a.WellFormed level) → (∀ b ∈ t, b.WellFormed level) →
    lines (depth + 1) s ++ (indent depth ++ '\x7d' :: rest) =
      lines (depth + 1) t ++ (indent depth ++ '\x7d' :: rest') → s = t ∧ rest = rest'
  | [], [], _, _, _, _, _, _, heq => ⟨rfl, (List.cons.inj (List.append_cancel_left heq)).2⟩
  | [], b :: t, _, depth, _, _, _, _, heq => by
      rw [lines_cons, indent_succ, List.append_assoc, lines, List.nil_append] at heq
      cases List.append_cancel_left heq
  | a :: s, [], _, depth, _, _, _, _, heq => by
      rw [lines_cons, indent_succ, List.append_assoc, lines, List.nil_append] at heq
      cases List.append_cancel_left heq
  | a :: s, b :: t, _, depth, _, _, hs, ht, heq => by
      rw [lines_cons, lines_cons] at heq
      obtain ⟨ha, htail⟩ := List.forall_mem_cons.1 hs
      obtain ⟨hb, htail'⟩ := List.forall_mem_cons.1 ht
      obtain ⟨rfl, hothers⟩ := chars_append_inj ha hb (List.append_cancel_left heq)
      obtain ⟨hitems, hsame⟩ := lines_append_inj htail htail' hothers
      exact ⟨congrArg _ hitems, hsame⟩
termination_by structural s => s

end

end Selection

end QueryCache
