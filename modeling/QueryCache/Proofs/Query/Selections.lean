import Mathlib.Data.List.Chain
import QueryCache.Proofs.Query.WellFormed

/-!
# Reading written selections

The lines of a selection set are read back as its selections exactly if they are legible: every
value in them is read back, and no spread of a fragment named `on` stands right before a field,
where the two names are read as a type condition.
-/

namespace QueryCache

open QueryCache.Parser

/-! ### Legible selections -/

/-- The value of the argument is legible. -/
def Argument.Legible (arg : Argument) : Prop := IsLegibleValue true arg.value

/-- The arguments of the directive are legible. -/
def Directive.Legible (directive : Directive) : Prop :=
  ∀ arg ∈ directive.arguments, arg.Legible

/-- The arguments and directives of the field are legible. -/
structure FieldHead.Legible (head : FieldHead) : Prop where
  arguments : ∀ arg ∈ head.arguments, arg.Legible
  directives : ∀ directive ∈ head.directives, directive.Legible

/-- The second selection can stand on the line after the first one: a field cannot after the
spread of a fragment named `on`, as the two names would be read as a type condition. -/
def Selection.CanPrecede (a b : Selection) : Prop :=
  a = .spread "on" [] → ∀ head selections, b ≠ .field head selections

/-- The parts of the selection are legible, and its selections can stand in their order. -/
inductive Selection.Legible : Selection → Prop
  | leaf {head : FieldHead} (head_legible : head.Legible) : Legible (.field head none)
  | field {head : FieldHead} {set : List Selection} (head_legible : head.Legible)
      (chain : set.IsChain CanPrecede) (items : ∀ selection ∈ set, Legible selection) :
      Legible (.field head (some set))
  | spread {name : String} {directives : List Directive}
      (directives_legible : ∀ directive ∈ directives, directive.Legible) :
      Legible (.spread name directives)
  | inline {condition : Option String} {directives : List Directive} {set : List Selection}
      (directives_legible : ∀ directive ∈ directives, directive.Legible)
      (chain : set.IsChain CanPrecede) (items : ∀ selection ∈ set, Legible selection) :
      Legible (.inline condition directives set)

/-- The selections are legible and can stand in their order. -/
structure SelectionSet.Legible (set : SelectionSet) : Prop where
  chain : set.IsChain Selection.CanPrecede
  items : ∀ selection ∈ set, selection.Legible

namespace Selection

variable {head : FieldHead} {name : String} {condition : Option String} {ds : List Directive}
  {set : List Selection}

theorem legible_leaf_iff : Legible (.field head none) ↔ head.Legible :=
  ⟨fun h => by cases h; assumption, .leaf⟩

theorem legible_field_iff :
    Legible (.field head (some set)) ↔ head.Legible ∧ SelectionSet.Legible set := by
  constructor
  · intro h
    cases h with
    | field hhead hchain hitems => exact ⟨hhead, hchain, hitems⟩
  · rintro ⟨hhead, hchain, hitems⟩
    exact .field hhead hchain hitems

theorem legible_spread_iff : Legible (.spread name ds) ↔ ∀ directive ∈ ds, directive.Legible :=
  ⟨fun h => by cases h; assumption, .spread⟩

theorem legible_inline_iff : Legible (.inline condition ds set) ↔
    (∀ directive ∈ ds, directive.Legible) ∧ SelectionSet.Legible set := by
  constructor
  · intro h
    cases h with
    | inline hds hchain hitems => exact ⟨hds, hchain, hitems⟩
  · rintro ⟨hds, hchain, hitems⟩
    exact .inline hds hchain hitems

end Selection

theorem SelectionSet.legible_cons_iff {first : Selection} {others : List Selection} :
    SelectionSet.Legible (first :: others) ↔
      (first.Legible ∧ ∀ next ∈ others.head?, first.CanPrecede next) ∧
        SelectionSet.Legible others := by
  constructor
  · rintro ⟨hchain, hitems⟩
    obtain ⟨hnext, hchain⟩ := List.isChain_cons.1 hchain
    obtain ⟨hfirst, hothers⟩ := List.forall_mem_cons.1 hitems
    exact ⟨⟨hfirst, hnext⟩, hchain, hothers⟩
  · rintro ⟨⟨hfirst, hnext⟩, hchain, hothers⟩
    exact ⟨List.isChain_cons.2 ⟨hnext, hchain⟩, List.forall_mem_cons.2 ⟨hfirst, hothers⟩⟩

namespace Parser

variable {α : Type} {text rest : List Char}

/-! ### Arguments and directives -/

theorem head?_skip_ne {c d : Char} (hc : isSolid c = true) (hne : c ≠ d) (rest : List Char) :
    (skip (c :: rest)).head? ≠ some d := by
  rw [skip_solid hc]
  simpa using hne

theorem forall₂_map_chars {p : Parser α} {follow : List Char → Prop} {chars : α → List Char}
    {S : α → Prop} {xs : List α} (h : ∀ x ∈ xs, Respells p follow (chars x) x (S x)) :
    List.Forall₂ (fun item x => Respells p follow item x (S x)) (xs.map chars) xs :=
  List.forall₂_map_left_iff.2 (List.forall₂_same.2 h)

/-- A name after a blank is read. -/
theorem reads_spaced_name {name : String} (h : IsName name) (hrest : EndsName rest) :
    Reads Parser.name (' ' :: (name.toList ++ rest)) name rest :=
  reads_name (by rw [skip_space, h.skip]) h hrest

theorem respells_argument {arg : Argument} (h : arg.WellFormed) :
    Respells argument EndsLiteral arg.chars arg arg.Legible := by
  obtain ⟨c, cs, heq, hc, -⟩ := id h.name
  refine ⟨⟨c, cs ++ ':' :: ' ' :: arg.value.toList, by rw [Argument.chars, heq]; rfl,
    isSolid_of_isNameChar (isNameChar_of_isNameStart hc)⟩, fun {text rest} htext hrest => ?_⟩
  have hname : Reads name text arg.name (':' :: ' ' :: (arg.value.toList ++ rest)) :=
    reads_name (by rw [htext, Argument.chars]; simp) h.name (endsName_of_head rfl _)
  have hvalue : Rereads (value true) (' ' :: (arg.value.toList ++ rest)) arg.value rest
      arg.Legible := h.value.rereads (by rw [skip_space, h.value.skip]) hrest
  exact hname.rereads_bind <| (reads_token_cons rfl rfl _).rereads_bind <|
    hvalue.bind_pure fun _ heq => (Argument.mk.inj heq).2

theorem refuses_argument (rest : List Char) : Refuses argument (')' :: rest) := by
  refine (refuses_name ?_).bind _
  rw [skip_solid rfl]
  rintro c ⟨rfl⟩
  rfl

/-- A list is read back between its parentheses as it is without them. -/
theorem rereads_parenthesized {chars : α → List Char} {xs : List α} {inner : Parser (List α)}
    {R : Prop} (hne : xs ≠ [])
    (h : Rereads inner (commaSeparated (xs.map chars) ++ ')' :: rest) xs (')' :: rest) R) :
    Rereads (do
      token "("
      let found ← inner
      token ")"
      return found) (parenthesized chars xs ++ rest) xs rest R := by
  have hclosed : Reads (do token ")"; return xs) (')' :: rest) xs rest :=
    (reads_token_cons rfl rfl _).bind (reads_pure _ _)
  have hends : ∀ found : List α, Ensures (do token ")"; return found) fun result =>
      result = xs → found = xs := fun _ =>
    (ensures_token ")").bind fun _ => ensures_pure fun _ heq => heq
  obtain ⟨first, others, rfl⟩ := List.exists_cons_of_ne_nil hne
  rw [parenthesized_cons_append]
  exact (reads_token_cons rfl rfl _).rereads_bind <|
    (h.bind hends hclosed.rereads).congr (by rw [and_true])

theorem rereads_arguments {args : List Argument} (hne : args ≠ [])
    (h : ∀ arg ∈ args, arg.WellFormed) (rest : List Char) :
    Rereads arguments (argumentChars args ++ rest) args rest (∀ arg ∈ args, arg.Legible) := by
  have hrespells := forall₂_map_chars fun arg hmem => respells_argument (h arg hmem)
  have hitems : args.map Argument.chars ≠ [] := by simpa using hne
  have hall := rereadsAll_commaSeparated hrespells (fun _ _ _ => endsLiteral_comma _)
    (endsLiteral_parenthesis rest) (refuses_argument rest) hitems
    (skip_commaSeparated hrespells hitems _)
  rw [argumentChars_eq]
  exact rereads_parenthesized hne (hall.many1 hne ensures_argument)

/-- No arguments stand in this text. -/
def EndsArguments (rest : List Char) : Prop := EndsName rest ∧ (skip rest).head? ≠ some '('

theorem rereads_orEmpty_arguments {args : List Argument} (h : ∀ arg ∈ args, arg.WellFormed)
    (hrest : EndsArguments rest) :
    Rereads (orEmpty arguments) (argumentChars args ++ rest) args rest
      (∀ arg ∈ args, arg.Legible) := by
  cases args with
  | nil =>
      have hrefuses : Refuses arguments rest := (refuses_token_of_head rfl hrest.2).bind _
      exact hrefuses.orEmpty.rereads.congr (by simp)
  | cons arg args => exact (rereads_arguments (by simp) h rest).orEmpty (by simp)

theorem EndsArguments.argumentChars (h : EndsArguments rest) (args : List Argument) :
    EndsName (argumentChars args ++ rest) := by
  cases args with
  | nil => exact h.1
  | cons arg args => exact endsName_of_head rfl _

theorem rereads_directive {directive : Directive} (h : directive.WellFormed)
    (hrest : EndsArguments rest) :
    Rereads Parser.directive (directive.chars ++ rest) directive rest directive.Legible := by
  have htext : directive.chars ++ rest =
      ' ' :: '@' :: (directive.name.toList ++ (argumentChars directive.arguments ++ rest)) := by
    simp [Directive.chars]
  have htoken : Reads (token "@") (directive.chars ++ rest) ()
      (directive.name.toList ++ (argumentChars directive.arguments ++ rest)) :=
    reads_token (by rw [htext, skip_space, skip_solid rfl]; rfl)
  have hname := reads_name (h.name.skip _) h.name (hrest.argumentChars directive.arguments)
  exact htoken.rereads_bind <| hname.rereads_bind <|
    (rereads_orEmpty_arguments h.arguments hrest).bind_pure fun _ heq => (Directive.mk.inj heq).2

/-- No head goes on with this text: neither a name nor, after blanks, arguments, directives
or the colon of an alias. -/
structure ClosesHead (rest : List Char) : Prop where
  endsName : EndsName rest
  noToken : ∀ c ∈ (skip rest).head?, c ∉ ['(', '@', ':']

theorem ClosesHead.endsArguments (h : ClosesHead rest) : EndsArguments rest :=
  ⟨h.endsName, fun hhead => h.noToken _ hhead (by simp)⟩

theorem ClosesHead.endsArguments_directives (h : ClosesHead rest) (ds : List Directive) :
    EndsArguments (directiveChars ds ++ rest) := by
  cases ds with
  | nil => exact h.endsArguments
  | cons directive ds => exact ⟨endsName_of_head rfl _, head?_skip_ne (c := '@') rfl (by decide) _⟩

theorem rereadsAll_directives {ds : List Directive}
    (h : ∀ directive ∈ ds, directive.WellFormed) (hrest : ClosesHead rest) :
    RereadsAll directive (directiveChars ds ++ rest) ds rest
      (∀ directive ∈ ds, directive.Legible) := by
  induction ds with
  | nil =>
      have hrefuses : Refuses directive rest := (refuses_token_of_head (c := '@') rfl fun hhead =>
        hrest.noToken _ hhead (by simp)).bind _
      exact .nil hrefuses (by simp)
  | cons directive ds ih =>
      obtain ⟨hdirective, hds⟩ := List.forall_mem_cons.1 h
      have htext : directiveChars (directive :: ds) ++ rest =
          directive.chars ++ (directiveChars ds ++ rest) := by
        simp [directiveChars]
      rw [htext]
      refine .cons (rereads_directive hdirective (hrest.endsArguments_directives ds)) ?_
        (ih hds) List.forall_mem_cons.symm
      simp only [Directive.chars, List.length_append, List.length_cons]
      omega

theorem rereads_directives {ds : List Directive}
    (h : ∀ directive ∈ ds, directive.WellFormed) (hrest : ClosesHead rest) :
    Rereads directives (directiveChars ds ++ rest) ds rest
      (∀ directive ∈ ds, directive.Legible) :=
  (rereadsAll_directives h hrest).many ensures_directive

/-! ### Heads of fields -/

theorem ClosesHead.noColon (h : ClosesHead rest) (args : List Argument) (ds : List Directive) :
    (skip (argumentChars args ++ (directiveChars ds ++ rest))).head? ≠ some ':' := by
  cases args with
  | cons arg args => exact head?_skip_ne rfl (by decide) _
  | nil =>
      cases ds with
      | nil => exact fun hhead => h.noToken _ hhead (by simp)
      | cons directive ds => exact head?_skip_ne (c := '@') rfl (by decide) _

/-- What is read of a head after its alias. -/
theorem rereads_headTail {head : FieldHead} (h : head.WellFormed) (hrest : ClosesHead rest)
    (hname : Reads Parser.name text head.name
      (argumentChars head.arguments ++ (directiveChars head.directives ++ rest))) :
    Rereads (do
      let fieldName ← Parser.name
      let args ← orEmpty arguments
      let ds ← directives
      return ⟨head.aliasName, fieldName, args, ds⟩) text head rest head.Legible := by
  have harguments := rereads_orEmpty_arguments h.arguments
    (hrest.endsArguments_directives head.directives)
  have hdirectives := (rereads_directives h.directives hrest).bind_pure
    (f := fun ds => (⟨head.aliasName, head.name, head.arguments, ds⟩ : FieldHead))
    fun _ heq => (FieldHead.mk.inj heq).2.2.2
  have hends : ∀ args, Ensures (do
      let ds ← directives
      return (⟨head.aliasName, head.name, args, ds⟩ : FieldHead))
      fun found => found = head → args = head.arguments := fun _ =>
    ensures_directives.bind fun _ => ensures_pure fun _ heq => by rw [← heq]
  exact hname.rereads_bind <| (harguments.bind hends hdirectives).congr
    ⟨fun h => ⟨h.1, h.2⟩, fun h => ⟨h.1, h.2⟩⟩

theorem rereads_fieldHead {head : FieldHead} (h : head.WellFormed)
    (htext : skip text = head.chars ++ rest) (hrest : ClosesHead rest) :
    Rereads fieldHead text head rest head.Legible := by
  obtain ⟨alternative, name, args, ds⟩ := head
  rw [FieldHead.chars_append] at htext
  have hends := (hrest.endsArguments_directives ds).argumentChars args
  cases alternative with
  | none =>
      have hname := reads_name htext h.name hends
      have hrefuses : Refuses aliasName text :=
        hname.refuses_bind ((refuses_token_of_head rfl (hrest.noColon args ds)).bind _)
      exact hrefuses.optional.rereads_bind (rereads_headTail h hrest hname)
  | some alternative =>
      have halias := h.aliasName alternative rfl
      rw [Option.elim_some, aliasChars, List.append_assoc, List.cons_append, List.cons_append,
        List.nil_append] at htext
      have hreads : Reads aliasName text alternative
          (' ' :: (name.toList ++ (argumentChars args ++ (directiveChars ds ++ rest)))) :=
        (reads_name htext halias (endsName_of_head rfl _)).bind <|
          (reads_token_cons rfl rfl _).bind (reads_pure _ _)
      exact hreads.optional.rereads_bind <|
        rereads_headTail h hrest (reads_spaced_name h.name hends)

theorem refuses_fieldHead (h : ∀ c ∈ (skip text).head?, isNameStart c = false) :
    Refuses fieldHead text := by
  have halias : Refuses aliasName text := (refuses_name h).bind _
  exact halias.optional.refuses_bind ((refuses_name h).bind _)

/-! ### Selections -/

/-- Another selection or a closing brace is the next token of this text. -/
def StartsLine (text : List Char) : Prop :=
  ∃ c, (skip text).head? = some c ∧ (isNameStart c = true ∨ c = '.' ∨ c = '\x7d')

theorem StartsLine.closesHead (h : StartsLine rest) : ClosesHead ('\n' :: rest) := by
  obtain ⟨c, hhead, hc⟩ := h
  refine ⟨endsName_of_head rfl _, fun d hd => ?_⟩
  rw [skip_newline, hhead] at hd
  cases hd
  intro hmem
  obtain rfl | rfl | rfl : c = '(' ∨ c = '@' ∨ c = ':' := by simpa using hmem
  · exact absurd hc (by decide)
  · exact absurd hc (by decide)
  · exact absurd hc (by decide)

theorem closesHead_brace (rest : List Char) : ClosesHead (' ' :: '\x7b' :: rest) := by
  refine ⟨endsName_of_head rfl _, ?_⟩
  rw [skip_space, skip_solid rfl]
  rintro d ⟨rfl⟩
  decide

theorem closesHead_setChars {set : SelectionSet} (hne : set ≠ []) (depth : Nat)
    (rest : List Char) : ClosesHead (' ' :: (setChars depth set ++ rest)) := by
  rw [setChars_append hne]
  exact closesHead_brace _

theorem refuses_selectionSet (fuel level : Nat) (h : (skip text).head? ≠ some '\x7b') :
    Refuses (selectionSet fuel level) text := by
  cases fuel with
  | zero => exact refuses_fail text
  | succ fuel =>
      rw [selectionSet_succ]
      exact (refuses_token_of_head rfl h).bind _

theorem StartsLine.head?_ne (h : StartsLine rest) : (skip ('\n' :: rest)).head? ≠ some '\x7b' := by
  obtain ⟨c, hhead, hc⟩ := h
  rw [skip_newline, hhead]
  rintro ⟨rfl⟩
  revert hc
  decide

/-- The name of a spread is not read as a type condition, unless it is `on` and another name
follows. -/
theorem refuses_condition_of_spread {name : String} {ds : List Directive} (hname : IsName name)
    (hrest : ClosesHead ('\n' :: rest))
    (hon : name = "on" → ds = [] → ∀ c ∈ (rest.dropWhile isBlank).head?, isNameStart c = false) :
    Refuses condition (name.toList ++ (directiveChars ds ++ '\n' :: rest)) := by
  refine refuses_condition_of_name (hname.skip _) hname (hrest.endsArguments_directives ds).1 ?_
  rintro rfl c hc
  cases ds with
  | nil => exact hon rfl rfl c hc
  | cons directive ds =>
      cases hc
      rfl

theorem reads_condition_of_on {c : Char} (h : (rest.dropWhile isBlank).head? = some c)
    (hc : isNameStart c = true) :
    ∃ name rest', Reads condition ('o' :: 'n' :: '\n' :: rest) name rest' := by
  obtain ⟨others, heq⟩ := List.head?_eq_some_iff.1 h
  have hblank : isBlank '\n' = true := rfl
  have hread : readCondition? ('o' :: 'n' :: '\n' :: rest) =
      some (String.ofList (c :: others.takeWhile isNameChar), others.dropWhile isNameChar) := by
    rw [readCondition?, if_pos hblank, heq, readName?, if_pos hc]
  exact ⟨_, _, reads_scan (by rw [skip_solid rfl]; exact hread)⟩

theorem skip_conditionChars (name : String) (rest : List Char) :
    skip (conditionChars name ++ rest) = 'o' :: 'n' :: ' ' :: (name.toList ++ rest) := by
  rw [conditionChars, List.cons_append, skip_space]
  exact skip_solid rfl _

end Parser

namespace Selection

theorem length_chars_le_lines {selection : Selection} {set : List Selection}
    (h : selection ∈ set) (depth : Nat) :
    (chars depth selection).length ≤ (lines depth set).length := by
  induction set with
  | nil => cases h
  | cons first set ih =>
      have hlines := congrArg List.length (lines_cons depth first set [])
      simp only [List.append_nil, List.length_append, List.length_cons] at hlines
      rcases List.mem_cons.1 h with rfl | hmem
      · omega
      · have := ih hmem
        omega

theorem length_chars_lt_setChars {selection : Selection} {set : List Selection}
    (h : selection ∈ set) (depth : Nat) :
    (chars (depth + 1) selection).length < (setChars depth set).length := by
  have hlines := length_chars_le_lines h (depth + 1)
  have hset := congrArg List.length (setChars_append (List.ne_nil_of_mem h) depth [])
  simp only [List.append_nil, List.length_append, List.length_cons] at hset
  omega

end Selection

namespace Parser

variable {text rest : List Char} {fuel level depth : Nat}

theorem skip_setChars {set : SelectionSet} (hne : set ≠ []) (depth : Nat) (rest : List Char) :
    skip (setChars depth set ++ rest) = setChars depth set ++ rest := by
  rw [setChars_append hne, skip_solid rfl]

/-- A selection set is read back if its lines are, where each of them may use up the text
that is left. -/
theorem rereads_selectionSet {set : SelectionSet} {R : Prop} (hne : set ≠ [])
    (hlimit : level ≤ nestingLimit) (hfuel : (setChars depth set).length ≤ fuel)
    (h : ∀ n, (∀ a ∈ set, (Selection.chars (depth + 1) a).length ≤ n) →
      RereadsAll (selection (selectionSet n (level + 1)))
        ('\n' :: (Selection.lines (depth + 1) set ++ (indent depth ++ '\x7d' :: rest))) set
        ('\n' :: (indent depth ++ '\x7d' :: rest)) R)
    (htext : skip text = setChars depth set ++ rest) :
    Rereads (selectionSet fuel level) text set rest R := by
  have hlength : ∀ a ∈ set, (Selection.chars (depth + 1) a).length < fuel := fun a hmem =>
    Nat.lt_of_lt_of_le (Selection.length_chars_lt_setChars hmem depth) hfuel
  obtain ⟨n, rfl⟩ : ∃ n, fuel = n + 1 := by
    obtain ⟨first, others, rfl⟩ := List.exists_cons_of_ne_nil hne
    exact ⟨fuel - 1, by have := hlength first List.mem_cons_self; omega⟩
  have hopen : Reads (token "\x7b") text () ('\n' :: (Selection.lines (depth + 1) set ++
      (indent depth ++ '\x7d' :: rest))) :=
    reads_token (by rw [htext, setChars_append hne]; rfl)
  have hlimited : ∀ text, Reads (limited level) text () text := by
    intro text
    rw [limited, if_neg (by omega)]
    exact reads_pure _ _
  have hlines := (h n fun a hmem => Nat.le_of_lt_succ (hlength a hmem)).many1 hne
    (ensures_selection n level)
  have hclose : Reads (token "\x7d" >>= fun _ => pure set)
      ('\n' :: (indent depth ++ '\x7d' :: rest)) set rest :=
    (reads_token (by rw [skip_newline, skip_indent, skip_solid rfl]; rfl)).bind (reads_pure _ _)
  have hends : ∀ items : SelectionSet, Ensures (token "\x7d" >>= fun _ => pure items)
      fun found => found = set → items = set := fun _ =>
    (ensures_token _).bind fun _ => ensures_pure fun _ heq => heq
  rw [selectionSet_succ]
  exact hopen.rereads_bind <| (hlimited _).rereads_bind <|
    (hlines.bind hends hclose.rereads).congr (by rw [and_true])

/-! ### The kinds of selections -/

variable {inner : Parser SelectionSet} {Q : SelectionSet → Prop}

theorem ensures_inline_form (hinner : Ensures inner Q) : Ensures (inlineSelection inner)
    fun found => ∃ condition ds set, found = .inline condition ds set :=
  (ensures_token "...").bind fun _ => ensures_condition.optional.bind fun _ =>
    ensures_directives.bind fun _ => hinner.bind fun _ => ensures_pure fun _ _ _ _ =>
      ⟨_, _, _, rfl⟩

theorem ensures_spread_form :
    Ensures spreadSelection fun found => ∃ name ds, found = .spread name ds :=
  (ensures_token "...").bind fun _ => ensures_noCondition.bind fun _ => ensures_name.bind fun _ =>
    ensures_directives.bind fun _ => ensures_pure fun _ _ _ _ => ⟨_, _, rfl⟩

theorem rereads_fieldSelection {head : FieldHead} {text' : List Char}
    {selections : Option SelectionSet} {R S : Prop} (hinner : Ensures inner Q)
    (h : Rereads fieldHead text head text' R)
    (h' : Rereads (optional inner) text' selections rest S) :
    Rereads (selection inner) text (.field head selections) rest (R ∧ S) := by
  have hfield : Rereads (fieldSelection inner) text (.field head selections) rest (R ∧ S) :=
    h.bind (fun _ => hinner.optional.bind fun _ => ensures_pure fun _ heq =>
      (Selection.field.inj heq).1) (h'.bind_pure fun _ heq => (Selection.field.inj heq).2)
  have hother : Ensures (orElse (inlineSelection inner) spreadSelection)
      fun found => ∀ head selections, found ≠ .field head selections := by
    refine ((ensures_inline_form hinner).mono ?_).orElse (ensures_spread_form.mono ?_)
    · rintro _ ⟨condition, ds, set, rfl⟩ head selections heq
      cases heq
    · rintro _ ⟨name, ds, rfl⟩ head selections heq
      cases heq
  exact hfield.orElse (hother.rereads fun h => h head selections rfl)

theorem refuses_fieldSelection {c : Char} (h : (skip text).head? = some c)
    (hc : isNameStart c = false) : Refuses (fieldSelection inner) text := by
  refine (refuses_fieldHead ?_).bind _
  rw [h]
  rintro d ⟨rfl⟩
  exact hc

theorem refuses_selection (inner : Parser SelectionSet) (depth : Nat) (rest : List Char) :
    Refuses (selection inner) ('\n' :: (indent depth ++ '\x7d' :: rest)) := by
  have hskip : skip ('\n' :: (indent depth ++ '\x7d' :: rest)) = '\x7d' :: rest := by
    rw [skip_newline, skip_indent, skip_solid rfl]
  have hdots : Refuses (token "...") ('\n' :: (indent depth ++ '\x7d' :: rest)) :=
    refuses_token_of_head (c := '.') rfl (by rw [hskip]; simp)
  exact (refuses_fieldSelection (by rw [hskip]; rfl) rfl).orElse_refuses <|
    (hdots.bind _).orElse_refuses (hdots.bind _)

theorem reads_dots {others : List Char} (h : skip text = '.' :: '.' :: '.' :: others) :
    Reads (token "...") text () others := reads_token h

/-- A spread is no inline fragment, since it has no selections. -/
theorem refuses_inlineSelection {name : String} (hname : IsName name)
    (hinner : ∀ text, (skip text).head? ≠ some '\x7b' → Refuses inner text)
    (hdots : Reads (token "...") text () (name.toList ++ rest))
    (hcondition : Refuses condition (name.toList ++ rest)) :
    Refuses (inlineSelection inner) text := by
  have hne : ∀ d, isNameStart d = false → (skip (name.toList ++ rest)).head? ≠ some d := by
    obtain ⟨c, cs, heq, hc, -⟩ := id hname
    rintro d hd hhead
    rw [hname.skip, heq] at hhead
    cases hhead
    rw [hd] at hc
    cases hc
  have hdirectives : Reads directives (name.toList ++ rest) [] (name.toList ++ rest) :=
    (ReadsAll.nil ((refuses_token_of_head (c := '@') rfl (hne _ rfl)).bind _)).many
  exact hdots.refuses_bind <| hcondition.optional.refuses_bind <| hdirectives.refuses_bind <|
    (hinner _ (hne _ rfl)).bind _

theorem rereads_spread {name : String} {ds : List Directive} (hinner : Ensures inner Q)
    (hrefuses : ∀ text, (skip text).head? ≠ some '\x7b' → Refuses inner text)
    (hname : IsName name) (hds : ∀ directive ∈ ds, directive.WellFormed)
    (htext : skip text = Selection.chars depth (.spread name ds) ++ '\n' :: rest)
    (hrest : StartsLine rest) :
    Rereads (selection inner) text (.spread name ds) ('\n' :: rest)
      ((∀ directive ∈ ds, directive.Legible) ∧ (name = "on" → ds = [] →
        ∀ c ∈ (rest.dropWhile isBlank).head?, isNameStart c = false)) := by
  have hdots := reads_dots (htext.trans (Selection.chars_spread ..))
  have hclose := hrest.closesHead
  have hfield : Refuses (fieldSelection inner) text :=
    refuses_fieldSelection (by rw [htext, Selection.chars_spread]; rfl) rfl
  refine hfield.orElse_rereads ?_
  by_cases hon : name = "on" → ds = [] →
      ∀ c ∈ (rest.dropWhile isBlank).head?, isNameStart c = false
  · have hcondition := refuses_condition_of_spread hname hclose hon
    have hspread : Rereads spreadSelection text (.spread name ds) ('\n' :: rest)
        (∀ directive ∈ ds, directive.Legible) :=
      hdots.rereads_bind <| (reads_noCondition hcondition).rereads_bind <|
        (reads_name (hname.skip _) hname (hclose.endsArguments_directives ds).1).rereads_bind <|
          (rereads_directives hds hclose).bind_pure fun _ heq => (Selection.spread.inj heq).2
    exact ((refuses_inlineSelection hname hrefuses hdots hcondition).orElse_rereads hspread).congr
      (and_iff_left hon).symm
  · -- The two names are read as a type condition, which no spread begins with.
    have hnever : Rereads (orElse (inlineSelection inner) spreadSelection) text
        (.spread name ds) ('\n' :: rest) False := by
      simp only [not_forall] at hon
      obtain ⟨rfl, rfl, c, hhead, hc⟩ := hon
      obtain ⟨other, rest', hcondition⟩ := reads_condition_of_on hhead (by simpa using hc)
      have hrefuses : Refuses spreadSelection text :=
        hdots.refuses_bind ((refuses_noCondition hcondition).bind _)
      refine ((ensures_inline_form hinner).rereads ?_).orElse hrefuses.rereads
      rintro ⟨condition, ds, set, heq⟩
      cases heq
    exact hnever.congr ⟨False.elim, fun h => hon h.2⟩

theorem rereads_inline {condition : Option String} {ds : List Directive} {set : SelectionSet}
    {R : Prop} (hinner : Ensures inner Q) (hne : set ≠ [])
    (hcondition : ∀ name ∈ condition, IsName name)
    (hds : ∀ directive ∈ ds, directive.WellFormed)
    (hset : Rereads inner (' ' :: (setChars depth set ++ rest)) set rest R)
    (htext : skip text = Selection.chars depth (.inline condition ds set) ++ rest) :
    Rereads (selection inner) text (.inline condition ds set) rest
      ((∀ directive ∈ ds, directive.Legible) ∧ R) := by
  have hdots := reads_dots (htext.trans (Selection.chars_inline ..))
  have hclose := closesHead_setChars hne depth rest
  have hoptional : Reads (optional Parser.condition)
      (condition.elim [] conditionChars ++
        (directiveChars ds ++ ' ' :: (setChars depth set ++ rest))) condition
      (directiveChars ds ++ ' ' :: (setChars depth set ++ rest)) := by
    cases condition with
    | some name =>
        exact (reads_condition (skip_conditionChars name _) (hcondition name rfl)
          (hclose.endsArguments_directives ds).1).optional
    | none =>
        refine (refuses_condition_of_head ?_).optional
        cases ds with
        | cons directive ds => exact head?_skip_ne (c := '@') rfl (by decide) _
        | nil =>
            rw [setChars_append hne]
            exact head?_skip_ne (c := '\x7b') rfl (by decide) _
  have hfield : Refuses (fieldSelection inner) text :=
    refuses_fieldSelection (by rw [htext, Selection.chars_inline]; rfl) rfl
  have hinline : Rereads (inlineSelection inner) text (.inline condition ds set) rest
      ((∀ directive ∈ ds, directive.Legible) ∧ R) :=
    hdots.rereads_bind <| hoptional.rereads_bind <| (rereads_directives hds hclose).bind
      (fun _ => hinner.bind fun _ => ensures_pure fun _ heq => (Selection.inline.inj heq).2.1)
      (hset.bind_pure fun _ heq => (Selection.inline.inj heq).2.2)
  refine hfield.orElse_rereads (hinline.orElse (ensures_spread_form.rereads ?_))
  rintro ⟨name, ds, heq⟩
  cases heq

end Parser

namespace Selection

theorem isSolid_of_start {c : Char} {P Q : Prop} (h : isNameStart c = true ∧ P ∨ c = '.' ∧ Q) :
    isSolid c = true := by
  rcases h with ⟨hc, -⟩ | ⟨rfl, -⟩
  · exact isSolid_of_isNameChar (isNameChar_of_isNameStart hc)
  · rfl

/-- The next line is read, if the selection on this one can stand before it. -/
theorem startsLine_lines {level : Nat} {set : List Selection}
    (h : ∀ selection ∈ set, selection.WellFormed level) (depth : Nat) (rest : List Char) :
    StartsLine (lines (depth + 1) set ++ (indent depth ++ '\x7d' :: rest)) := by
  cases set with
  | nil =>
      refine ⟨'\x7d', ?_, .inr (.inr rfl)⟩
      rw [lines, List.nil_append, skip_indent, skip_solid rfl]
      rfl
  | cons selection set =>
      obtain ⟨c, cs, heq, hc⟩ := (h selection List.mem_cons_self).chars_eq_cons (depth + 1)
        ('\n' :: (lines (depth + 1) set ++ (indent depth ++ '\x7d' :: rest)))
      refine ⟨c, ?_, hc.imp And.left fun h => .inl h.1⟩
      rw [lines_cons, skip_indent, heq, skip_solid (isSolid_of_start hc)]
      rfl

/-- The text after a line end does not make a type condition of the spread. -/
def CanEnd (a : Selection) (rest : List Char) : Prop :=
  a = .spread "on" [] → ∀ c ∈ (rest.dropWhile isBlank).head?, isNameStart c = false

theorem canEnd_of_ne {a : Selection} (h : a ≠ .spread "on" []) (rest : List Char) :
    CanEnd a rest := fun heq => absurd heq h

theorem dropWhile_isBlank_indent {c : Char} (hc : isBlank c = false) (depth : Nat)
    (rest : List Char) : (indent depth ++ c :: rest).dropWhile isBlank = c :: rest := by
  have hblanks : ∀ d ∈ indent depth, isBlank d = true := by
    intro d hd
    rw [indent] at hd
    rw [List.eq_of_mem_replicate hd]
    rfl
  rw [List.dropWhile_append_of_pos hblanks, List.dropWhile_cons_of_neg (by simp [hc])]

/-- A field on the next line begins with a name, and nothing else on it does. -/
theorem canEnd_lines_iff {level : Nat} {a : Selection} {set : List Selection}
    (h : ∀ selection ∈ set, selection.WellFormed level) (depth : Nat) (rest : List Char) :
    CanEnd a (lines (depth + 1) set ++ (indent depth ++ '\x7d' :: rest)) ↔
      ∀ next ∈ set.head?, CanPrecede a next := by
  cases set with
  | nil =>
      rw [lines, List.nil_append, CanEnd, dropWhile_isBlank_indent rfl]
      refine ⟨fun _ next hnext => (by cases hnext), ?_⟩
      rintro - - c ⟨rfl⟩
      rfl
  | cons next set =>
      obtain ⟨c, cs, heq, hc⟩ := (h next List.mem_cons_self).chars_eq_cons (depth + 1)
        ('\n' :: (lines (depth + 1) set ++ (indent depth ++ '\x7d' :: rest)))
      have hblank : isBlank c = false := by
        have hsolid := isSolid_of_start hc
        simp only [isSolid, Bool.and_eq_true, Bool.not_eq_true'] at hsolid
        exact hsolid.1
      rw [lines_cons, heq, CanEnd, dropWhile_isBlank_indent hblank]
      simp only [List.head?_cons, Option.mem_some_iff, forall_eq']
      rcases hc with ⟨hstart, head, selections, rfl⟩ | ⟨rfl, hne⟩
      · refine ⟨fun h ha => ?_, fun h ha => absurd rfl (h ha head selections)⟩
        rw [h ha] at hstart
        cases hstart
      · exact ⟨fun _ _ => hne, fun _ _ => rfl⟩

mutual

/-- A selection is read back from its line exactly if it is legible and can end there. -/
theorem rereads : ∀ {a : Selection} {fuel level depth : Nat} {text rest : List Char},
    a.WellFormed level → (chars depth a).length ≤ fuel →
    skip text = chars depth a ++ '\n' :: rest → StartsLine rest →
    Rereads (Parser.selection (selectionSet fuel (level + 1))) text a ('\n' :: rest)
      (a.Legible ∧ a.CanEnd rest)
  | .field head none, fuel, level, depth, text, rest, ha, _, htext, hrest => by
      cases ha with
      | leaf hhead =>
        rw [chars_field, bodyChars, Option.elim_none, List.nil_append] at htext
        have hnone := (refuses_selectionSet fuel (level + 1) hrest.head?_ne).optional
        refine (rereads_fieldSelection (ensures_selectionSet _ _)
          (rereads_fieldHead hhead htext hrest.closesHead) hnone.rereads).congr ?_
        rw [legible_leaf_iff]
        exact and_congr_right' (by simpa using canEnd_of_ne (by simp) rest)
  | .field head (some set), fuel, level, depth, text, rest, ha, hfuel, htext, hrest => by
      cases ha with
      | field hhead hlimit hne hitems =>
        have hlength := congrArg List.length (chars_field depth head (some set) [])
        simp only [bodyChars, Option.elim_some, List.append_nil, List.length_append,
          List.length_cons] at hlength
        have hfuel : (setChars depth set).length ≤ fuel := by omega
        have hset : Rereads (selectionSet fuel (level + 1))
            (' ' :: (setChars depth set ++ '\n' :: rest)) set ('\n' :: rest)
            (SelectionSet.Legible set) :=
          rereads_selectionSet hne hlimit hfuel (fun n hn => rereadsAll_lines hitems hn)
            (by rw [skip_space, skip_setChars hne])
        rw [chars_field, bodyChars, Option.elim_some, List.cons_append] at htext
        refine (rereads_fieldSelection (ensures_selectionSet _ _)
          (rereads_fieldHead hhead htext (closesHead_setChars hne depth _)) hset.optional).congr ?_
        rw [legible_field_iff]
        exact (and_iff_left (canEnd_of_ne (by simp) rest)).symm
  | .spread name ds, fuel, level, depth, text, rest, ha, _, htext, hrest => by
      cases ha with
      | spread hname hds =>
        refine (rereads_spread (ensures_selectionSet _ _)
          (fun text => refuses_selectionSet _ _) hname hds htext hrest).congr ?_
        rw [legible_spread_iff, CanEnd]
        simp
  | .inline condition ds set, fuel, level, depth, text, rest, ha, hfuel, htext, _ => by
      cases ha with
      | inline hcondition hds hlimit hne hitems =>
        have hlength := congrArg List.length (chars_inline depth condition ds set [])
        simp only [List.append_nil, List.length_append, List.length_cons] at hlength
        have hfuel : (setChars depth set).length ≤ fuel := by omega
        have hset : Rereads (selectionSet fuel (level + 1))
            (' ' :: (setChars depth set ++ '\n' :: rest)) set ('\n' :: rest)
            (SelectionSet.Legible set) :=
          rereads_selectionSet hne hlimit hfuel (fun n hn => rereadsAll_lines hitems hn)
            (by rw [skip_space, skip_setChars hne])
        refine (rereads_inline (ensures_selectionSet _ _) hne hcondition hds hset htext).congr ?_
        rw [legible_inline_iff]
        exact (and_iff_left (canEnd_of_ne (by simp) rest)).symm
termination_by structural a => a

/-- Selections are read back from their lines exactly if they are legible. -/
theorem rereadsAll_lines : ∀ {set : List Selection} {fuel level depth : Nat} {rest : List Char},
    (∀ a ∈ set, a.WellFormed level) → (∀ a ∈ set, (chars (depth + 1) a).length ≤ fuel) →
    RereadsAll (Parser.selection (selectionSet fuel (level + 1)))
      ('\n' :: (lines (depth + 1) set ++ (indent depth ++ '\x7d' :: rest))) set
      ('\n' :: (indent depth ++ '\x7d' :: rest)) (SelectionSet.Legible set)
  | [], _, _, depth, rest, _, _ => .nil (refuses_selection _ depth rest) ⟨.nil, by simp⟩
  | a :: set, fuel, level, depth, rest, ha, hfuel => by
      obtain ⟨ha, hset⟩ := List.forall_mem_cons.1 ha
      obtain ⟨hfuel, hfuels⟩ := List.forall_mem_cons.1 hfuel
      obtain ⟨c, cs, heq, hc⟩ := ha.chars_eq_cons (depth + 1)
        ('\n' :: (lines (depth + 1) set ++ (indent depth ++ '\x7d' :: rest)))
      have htext : skip ('\n' :: (lines (depth + 1) (a :: set) ++
          (indent depth ++ '\x7d' :: rest))) = chars (depth + 1) a ++
            '\n' :: (lines (depth + 1) set ++ (indent depth ++ '\x7d' :: rest)) := by
        rw [skip_newline, lines_cons, skip_indent, heq, skip_solid (isSolid_of_start hc)]
      refine .cons (rereads ha hfuel htext (startsLine_lines hset depth rest)) ?_
        (rereadsAll_lines hset hfuels) ?_
      · rw [lines_cons]
        simp only [List.length_cons, List.length_append]
        omega
      · rw [canEnd_lines_iff hset, SelectionSet.legible_cons_iff]
termination_by structural set => set

end

end Selection

end QueryCache
