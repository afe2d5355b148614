import QueryCache.Proofs.Query.Inlining

/-!
# Inlining keeps the fields of a query

`Selection.Lists` reads a selection set as the fields in it, in order, each with what it stands
in: the response keys of the fields around it and the conditions and directives of the fragments
around it. A spread is followed to the fragments of its name, and counts as an inline fragment with
the condition of the definition and the directives of both.

This is a relation, since fragments that spread themselves have no such list. Where the names of
fragments are distinct it has one list at most (`Selection.Lists.unique`), and what is inlined has
one, which inlining keeps (`Document.sameFields_inlineFragments`).
-/

namespace QueryCache

/-- Something that fields can stand in. -/
inductive Place where
  | key (name : String)
  | fragment (condition : Option String) (directives : List Directive)
deriving DecidableEq

/-- A field in its places, from the outside in. -/
structure PlacedField where
  above : List Place
  head : FieldHead
  isLeaf : Bool
deriving DecidableEq

namespace Selection

/-- The fields of a selection set that stands in these places, in order. A field comes before the
fields in it. A spread without a definition has no fields. -/
inductive Lists (fragments : List Fragment) :
    List Place → List Selection → List PlacedField → Prop
  | nil (above : List Place) : Lists fragments above [] []
  | leaf {above : List Place} (head : FieldHead) {rest : List Selection}
      {others : List PlacedField} (tail : Lists fragments above rest others) :
      Lists fragments above (field head none :: rest) (⟨above, head, true⟩ :: others)
  | branch {above : List Place} (head : FieldHead) {set rest : List Selection}
      {found others : List PlacedField}
      (inside : Lists fragments (above ++ [.key head.responseKey]) set found)
      (tail : Lists fragments above rest others) :
      Lists fragments above (field head (some set) :: rest)
        (⟨above, head, false⟩ :: found ++ others)
  | inline {above : List Place} (condition : Option String) (directives : List Directive)
      {set rest : List Selection} {found others : List PlacedField}
      (inside : Lists fragments (above ++ [.fragment condition directives]) set found)
      (tail : Lists fragments above rest others) :
      Lists fragments above (inline condition directives set :: rest) (found ++ others)
  | spread {above : List Place} {fragment : Fragment} (mem : fragment ∈ fragments)
      (directives : List Directive) {rest : List Selection} {found others : List PlacedField}
      (inside : Lists fragments
        (above ++ [.fragment (some fragment.condition) (fragment.directives ++ directives)])
        fragment.selections found)
      (tail : Lists fragments above rest others) :
      Lists fragments above (spread fragment.name directives :: rest) (found ++ others)
  | missing {above : List Place} {name : String}
      (missing : ∀ fragment ∈ fragments, fragment.name ≠ name) (directives : List Directive)
      {rest : List Selection} {others : List PlacedField}
      (tail : Lists fragments above rest others) :
      Lists fragments above (spread name directives :: rest) others

variable {fragments : List Fragment} {above : List Place}

/-- Where no two fragments share a name, the fields of a selection set are determined. -/
theorem Lists.unique (hnames : (fragments.map Fragment.name).Nodup) {set : List Selection}
    {found found' : List PlacedField} (h : Lists fragments above set found)
    (h' : Lists fragments above set found') : found = found' := by
  induction h generalizing found' with
  | nil _ => cases h'; rfl
  | leaf head _ ih =>
      cases h' with
      | leaf _ tail => rw [ih tail]
  | branch head _ _ ihinside ih =>
      cases h' with
      | branch _ inside tail => rw [ihinside inside, ih tail]
  | inline condition directives _ _ ihinside ih =>
      cases h' with
      | inline _ _ inside tail => rw [ihinside inside, ih tail]
  | @spread _ fragment mem directives _ _ _ _ _ ihinside ih =>
      generalize hname : fragment.name = name at h'
      cases h' with
      | @spread _ other mem' _ _ _ _ inside tail =>
          cases List.inj_on_of_nodup_map hnames mem mem' hname
          rw [ihinside inside, ih tail]
      | missing missing _ _ => exact absurd hname (missing fragment mem)
  | @missing _ name missing directives _ _ _ ih =>
      generalize hname : name = other at h'
      cases h' with
      | spread mem' _ _ _ => exact absurd hname.symm (missing _ mem')
      | missing _ _ tail => exact ih tail

/-- The fields of the first selection come before those of the others. -/
theorem Lists.cons {selection : Selection} {rest : List Selection}
    {found others : List PlacedField} (h : Lists fragments above [selection] found)
    (hrest : Lists fragments above rest others) :
    Lists fragments above (selection :: rest) (found ++ others) := by
  cases h with
  | leaf head tail =>
      cases tail
      exact .leaf head hrest
  | branch head inside tail =>
      cases tail
      rw [List.append_nil]
      exact .branch head inside hrest
  | inline condition directives inside tail =>
      cases tail
      rw [List.append_nil]
      exact .inline condition directives inside hrest
  | spread mem directives inside tail =>
      cases tail
      rw [List.append_nil]
      exact .spread mem directives inside hrest
  | missing missing directives tail =>
      cases tail
      exact .missing missing directives hrest

/-- What takes the place of a spread has the fields that the spread leads to. -/
def KeepsFields (fragments : List Fragment)
    (expand : String → List Directive → Except QueryFault Selection) : Prop :=
  ∀ name directives taken, expand name directives = .ok taken → ∀ above,
    ∃ found, Lists fragments above [spread name directives] found ∧ Lists [] above [taken] found

section Expanding

variable {expand : String → List Directive → Except QueryFault Selection}

mutual

theorem exists_lists_expandSpreads (hexpand : KeepsFields fragments expand) :
    ∀ (selection : Selection) {expanded : Selection},
      expandSpreads expand selection = .ok expanded → ∀ above,
        ∃ found, Lists fragments above [selection] found ∧ Lists [] above [expanded] found
  | field head none, _, h, above => by
      cases h
      exact ⟨_, .leaf head (.nil above), .leaf head (.nil above)⟩
  | field head (some set), _, h, above => by
      obtain ⟨set', hset, rfl⟩ := exists_of_expandSpreads_branch h
      obtain ⟨found, hbefore, hafter⟩ := exists_lists_expandSpreadsInAll hexpand set hset
        (above ++ [.key head.responseKey])
      exact ⟨_, .branch head hbefore (.nil above), .branch head hafter (.nil above)⟩
  | spread name directives, expanded, h, above => hexpand name directives expanded h above
  | inline condition directives set, _, h, above => by
      obtain ⟨set', hset, rfl⟩ := exists_of_expandSpreads_inline h
      obtain ⟨found, hbefore, hafter⟩ := exists_lists_expandSpreadsInAll hexpand set hset
        (above ++ [.fragment condition directives])
      exact ⟨_, .inline condition directives hbefore (.nil above),
        .inline condition directives hafter (.nil above)⟩
termination_by structural selection => selection

/-- A set has the same fields before and after its spreads are expanded. -/
theorem exists_lists_expandSpreadsInAll (hexpand : KeepsFields fragments expand) :
    ∀ (set : List Selection) {expanded : List Selection},
      expandSpreadsInAll expand set = .ok expanded → ∀ above,
        ∃ found, Lists fragments above set found ∧ Lists [] above expanded found
  | [], _, h, above => by
      cases h
      exact ⟨[], .nil above, .nil above⟩
  | selection :: rest, _, h, above => by
      obtain ⟨_, _, hfirst, hothers, rfl⟩ := exists_of_expandSpreadsInAll_cons h
      obtain ⟨found, hbefore, hafter⟩ := exists_lists_expandSpreads hexpand selection hfirst above
      obtain ⟨others, hbefore', hafter'⟩ :=
        exists_lists_expandSpreadsInAll hexpand rest hothers above
      exact ⟨found ++ others, hbefore.cons hbefore', hafter.cons hafter'⟩
termination_by structural set => set

end

end Expanding

end Selection

open Selection (Lists KeepsFields)

/-- Inlining a fragment keeps the fields of all that it spreads, in their order and their
places. -/
theorem Fragment.keepsFields_expand (fragments : List Fragment) (fuel : Nat)
    (visiting : List String) : KeepsFields fragments (expand fragments fuel visiting) := by
  refine forall_expand (fun within hwithin name fragment directives set hfragment hset above => ?_)
    fuel visiting
  obtain ⟨hmem, rfl⟩ := mem_of_find? hfragment
  obtain ⟨found, hbefore, hafter⟩ := Selection.exists_lists_expandSpreadsInAll hwithin _ hset
    (above ++ [.fragment (some fragment.condition) (fragment.directives ++ directives)])
  exact ⟨_, .spread hmem directives hbefore (.nil above), .inline _ _ hafter (.nil above)⟩

/-- The operations have the same fields, in the same order and the same places, when the spreads
in each are followed to its fragments. All else about them is equal. -/
structure Operation.SameFields (fragments others : List Fragment) (op other : Operation) :
    Prop where
  kind : op.kind = other.kind
  name : op.name = other.name
  declared : op.declared = other.declared
  directives : op.directives = other.directives
  fields : ∃ fields, (∀ found, Lists fragments [] op.selections found ↔ found = fields) ∧
    ∀ found, Lists others [] other.selections found ↔ found = fields

theorem Operation.sameFields_of_lists {fragments : List Fragment}
    (hnames : (fragments.map Fragment.name).Nodup) {op : Operation} {set : SelectionSet}
    (h : ∃ fields, Lists fragments [] op.selections fields ∧ Lists [] [] set fields) :
    op.SameFields fragments [] { op with selections := set } := by
  obtain ⟨fields, hbefore, hafter⟩ := h
  have hnone : (([] : List Fragment).map Fragment.name).Nodup := List.nodup_nil
  refine ⟨rfl, rfl, rfl, rfl, fields, fun found => ⟨fun h => h.unique hnames hbefore, ?_⟩,
    fun found => ⟨fun h => h.unique hnone hafter, ?_⟩⟩
  · rintro rfl
    exact hbefore
  · rintro rfl
    exact hafter

namespace Document

/-- A document that is inlined has the same operations with the same fields, and in its result
they need no fragments. -/
theorem sameFields_inlineFragments {d inlined : Document}
    (hnames : (d.fragments.map Fragment.name).Nodup) (h : d.inlineFragments = .ok inlined) :
    inlined.fragments = [] ∧
      List.Forall₂ (Operation.SameFields d.fragments []) d.operations inlined.operations := by
  rcases of_inlineFragments h with ⟨hnone, rfl⟩ | ⟨operations, rfl, hoperations⟩
  · -- Every spread takes its own place, since it has no fields with or without it.
    have hkeeps : KeepsFields [] fun name directives => .ok (.spread name directives) := by
      intro name directives taken htaken above
      cases htaken
      have hlists : Lists [] above [.spread name directives] [] :=
        .missing (List.forall_mem_nil _) directives (.nil above)
      exact ⟨[], hlists, hlists⟩
    rw [hnone] at hnames ⊢
    refine ⟨rfl, List.forall₂_same.2 fun op _ => ?_⟩
    exact Operation.sameFields_of_lists hnames (Selection.exists_lists_expandSpreadsInAll
      hkeeps _ (Selection.expandSpreadsInAll_spread op.selections) [])
  · refine ⟨rfl, hoperations.imp fun op op' hop => ?_⟩
    obtain ⟨set, hset, rfl⟩ := exists_of_expandOperation hop
    exact Operation.sameFields_of_lists hnames (Selection.exists_lists_expandSpreadsInAll
      (Fragment.keepsFields_expand _ _ _) _ hset [])

/-- A user whose name and club are spread twice, in fragments with directives. -/
def ofClub : Document :=
  ⟨[⟨.query, some "profile", [⟨"x", "Int", none, []⟩], [⟨"live", []⟩],
      [.field ⟨some "user", "me", [⟨"id", "7"⟩], []⟩
        (some [.spread "Whole" [⟨"late", []⟩], .inline none [⟨"lazy", []⟩] [.spread "Name" []]])]⟩],
    [⟨"Name", "Named", [], [.field (.leaf "name") none]⟩,
      ⟨"Whole", "User", [⟨"once", []⟩], [.spread "Name" [],
        .field (.leaf "club") (some [.spread "Name" [⟨"late", []⟩]])]⟩]⟩

theorem sameFields_inlineFragments_club :
    let user : List Place := [.key "user"]
    let whole := user ++ [.fragment (some "User") [⟨"once", []⟩, ⟨"late", []⟩]]
    let named (above : List Place) (directives : List Directive) : PlacedField :=
      ⟨above ++ [.fragment (some "Named") directives], .leaf "name", true⟩
    (ofClub.fragments.map Fragment.name).Nodup ∧
      (∃ inlined, ofClub.inlineFragments = .ok inlined ∧ inlined.fragments = [] ∧
        List.Forall₂ (Operation.SameFields ofClub.fragments []) ofClub.operations
          inlined.operations) ∧
      ∀ op ∈ ofClub.operations, Lists ofClub.fragments [] op.selections
        [⟨[], ⟨some "user", "me", [⟨"id", "7"⟩], []⟩, false⟩, named whole [],
          ⟨whole, .leaf "club", false⟩, named (whole ++ [.key "club"]) [⟨"late", []⟩],
          named (user ++ [.fragment none [⟨"lazy", []⟩]]) []] := by
  intro user whole named
  have hnames : (ofClub.fragments.map Fragment.name).Nodup := by decide
  obtain ⟨inlined, hinlined⟩ : ∃ inlined, ofClub.inlineFragments = .ok inlined := ⟨_, rfl⟩
  have hname (above : List Place) (directives : List Directive) :
      Lists ofClub.fragments above [.spread "Name" directives] [named above directives] :=
    @Lists.spread _ above ⟨"Name", "Named", [], _⟩ List.mem_cons_self directives _ _ _
      (.leaf (.leaf "name") (.nil _)) (.nil above)
  have hwhole := @Lists.spread ofClub.fragments user ⟨"Whole", "User", [⟨"once", []⟩], _⟩
    (List.mem_cons_of_mem _ List.mem_cons_self) [⟨"late", []⟩] _ _ _
    ((hname _ []).cons (.branch (.leaf "club") (hname _ [⟨"late", []⟩]) (.nil _))) (.nil user)
  refine ⟨hnames, ⟨inlined, hinlined, sameFields_inlineFragments hnames hinlined⟩, ?_⟩
  have huser := hwhole.cons (.inline none [⟨"lazy", []⟩] (hname _ []) (.nil user))
  exact List.forall_mem_singleton.2
    (Lists.branch ⟨some "user", "me", [⟨"id", "7"⟩], []⟩ huser (.nil []))

end Document

end QueryCache
