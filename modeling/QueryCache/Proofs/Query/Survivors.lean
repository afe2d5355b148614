import QueryCache.Proofs.Local.Removal

/-!
# What outlives the removal of fields

A selection survives the removal of some fields when it is a leaf or a spread, or when something
below it survives, and it is none of these fields itself. `Selection.listing` reads a selection
set from top to bottom, with a line for each selection that says what it is and what it stands in.
The lines of what is left of a set are the lines of the survivors in it, in the same order
(`Selection.map_entry_listingOfAll`).

No field and no inline fragment is left with an empty selection set
(`Selection.allFull_removeFieldsFromAll`). A definition stays where it is, so a fragment in which
nothing survives is left with an empty one (`Document.survivors_removeFields`).
-/

namespace QueryCache

/-- All of a selection but the selections below it. -/
inductive SelectionHead where
  | field (head : FieldHead) (isLeaf : Bool)
  | spread (name : String) (directives : List Directive)
  | inline (condition : Option String) (directives : List Directive)
deriving DecidableEq

/-- It is a field of one of these names. -/
def SelectionHead.isNamed (names : List String) : SelectionHead → Bool
  | field head _ => names.contains head.name
  | _ => false

/-- One of them is a field of these names. -/
def SelectionHead.anyNamed (names : List String) (heads : List SelectionHead) : Bool :=
  heads.any (isNamed names)

theorem SelectionHead.anyNamed_append_singleton (names : List String)
    (heads : List SelectionHead) (head : SelectionHead) :
    anyNamed names (heads ++ [head]) = (anyNamed names heads || head.isNamed names) := by
  simp [anyNamed]

/-- A selection and what it stands in, from the outside in. -/
structure PlacedSelection where
  above : List SelectionHead
  selection : Selection

namespace Selection

/-- What the selection is by itself. -/
def head : Selection → SelectionHead
  | field head set => .field head set.isNone
  | spread name directives => .spread name directives
  | inline condition directives _ => .inline condition directives

mutual

/-- The selection is no field of these names, and it is a leaf or a spread, or something below it
survives. -/
def survives (names : List String) : Selection → Bool
  | field head none => !names.contains head.name
  | field head (some set) => !names.contains head.name && anySurvives names set
  | spread _ _ => true
  | inline _ _ set => anySurvives names set
termination_by structural selection => selection

/-- Some selection of a list survives. -/
def anySurvives (names : List String) : List Selection → Bool
  | [] => false
  | selection :: rest => survives names selection || anySurvives names rest
termination_by structural set => set

end

mutual

/-- The selection and all selections below it, from top to bottom, where `above` is what it stands
in. -/
def listing (above : List SelectionHead) : Selection → List PlacedSelection
  | field head none => [⟨above, field head none⟩]
  | field head (some set) =>
    ⟨above, field head (some set)⟩ :: listingOfAll (above ++ [.field head false]) set
  | spread name directives => [⟨above, spread name directives⟩]
  | inline condition directives set =>
    ⟨above, inline condition directives set⟩ ::
      listingOfAll (above ++ [.inline condition directives]) set
termination_by structural selection => selection

/-- The selections of a list with all selections below them. -/
def listingOfAll (above : List SelectionHead) : List Selection → List PlacedSelection
  | [] => []
  | selection :: rest => listing above selection ++ listingOfAll above rest
termination_by structural set => set

end

end Selection

namespace PlacedSelection

/-- The line of a selection in a listing. -/
def entry (placed : PlacedSelection) : List SelectionHead × SelectionHead :=
  (placed.above, placed.selection.head)

/-- The selection survives, and nothing that it stands in is taken out. -/
def stays (names : List String) (placed : PlacedSelection) : Bool :=
  !SelectionHead.anyNamed names placed.above && placed.selection.survives names

variable {names : List String} {above : List SelectionHead}

theorem stays_of_named (h : SelectionHead.anyNamed names above = true) (selection : Selection) :
    stays names ⟨above, selection⟩ = false := by
  rw [stays, h]
  rfl

theorem stays_of_not_named (h : SelectionHead.anyNamed names above = false)
    (selection : Selection) : stays names ⟨above, selection⟩ = selection.survives names := by
  rw [stays, h]
  rfl

end PlacedSelection

namespace Selection

open PlacedSelection (entry stays stays_of_named stays_of_not_named)
open SelectionHead (anyNamed anyNamed_append_singleton)

variable {names : List String} {above : List SelectionHead}

theorem removeFieldsFromAll_cons (names : List String) (selection : Selection)
    (rest : List Selection) :
    removeFieldsFromAll names (selection :: rest) =
      (removeFields names selection).toList ++ removeFieldsFromAll names rest := by
  rw [removeFieldsFromAll]
  cases removeFields names selection <;> rfl

theorem listingOfAll_append (above : List SelectionHead) (first second : List Selection) :
    listingOfAll above (first ++ second) =
      listingOfAll above first ++ listingOfAll above second := by
  induction first with
  | nil => rfl
  | cons selection rest ih =>
      rw [List.cons_append, listingOfAll, listingOfAll, ih, List.append_assoc]

theorem listingOfAll_singleton (above : List SelectionHead) (selection : Selection) :
    listingOfAll above [selection] = listing above selection :=
  List.append_nil _

/-! ### Who survives -/

mutual

/-- A full selection leaves something exactly if it survives. -/
theorem isSome_removeFields :
    ∀ selection : Selection, Full selection →
      (removeFields names selection).isSome = survives names selection
  | field head none, _ => by
      rw [removeFields, survives]
      cases names.contains head.name <;> rfl
  | field head (some set), ⟨hne, hfull⟩ => by
      rw [removeFields, survives, ← isEmpty_removeFieldsFromAll set hfull]
      cases names.contains head.name
      · cases hkept : removeFieldsFromAll names set <;> simp [hne]
      · rfl
  | spread _ _, _ => rfl
  | inline _ _ set, ⟨_, hfull⟩ => by
      rw [removeFields, survives, ← isEmpty_removeFieldsFromAll set hfull]
      cases removeFieldsFromAll names set <;> rfl
termination_by structural selection => selection

theorem isEmpty_removeFieldsFromAll :
    ∀ set : List Selection, AllFull set →
      (!(removeFieldsFromAll names set).isEmpty) = anySurvives names set
  | [], _ => rfl
  | selection :: rest, ⟨hselection, hrest⟩ => by
      rw [removeFieldsFromAll, anySurvives, ← isSome_removeFields selection hselection,
        ← isEmpty_removeFieldsFromAll rest hrest]
      cases removeFields names selection <;> rfl
termination_by structural set => set

end

theorem removeFieldsFromAll_eq_nil_iff {set : List Selection} (hfull : AllFull set) :
    removeFieldsFromAll names set = [] ↔ anySurvives names set = false := by
  rw [← isEmpty_removeFieldsFromAll set hfull, Bool.not_eq_false', List.isEmpty_iff]

/-! ### The listing of what is left -/

mutual

/-- Below a field of these names nothing stays. -/
theorem filter_listing_of_named :
    ∀ (selection : Selection) {above : List SelectionHead}, anyNamed names above = true →
      (listing above selection).filter (stays names) = []
  | field head none, above, h => by
      rw [listing, List.filter_cons, stays_of_named h]
      rfl
  | field head (some set), above, h => by
      have hbelow : anyNamed names (above ++ [.field head false]) = true := by
        rw [anyNamed_append_singleton, h, Bool.true_or]
      rw [listing, List.filter_cons, stays_of_named h, filter_listingOfAll_of_named set hbelow]
      rfl
  | spread _ _, above, h => by
      rw [listing, List.filter_cons, stays_of_named h]
      rfl
  | inline condition directives set, above, h => by
      have hbelow : anyNamed names (above ++ [.inline condition directives]) = true := by
        rw [anyNamed_append_singleton, h, Bool.true_or]
      rw [listing, List.filter_cons, stays_of_named h, filter_listingOfAll_of_named set hbelow]
      rfl
termination_by structural selection => selection

theorem filter_listingOfAll_of_named :
    ∀ (set : List Selection) {above : List SelectionHead}, anyNamed names above = true →
      (listingOfAll above set).filter (stays names) = []
  | [], _, _ => rfl
  | selection :: rest, above, h => by
      rw [listingOfAll, List.filter_append, filter_listing_of_named selection h,
        filter_listingOfAll_of_named rest h, List.append_nil]
termination_by structural set => set

end

mutual

theorem map_entry_listing :
    ∀ (selection : Selection) {above : List SelectionHead}, Full selection →
      anyNamed names above = false →
        (listingOfAll above (removeFields names selection).toList).map entry =
          ((listing above selection).filter (stays names)).map entry
  | field head none, above, _, h => by
      rw [removeFields, listing, List.filter_cons, stays_of_not_named h, survives]
      cases names.contains head.name <;> rfl
  | field head (some set), above, ⟨hne, hfull⟩, h => by
      rw [removeFields, listing, List.filter_cons, stays_of_not_named h, survives,
        ← isEmpty_removeFieldsFromAll set hfull]
      have hhead := anyNamed_append_singleton names above (.field head false)
      rw [h, SelectionHead.isNamed] at hhead
      cases hname : names.contains head.name with
      | true =>
          -- The field takes along all that stands below it, whether that survives or not.
          rw [filter_listingOfAll_of_named set (hhead.trans hname)]
          rfl
      | false =>
          have hset := map_entry_listingOfAll set hfull (hhead.trans hname)
          cases hkept : removeFieldsFromAll names set with
          | nil =>
              rw [hkept] at hset
              simp [hne, ← hset, listingOfAll]
          | cons kept others =>
              rw [hkept] at hset
              simp [← hset, listingOfAll_singleton, listing, entry, Selection.head]
  | spread _ _, above, _, h => by
      rw [removeFields, listing, List.filter_cons, stays_of_not_named h]
      rfl
  | inline condition directives set, above, ⟨hne, hfull⟩, h => by
      have hbelow : anyNamed names (above ++ [.inline condition directives]) = false := by
        rw [anyNamed_append_singleton, h]
        rfl
      have hset := map_entry_listingOfAll set hfull hbelow
      rw [removeFields, listing, List.filter_cons, stays_of_not_named h, survives,
        ← isEmpty_removeFieldsFromAll set hfull]
      cases hkept : removeFieldsFromAll names set with
      | nil =>
          rw [hkept] at hset
          simp [← hset, listingOfAll]
      | cons kept others =>
          rw [hkept] at hset
          simp [← hset, listingOfAll_singleton, listing, entry, Selection.head]
termination_by structural selection => selection

/-- What is left of a set is read as the survivors in the set, line by line. -/
theorem map_entry_listingOfAll :
    ∀ (set : List Selection) {above : List SelectionHead}, AllFull set →
      anyNamed names above = false →
        (listingOfAll above (removeFieldsFromAll names set)).map entry =
          ((listingOfAll above set).filter (stays names)).map entry
  | [], _, _, _ => rfl
  | selection :: rest, above, ⟨hselection, hrest⟩, h => by
      rw [removeFieldsFromAll_cons, listingOfAll_append, List.map_append,
        map_entry_listing selection hselection h, map_entry_listingOfAll rest hrest h, listingOfAll,
        List.filter_append, List.map_append]
termination_by structural set => set

end

/-! ### Removing again -/

mutual

/-- What is left of a full selection is full and has no field of these names. -/
theorem full_removeFields :
    ∀ selection : Selection, Full selection → ∀ kept ∈ removeFields names selection,
      Full kept ∧ EachField (fun head => head.name ∉ names) kept
  | field head none, _, kept, hkept => by
      rw [removeFields, Option.mem_def, Option.ite_none_left_eq_some] at hkept
      obtain ⟨hname, hkept⟩ := hkept
      cases hkept
      exact ⟨trivial, fun hmem => hname (List.contains_iff_mem.2 hmem)⟩
  | field head (some set), ⟨hne, hfull⟩, kept, hkept => by
      obtain ⟨hset, hfields⟩ := allFull_removeFieldsFromAll set hfull
      rw [removeFields, Option.mem_def, Option.ite_none_left_eq_some] at hkept
      obtain ⟨hname, hkept⟩ := hkept
      cases hleft : removeFieldsFromAll names set with
      | nil => simp [hleft, hne] at hkept
      | cons first others =>
          simp only [hleft, List.isEmpty_cons, Bool.not_false, Bool.or_true, if_true,
            Option.some.injEq] at hkept
          subst hkept
          rw [hleft] at hset hfields
          exact ⟨⟨List.cons_ne_nil _ _, hset⟩,
            fun hmem => hname (List.contains_iff_mem.2 hmem), hfields⟩
  | spread _ _, _, kept, hkept => by
      cases hkept
      exact ⟨trivial, trivial⟩
  | inline condition directives set, ⟨hne, hfull⟩, kept, hkept => by
      obtain ⟨hset, hfields⟩ := allFull_removeFieldsFromAll set hfull
      rw [removeFields] at hkept
      cases hleft : removeFieldsFromAll names set with
      | nil => simp [hleft] at hkept
      | cons first others =>
          simp only [hleft, List.isEmpty_cons, Bool.false_eq_true, if_false, Option.mem_def,
            Option.some.injEq] at hkept
          subst hkept
          rw [hleft] at hset hfields
          exact ⟨⟨List.cons_ne_nil _ _, hset⟩, hfields⟩
termination_by structural selection => selection

theorem allFull_removeFieldsFromAll :
    ∀ set : List Selection, AllFull set → AllFull (removeFieldsFromAll names set) ∧
      EachFieldOfAll (fun head => head.name ∉ names) (removeFieldsFromAll names set)
  | [], _ => ⟨trivial, trivial⟩
  | selection :: rest, ⟨hselection, hrest⟩ => by
      obtain ⟨hothers, hfields⟩ := allFull_removeFieldsFromAll rest hrest
      have hfirst := full_removeFields selection hselection
      rw [removeFieldsFromAll]
      cases hkept : removeFields names selection with
      | none => exact ⟨hothers, hfields⟩
      | some kept =>
          obtain ⟨hfull, hfield⟩ := hfirst kept hkept
          exact ⟨⟨hfull, hothers⟩, hfield, hfields⟩
termination_by structural set => set

end

mutual

theorem removeFields_of_free :
    ∀ selection : Selection, Full selection →
      EachField (fun head => head.name ∉ names) selection →
        removeFields names selection = some selection
  | field head none, _, hname => by
      rw [removeFields, if_neg (mt List.contains_iff_mem.1 hname)]
  | field head (some set), ⟨hne, hfull⟩, ⟨hname, hfields⟩ => by
      rw [removeFields, if_neg (mt List.contains_iff_mem.1 hname),
        removeFieldsFromAll_of_free set hfull hfields]
      simp
  | spread _ _, _, _ => rfl
  | inline condition directives set, ⟨hne, hfull⟩, hfields => by
      rw [removeFields, removeFieldsFromAll_of_free set hfull hfields]
      simp [hne]
termination_by structural selection => selection

/-- A full set without fields of these names stays as it is. -/
theorem removeFieldsFromAll_of_free :
    ∀ set : List Selection, AllFull set → EachFieldOfAll (fun head => head.name ∉ names) set →
      removeFieldsFromAll names set = set
  | [], _, _ => rfl
  | selection :: rest, ⟨hselection, hrest⟩, ⟨hfield, hfields⟩ => by
      rw [removeFieldsFromAll, removeFields_of_free selection hselection hfield,
        removeFieldsFromAll_of_free rest hrest hfields]
termination_by structural set => set

end

end Selection

/-! ### Documents -/

/-- A set is read as the survivors in another one, line by line. -/
def SelectionSet.Survivors (names : List String) (set left : SelectionSet) : Prop :=
  (Selection.listingOfAll [] left).map PlacedSelection.entry =
    ((Selection.listingOfAll [] set).filter (PlacedSelection.stays names)).map
      PlacedSelection.entry

theorem SelectionSet.survivors_removeFieldsFromAll (names : List String) {set : SelectionSet}
    (hfull : Selection.AllFull set) :
    Survivors names set (Selection.removeFieldsFromAll names set) :=
  Selection.map_entry_listingOfAll set hfull rfl

/-- The operation with the survivors of another one. All else about them is equal. -/
structure Operation.Survivors (names : List String) (op left : Operation) : Prop where
  kind : left.kind = op.kind
  name : left.name = op.name
  declared : left.declared = op.declared
  directives : left.directives = op.directives
  selections : SelectionSet.Survivors names op.selections left.selections

/-- The fragment with the survivors of another one. All else about them is equal. -/
structure Fragment.Survivors (names : List String) (fragment left : Fragment) : Prop where
  name : left.name = fragment.name
  condition : left.condition = fragment.condition
  directives : left.directives = fragment.directives
  selections : SelectionSet.Survivors names fragment.selections left.selections

namespace Document

theorem mapSets_id (d : Document) : d.mapSets id = d := by
  simp [mapSets]

theorem operations_removeFields (names : List String) {d : Document} (hfull : d.Full) :
    List.Forall₂ (Operation.Survivors names) d.operations (d.removeFields names).operations := by
  refine List.forall₂_map_right_iff.2 (List.forall₂_same.2 fun op hop => ?_)
  have hset := (hfull _ (mem_sets_of_operation hop)).2
  exact ⟨rfl, rfl, rfl, rfl, SelectionSet.survivors_removeFieldsFromAll names hset⟩

theorem fragments_removeFields (names : List String) {d : Document} (hfull : d.Full) :
    List.Forall₂ (Fragment.Survivors names) d.fragments (d.removeFields names).fragments := by
  refine List.forall₂_map_right_iff.2 (List.forall₂_same.2 fun fragment hfragment => ?_)
  have hset := (hfull _ (mem_sets_of_fragment hfragment)).2
  exact ⟨rfl, rfl, rfl, SelectionSet.survivors_removeFieldsFromAll names hset⟩

/-- Removing fields from a full document leaves the survivors of its definitions. There is no
field of these names among them, and no field and no inline fragment with an empty set. The set of
a fragment is empty exactly if nothing in it survives. Removing the fields again changes
nothing. -/
theorem survivors_removeFields {d : Document} (hfull : d.Full) (names : List String) :
    List.Forall₂ (Operation.Survivors names) d.operations (d.removeFields names).operations ∧
      List.Forall₂ (Fragment.Survivors names) d.fragments (d.removeFields names).fragments ∧
      ((d.removeFields names).EachField fun head => head.name ∉ names) ∧
      (∀ set ∈ (d.removeFields names).sets, Selection.AllFull set) ∧
      ((∀ fragment ∈ (d.removeFields names).fragments, fragment.selections ≠ []) ↔
        ∀ fragment ∈ d.fragments, Selection.anySurvives names fragment.selections = true) ∧
      (d.removeFields names).removeFields names = d.removeFields names := by
  have hsets : (d.removeFields names).sets = d.sets.map (Selection.removeFieldsFromAll names) :=
    sets_mapSets _ d
  have hleft : ∀ set ∈ (d.removeFields names).sets, Selection.AllFull set ∧
      Selection.EachFieldOfAll (fun head => head.name ∉ names) set := by
    rw [hsets, List.forall_mem_map]
    exact fun set hset => Selection.allFull_removeFieldsFromAll set (hfull set hset).2
  refine ⟨operations_removeFields names hfull, fragments_removeFields names hfull,
    fun set hset => (hleft set hset).2, fun set hset => (hleft set hset).1, ?_, ?_⟩
  · refine List.forall_mem_map.trans (forall₂_congr fun fragment hfragment => ?_)
    have hset := (hfull _ (mem_sets_of_fragment hfragment)).2
    exact (not_congr (Selection.removeFieldsFromAll_eq_nil_iff hset)).trans
      (Bool.not_eq_false _).to_iff
  · have hagain : (d.removeFields names).removeFields names = (d.removeFields names).mapSets id :=
      mapSets_congr fun set hset =>
        Selection.removeFieldsFromAll_of_free set (hleft set hset).1 (hleft set hset).2
    rw [hagain, mapSets_id]

theorem survivors_removeFields_moods :
    let left := ofMoods.removeFields ["mood"]
    ofMoods.Full ∧ List.Forall₂ (Operation.Survivors ["mood"]) ofMoods.operations left.operations ∧
      List.Forall₂ (Fragment.Survivors ["mood"]) ofMoods.fragments left.fragments ∧
      (left.EachField fun head => head.name ∉ ["mood"]) ∧
      (∀ set ∈ left.sets, Selection.AllFull set) ∧
      (∀ fragment ∈ ofMoods.fragments,
        Selection.anySurvives ["mood"] fragment.selections = true) ∧
      (∀ fragment ∈ left.fragments, fragment.selections ≠ []) ∧
      left.removeFields ["mood"] = left := by
  intro left
  have hfull : ofMoods.Full := by
    simp [Full, sets, ofMoods, Operation.ofName, Selection.Full, Selection.AllFull]
  have hsurvives : ∀ fragment ∈ ofMoods.fragments,
      Selection.anySurvives ["mood"] fragment.selections = true := by decide
  obtain ⟨hoperations, hfragments, hfields, hsets, hiff, hagain⟩ :=
    survivors_removeFields hfull ["mood"]
  exact ⟨hfull, hoperations, hfragments, hfields, hsets, hsurvives, hiff.2 hsurvives, hagain⟩

/-- A user, and a fragment for the mood of users beside one for their names. -/
def ofNames : Document :=
  ⟨[⟨.query, none, [], [], [.field (.leaf "user")
      (some [.field (.leaf "id") none, .spread "Name" []])]⟩],
    [⟨"Name", "User", [], [.field (.leaf "name") none]⟩,
      ⟨"Mood", "User", [], [.field (.leaf "mood") none]⟩]⟩

/-- The fragment that is used up is left with an empty selection set. -/
theorem empty_fragment_after_removal :
    ¬ ∀ (d : Document) (names : List String), d.Full →
      ∀ fragment ∈ (d.removeFields names).fragments, fragment.selections ≠ [] := by
  intro hclaim
  have hfull : ofNames.Full := by
    simp [Full, sets, ofNames, Selection.Full, Selection.AllFull]
  exact hclaim ofNames ["mood"] hfull ⟨"Mood", "User", [], []⟩ (by decide) rfl

end Document

end QueryCache
