import Mathlib.Data.List.Forall2
import QueryCache.Client.Basic
import QueryCache.Proofs.Local.Served
import QueryCache.Proofs.Query.Inlining

/-!
# The server does not see local fields

Two documents are alike when they differ inside local fields only: in their names, aliases,
arguments, further directives and selections (`Document.Alike`). Inlining fragments keeps
documents alike, and splitting makes them equal. So alike documents that are prepared have
one request and one answer to the question whether it is sent (`Session.prepare_of_alike`),
and no local field is left in what is sent.
-/

namespace QueryCache

section Related

variable {α β : Type} {R : α → α → Prop} {first second : List α}

theorem map_eq_map_of_forall₂ {f : α → β} (h : List.Forall₂ R first second)
    (hf : ∀ a b, R a b → f a = f b) : first.map f = second.map f := by
  refine List.forall₂_eq_eq_eq ▸ ?_
  exact List.forall₂_map_left_iff.2 (List.forall₂_map_right_iff.2 (h.imp hf))

theorem any_eq_any_of_forall₂ {p : α → Bool} (h : List.Forall₂ R first second)
    (hp : ∀ a b, R a b → p a = p b) : first.any p = second.any p := by
  induction h with
  | nil => rfl
  | cons hfirst _ ih => rw [List.any_cons, List.any_cons, hp _ _ hfirst, ih]

end Related

namespace Selection

mutual

/-- Selections that differ inside fields with the directive only. -/
inductive Alike (directive : String) : Selection → Selection → Prop
  | hidden {head head' : FieldHead} {set set' : Option (List Selection)}
      (first : head.hasDirective directive = true)
      (second : head'.hasDirective directive = true) :
      Alike directive (field head set) (field head' set')
  | leaf (head : FieldHead) : Alike directive (field head none) (field head none)
  | branch (head : FieldHead) {set set' : List Selection}
      (sets : AllAlike directive set set') :
      Alike directive (field head (some set)) (field head (some set'))
  | spread (name : String) (directives : List Directive) :
      Alike directive (spread name directives) (spread name directives)
  | inline (condition : Option String) (directives : List Directive)
      {set set' : List Selection} (sets : AllAlike directive set set') :
      Alike directive (inline condition directives set) (inline condition directives set')

/-- Lists of selections that are alike one by one. -/
inductive AllAlike (directive : String) : List Selection → List Selection → Prop
  | nil : AllAlike directive [] []
  | cons {selection selection' : Selection} {rest rest' : List Selection}
      (head : Alike directive selection selection') (tail : AllAlike directive rest rest') :
      AllAlike directive (selection :: rest) (selection' :: rest')

end

variable {directive : String}

theorem AllAlike.isEmpty_eq {set set' : List Selection} (h : AllAlike directive set set') :
    set.isEmpty = set'.isEmpty := by
  cases h <;> rfl

/-! ### Splitting -/

mutual

/-- The server's part of a selection does not show what is inside a local field. -/
theorem served_of_alike :
    ∀ (selection : Selection) {other : Selection}, Alike directive selection other →
      served directive selection = served directive other
  | field head none, _, h => by
      cases h with
      | @hidden _ head' _ set' first second =>
          cases set' <;> simp [served, first, second]
      | leaf => rfl
  | field head (some set), _, h => by
      cases h with
      | @hidden _ head' _ set' first second =>
          cases set' <;> simp [served, first, second]
      | branch _ sets =>
          rw [served, served, servedAll_of_allAlike set sets, sets.isEmpty_eq]
  | spread name directives, _, h => by
      cases h
      rfl
  | inline condition directives set, _, h => by
      cases h with
      | inline _ _ sets =>
          rw [served, served, servedAll_of_allAlike set sets, sets.isEmpty_eq]
termination_by structural selection => selection

theorem servedAll_of_allAlike :
    ∀ (set : List Selection) {others : List Selection}, AllAlike directive set others →
      servedAll directive set = servedAll directive others
  | [], _, h => by
      cases h
      rfl
  | selection :: rest, _, h => by
      cases h with
      | cons head tail =>
          rw [servedAll, servedAll, served_of_alike selection head,
            servedAll_of_allAlike rest tail]
termination_by structural set => set

end

/-! ### Inlining fragments -/

section Inlining

variable {expand expand' : String → List Directive → Except QueryFault Selection}

/-- Two ways to expand spreads that lead to selections that are alike. -/
def ExpandAlike (directive : String)
    (expand expand' : String → List Directive → Except QueryFault Selection) : Prop :=
  ∀ name directives expanded expanded', expand name directives = .ok expanded →
    expand' name directives = .ok expanded' → Alike directive expanded expanded'

mutual

theorem alike_expandSpreads (hexpand : ExpandAlike directive expand expand') :
    ∀ (selection : Selection) {other expanded expanded' : Selection},
      Alike directive selection other → expandSpreads expand selection = .ok expanded →
        expandSpreads expand' other = .ok expanded' → Alike directive expanded expanded'
  | field head none, _, _, _, h, hexpanded, hexpanded' => by
      cases h with
      | hidden first second =>
          obtain ⟨_, rfl⟩ := exists_of_expandSpreads_field hexpanded
          obtain ⟨_, rfl⟩ := exists_of_expandSpreads_field hexpanded'
          exact .hidden first second
      | leaf =>
          cases hexpanded
          cases hexpanded'
          exact .leaf head
  | field head (some set), _, _, _, h, hexpanded, hexpanded' => by
      cases h with
      | hidden first second =>
          obtain ⟨_, rfl⟩ := exists_of_expandSpreads_field hexpanded
          obtain ⟨_, rfl⟩ := exists_of_expandSpreads_field hexpanded'
          exact .hidden first second
      | branch _ sets =>
          obtain ⟨_, hset, rfl⟩ := exists_of_expandSpreads_branch hexpanded
          obtain ⟨_, hset', rfl⟩ := exists_of_expandSpreads_branch hexpanded'
          exact .branch head (allAlike_expandSpreadsInAll hexpand set sets hset hset')
  | spread name directives, _, _, _, h, hexpanded, hexpanded' => by
      cases h
      exact hexpand name directives _ _ hexpanded hexpanded'
  | inline condition directives set, _, _, _, h, hexpanded, hexpanded' => by
      cases h with
      | inline _ _ sets =>
          obtain ⟨_, hset, rfl⟩ := exists_of_expandSpreads_inline hexpanded
          obtain ⟨_, hset', rfl⟩ := exists_of_expandSpreads_inline hexpanded'
          exact .inline condition directives
            (allAlike_expandSpreadsInAll hexpand set sets hset hset')
termination_by structural selection => selection

theorem allAlike_expandSpreadsInAll (hexpand : ExpandAlike directive expand expand') :
    ∀ (set : List Selection) {others expanded expanded' : List Selection},
      AllAlike directive set others → expandSpreadsInAll expand set = .ok expanded →
        expandSpreadsInAll expand' others = .ok expanded' →
          AllAlike directive expanded expanded'
  | [], _, _, _, h, hexpanded, hexpanded' => by
      cases h
      cases hexpanded
      cases hexpanded'
      exact .nil
  | selection :: rest, _, _, _, h, hexpanded, hexpanded' => by
      cases h with
      | cons head tail =>
          obtain ⟨_, _, hfirst, hothers, rfl⟩ := exists_of_expandSpreadsInAll_cons hexpanded
          obtain ⟨_, _, hfirst', hothers', rfl⟩ := exists_of_expandSpreadsInAll_cons hexpanded'
          exact .cons (alike_expandSpreads hexpand selection head hfirst hfirst')
            (allAlike_expandSpreadsInAll hexpand rest tail hothers hothers')
termination_by structural set => set

end

end Inlining

end Selection

open Selection (AllAlike ExpandAlike)

variable {directive : String}

namespace Fragment

/-- Fragments that differ inside local fields only. -/
structure Alike (directive : String) (fragment other : Fragment) : Prop where
  name : fragment.name = other.name
  condition : fragment.condition = other.condition
  directives : fragment.directives = other.directives
  selections : AllAlike directive fragment.selections other.selections

theorem find?_alike {fragments others : List Fragment}
    (h : List.Forall₂ (Alike directive) fragments others) {name : String}
    {fragment other : Fragment} (hfragment : find? fragments name = some fragment)
    (hother : find? others name = some other) : Alike directive fragment other := by
  rw [find?] at hfragment hother
  have hreverse := List.rel_reverse h
  generalize fragments.reverse = fragments at hfragment hreverse
  generalize others.reverse = others at hother hreverse
  induction hreverse with
  | nil => cases hfragment
  | @cons first first' rest rest' hfirst _ ih =>
      rw [List.find?_cons] at hfragment hother
      rw [← hfirst.name] at hother
      cases hname : first.name == name with
      | true =>
          rw [hname] at hfragment hother
          cases hfragment
          cases hother
          exact hfirst
      | false =>
          rw [hname] at hfragment hother
          exact ih hfragment hother

/-- A spread is expanded by the fragment of its name, and by the fragments that this one
spreads in turn. -/
theorem expandAlike_expand {fragments others : List Fragment}
    (h : List.Forall₂ (Alike directive) fragments others) (fuel : Nat)
    (visiting : List String) :
    ExpandAlike directive (expand fragments fuel visiting) (expand others fuel visiting) := by
  induction fuel generalizing visiting with
  | zero =>
      intro name directives expanded expanded' hexpanded _
      obtain ⟨_, _, _, -, -, hfuel, -⟩ := exists_of_expand hexpanded
      cases hfuel
  | succ fuel ih =>
      intro name directives expanded expanded' hexpanded hexpanded'
      obtain ⟨fragment, _, set, hfragment, -, hfuel, hset, rfl⟩ := exists_of_expand hexpanded
      obtain ⟨other, _, set', hother, -, hfuel', hset', rfl⟩ := exists_of_expand hexpanded'
      cases hfuel
      cases hfuel'
      have halike := find?_alike h hfragment hother
      rw [halike.condition, halike.directives]
      exact .inline _ _ (Selection.allAlike_expandSpreadsInAll (ih _) _
        halike.selections hset hset')

end Fragment

/-- Operations that differ inside local fields only. -/
structure Operation.Alike (directive : String) (op other : Operation) : Prop where
  kind : op.kind = other.kind
  name : op.name = other.name
  declared : op.declared = other.declared
  directives : op.directives = other.directives
  selections : AllAlike directive op.selections other.selections

namespace Document

/-- Documents that differ inside local fields only. -/
structure Alike (directive : String) (d other : Document) : Prop where
  operations : List.Forall₂ (Operation.Alike directive) d.operations other.operations
  fragments : List.Forall₂ (Fragment.Alike directive) d.fragments other.fragments

variable {d other : Document}

theorem Alike.operationName_eq (h : d.Alike directive other) :
    d.operationName = other.operationName := by
  rw [operationName, operationName]
  have hoperations := h.operations
  generalize d.operations = operations at hoperations
  generalize other.operations = others at hoperations
  induction hoperations with
  | nil => rfl
  | cons hfirst _ ih => rw [List.findSome?_cons, List.findSome?_cons, hfirst.name, ih]

theorem alike_expandOperations
    {expand expand' : String → List Directive → Except QueryFault Selection}
    (hexpand : ExpandAlike directive expand expand') {operations others : List Operation}
    (h : List.Forall₂ (Operation.Alike directive) operations others)
    {expanded expanded' : List Operation}
    (hexpanded : List.Forall₂ (fun op op' => expandOperation expand op = .ok op')
      operations expanded)
    (hexpanded' : List.Forall₂ (fun op op' => expandOperation expand' op = .ok op')
      others expanded') :
    List.Forall₂ (Operation.Alike directive) expanded expanded' := by
  induction h generalizing expanded expanded' with
  | nil =>
      cases hexpanded
      cases hexpanded'
      exact .nil
  | cons hop _ ih =>
      cases hexpanded with
      | cons hfirst hrest =>
          cases hexpanded' with
          | cons hfirst' hrest' =>
              obtain ⟨set, hset, rfl⟩ := exists_of_expandOperation hfirst
              obtain ⟨set', hset', rfl⟩ := exists_of_expandOperation hfirst'
              refine .cons ⟨hop.kind, hop.name, hop.declared, hop.directives, ?_⟩
                (ih hrest hrest')
              exact Selection.allAlike_expandSpreadsInAll hexpand _ hop.selections hset hset'

theorem Alike.inlineFragments (h : d.Alike directive other) {inlined inlined' : Document}
    (hinlined : d.inlineFragments = .ok inlined)
    (hinlined' : other.inlineFragments = .ok inlined') : inlined.Alike directive inlined' := by
  have hlength := h.fragments.length_eq
  simp only [Document.inlineFragments, List.isEmpty_iff_length_eq_zero] at hinlined hinlined'
  rw [← hlength] at hinlined'
  by_cases hempty : d.fragments.length = 0
  · rw [if_pos hempty] at hinlined hinlined'
    cases hinlined
    cases hinlined'
    exact h
  · rw [if_neg hempty] at hinlined hinlined'
    obtain ⟨operations, hoperations, hdocument⟩ := exists_of_bind_eq_ok hinlined
    obtain ⟨operations', hoperations', hdocument'⟩ := exists_of_bind_eq_ok hinlined'
    cases hdocument
    cases hdocument'
    have hexpand := Fragment.expandAlike_expand h.fragments d.fragments.length []
    exact ⟨alike_expandOperations hexpand h.operations (forall₂_of_mapM_eq_ok hoperations)
      (forall₂_of_mapM_eq_ok hoperations'), .nil⟩

/-- What is left for the server does not show what was inside a local field. -/
theorem Alike.server_eq (h : d.Alike directive other) :
    (d.split directive).server = (other.split directive).server := by
  have hoperations : (d.split directive).server.operations =
      (other.split directive).server.operations := by
    rw [operations_split, operations_split]
    refine map_eq_map_of_forall₂ h.operations fun op op' hop => ?_
    rw [servedOperation, servedOperation, hop.kind, hop.name, hop.declared, hop.directives,
      Selection.servedAll_of_allAlike _ hop.selections]
  have hfragments : (d.split directive).server.fragments =
      (other.split directive).server.fragments := by
    rw [fragments_split, fragments_split]
    refine map_eq_map_of_forall₂ h.fragments fun fragment fragment' hfragment => ?_
    rw [servedFragment, servedFragment, hfragment.name, hfragment.condition,
      hfragment.directives, Selection.servedAll_of_allAlike _ hfragment.selections]
  exact congrArg₂ Document.mk hoperations hfragments

/-- Neither does the decision to ask it. -/
theorem Alike.sendToServer_eq (h : d.Alike directive other) :
    (d.split directive).sendToServer = (other.split directive).sendToServer := by
  rw [sendToServer_split, sendToServer_split]
  refine congrArg₂ or (congrArg not ?_) ?_
  · refine any_eq_any_of_forall₂ h.operations fun op op' hop => ?_
    rw [hop.selections.isEmpty_eq]
  · refine any_eq_any_of_forall₂ h.operations fun op op' hop => ?_
    rw [Selection.servedAll_of_allAlike _ hop.selections]

end Document

/-! ### What is sent -/

namespace Selection

mutual

/-- No field in the selection carries the directive. -/
def FreeOf (directive : String) : Selection → Prop
  | field head none => head.hasDirective directive = false
  | field head (some set) => head.hasDirective directive = false ∧ AllFreeOf directive set
  | spread _ _ => True
  | inline _ _ set => AllFreeOf directive set
termination_by structural selection => selection

/-- No field in the selections carries the directive. -/
def AllFreeOf (directive : String) : List Selection → Prop
  | [] => True
  | selection :: rest => FreeOf directive selection ∧ AllFreeOf directive rest
termination_by structural set => set

end

theorem allFreeOf_append {set others : List Selection} (h : AllFreeOf directive set)
    (hothers : AllFreeOf directive others) : AllFreeOf directive (set ++ others) := by
  induction set with
  | nil => exact hothers
  | cons selection rest ih => exact ⟨h.1, ih h.2⟩

mutual

theorem freeOf_served (directive : String) :
    ∀ (selection : Selection) {kept : Selection}, served directive selection = some kept →
      FreeOf directive kept
  | field head none, _, h => by
      rw [served] at h
      split at h
      · cases h
      · cases h
        exact Bool.eq_false_iff.2 ‹_›
  | field head (some set), _, h => by
      rw [served] at h
      split at h
      · cases h
      · split at h
        · cases h
          exact ⟨Bool.eq_false_iff.2 ‹_›, allFreeOf_servedAll directive set⟩
        · cases h
  | spread name directives, _, h => by
      cases h
      trivial
  | inline condition directives set, _, h => by
      rw [served] at h
      split at h
      · cases h
        exact allFreeOf_servedAll directive set
      · cases h
termination_by structural selection => selection

theorem allFreeOf_servedAll (directive : String) :
    ∀ set : List Selection, AllFreeOf directive (servedAll directive set)
  | [] => trivial
  | selection :: rest => by
      rw [servedAll]
      refine allFreeOf_append ?_ (allFreeOf_servedAll directive rest)
      cases hserved : served directive selection with
      | none => trivial
      | some kept => exact ⟨freeOf_served directive selection hserved, trivial⟩
termination_by structural set => set

end

/-- The fields that are added are bare. -/
theorem allFreeOf_addMissing (names : List String) {set : List Selection}
    (h : AllFreeOf directive set) :
    AllFreeOf directive (SelectionSet.addMissing names set) := by
  rw [SelectionSet.addMissing]
  induction names generalizing set with
  | nil => exact h
  | cons name rest ih =>
      refine ih ?_
      rw [SelectionSet.addField]
      split
      · exact h
      · exact allFreeOf_append h ⟨rfl, trivial⟩

mutual

theorem freeOf_addFields (names : List String) :
    ∀ selection : Selection, FreeOf directive selection →
      FreeOf directive (addFields names selection)
  | field _ none, h => h
  | field _ (some set), h =>
      ⟨h.1, allFreeOf_addMissing names (allFreeOf_addFieldsToAll names set h.2)⟩
  | spread _ _, h => h
  | inline _ _ set, h =>
      allFreeOf_addMissing names (allFreeOf_addFieldsToAll names set h)
termination_by structural selection => selection

theorem allFreeOf_addFieldsToAll (names : List String) :
    ∀ set : List Selection, AllFreeOf directive set →
      AllFreeOf directive (addFieldsToAll names set)
  | [], _ => trivial
  | selection :: rest, h =>
      ⟨freeOf_addFields names selection h.1, allFreeOf_addFieldsToAll names rest h.2⟩
termination_by structural set => set

end

end Selection

namespace Document

/-- No field in the document carries the directive. -/
structure FreeOf (directive : String) (d : Document) : Prop where
  operations : ∀ op ∈ d.operations, Selection.AllFreeOf directive op.selections
  fragments : ∀ fragment ∈ d.fragments, Selection.AllFreeOf directive fragment.selections

theorem freeOf_split (directive : String) (d : Document) :
    (d.split directive).server.FreeOf directive := by
  constructor
  · intro op hop
    rw [operations_split] at hop
    obtain ⟨original, -, rfl⟩ := List.mem_map.1 hop
    exact Selection.allFreeOf_servedAll directive original.selections
  · intro fragment hfragment
    rw [fragments_split] at hfragment
    obtain ⟨original, -, rfl⟩ := List.mem_map.1 hfragment
    exact Selection.allFreeOf_servedAll directive original.selections

theorem FreeOf.addFields {d : Document} (h : d.FreeOf directive) (names : List String) :
    (d.addFields names).FreeOf directive := by
  constructor
  · intro op hop
    obtain ⟨original, horiginal, rfl⟩ := List.mem_map.1 hop
    exact Selection.allFreeOf_addMissing names
      (Selection.allFreeOf_addFieldsToAll names _ (h.operations original horiginal))
  · intro fragment hfragment
    obtain ⟨original, horiginal, rfl⟩ := List.mem_map.1 hfragment
    exact Selection.allFreeOf_addMissing names
      (Selection.allFreeOf_addFieldsToAll names _ (h.fragments original horiginal))

end Document

namespace Prepared

/-- How a document that is accepted is prepared. -/
theorem exists_of_ofDocument {settings : Settings} {d : Document} {vars : Variables}
    {prepared : Prepared} (h : Prepared.ofDocument settings d vars = .ok prepared) :
    ∃ inlined, d.inlineFragments = .ok inlined ∧
      prepared.split.server =
        (inlined.split settings.localDirective).server.addFields settings.injectFields ∧
      prepared.split.sendToServer = (inlined.split settings.localDirective).sendToServer ∧
      prepared.request = ⟨prepared.split.server.text, vars, d.operationName⟩ := by
  rw [ofDocument] at h
  obtain ⟨inlined, hinlined, hprepared⟩ := exists_of_bind_eq_ok h
  cases hprepared
  cases hdocument : d.inlineFragments with
  | error fault =>
      rw [hdocument] at hinlined
      cases hinlined
  | ok document =>
      rw [hdocument] at hinlined
      cases hinlined
      exact ⟨inlined, rfl, rfl, rfl, rfl⟩

end Prepared

/-- What is prepared comes from the document of the source alone. -/
theorem Session.ofDocument_of_prepare {σ : Type} {settings : Settings} {source : QuerySource}
    {vars : Variables} {session : Session σ} {d : Document} {prepared : Prepared}
    (hsource : source.document = .ok d)
    (h : (session.prepare settings source vars).1 = .ok prepared) :
    Prepared.ofDocument settings d vars = .ok prepared := by
  rw [prepare, hsource] at h
  dsimp only [Except.bind] at h
  cases hdocument : Prepared.ofDocument settings d vars with
  | error failure =>
      rw [hdocument] at h
      cases h
  | ok found =>
      rw [hdocument] at h
      exact h

/-- Documents that differ inside local fields only are prepared to one request, and to one
decision whether it is sent. In what is sent no field is local. -/
theorem Session.prepare_of_alike {σ : Type} {settings : Settings} {source source' : QuerySource}
    {vars : Variables} {session session' : Session σ} {d d' : Document}
    {prepared prepared' : Prepared} (hsource : source.document = .ok d)
    (hsource' : source'.document = .ok d') (halike : d.Alike settings.localDirective d')
    (hprepared : (session.prepare settings source vars).1 = .ok prepared)
    (hprepared' : (session'.prepare settings source' vars).1 = .ok prepared') :
    prepared.request = prepared'.request ∧
      prepared.split.sendToServer = prepared'.split.sendToServer ∧
      prepared.split.server = prepared'.split.server ∧
      prepared.request.query = prepared.split.server.text ∧
      prepared.split.server.FreeOf settings.localDirective := by
  obtain ⟨inlined, hinlined, hserver, hsend, hrequest⟩ :=
    Prepared.exists_of_ofDocument (ofDocument_of_prepare hsource hprepared)
  obtain ⟨inlined', hinlined', hserver', hsend', hrequest'⟩ :=
    Prepared.exists_of_ofDocument (ofDocument_of_prepare hsource' hprepared')
  have hinlinedAlike := halike.inlineFragments hinlined hinlined'
  have heq : prepared.split.server = prepared'.split.server := by
    rw [hserver, hserver', hinlinedAlike.server_eq]
  refine ⟨?_, ?_, heq, ?_, ?_⟩
  · rw [hrequest, hrequest', heq, halike.operationName_eq]
  · rw [hsend, hsend', hinlinedAlike.sendToServer_eq]
  · rw [hrequest]
  · rw [hserver]
    exact (Document.freeOf_split settings.localDirective inlined).addFields
      settings.injectFields

/-- A query about a user with a local field, and a fragment with another one. -/
def Document.ofProfile (mood rank : Selection) : Document :=
  ⟨[⟨.query, some "profile", [], [], [.field (.leaf "me")
      (some [.field (.leaf "id") none, mood, .spread "Rest" []])]⟩],
    [⟨"Rest", "User", [], [.field (.leaf "name") none, rank]⟩]⟩

theorem Document.ofProfile_alike {directive : String} {mood mood' rank rank' : Selection}
    (hmood : Selection.Alike directive mood mood')
    (hrank : Selection.Alike directive rank rank') :
    (ofProfile mood rank).Alike directive (ofProfile mood' rank') where
  operations := .cons ⟨rfl, rfl, rfl, rfl, .cons (.branch _ (.cons (.leaf _)
    (.cons hmood (.cons (.spread _ _) .nil)))) .nil⟩ .nil
  fragments := .cons ⟨rfl, rfl, rfl, .cons (.leaf _) (.cons hrank .nil)⟩ .nil

theorem exists_of_toBool {ε α : Type} {result : Except ε α} (h : result.toBool = true) :
    ∃ value, result = .ok value := by
  cases result with
  | error fault => cases h
  | ok value => exact ⟨value, rfl⟩

/-- One profile has a plain mood and rank, and the other an alias, an argument, another
directive and selections in their places. -/
theorem prepare_of_alike_profiles :
    let plain (name : String) : Selection := .field ⟨none, name, [], [⟨"local", []⟩]⟩ none
    let rich : Selection := .field
      ⟨some "mood", "temper", [⟨"scale", "7"⟩], [⟨"live", []⟩, ⟨"local", []⟩]⟩
      (some [.field (.leaf "name") none, .spread "Rest" []])
    let d := Document.ofProfile (plain "mood") (plain "rank")
    let d' := Document.ofProfile rich (plain "level")
    ∃ prepared prepared',
      (QuerySource.tree d).document = .ok d ∧ (QuerySource.tree d').document = .ok d' ∧
      d.Alike (Settings.standard).localDirective d' ∧
      ((Session.start ()).prepare .standard (.tree d) []).1 = .ok prepared ∧
      ((Session.start ()).prepare .standard (.tree d') []).1 = .ok prepared' ∧
      prepared.request = prepared'.request ∧
      prepared.split.sendToServer = prepared'.split.sendToServer ∧
      prepared.split.server = prepared'.split.server ∧
      prepared.request.query = prepared.split.server.text ∧
      prepared.split.server.FreeOf (Settings.standard).localDirective := by
  intro plain rich d d'
  have halike : d.Alike (Settings.standard).localDirective d' :=
    Document.ofProfile_alike (.hidden rfl rfl) (.hidden rfl rfl)
  have haccepted : ((Session.start ()).prepare .standard (.tree d) []).1.toBool = true := by
    decide +kernel
  have haccepted' : ((Session.start ()).prepare .standard (.tree d') []).1.toBool = true := by
    decide +kernel
  obtain ⟨prepared, hprepared⟩ := exists_of_toBool haccepted
  obtain ⟨prepared', hprepared'⟩ := exists_of_toBool haccepted'
  exact ⟨prepared, prepared', rfl, rfl, halike, hprepared, hprepared',
    Session.prepare_of_alike rfl rfl halike hprepared hprepared'⟩

end QueryCache
