import Mathlib.Data.List.Chain
import Mathlib.Data.List.Forall2
import Mathlib.Data.List.Nodup
import Mathlib.Data.List.Perm.Subperm
import Mathlib.Logic.Relation
import QueryCache.Failure
import QueryCache.Proofs.Query.Sets
import QueryCache.Query.Inline

/-!
# Which documents can be inlined

A fragment leads to the fragments that it spreads (`Fragment.Leads`). A document is resolvable
when every name that its operations reach in this way has a definition, and none of these leads
back to itself (`Document.Resolvable`).

An inlining walks along chains of names that lead to each other. If it comes to an end, all that a
chain can reach is defined and free of cycles (`Fragment.settled_of_expand`), and if it fails, the
chain that it was on has a gap or closes (`Fragment.fails_of_expand`); the bound on the recursion
is never met. So a document with definitions can be inlined exactly if it is resolvable.

A document without definitions is passed on as it is, also if it has spreads:
`Document.exists_inlineFragments_iff`.
-/

namespace QueryCache

section Steps

variable {ε α β : Type}

theorem exists_of_forall₂ {R : α → β → Prop} {items : List α} {found : List β}
    (h : List.Forall₂ R items found) {item : α} (hitem : item ∈ items) :
    ∃ value ∈ found, R item value := by
  induction h with
  | nil => cases hitem
  | @cons first value _ _ hfirst _ ih =>
      rcases List.mem_cons.1 hitem with rfl | hitem
      · exact ⟨value, List.mem_cons_self, hfirst⟩
      · obtain ⟨other, hother, hrel⟩ := ih hitem
        exact ⟨other, List.mem_cons_of_mem _ hother, hrel⟩

theorem forall₂_of_mapM_eq_ok {step : α → Except ε β} {items : List α} {found : List β}
    (h : items.mapM step = .ok found) :
    List.Forall₂ (fun item value => step item = .ok value) items found := by
  induction items generalizing found with
  | nil =>
      cases h
      exact .nil
  | cons item rest ih =>
      rw [List.mapM_cons] at h
      obtain ⟨value, hvalue, hrest⟩ := exists_of_bind_eq_ok h
      obtain ⟨others, hothers, hcons⟩ := exists_of_bind_eq_ok hrest
      cases hcons
      exact .cons hvalue (ih hothers)

theorem exists_of_mapM_eq_error {step : α → Except ε β} {items : List α} {fault : ε}
    (h : items.mapM step = .error fault) : ∃ item ∈ items, step item = .error fault := by
  induction items with
  | nil => cases h
  | cons item rest ih =>
      rw [List.mapM_cons] at h
      rcases of_bind_eq_error h with hitem | ⟨_, -, hrest⟩
      · exact ⟨item, List.mem_cons_self, hitem⟩
      · rcases of_bind_eq_error hrest with hothers | ⟨_, -, hcons⟩
        · obtain ⟨other, hother, hfault⟩ := ih hothers
          exact ⟨other, List.mem_cons_of_mem _ hother, hfault⟩
        · cases hcons

end Steps

namespace Selection

/-! ### Expanded spreads -/

section Expanding

variable {expand : String → List Directive → Except QueryFault Selection}

theorem exists_of_expandSpreads_branch {head : FieldHead} {set : List Selection}
    {expanded : Selection}
    (h : expandSpreads expand (field head (some set)) = .ok expanded) :
    ∃ set', expandSpreadsInAll expand set = .ok set' ∧ expanded = field head (some set') := by
  obtain ⟨set', hset, hfield⟩ := exists_of_bind_eq_ok h
  cases hfield
  exact ⟨set', hset, rfl⟩

theorem exists_of_expandSpreads_inline {condition : Option String}
    {directives : List Directive} {set : List Selection} {expanded : Selection}
    (h : expandSpreads expand (inline condition directives set) = .ok expanded) :
    ∃ set', expandSpreadsInAll expand set = .ok set' ∧
      expanded = inline condition directives set' := by
  obtain ⟨set', hset, hinline⟩ := exists_of_bind_eq_ok h
  cases hinline
  exact ⟨set', hset, rfl⟩

/-- A field stays the field that it is, whatever its selections become. -/
theorem exists_of_expandSpreads_field {head : FieldHead} {set : Option (List Selection)}
    {expanded : Selection} (h : expandSpreads expand (field head set) = .ok expanded) :
    ∃ set', expanded = field head set' := by
  cases set with
  | none =>
      cases h
      exact ⟨none, rfl⟩
  | some set =>
      obtain ⟨set', -, rfl⟩ := exists_of_expandSpreads_branch h
      exact ⟨some set', rfl⟩

theorem exists_of_expandSpreadsInAll_cons {selection : Selection} {rest : List Selection}
    {expanded : List Selection}
    (h : expandSpreadsInAll expand (selection :: rest) = .ok expanded) :
    ∃ first others, expandSpreads expand selection = .ok first ∧
      expandSpreadsInAll expand rest = .ok others ∧ expanded = first :: others := by
  obtain ⟨first, hfirst, hrest⟩ := exists_of_bind_eq_ok h
  obtain ⟨others, hothers, hcons⟩ := exists_of_bind_eq_ok hrest
  cases hcons
  exact ⟨first, others, hfirst, hothers, rfl⟩

mutual

theorem expandSpreads_spread :
    ∀ selection : Selection,
      expandSpreads (fun name directives => .ok (.spread name directives)) selection =
        .ok selection
  | field _ none => rfl
  | field head (some set) => by rw [expandSpreads, expandSpreadsInAll_spread set]; rfl
  | spread _ _ => rfl
  | inline condition directives set => by rw [expandSpreads, expandSpreadsInAll_spread set]; rfl
termination_by structural selection => selection

/-- Nothing changes where every spread takes its own place. -/
theorem expandSpreadsInAll_spread :
    ∀ set : List Selection,
      expandSpreadsInAll (fun name directives => .ok (.spread name directives)) set = .ok set
  | [] => rfl
  | selection :: rest => by
      rw [expandSpreadsInAll, expandSpreads_spread selection, expandSpreadsInAll_spread rest]; rfl
termination_by structural set => set

end

mutual

/-- The names that are spread in the selection, at any depth. -/
def spreadNames : Selection → List String
  | field _ none => []
  | field _ (some set) => spreadNamesOfAll set
  | spread name _ => [name]
  | inline _ _ set => spreadNamesOfAll set
termination_by structural selection => selection

/-- The names that are spread in the selections of a list, at any depth. -/
def spreadNamesOfAll : List Selection → List String
  | [] => []
  | selection :: rest => spreadNames selection ++ spreadNamesOfAll rest
termination_by structural set => set

end

mutual

theorem exists_of_expandSpreads_eq_error {fault : QueryFault} :
    ∀ selection : Selection, expandSpreads expand selection = .error fault →
      ∃ name ∈ spreadNames selection, ∃ directives, expand name directives = .error fault
  | field _ none, h => by cases h
  | field _ (some set), h => by
      rcases of_bind_eq_error h with hset | ⟨_, -, hfield⟩
      · exact exists_of_expandSpreadsInAll_eq_error set hset
      · cases hfield
  | spread name directives, h => ⟨name, List.mem_singleton_self name, directives, h⟩
  | inline _ _ set, h => by
      rcases of_bind_eq_error h with hset | ⟨_, -, hinline⟩
      · exact exists_of_expandSpreadsInAll_eq_error set hset
      · cases hinline
termination_by structural selection => selection

/-- A failure comes from one of the spreads. -/
theorem exists_of_expandSpreadsInAll_eq_error {fault : QueryFault} :
    ∀ set : List Selection, expandSpreadsInAll expand set = .error fault →
      ∃ name ∈ spreadNamesOfAll set, ∃ directives, expand name directives = .error fault
  | [], h => by cases h
  | selection :: rest, h => by
      rcases of_bind_eq_error h with hfirst | ⟨_, -, hrest⟩
      · obtain ⟨name, hname, hfault⟩ := exists_of_expandSpreads_eq_error selection hfirst
        exact ⟨name, List.mem_append_left _ hname, hfault⟩
      · rcases of_bind_eq_error hrest with hothers | ⟨_, -, hcons⟩
        · obtain ⟨name, hname, hfault⟩ := exists_of_expandSpreadsInAll_eq_error rest hothers
          exact ⟨name, List.mem_append_right _ hname, hfault⟩
        · cases hcons
termination_by structural set => set

end

mutual

theorem exists_of_mem_spreadNames {name : String} :
    ∀ (selection : Selection) {expanded : Selection},
      expandSpreads expand selection = .ok expanded → name ∈ spreadNames selection →
        ∃ directives taken, expand name directives = .ok taken
  | field _ none, _, _, hname => absurd hname List.not_mem_nil
  | field _ (some set), _, h, hname => by
      obtain ⟨_, hset, -⟩ := exists_of_expandSpreads_branch h
      exact exists_of_mem_spreadNamesOfAll set hset hname
  | spread _ directives, expanded, h, hname => by
      cases List.mem_singleton.1 hname
      exact ⟨directives, expanded, h⟩
  | inline _ _ set, _, h, hname => by
      obtain ⟨_, hset, -⟩ := exists_of_expandSpreads_inline h
      exact exists_of_mem_spreadNamesOfAll set hset hname
termination_by structural selection => selection

/-- No spread is left out. -/
theorem exists_of_mem_spreadNamesOfAll {name : String} :
    ∀ (set : List Selection) {expanded : List Selection},
      expandSpreadsInAll expand set = .ok expanded → name ∈ spreadNamesOfAll set →
        ∃ directives taken, expand name directives = .ok taken
  | [], _, _, hname => absurd hname List.not_mem_nil
  | selection :: rest, _, h, hname => by
      obtain ⟨_, _, hfirst, hothers, -⟩ := exists_of_expandSpreadsInAll_cons h
      rcases List.mem_append.1 hname with hname | hname
      · exact exists_of_mem_spreadNames selection hfirst hname
      · exact exists_of_mem_spreadNamesOfAll rest hothers hname
termination_by structural set => set

end

/-- What takes the place of a spread has no spreads. -/
def LeavesNoSpread (expand : String → List Directive → Except QueryFault Selection) : Prop :=
  ∀ name directives taken, expand name directives = .ok taken → spreadNames taken = []

mutual

theorem spreadNames_of_expandSpreads (hexpand : LeavesNoSpread expand) :
    ∀ (selection : Selection) {expanded : Selection},
      expandSpreads expand selection = .ok expanded → spreadNames expanded = []
  | field _ none, _, h => by
      cases h
      rfl
  | field _ (some set), _, h => by
      obtain ⟨_, hset, rfl⟩ := exists_of_expandSpreads_branch h
      exact spreadNamesOfAll_of_expandSpreadsInAll hexpand set hset
  | spread name directives, expanded, h => hexpand name directives expanded h
  | inline _ _ set, _, h => by
      obtain ⟨_, hset, rfl⟩ := exists_of_expandSpreads_inline h
      exact spreadNamesOfAll_of_expandSpreadsInAll hexpand set hset
termination_by structural selection => selection

theorem spreadNamesOfAll_of_expandSpreadsInAll (hexpand : LeavesNoSpread expand) :
    ∀ (set : List Selection) {expanded : List Selection},
      expandSpreadsInAll expand set = .ok expanded → spreadNamesOfAll expanded = []
  | [], _, h => by
      cases h
      rfl
  | selection :: rest, _, h => by
      obtain ⟨_, _, hfirst, hothers, rfl⟩ := exists_of_expandSpreadsInAll_cons h
      rw [spreadNamesOfAll, spreadNames_of_expandSpreads hexpand selection hfirst,
        spreadNamesOfAll_of_expandSpreadsInAll hexpand rest hothers]
      rfl
termination_by structural set => set

end

end Expanding

end Selection

open Selection (spreadNamesOfAll)

open Relation (ReflTransGen TransGen)

namespace Fragment

variable {fragments : List Fragment} {fuel : Nat} {visiting : List String} {name : String}
  {directives : List Directive}

theorem mem_of_find? {fragment : Fragment} (h : find? fragments name = some fragment) :
    fragment ∈ fragments ∧ fragment.name = name :=
  ⟨List.mem_reverse.1 (List.mem_of_find?_eq_some h), beq_iff_eq.1 (List.find?_some h :)⟩

theorem find?_eq_none_iff :
    find? fragments name = none ↔ ∀ fragment ∈ fragments, fragment.name ≠ name := by
  simp [find?]

/-- All that a spread can become: a fragment of its name that is not being inlined, with the
spreads in it expanded. -/
theorem exists_of_expand {taken : Selection}
    (h : expand fragments fuel visiting name directives = .ok taken) :
    ∃ fragment rest set, find? fragments name = some fragment ∧ name ∉ visiting ∧
      fuel = rest + 1 ∧
      Selection.expandSpreadsInAll (expand fragments rest (visiting ++ [name]))
        fragment.selections = .ok set ∧
      taken = .inline (some fragment.condition) (fragment.directives ++ directives) set := by
  cases fuel with
  | zero =>
      rw [expand] at h
      split at h
      · cases h
      · split at h <;> cases h
  | succ rest =>
      rw [expand] at h
      split at h
      · cases h
      · rename_i fragment hfragment
        split at h
        · cases h
        · rename_i hfresh
          obtain ⟨set, hset, hinline⟩ := exists_of_bind_eq_ok h
          cases hinline
          exact ⟨fragment, rest, set, hfragment,
            fun hname => hfresh (List.contains_iff_mem.2 hname), rfl, hset, rfl⟩

/-- All that can go wrong with a spread. -/
theorem of_expand_eq_error {fault : QueryFault}
    (h : expand fragments fuel visiting name directives = .error fault) :
    find? fragments name = none ∧ fault = .unknownFragment name ∨
      ∃ fragment, find? fragments name = some fragment ∧
        ((name ∈ visiting ∨ fuel = 0) ∧ fault = .fragmentCycle (visiting ++ [name]) ∨
          name ∉ visiting ∧ ∃ rest, fuel = rest + 1 ∧
            Selection.expandSpreadsInAll (expand fragments rest (visiting ++ [name]))
              fragment.selections = .error fault) := by
  rw [expand] at h
  split at h
  · cases h
    exact Or.inl ⟨‹_›, rfl⟩
  · rename_i fragment hfragment
    refine Or.inr ⟨fragment, hfragment, ?_⟩
    split at h
    · cases h
      exact Or.inl ⟨Or.inl (List.contains_iff_mem.1 ‹_›), rfl⟩
    · rename_i hfresh
      cases fuel with
      | zero =>
          cases h
          exact Or.inl ⟨Or.inr rfl, rfl⟩
      | succ rest =>
          rcases of_bind_eq_error h with hset | ⟨_, -, hinline⟩
          · exact Or.inr ⟨fun hname => hfresh (List.contains_iff_mem.2 hname), rest, rfl, hset⟩
          · cases hinline

/-- What holds of every spread that is expanded: it has to be shown of one whose fragment has
spreads of which it holds. -/
theorem forall_expand {holds : String → List Directive → Selection → Prop}
    (hstep : ∀ within : String → List Directive → Except QueryFault Selection,
      (∀ name directives taken, within name directives = .ok taken →
        holds name directives taken) →
      ∀ name fragment directives set, find? fragments name = some fragment →
        Selection.expandSpreadsInAll within fragment.selections = .ok set →
          holds name directives
            (.inline (some fragment.condition) (fragment.directives ++ directives) set))
    (fuel : Nat) (visiting : List String) :
    ∀ name directives taken, expand fragments fuel visiting name directives = .ok taken →
      holds name directives taken := by
  induction fuel generalizing visiting with
  | zero =>
      intro name directives taken h
      obtain ⟨_, _, _, -, -, hfuel, -⟩ := exists_of_expand h
      cases hfuel
  | succ fuel ih =>
      intro name directives taken h
      obtain ⟨fragment, _, set, hfragment, -, hfuel, hset, rfl⟩ := exists_of_expand h
      cases hfuel
      exact hstep _ (ih _) name fragment directives set hfragment hset

theorem leavesNoSpread_expand (fragments : List Fragment) (fuel : Nat)
    (visiting : List String) : Selection.LeavesNoSpread (expand fragments fuel visiting) := by
  refine forall_expand (fun within hwithin name fragment directives set _ hset => ?_) fuel visiting
  exact Selection.spreadNamesOfAll_of_expandSpreadsInAll hwithin fragment.selections hset

/-! ### Names that lead to each other -/

/-- The fragment of the first name spreads the second one. -/
def Leads (fragments : List Fragment) (name other : String) : Prop :=
  ∃ fragment, find? fragments name = some fragment ∧
    other ∈ spreadNamesOfAll fragment.selections

/-- The name has a definition, and does not lead back to itself. -/
structure Settled (fragments : List Fragment) (name : String) : Prop where
  defined : ∃ fragment ∈ fragments, fragment.name = name
  acyclic : ¬ TransGen (Leads fragments) name name

/-- After a fragment has been inlined, nothing that it leads to is missing, and nothing goes back
to it or to the fragments around it. -/
theorem settled_of_expand {taken : Selection} {other : String}
    (h : expand fragments fuel visiting name directives = .ok taken)
    (hother : ReflTransGen (Leads fragments) name other) :
    Settled fragments other ∧ other ∉ visiting := by
  induction fuel generalizing visiting name directives taken other with
  | zero =>
      obtain ⟨_, _, _, -, -, hfuel, -⟩ := exists_of_expand h
      cases hfuel
  | succ fuel ih =>
      obtain ⟨fragment, rest, set, hfragment, hfresh, hfuel, hset, -⟩ := exists_of_expand h
      cases hfuel
      have hnext : ∀ {next other}, Leads fragments name next →
          ReflTransGen (Leads fragments) next other →
            Settled fragments other ∧ other ∉ visiting ++ [name] := by
        rintro next other ⟨found, hfound, hname⟩ hother
        cases hfragment.symm.trans hfound
        obtain ⟨_, _, htaken⟩ := Selection.exists_of_mem_spreadNamesOfAll _ hset hname
        exact ih htaken hother
      rcases hother.cases_head with rfl | ⟨next, hleads, hother⟩
      -- The name itself is being inlined while its spreads are, so they do not lead back to it.
      · refine ⟨⟨⟨fragment, mem_of_find? hfragment⟩, fun hcycle => ?_⟩, hfresh⟩
        obtain ⟨next, hleads, hback⟩ := TransGen.head'_iff.1 hcycle
        exact (hnext hleads hback).2 (List.mem_append_right _ (List.mem_singleton_self name))
      · obtain ⟨hsettled, hnot⟩ := hnext hleads hother
        exact ⟨hsettled, fun hmem => hnot (List.mem_append_left _ hmem)⟩

/-- Along a chain of names that starts like this, one comes to a name without a definition, or to
one that stands in the chain already. The fault says which. -/
inductive Fails (fragments : List Fragment) (start : List String) : QueryFault → Prop
  | unknown {path : List String} {name : String} (starts : start <+: path ++ [name])
      (leads : (path ++ [name]).IsChain (Leads fragments))
      (missing : find? fragments name = none) : Fails fragments start (.unknownFragment name)
  | cycle {path : List String} {name : String} (starts : start <+: path ++ [name])
      (leads : (path ++ [name]).IsChain (Leads fragments)) (met : name ∈ path) :
      Fails fragments start (.fragmentCycle (path ++ [name]))

theorem Fails.of_starts {start longer : List String} {fault : QueryFault}
    (h : Fails fragments longer fault) (hstart : start <+: longer) :
    Fails fragments start fault := by
  cases h with
  | unknown starts leads missing => exact .unknown (hstart.trans starts) leads missing
  | cycle starts leads met => exact .cycle (hstart.trans starts) leads met

/-- What is kept of the names that are being inlined, with enough fuel for the other
definitions. -/
structure Visits (fragments : List Fragment) (fuel : Nat) (visiting : List String) : Prop where
  distinct : visiting.Nodup
  defined : ∀ name ∈ visiting, name ∈ fragments.map Fragment.name
  fuel : fragments.length ≤ visiting.length + fuel

theorem Visits.of_append (h : Visits fragments fuel visiting) (hfresh : name ∉ visiting)
    {fragment : Fragment} (hfragment : find? fragments name = some fragment) :
    (visiting ++ [name]).Nodup ∧
      ∀ other ∈ visiting ++ [name], other ∈ fragments.map Fragment.name := by
  obtain ⟨hmem, rfl⟩ := mem_of_find? hfragment
  refine ⟨List.concat_eq_append ▸ h.distinct.concat hfresh,
    List.forall_mem_append.2 ⟨h.defined, List.forall_mem_singleton.2 ?_⟩⟩
  exact List.mem_map_of_mem hmem

theorem Visits.succ {rest : Nat} (h : Visits fragments (rest + 1) visiting)
    (hfresh : name ∉ visiting) {fragment : Fragment}
    (hfragment : find? fragments name = some fragment) :
    Visits fragments rest (visiting ++ [name]) where
  distinct := (h.of_append hfresh hfragment).1
  defined := (h.of_append hfresh hfragment).2
  fuel := by
    have := h.fuel
    rw [List.length_append, List.length_singleton]
    omega

/-- Without fuel, all definitions are being inlined. -/
theorem Visits.mem_of_zero (h : Visits fragments 0 visiting) {fragment : Fragment}
    (hfragment : find? fragments name = some fragment) : name ∈ visiting := by
  by_contra hfresh
  obtain ⟨hdistinct, hdefined⟩ := h.of_append hfresh hfragment
  have hlength := (hdistinct.subperm hdefined).length_le
  have hfuel := h.fuel
  rw [List.length_append, List.length_singleton, List.length_map] at hlength
  omega

/-- An inlining that fails does so at the end of the chain that it has followed. -/
theorem fails_of_expand {fault : QueryFault} (hvisits : Visits fragments fuel visiting)
    (hchain : (visiting ++ [name]).IsChain (Leads fragments))
    (h : expand fragments fuel visiting name directives = .error fault) :
    Fails fragments (visiting ++ [name]) fault := by
  induction fuel generalizing visiting name directives with
  -- Out of fuel, every definition is being inlined, and this one is met again.
  | zero =>
      rcases of_expand_eq_error h with
        ⟨hmissing, rfl⟩ | ⟨fragment, hfragment, ⟨-, rfl⟩ | ⟨-, _, hfuel, -⟩⟩
      · exact .unknown (List.prefix_refl _) hchain hmissing
      · exact .cycle (List.prefix_refl _) hchain (hvisits.mem_of_zero hfragment)
      · cases hfuel
  | succ fuel ih =>
      rcases of_expand_eq_error h with
        ⟨hmissing, rfl⟩ | ⟨fragment, hfragment, ⟨hmet | hfuel, rfl⟩ | ⟨hfresh, rest, hfuel, hset⟩⟩
      · exact .unknown (List.prefix_refl _) hchain hmissing
      · exact .cycle (List.prefix_refl _) hchain hmet
      · cases hfuel
      · cases hfuel
        obtain ⟨next, hnext, _, hfault⟩ :=
          Selection.exists_of_expandSpreadsInAll_eq_error _ hset
        have hlonger : (visiting ++ [name] ++ [next]).IsChain (Leads fragments) := by
          refine hchain.append (.singleton next) fun last hlast first hfirst => ?_
          rw [List.getLast?_concat, Option.mem_some_iff] at hlast
          rw [List.head?_singleton, Option.mem_some_iff] at hfirst
          cases hlast
          cases hfirst
          exact ⟨fragment, hfragment, hnext⟩
        exact (ih (hvisits.succ hfresh hfragment) hlonger hfault).of_starts
          (List.prefix_append _ _)

theorem pairwise_transGen {names : List String} (h : names.IsChain (Leads fragments)) :
    names.Pairwise (TransGen (Leads fragments)) :=
  (h.imp fun _ _ => .single).pairwise

/-- The first name of a chain leads to all of them. -/
theorem reflTransGen_of_starts {first other : String} {names : List String}
    (h : names.IsChain (Leads fragments)) (hstart : [first] <+: names) (hother : other ∈ names) :
    ReflTransGen (Leads fragments) first other := by
  obtain ⟨rest, rfl⟩ := hstart
  rcases List.mem_cons.1 hother with rfl | hother
  · exact .refl
  · exact ((List.pairwise_cons.1 (pairwise_transGen h)).1 other hother).to_reflTransGen

/-- A fault shows a name that the chain leads to and that is not settled. -/
theorem Fails.exists_not_settled {first : String} {fault : QueryFault}
    (h : Fails fragments [first] fault) :
    ∃ other, ReflTransGen (Leads fragments) first other ∧ ¬ Settled fragments other := by
  cases h with
  | @unknown path name starts leads missing =>
      refine ⟨name, reflTransGen_of_starts leads starts (by simp), fun hsettled => ?_⟩
      obtain ⟨fragment, hmem, hname⟩ := hsettled.defined
      exact find?_eq_none_iff.1 missing fragment hmem hname
  | @cycle path name starts leads met =>
      refine ⟨name, reflTransGen_of_starts leads starts (by simp), fun hsettled => ?_⟩
      have hpairs := List.pairwise_append.1 (pairwise_transGen leads)
      exact hsettled.acyclic (hpairs.2.2 name met name (List.mem_singleton_self name))

end Fragment

namespace Document

open Fragment (Leads Settled)

/-- An operation with its spreads expanded. -/
def expandOperation (expand : String → List Directive → Except QueryFault Selection)
    (op : Operation) : Except QueryFault Operation := do
  let set ← Selection.expandSpreadsInAll expand op.selections
  return { op with selections := set }

theorem exists_of_expandOperation
    {expand : String → List Directive → Except QueryFault Selection} {op op' : Operation}
    (h : expandOperation expand op = .ok op') :
    ∃ set, Selection.expandSpreadsInAll expand op.selections = .ok set ∧
      op' = { op with selections := set } := by
  obtain ⟨set, hset, hwith⟩ := exists_of_bind_eq_ok h
  cases hwith
  exact ⟨set, hset, rfl⟩

/-- Some operation spreads the name, or a fragment that leads to it. -/
def Reaches (d : Document) (name : String) : Prop :=
  ∃ op ∈ d.operations, ∃ first ∈ spreadNamesOfAll op.selections,
    ReflTransGen (Leads d.fragments) first name

/-- Every name that an operation reaches is that of a fragment, and no such fragment reaches
itself. -/
def Resolvable (d : Document) : Prop := ∀ name, d.Reaches name → Settled d.fragments name

/-- No definition has a spread at any depth. -/
def SpreadFree (d : Document) : Prop := ∀ set ∈ d.sets, spreadNamesOfAll set = []

/-- The fault is met along a chain of names that starts in an operation. -/
def Fails (d : Document) (fault : QueryFault) : Prop :=
  ∃ op ∈ d.operations, ∃ first ∈ spreadNamesOfAll op.selections,
    Fragment.Fails d.fragments [first] fault

theorem Fails.not_resolvable {d : Document} {fault : QueryFault} (h : d.Fails fault) :
    ¬ d.Resolvable := by
  obtain ⟨op, hop, first, hfirst, hfails⟩ := h
  obtain ⟨other, hother, hnot⟩ := hfails.exists_not_settled
  exact fun hresolvable => hnot (hresolvable other ⟨op, hop, first, hfirst, hother⟩)

/-- The way of a document through an inlining that comes to an end. -/
theorem of_inlineFragments {d inlined : Document} (h : d.inlineFragments = .ok inlined) :
    d.fragments = [] ∧ inlined = d ∨
      ∃ operations, inlined = ⟨operations, []⟩ ∧ List.Forall₂ (fun op op' =>
        expandOperation (Fragment.expand d.fragments d.fragments.length []) op = .ok op')
          d.operations operations := by
  rw [inlineFragments] at h
  split at h
  · cases h
    exact Or.inl ⟨List.isEmpty_iff.1 ‹_›, rfl⟩
  · obtain ⟨operations, hoperations, hdocument⟩ := exists_of_bind_eq_ok h
    cases hdocument
    exact Or.inr ⟨operations, rfl, forall₂_of_mapM_eq_ok hoperations⟩

theorem fails_of_inlineFragments {d : Document} {fault : QueryFault}
    (h : d.inlineFragments = .error fault) : d.Fails fault := by
  rw [inlineFragments] at h
  split at h
  · cases h
  · rcases of_bind_eq_error h with hoperations | ⟨_, -, hdocument⟩
    · obtain ⟨op, hop, hfault⟩ := exists_of_mapM_eq_error hoperations
      rcases of_bind_eq_error hfault with hset | ⟨_, -, hwith⟩
      · obtain ⟨first, hfirst, _, hexpand⟩ :=
          Selection.exists_of_expandSpreadsInAll_eq_error _ hset
        exact ⟨op, hop, first, hfirst, Fragment.fails_of_expand
          ⟨List.nodup_nil, List.forall_mem_nil _, by simp⟩ (.singleton first) hexpand⟩
      · cases hwith
    · cases hdocument

/-- Without definitions, nothing that is spread is settled. -/
theorem resolvable_iff_of_fragments_nil {d : Document} (h : d.fragments = []) :
    d.Resolvable ↔ d.SpreadFree := by
  rw [Resolvable, SpreadFree, sets, h, List.map_nil, List.append_nil]
  constructor
  · rintro hresolvable _ hset
    obtain ⟨op, hop, rfl⟩ := List.mem_map.1 hset
    refine List.eq_nil_iff_forall_not_mem.2 fun name hname => ?_
    obtain ⟨fragment, hmem, -⟩ := (hresolvable name ⟨op, hop, name, hname, .refl⟩).defined
    cases hmem
  · rintro hfree name ⟨op, hop, first, hfirst, -⟩
    rw [hfree _ (List.mem_map_of_mem hop)] at hfirst
    cases hfirst

/-- With all its spreads expanded, a document was resolvable. -/
theorem resolvable_of_forall₂ {d : Document} {fuel : Nat} {operations : List Operation}
    (h : List.Forall₂ (fun op op' =>
      expandOperation (Fragment.expand d.fragments fuel []) op = .ok op')
        d.operations operations) :
    d.Resolvable ∧ SpreadFree ⟨operations, []⟩ := by
  constructor
  · rintro name ⟨op, hop, first, hfirst, hname⟩
    obtain ⟨_, -, hexpand⟩ := exists_of_forall₂ h hop
    obtain ⟨set, hset, -⟩ := exists_of_expandOperation hexpand
    obtain ⟨_, _, htaken⟩ := Selection.exists_of_mem_spreadNamesOfAll _ hset hfirst
    exact (Fragment.settled_of_expand htaken hname).1
  · rintro _ hmem
    rw [sets, List.map_nil, List.append_nil] at hmem
    obtain ⟨op', hop', rfl⟩ := List.mem_map.1 hmem
    obtain ⟨_, -, hexpand⟩ := exists_of_forall₂ (List.Forall₂.flip h) hop'
    obtain ⟨set, hset, rfl⟩ := exists_of_expandOperation hexpand
    exact Selection.spreadNamesOfAll_of_expandSpreadsInAll
      (Fragment.leavesNoSpread_expand _ _ _) _ hset

/-- A document without definitions stays as it is. Any other one is inlined exactly if it is
resolvable, and the fault shows why it is not. Nothing is left to inline in the result, and no
spread either, unless there were no definitions for those that the document has. -/
theorem exists_inlineFragments_iff (d : Document) :
    ((∃ inlined, d.inlineFragments = .ok inlined) ↔ d.fragments = [] ∨ d.Resolvable) ∧
      (∀ fault, d.inlineFragments = .error fault → d.Fails fault ∧ ¬ d.Resolvable) ∧
      ∀ inlined, d.inlineFragments = .ok inlined →
        inlined.fragments = [] ∧ inlined.inlineFragments = .ok inlined ∧
          (inlined.SpreadFree ↔ d.Resolvable) := by
  have hfails : ∀ fault, d.inlineFragments = .error fault → d.Fails fault ∧ ¬ d.Resolvable :=
    fun _ h => ⟨fails_of_inlineFragments h, (fails_of_inlineFragments h).not_resolvable⟩
  refine ⟨⟨?_, fun h => ?_⟩, hfails, fun inlined h => ?_⟩
  · rintro ⟨inlined, h⟩
    rcases of_inlineFragments h with ⟨hnone, -⟩ | ⟨operations, -, hoperations⟩
    · exact Or.inl hnone
    · exact Or.inr (resolvable_of_forall₂ hoperations).1
  · cases hdocument : d.inlineFragments with
    | ok inlined => exact ⟨inlined, rfl⟩
    | error fault =>
        rcases h with hnone | hresolvable
        · rw [inlineFragments, if_pos (List.isEmpty_iff.2 hnone)] at hdocument
          cases hdocument
        · exact absurd hresolvable (hfails fault hdocument).2
  · rcases of_inlineFragments h with ⟨hnone, rfl⟩ | ⟨operations, rfl, hoperations⟩
    · exact ⟨hnone, h, (resolvable_iff_of_fragments_nil hnone).symm⟩
    · obtain ⟨hresolvable, hfree⟩ := resolvable_of_forall₂ hoperations
      exact ⟨rfl, rfl, fun _ => hresolvable, fun _ => hfree⟩

/-- A query for these selections, with fragments on users. -/
def ofFragments (set : SelectionSet) (fragments : List (String × SelectionSet)) : Document :=
  ⟨[⟨.query, none, [], [], set⟩], fragments.map fun item => ⟨item.1, "User", [], item.2⟩⟩

/-- Fragments may be spread several times, one in the other, and a spread that no operation
reaches may go nowhere. Two fragments that spread each other cannot be inlined. -/
theorem exists_inlineFragments_iff_spreads :
    let me (set : SelectionSet) : SelectionSet := [.field (.leaf "me") (some set)]
    let name : SelectionSet := [.field (.leaf "name") none]
    let d := ofFragments (me [.spread "A" [], .field (.leaf "friend") (some [.spread "B" []])])
      [("A", [.spread "B" [], .inline none [] [.spread "B" []]]), ("B", name),
        ("C", [.spread "D" []])]
    let looping := ofFragments (me [.spread "A" []])
      [("A", me [.spread "B" []]), ("B", [.spread "A" []])]
    (∃ inlined, d.inlineFragments = .ok inlined ∧ inlined.SpreadFree) ∧ d.Resolvable ∧
      looping.inlineFragments = .error (.fragmentCycle ["A", "B", "A"]) ∧
      looping.Fails (.fragmentCycle ["A", "B", "A"]) ∧ ¬ looping.Resolvable := by
  intro me name d looping
  obtain ⟨inlined, hinlined⟩ : ∃ inlined, d.inlineFragments = .ok inlined := ⟨_, rfl⟩
  have hlooping : looping.inlineFragments = .error (.fragmentCycle ["A", "B", "A"]) := rfl
  obtain ⟨hiff, -, hok⟩ := exists_inlineFragments_iff d
  have hresolvable : d.Resolvable := (hiff.1 ⟨inlined, hinlined⟩).resolve_left (by decide)
  exact ⟨⟨inlined, hinlined, (hok inlined hinlined).2.2.2 hresolvable⟩, hresolvable, hlooping,
    (exists_inlineFragments_iff looping).2.1 _ hlooping⟩

/-- A spread of a fragment that is not there stays, if there are no fragments at all. -/
theorem inlineFragments_missing :
    let d := ofFragments [.field (.leaf "user") (some [.spread "Missing" []])] []
    d.inlineFragments = .ok d ∧ ¬ d.Resolvable ∧ ¬ d.SpreadFree := by
  intro d
  have hspread : ¬ d.SpreadFree := fun hfree =>
    absurd (hfree _ List.mem_cons_self) (List.cons_ne_nil "Missing" [])
  exact ⟨rfl, fun hresolvable => hspread ((resolvable_iff_of_fragments_nil rfl).1 hresolvable),
    hspread⟩

end Document

end QueryCache
