import QueryCache.Proofs.Local.Answers
import QueryCache.Proofs.Local.Concealed
import QueryCache.Proofs.Query.Sets

/-!
# Injected fields

A client that injects the name of types asks for it in every selection set that it sends. Whether
a set has the field already is judged by the name of the field, while an entity is looked for
under the key of the result, so a query that selects the name of the type under an alias only
keeps it from being shown under its own key. That is the one exception
(`Session.shows_typename_of_prepare`), and it occurs (`not_shows_of_renamed_typename`).
-/

namespace QueryCache

namespace SelectionSet

/-- A field of this name stands under its own name in the result. -/
def Shows (set : SelectionSet) (name : String) : Prop :=
  ∃ head ∈ set.heads, head.name = name ∧ head.responseKey = name

/-- Fields of this name are selected, but only under other keys. -/
def Renames (set : SelectionSet) (name : String) : Prop :=
  set.hasField name = true ∧ ∀ head ∈ set.heads, head.name = name → head.responseKey ≠ name

theorem shows_addFields_iff {names : List String} {name : String} (h : name ∈ names)
    (set : SelectionSet) : (set.addFields names).Shows name ↔ ¬ set.Renames name := by
  obtain ⟨added, heads_eq, hadded⟩ := exists_heads_addFields names set
  simp only [Shows, Renames, heads_eq, List.mem_append, List.mem_map, not_and]
  constructor
  · rintro ⟨head, hhead | ⟨other, hother, rfl⟩, hname, hkey⟩ hfield hrenamed
    · exact hrenamed head hhead hname hkey
    · obtain rfl : other = name := hname
      exact ((hadded other).1 hother).2 hfield
  · intro hshown
    by_cases hfield : set.hasField name = true
    · by_contra hnone
      refine hshown hfield fun head hhead hname hkey => hnone ?_
      exact ⟨head, Or.inl hhead, hname, hkey⟩
    · exact ⟨.leaf name, Or.inr ⟨name, (hadded name).2 ⟨h, hfield⟩, rfl⟩, rfl, rfl⟩

/-- What answers a set that shows a field has a member of its name. -/
theorem Shows.exists_get? {set : SelectionSet} {name : String} (h : set.Shows name)
    {tree : PathTree} {members : Json.Members}
    (hanswered : Selection.AllAnsweredBy set tree members) :
    ∃ value, Table.get? members name = some value := by
  obtain ⟨head, hhead, -, hkey⟩ := h
  induction set with
  | nil => cases hhead
  | cons selection rest ih =>
      obtain ⟨hfirst, hrest⟩ := hanswered
      cases selection with
      | field found inner =>
          rcases List.mem_cons.1 hhead with rfl | hhead
          · cases inner with
            | none => exact hkey ▸ hfirst
            | some inner =>
                obtain ⟨value, hvalue, -⟩ := hfirst
                exact ⟨value, hkey ▸ hvalue⟩
          · exact ih hrest hhead
      | spread _ _ => exact ih hrest hhead
      | inline _ _ _ => exact ih hrest hhead

end SelectionSet

/-- When the name of types is injected, every selection set that is sent selects it, and shows it
under its own key unless the query asks there for it under other keys only, once its fragments
are inlined and its local fields taken out. An object that answers a set that shows it has it
where entities are told apart. -/
theorem Session.shows_typename_of_prepare {σ : Type} {settings : Settings}
    {source : QuerySource} {vars : Variables} {session : Session σ} {d : Document}
    {prepared : Prepared} (hsource : source.document = .ok d)
    (hinjected : settings.typenameField ∈ settings.injectFields)
    (hprepared : (session.prepare settings source vars).1 = .ok prepared) :
    prepared.request.query = prepared.split.server.text ∧
      ∃ inlined, d.inlineFragments = .ok inlined ∧
        ∀ set, prepared.split.server.HasSet set →
          set.hasField settings.typenameField = true ∧
          (∃ asked, (inlined.split settings.localDirective).server.HasSet asked ∧
            set = asked.addFields settings.injectFields ∧
            (set.Shows settings.typenameField ↔ ¬ asked.Renames settings.typenameField)) ∧
          (set.Shows settings.typenameField → ∀ tree members,
            Selection.AllAnsweredBy set tree members →
              ∃ value, Table.get? members settings.identity.typenameField = some value) := by
  obtain ⟨inlined, hinlined, hserver, -, hrequest⟩ :=
    Prepared.exists_of_ofDocument (ofDocument_of_prepare hsource hprepared)
  refine ⟨by rw [hrequest], inlined, hinlined, fun set hset => ?_⟩
  rw [hserver] at hset
  obtain ⟨asked, hasked, rfl⟩ := Document.exists_of_hasSet_addFields hset
  exact ⟨SelectionSet.hasField_addFields hinjected asked,
    ⟨asked, hasked, rfl, SelectionSet.shows_addFields_iff hinjected asked⟩,
    fun hshows _ _ hanswered => hshows.exists_get? hanswered⟩

/-- A query for a user with a fragment, in which only a local field has the name of the type, and
for a club, of which it asks for the name of the type under another key. -/
def QuerySource.ofClub : QuerySource :=
  .text ("\x7b me \x7b ...Rest id \x7d club \x7b id kind: __typename \x7d \x7d" ++
    "fragment Rest on User \x7b name __typename @local \x7d")

/-- What is sent in the place of the fragment. -/
def SelectionSet.ofRest : SelectionSet :=
  [.field (.leaf "name") none, .field (.leaf "__typename") none]

/-- What is sent for the club. -/
def SelectionSet.ofClub : SelectionSet :=
  [.field (.leaf "id") none, .field ⟨some "kind", "__typename", [], []⟩ none]

theorem exists_prepared_ofClub :
    ∃ d prepared, QuerySource.ofClub.document = .ok d ∧
      ((Session.start ()).prepare .standard .ofClub []).1 = .ok prepared ∧
      prepared.split.server.HasSet SelectionSet.ofRest ∧
      prepared.split.server.HasSet SelectionSet.ofClub := by
  let user : SelectionSet := [.inline (some "User") [] SelectionSet.ofRest,
    .field (.leaf "id") none, .field (.leaf "__typename") none]
  let sent : SelectionSet := [.field (.leaf "me") (some user),
    .field (.leaf "club") (some SelectionSet.ofClub), .field (.leaf "__typename") none]
  have hread : QuerySource.ofClub.document.toBool = true := by decide +kernel
  have hsent : ((Session.start ()).prepare .standard .ofClub []).1.toOption.map
      (fun prepared => prepared.split.server.sets) = some [sent] := by decide +kernel
  obtain ⟨d, hd⟩ := exists_of_toBool hread
  cases hprepared : ((Session.start ()).prepare .standard .ofClub []).1 with
  | error failure =>
      rw [hprepared] at hsent
      cases hsent
  | ok prepared =>
      rw [hprepared] at hsent
      have hsets : prepared.split.server.sets = [sent] := Option.some.inj hsent
      have hmem : sent ∈ prepared.split.server.sets := hsets ▸ List.mem_singleton_self sent
      refine ⟨d, prepared, hd, rfl, ⟨sent, hmem, ?_⟩, sent, hmem, ?_⟩
      · exact .field List.mem_cons_self (.inline List.mem_cons_self .here)
      · exact .field (List.mem_cons_of_mem _ List.mem_cons_self) .here

/-- In the place of the fragment the name of the type is shown again, after its local field has
been taken out. -/
theorem shows_typename_of_prepare_club :
    ∃ d prepared, QuerySource.ofClub.document = .ok d ∧
      Settings.standard.typenameField ∈ Settings.standard.injectFields ∧
      ((Session.start ()).prepare .standard .ofClub []).1 = .ok prepared ∧
      prepared.request.query = prepared.split.server.text ∧
      prepared.split.server.HasSet SelectionSet.ofRest ∧
      SelectionSet.ofRest.hasField "__typename" = true ∧
      (∃ asked : SelectionSet, SelectionSet.ofRest = asked.addFields ["__typename"] ∧
        ¬ asked.Renames "__typename") ∧
      ∀ tree members, Selection.AllAnsweredBy SelectionSet.ofRest tree members →
        ∃ value, Table.get? members "__typename" = some value := by
  obtain ⟨d, prepared, hd, hprepared, hset, -⟩ := exists_prepared_ofClub
  have hinjected : Settings.standard.typenameField ∈ Settings.standard.injectFields :=
    List.mem_singleton_self _
  have hshows : SelectionSet.ofRest.Shows "__typename" :=
    ⟨.leaf "__typename", by simp [SelectionSet.ofRest, SelectionSet.heads], rfl, rfl⟩
  obtain ⟨hquery, inlined, -, hsets⟩ :=
    Session.shows_typename_of_prepare hd hinjected hprepared
  obtain ⟨hfield, ⟨asked, -, heq, hiff⟩, hanswered⟩ := hsets _ hset
  exact ⟨d, prepared, hd, hinjected, hprepared, hquery, hset, hfield,
    ⟨asked, heq, hiff.1 hshows⟩, hanswered hshows⟩

/-- What is sent for the club does not show the name of the type. -/
theorem not_shows_of_renamed_typename :
    ∃ d prepared set, QuerySource.ofClub.document = .ok d ∧
      Settings.standard.typenameField ∈ Settings.standard.injectFields ∧
      ((Session.start ()).prepare .standard .ofClub []).1 = .ok prepared ∧
      prepared.split.server.HasSet set ∧ ¬ set.Shows Settings.standard.typenameField := by
  obtain ⟨d, prepared, hd, hprepared, -, hset⟩ := exists_prepared_ofClub
  refine ⟨d, prepared, _, hd, List.mem_singleton_self _, hprepared, hset, ?_⟩
  simp [SelectionSet.Shows, SelectionSet.ofClub, SelectionSet.heads, Settings.standard,
    FieldHead.leaf, FieldHead.responseKey]

end QueryCache
