import QueryCache.Proofs.Client.Contacts
import QueryCache.Proofs.Client.Inquiries
import QueryCache.Proofs.Client.Simple
import QueryCache.Proofs.Local.Concealed
import QueryCache.Proofs.Local.Remainder

/-!
# When the server is asked

The server has something to answer when an operation has a leaf or a spread outside of local
fields (`Document.Asks`). For a full document with an operation this is what a split decides
(`Document.sendToServer_iff`).

A client asks the server for a query only when that query, or a mutation of the call, needs it.
The requests of a call are those of the queries that are running, which are registered, and of its
own mutation. What a call does to the registry is `Call.registers`: a query that is run is there
under its own key, and nothing comes to be there in another way. `Run.needsServer_of_requested`
puts this together for every call of a run. The requests that it speaks of are noted in the journal,
and the server is asked nothing else (`Backend.Accounts`).
-/

namespace QueryCache

/-! ### Documents that ask for something -/

namespace Document

/-- Some operation asks the server for something. -/
def Asks (directive : String) (d : Document) : Prop :=
  ∃ op ∈ d.operations, Selection.AnyAsks directive op.selections

/-- The server is asked exactly if there is something to ask it for. -/
theorem sendToServer_iff (directive : String) {d : Document} (hsome : d.operations ≠ [])
    (hfull : d.Full) : (d.split directive).sendToServer = true ↔ d.Asks directive := by
  have hop : ∀ op ∈ d.operations, op.selections ≠ [] ∧ Selection.AllFull op.selections :=
    fun op hmem => hfull _ (mem_sets_of_operation hmem)
  have hfilled : (d.operations.any fun op => !op.selections.isEmpty) = true := by
    obtain ⟨op, hmem⟩ := List.exists_mem_of_ne_nil _ hsome
    exact List.any_eq_true.2 ⟨op, hmem, by simp [(hop op hmem).1]⟩
  rw [sendToServer_split, hfilled, Bool.not_true, Bool.false_or, List.any_eq_true]
  refine exists_congr fun op => and_congr_right fun hmem => ?_
  rw [← (Selection.servedAll_of_full directive op.selections (hop op hmem).2).2]
  simp

end Document

namespace Selection

variable {expand : String → List Directive → Except QueryFault Selection}

mutual

theorem full_of_expandSpreads
    (hexpand : ∀ name directives taken, expand name directives = .ok taken → Full taken) :
    ∀ (selection : Selection) {expanded : Selection}, Full selection →
      expandSpreads expand selection = .ok expanded → Full expanded
  | field _ none, _, _, h => by
      cases h
      trivial
  | field _ (some set), _, ⟨hne, hfull⟩, h => by
      obtain ⟨set', hset, rfl⟩ := exists_of_expandSpreads_branch h
      exact full_of_expandSpreadsInAll hexpand set hne hfull hset
  | spread name directives, expanded, _, h => hexpand name directives expanded h
  | inline _ _ set, _, ⟨hne, hfull⟩, h => by
      obtain ⟨set', hset, rfl⟩ := exists_of_expandSpreads_inline h
      exact full_of_expandSpreadsInAll hexpand set hne hfull hset
termination_by structural selection => selection

/-- Full selections take the places of spreads, so no set becomes empty. -/
theorem full_of_expandSpreadsInAll
    (hexpand : ∀ name directives taken, expand name directives = .ok taken → Full taken) :
    ∀ (set : List Selection) {expanded : List Selection}, set ≠ [] → AllFull set →
      expandSpreadsInAll expand set = .ok expanded → expanded ≠ [] ∧ AllFull expanded
  | [], _, hne, _, _ => absurd rfl hne
  | [selection], _, _, ⟨hfull, _⟩, h => by
      obtain ⟨_, _, hfirst, hothers, rfl⟩ := exists_of_expandSpreadsInAll_cons h
      cases hothers
      exact ⟨List.cons_ne_nil _ _, full_of_expandSpreads hexpand selection hfull hfirst, trivial⟩
  | selection :: other :: rest, _, _, ⟨hfull, hrest⟩, h => by
      obtain ⟨_, _, hfirst, hothers, rfl⟩ := exists_of_expandSpreadsInAll_cons h
      exact ⟨List.cons_ne_nil _ _, full_of_expandSpreads hexpand selection hfull hfirst,
        (full_of_expandSpreadsInAll hexpand (other :: rest) (List.cons_ne_nil _ _) hrest
          hothers).2⟩
termination_by structural set => set

end

end Selection

theorem Fragment.full_of_expand {fragments : List Fragment}
    (hfull : ∀ fragment ∈ fragments, fragment.selections ≠ [] ∧
      Selection.AllFull fragment.selections) (fuel : Nat) (visiting : List String) :
    ∀ name directives taken, expand fragments fuel visiting name directives = .ok taken →
      taken.Full := by
  refine forall_expand (fun within hwithin name fragment directives set hfragment hset => ?_)
    fuel visiting
  obtain ⟨hne, hall⟩ := hfull fragment (mem_of_find? hfragment).1
  exact Selection.full_of_expandSpreadsInAll hwithin _ hne hall hset

/-- Inlining fragments leaves a full document full. -/
theorem Document.full_of_inlineFragments {d inlined : Document} (hfull : d.Full)
    (h : d.inlineFragments = .ok inlined) : inlined.Full := by
  rcases of_inlineFragments h with ⟨-, rfl⟩ | ⟨operations, rfl, hoperations⟩
  · exact hfull
  · intro set hmem
    rw [sets, List.map_nil, List.append_nil] at hmem
    obtain ⟨op', hop', rfl⟩ := List.mem_map.1 hmem
    obtain ⟨op, hop, hexpand⟩ := exists_of_forall₂ (List.Forall₂.flip hoperations) hop'
    obtain ⟨set, hset, rfl⟩ := exists_of_expandOperation hexpand
    obtain ⟨hne, hall⟩ := hfull _ (mem_sets_of_operation hop)
    refine Selection.full_of_expandSpreadsInAll (Fragment.full_of_expand ?_ _ _) _ hne hall hset
    exact fun fragment hmem => hfull _ (mem_sets_of_fragment hmem)

/-! ### The registry -/

variable {σ : Type} {settings : Settings} {backend : Backend σ}

namespace WorkList

theorem Turns.registry_eq {work next : WorkList σ} (h : Turns settings backend work next) :
    next.session.registry = work.session.registry := by
  refine h.keep (fun next => next.session.registry = work.session.registry) rfl ?_
  intro work' next' hturn hregistry
  obtain ⟨rerun, rest, -, -, ⟨-, rfl⟩ | ⟨prepared, invalidation, session, -, hexecuted, rfl⟩⟩ :=
    turn_cases hturn
  · exact hregistry
  · exact hexecuted.registry.trans hregistry

theorem Ends.registry_eq {start : WorkList σ} {out : Except Failure Unit × Session σ}
    (h : Ends settings backend start out) : out.2.registry = start.session.registry := by
  cases h with
  | finished hturns => exact hturns.registry_eq
  | blocked hturns _ => exact hturns.registry_eq

end WorkList

/-- The registry after a call: the query that is run is there under its key, a query that is
evicted is not, and all others are as they were. -/
def Call.registers (settings : Settings) :
    Call σ → Table QueryKey Prepared → Table QueryKey Prepared
  | .query source vars, registry =>
    (source.prepared? settings vars).elim registry fun prepared =>
      Table.insert registry prepared.key prepared
  | .refetch source vars, registry =>
    (source.prepared? settings vars).elim registry fun prepared =>
      Table.insert registry prepared.key prepared
  | .evict key, registry => Table.erase registry key
  | _, registry => registry

namespace Session

theorem registry_run (source : QuerySource) (vars : Variables) (force : Bool)
    (session : Session σ) :
    (session.run settings backend source vars force).2.registry =
      (source.prepared? settings vars).elim session.registry fun prepared =>
        Table.insert session.registry prepared.key prepared := by
  rcases prepare_cases settings source vars session with
    ⟨fault, hrefused⟩ | ⟨prepared, document, hprepare, -⟩
  · rw [prepared?_of_refused hrefused, run, hrefused]
    rfl
  · rw [prepared?_of_prepare hprepare]
    have hends : WorkList.Ends settings backend _ _ := ends_run force hprepare
    rw [hends.registry_eq, opening, registry_carryOut]
    rfl

theorem registry_mutate (source : QuerySource) (vars : Variables) (session : Session σ) :
    (session.mutate settings backend source vars).2.registry = session.registry := by
  rcases prepare_cases settings source vars (session.advance "mutation" .idle .parsing) with
    ⟨fault, hrefused⟩ | ⟨prepared, document, hprepare, -⟩
  · rw [mutate_of_refused hrefused]
    rfl
  · have hregistry := (answers_fetchAndResolve backend prepared prepared.label
      ((session.advance "mutation" .idle .parsing).note
        (.split prepared.split.foundLocal prepared.split.sendToServer))).noted.registry
    rcases hfetch : Session.fetchAndResolve backend prepared prepared.label _ with
      ⟨failure | answer, next⟩
    · rw [hfetch] at hregistry
      rw [mutate_of_failed hprepare hfetch]
      exact hregistry
    · rw [hfetch] at hregistry
      rw [mutate_of_answered hprepare hfetch, WorkList.snd_returning]
      exact (WorkList.ends_propagate settings backend _ _ _).registry_eq.trans hregistry

end Session

theorem Client.registry_perform (call : Call σ) (client : Client σ) :
    (client.perform settings backend call).2.session.registry =
      call.registers settings client.session.registry := by
  cases call with
  | query source vars =>
      rw [perform, session_resume]
      exact Session.registry_run source vars false client.session
  | refetch source vars =>
      rw [perform, session_resume]
      exact Session.registry_run source vars true client.session
  | mutate source vars =>
      rw [perform, session_resume]
      exact Session.registry_mutate source vars client.session
  | evict key => rfl
  | read source vars =>
      rw [perform]
      split <;> rfl
  | write handle data =>
      rw [perform]
      split
      · rw [session_resume]
        exact (WorkList.ends_propagate settings backend _ _ _).registry_eq
      · rfl
  | elapse world => rfl

/-- Everything in the registry has been prepared from a query. -/
theorem Run.exists_source_of_registered {log : List Made} {client : Client σ}
    (h : Run settings backend log client) {key : QueryKey} {prepared : Prepared}
    (hprepared : Table.get? client.session.registry key = some prepared) :
    ∃ (source : QuerySource) (vars : Variables),
      source.prepared? settings vars = some prepared := by
  induction h with
  | start world => cases hprepared
  | @call log client run call ordered ih =>
      rw [Client.registry_perform] at hprepared
      have hinsert : ∀ source vars, Table.get?
          ((QuerySource.prepared? settings source vars).elim client.session.registry fun found =>
            Table.insert client.session.registry found.key found) key = some prepared →
          ∃ (source : QuerySource) (vars : Variables),
      source.prepared? settings vars = some prepared := by
        intro source vars hfound
        cases hsource : source.prepared? settings vars with
        | none =>
            rw [hsource] at hfound
            exact ih hfound
        | some found =>
            rw [hsource, Option.elim_some, Table.get?_insert] at hfound
            split at hfound
            · exact ⟨source, vars, hsource.trans hfound⟩
            · exact ih hfound
      cases call with
      | query source vars => exact hinsert source vars hprepared
      | refetch source vars => exact hinsert source vars hprepared
      | evict other =>
          by_cases hother : key = other
          · rw [hother, Call.registers, Table.get?_erase_self] at hprepared
            cases hprepared
          · rw [Call.registers, Table.get?_erase_of_ne _ hother] at hprepared
            exact ih hprepared
      | _ => exact ih hprepared

/-! ### Requests -/

/-- Whatever query this has been prepared from, an operation of it asks the server for something
when its fragments are inlined. Documents without operations and with empty selection sets are
left aside. -/
def Prepared.NeedsServer (settings : Settings) (prepared : Prepared) : Prop :=
  ∀ (source : QuerySource) (vars : Variables) (d inlined : Document),
    source.document = .ok d → source.prepared? settings vars = some prepared →
      d.inlineFragments = .ok inlined → inlined.operations ≠ [] → inlined.Full →
        inlined.Asks settings.localDirective

theorem Prepared.needsServer_of_sendToServer {prepared : Prepared}
    (hsend : prepared.split.sendToServer = true) : prepared.NeedsServer settings := by
  intro source vars d inlined hsource hprepared hinlined hsome hfull
  rw [QuerySource.prepared?, hsource] at hprepared
  cases hdocument : Prepared.ofDocument settings d vars with
  | error failure => simp [Except.bind, hdocument, Except.toOption] at hprepared
  | ok found =>
      have hfound : found = prepared := by
        simpa [Except.bind, hdocument, Except.toOption] using hprepared
      obtain ⟨other, hother, -, heq, -⟩ := Prepared.exists_of_ofDocument hdocument
      cases hinlined.symm.trans hother
      rw [← Document.sendToServer_iff settings.localDirective hsome hfull, ← heq, hfound]
      exact hsend

/-- A split decides to ask the server exactly if there is something to ask it for. So whenever a
call of a run asks the server, it does so for a query or a mutation that needs it: for the
registered query whose execution is under way, be it a first one or a re-run, or else for the
mutation of the call. The entries of the journal account for all that the server is asked. A query
that is called is registered by then, and whatever is registered comes from a query. -/
theorem Run.needsServer_of_requested {log : List Made} {client : Client σ}
    (h : Run settings backend log client) (hbackend : backend.Ordered) {call : Call σ}
    (hcall : call.Ordered) :
    (∀ (directive : String) (d : Document), d.operations ≠ [] → d.Full →
      ((d.split directive).sendToServer = true ↔ d.Asks directive)) ∧
    (∀ source vars prepared, call = .query source vars ∨ call = .refetch source vars →
      source.prepared? settings vars = some prepared →
        Table.get? (client.perform settings backend call).2.session.registry prepared.key =
          some prepared) ∧
    (∀ key prepared,
      Table.get? (client.perform settings backend call).2.session.registry key = some prepared →
        prepared.key = key ∧ ∃ (source : QuerySource) (vars : Variables),
          source.prepared? settings vars = some prepared) ∧
    ∃ entries, (client.perform settings backend call).2.session.cache.journal =
        client.session.cache.journal ++ entries ∧
      backend.Accounts (call.world client.session.world) entries
        (client.perform settings backend call).2.session.world ∧
      ∀ before request loading after,
        entries = before ++ .requested request loading :: after →
          ∃ prepared, request = prepared.request ∧ prepared.NeedsServer settings ∧
            ((∃ key, running before = some key ∧
              Table.get? (client.perform settings backend call).2.session.registry key =
                some prepared) ∨
            (running before = none ∧ ∃ (source : QuerySource) (vars : Variables),
              call = .mutate source vars ∧ source.prepared? settings vars = some prepared)) := by
  have hnext : Run settings backend _ (client.perform settings backend call).2 :=
    .call h call hcall
  refine ⟨fun directive d hsome hfull => Document.sendToServer_iff directive hsome hfull, ?_,
    fun key prepared hprepared => ⟨((hnext.sound hbackend).registered hprepared).1,
      hnext.exists_source_of_registered hprepared⟩, ?_⟩
  · rintro source vars prepared (rfl | rfl) hprepared
    all_goals
      rw [Client.registry_perform, Call.registers, hprepared]
      exact Table.get?_insert_self _ _ _
  · obtain ⟨entries, hjournal, hfollows⟩ :=
      Client.inquires_perform hbackend (h.sound hbackend) (h.rests hbackend) hcall
    refine ⟨entries, hjournal, Client.accounts_perform hjournal,
      fun before request loading after heq => ?_⟩
    have hasked := hfollows before request loading after heq
    cases hrunning : running before with
    | none =>
        rw [hrunning] at hasked
        obtain ⟨prepared, hfetches, hsend, hsent⟩ := hasked
        cases hsent
        refine ⟨prepared, rfl, Prepared.needsServer_of_sendToServer hsend, Or.inr ⟨rfl, ?_⟩⟩
        cases call with
        | mutate source vars =>
            exact ⟨source, vars, rfl, hfetches⟩
        | _ => cases hfetches
    | some key =>
        rw [hrunning] at hasked
        obtain ⟨prepared, hprepared, hsend, hsent⟩ := hasked
        cases hsent
        exact ⟨prepared, rfl, Prepared.needsServer_of_sendToServer hsend,
          Or.inl ⟨key, rfl, hprepared⟩⟩

/-- A query that consists of a local field, in a fragment. -/
def Document.ofTheme : Document :=
  ⟨[.ofName "theme" [.spread "Look" []]],
    [⟨"Look", "Query", [], [.field ⟨none, "theme", [], [⟨"local", []⟩]⟩ none]⟩]⟩

/-- The server keeps a record. It is not asked for the theme. -/
theorem needsServer_of_requested_theme :
    let backend := userServer.recording
    let made := Client.performAll .standard backend
      [.query (.onUser "name") [], .query (.tree .ofTheme) [], .elapse ([("name", "Bo")], [])]
      ([], .start ([("name", "Al")], []))
    let call : Call (List (String × String) × List Contact) := .refetch (.tree .ofTheme) []
    Run .standard backend made.1 made.2 ∧ backend.Ordered ∧ call.Ordered ∧
      (∃ inlined, Document.ofTheme.inlineFragments = .ok inlined ∧ inlined.operations ≠ [] ∧
        inlined.Full ∧ ¬ inlined.Asks "local" ∧
        (inlined.split "local").sendToServer = false) ∧
      ∃ entries contacts, (made.2.perform .standard backend call).2.session.cache.journal =
          made.2.session.cache.journal ++ entries ∧
        (made.2.perform .standard backend call).2.session.world.2 =
          made.2.session.world.2 ++ contacts ∧
        contacts.filterMap Contact.request? =
          (entries.filterMap Entry.request?).map Prod.fst ∧
        ∀ before request loading after, entries = before ++ .requested request loading :: after →
          running before ≠ none ∧ running before ≠ some (.ofQuery .ofTheme []) := by
  intro backend made call
  have hbackend : backend.Ordered := Backend.ordered_recording ordered_userServer
  have hrun : Run .standard backend made.1 made.2 := by
    refine Run.performAll ?_ (.start _)
    simp [Call.Ordered, Json.Ordered, Json.OrderedMembers, Table.sorted_nil]
  have hcall : call.Ordered := Json.ordered_emptyObject
  have hfull : Document.ofTheme.Full := by
    simp [Document.Full, Document.sets, Document.ofTheme, Operation.ofName, Selection.Full,
      Selection.AllFull]
  obtain ⟨inlined, hinlined, hsome, hasks⟩ : ∃ inlined,
      Document.ofTheme.inlineFragments = .ok inlined ∧ inlined.operations ≠ [] ∧
        ¬ inlined.Asks "local" := by
    refine ⟨_, rfl, List.cons_ne_nil _ _, ?_⟩
    simp [Document.Asks, Operation.ofName, Selection.AnyAsks, Selection.Asks,
      FieldHead.hasDirective]
  have hkept := Document.full_of_inlineFragments hfull hinlined
  obtain ⟨prepared, hprepared, hkey⟩ : ∃ prepared,
      (QuerySource.tree .ofTheme).prepared? .standard [] = some prepared ∧
        prepared.key = .ofQuery .ofTheme [] := ⟨_, rfl, rfl⟩
  obtain ⟨hiff, hregistered, -, entries, hjournal, haccounts, hentries⟩ :=
    Run.needsServer_of_requested hrun hbackend hcall
  obtain ⟨contacts, hworld, hcontacts⟩ := haccounts.recorded
  refine ⟨hrun, hbackend, hcall, ⟨inlined, hinlined, hsome, hkept, hasks,
    Bool.eq_false_iff.2 fun hsend => hasks ((hiff "local" inlined hsome hkept).1 hsend)⟩,
    entries, contacts, hjournal, hworld, hcontacts, fun before request loading after heq => ?_⟩
  obtain ⟨other, -, hneeds, ⟨key, hrunning, hother⟩ | ⟨-, _, _, hmutate, -⟩⟩ :=
    hentries before request loading after heq
  · rw [hrunning]
    refine ⟨Option.some_ne_none key, fun htheme => ?_⟩
    cases htheme
    have hself := hregistered _ _ prepared (Or.inr rfl) hprepared
    rw [hkey, hother] at hself
    cases hself
    exact hasks (hneeds (.tree .ofTheme) [] .ofTheme inlined rfl hprepared hinlined hsome hkept)
  · simp [call] at hmutate

end QueryCache
