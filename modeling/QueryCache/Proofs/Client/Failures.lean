import QueryCache.Proofs.Client.GivenUp
import QueryCache.Proofs.Client.Returned
import QueryCache.Proofs.Client.Simple

/-!
# Failures stay where they are

A query is refused when it cannot be read or its fragments cannot be inlined
(`QuerySource.Refused`). It fails when the server or a resolver does (`Backend.Fails`). What
is refused leaves a session as it was, and so does a mutation that fails
(`Session.Unchanged`). A query that fails turns its own cell into the failed state, in a
call of its own as well as among the re-runs of another (`Cache.FailsAlone`).
-/

namespace QueryCache

/-! ### What can go wrong -/

/-- A query is refused: it cannot be read, or its fragments cannot be inlined. -/
inductive QuerySource.Refused (source : QuerySource) : Failure → Prop
  | unread {content : String} {fault : QueryFault} (text : source = .text content)
      (refusal : Document.ofText? content = .error fault) : Refused source (.query fault)
  | uninlined {document : Document} {fault : QueryFault}
      (read : source.document = .ok document)
      (refusal : document.inlineFragments = .error fault) : Refused source (.query fault)

/-- A prepared query fails. Every error of the server counts as one of the transport, and
every error of the resolvers as one of a resolver. -/
inductive Backend.Fails {σ : Type} (backend : Backend σ) (prepared : Prepared) (world : σ) :
    Failure → Prop
  | transport {error : Failure} {text : String} (asked : prepared.split.sendToServer = true)
      (fault : (backend.fetch prepared.request world).1 = .error error)
      (kind : error.asTransport = .transport text) : Fails backend prepared world (.transport text)
  | resolver {answer : Option Json} {next : σ} {error : Failure} {text : String}
      (answered : backend.answer prepared world = (.ok answer, next))
      (pending : PathTree.hasPending prepared.split.pathTree = true)
      (fault : (backend.resolve prepared.split.pathTree answer prepared.request.vars next).1 =
        .error error)
      (kind : error.asResolver = .resolver text) : Fails backend prepared world (.resolver text)

theorem Failure.exists_asTransport (error : Failure) :
    ∃ text, error.asTransport = .transport text := by
  cases error <;> exact ⟨_, rfl⟩

theorem Failure.exists_asResolver (error : Failure) :
    ∃ text, error.asResolver = .resolver text := by
  cases error <;> exact ⟨_, rfl⟩

/-- A prepared query fails exactly if it comes to no result. -/
theorem Backend.fails_iff {σ : Type} {backend : Backend σ} {prepared : Prepared} {world : σ}
    {failure : Failure} :
    backend.Fails prepared world failure ↔
      (backend.result prepared world).1 = .error failure := by
  rw [result_eq_error_iff, answer_eq_error_iff]
  constructor
  · intro h
    cases h with
    | transport asked fault kind => exact Or.inl ⟨asked, _, fault, kind⟩
    | resolver answered pending fault kind =>
        exact Or.inr ⟨_, _, answered, pending, _, fault, kind⟩
  · rintro (⟨asked, error, fault, rfl⟩ | ⟨answer, next, answered, pending, error, fault, rfl⟩)
    · obtain ⟨text, kind⟩ := error.exists_asTransport
      exact kind ▸ .transport asked fault kind
    · obtain ⟨text, kind⟩ := error.exists_asResolver
      exact kind ▸ .resolver answered pending fault kind

/-! ### What is left unchanged -/

/-- The cache, its cells and what observers are told are the same, and so are the queries
that can run again. -/
structure Session.Unchanged {σ : Type} (session next : Session σ) : Prop where
  store : next.cache.store = session.cache.store
  registry : next.registry = session.registry
  events : next.cache.events = session.cache.events

/-- A query has failed, and nothing else has changed. -/
structure Cache.FailsAlone (cache : Cache) (key : QueryKey) (failure : Failure)
    (next : Cache) : Prop where
  failed : next.store.state? key = some (.failed failure)
  /-- The query has kept the cell that it had. -/
  kept : ∀ id, cache.store.cell? key = some id → next.store.cell? key = some id
  /-- The other queries have the cells that they had. -/
  index : ∀ query, query ≠ key → next.store.cell? query = cache.store.cell? query
  /-- All other cells are what they were, also those of evicted queries. -/
  cells : ∀ id, next.store.cell? key ≠ some id → next.store.cellOf id = cache.store.cellOf id
  snapshots : next.store.snapshots = cache.store.snapshots
  dependents : next.store.dependents = cache.store.dependents
  /-- Observers are told of this failure alone. -/
  events : next.events = cache.events ++ [.queryFailed key]
  /-- No other query has had its turn. -/
  attempted : ∃ entries, next.journal = cache.journal ++ entries ∧
    entries.filterMap Entry.attempted? = [key]

namespace Session

variable {σ : Type} {settings : Settings} {backend : Backend σ} {session next : Session σ}

theorem Noted.unchanged (h : Noted session next) : session.Unchanged next :=
  ⟨h.store, h.registry, h.events⟩

/-- Notes that have been taken before do not matter. -/
theorem Noted.failsAlone {key : QueryKey} {failure : Failure} {last : Cache}
    (h : Noted session next) (hfails : next.cache.FailsAlone key failure last) :
    session.cache.FailsAlone key failure last := by
  obtain ⟨noted, hjournal, hnoted⟩ := h.journal
  obtain ⟨entries, hlast, hattempted⟩ := hfails.attempted
  have hstore := h.store
  refine ⟨hfails.failed, hstore ▸ hfails.kept, hstore ▸ hfails.index, hstore ▸ hfails.cells,
    hstore ▸ hfails.snapshots, hstore ▸ hfails.dependents, h.events ▸ hfails.events,
    noted ++ entries, ?_, ?_⟩
  · rw [hlast, hjournal, List.append_assoc]
  · rw [List.filterMap_append, Entry.filterMap_attempted_of_isProgress hnoted, hattempted]
    rfl

/-! ### Executions that fail -/

/-- The failure of a query is written into its cell, and nowhere else. -/
theorem Executed.failsAlone {prepared : Prepared} {invalidation : Invalidation}
    (h : Executed settings backend prepared session invalidation next)
    (hindexed : session.cache.store.Indexed) {failure : Failure}
    (hfails : backend.Fails prepared session.world failure) :
    invalidation = .none ∧ session.cache.FailsAlone prepared.key failure next.cache := by
  have houtcome := Backend.fails_iff.1 hfails
  have hstore := h.store
  have hreported := h.invalidation_eq
  obtain ⟨before, after, count, hjournal, hbefore, hafter⟩ := h.journal
  rw [houtcome] at hstore hreported hjournal
  have hunreported : invalidation = .none :=
    hreported.trans (congrArg Prod.fst (Store.write_of_none rfl _))
  have hwritten : next.cache.store = (session.cache.store.awaiting prepared).writeState
      prepared.key (.failed failure) :=
    hstore.trans (congrArg Prod.snd (Store.write_of_none rfl _))
  have hcell : next.cache.store.cell? prepared.key =
      some (session.cache.store.cell prepared.key).1 := by
    rw [hwritten, Store.cell?_writeState, if_pos rfl, Store.fst_cell_awaiting]
  rw [List.append_assoc] at hjournal
  refine ⟨hunreported, ?_, ?_, ?_, ?_, ?_, ?_, ?_, _, hjournal,
    Entry.filterMap_attempted_of_executed hbefore hafter _ _ _ _⟩
  · rw [hwritten, Store.state?_writeState (hindexed.awaiting prepared), if_pos rfl]
  · intro id hid
    rw [hcell, Store.cell_of_some hid]
  · intro query hne
    rw [hwritten, Store.cell?_writeState, if_neg hne, Store.cell?_awaiting, if_neg hne]
  · intro id hid
    have hne : (session.cache.store.cell prepared.key).1 ≠ id := fun heq =>
      hid (heq ▸ hcell)
    rw [hwritten, Store.cellOf_writeState_of_ne, Store.cellOf_awaiting_of_ne _ hne]
    rwa [Store.fst_cell_awaiting]
  · rw [hwritten, Store.snapshots_writeState, Store.snapshots_awaiting]
  · rw [hwritten, Store.dependents_writeState, Store.dependents_awaiting]
  · rw [Cache.events_append hjournal, Entry.flatMap_events_of_executed hbefore hafter]
    rfl

/-! ### Calls -/

theorem prepare_of_refused {source : QuerySource} {failure : Failure}
    (h : source.Refused failure) (vars : Variables) (session : Session σ) :
    session.prepare settings source vars = (.error failure, session) := by
  cases h with
  | unread text refusal =>
      rw [prepare, text, QuerySource.document, refusal]
      rfl
  | uninlined read refusal =>
      rw [prepare, read]
      simp only [Except.bind, Prepared.ofDocument, refusal]
      rfl

theorem mutate_of_fails {source : QuerySource} {vars : Variables} {prepared : Prepared}
    (hprepared : source.prepared? settings vars = some prepared) {failure : Failure}
    (hfails : backend.Fails prepared session.world failure) :
    ∃ next, session.mutate settings backend source vars = (.ok (.failed failure), next) ∧
      session.Unchanged next := by
  have hbegin := noted_advance session "mutation" .idle .parsing
  have hprepare := prepare_of_prepared? hprepared (session.advance "mutation" .idle .parsing)
  generalize hstart : Session.note _ _ = start at hprepare
  have hworld : start.world = session.world := by
    rw [← hstart]
    rfl
  have hnoted : session.Noted start := hstart ▸ hbegin.trans (noted_note _ rfl)
  have hanswers := answers_fetchAndResolve backend prepared prepared.label start
  rw [hworld] at hanswers
  have houtcome := hanswers.outcome.trans (Backend.fails_iff.1 hfails)
  rcases hfetch : start.fetchAndResolve backend prepared prepared.label with
    ⟨error | answer, next⟩
  · rw [hfetch] at hanswers houtcome
    cases houtcome
    exact ⟨next, mutate_of_failed hprepare hfetch, (hnoted.trans hanswers.noted).unchanged⟩
  · rw [hfetch] at houtcome
    cases houtcome

/-- A query that fails runs no other query. Its handle shows the failure. -/
theorem run_of_fails {source : QuerySource} {vars : Variables} {prepared : Prepared}
    (hprepared : source.prepared? settings vars = some prepared)
    (hindexed : session.cache.store.Indexed) {failure : Failure}
    (hfails : backend.Fails prepared session.world failure) {force : Bool}
    (hforce : force = true ∨ session.cache.store.isFresh prepared.key = false) :
    ∃ handle next, session.run settings backend source vars force = (.ok handle, next) ∧
      handle.key = prepared.key ∧ handle.state = .failed failure ∧
      session.cache.FailsAlone prepared.key failure next.cache := by
  have hprepare := prepare_of_prepared? hprepared session
  generalize hstart : Session.note _ _ = start at hprepare
  have hnoted : session.Noted start := hstart ▸ noted_note session rfl
  have hworld : start.world = session.world := by
    rw [← hstart]
    rfl
  have hexecuted : Executed settings backend prepared (start.register prepared) _ _ :=
    executed_of_not_fresh settings backend prepared (hnoted.store ▸ hforce)
  obtain ⟨hnone, halone⟩ := hexecuted.failsAlone (hnoted.store ▸ hindexed) (hworld ▸ hfails)
  obtain ⟨handle, hrun, hkey, hstate⟩ := run_of_unreported hprepare hnone
  have hfailed : handle.state = .failed failure :=
    Option.some.inj (hstate.symm.trans halone.failed)
  exact ⟨handle, _, hrun, hkey, hfailed, hnoted.failsAlone halone⟩

end Session

/-- A re-run that fails asks for no other. -/
theorem WorkList.turn_of_fails {σ : Type} {settings : Settings} {backend : Backend σ}
    {rerun : Session.Rerun} {rest : List Session.Rerun} {session : Session σ}
    (hfree : ¬ rerun.Blocked settings) (hsound : session.Sound) {prepared : Prepared}
    (hprepared : Table.get? session.registry rerun.key = some prepared) {failure : Failure}
    (hfails : backend.Fails prepared session.world failure) :
    ∃ next, Turn settings backend ⟨rerun :: rest, session⟩ ⟨rest, next⟩ ∧
      session.cache.FailsAlone rerun.key failure next.cache ∧
      next.registry = session.registry := by
  have hexecuted := Session.executed_of_forced settings backend prepared session
  obtain ⟨hnone, halone⟩ := hexecuted.failsAlone hsound.store.indexed hfails
  have hturn : Turn settings backend ⟨rerun :: rest, session⟩ _ := .turn hfree
  simp only [Session.rerun_of_some hprepared, hnone, Session.rerunsOf_none,
    List.append_nil] at hturn
  rw [(hsound.registered hprepared).1] at halone
  exact ⟨_, hturn, halone, hexecuted.registry⟩

/-- What fails changes nothing but its own cell. A call that is refused leaves everything as
it was and sends nothing. A query that fails turns its own cell into the failed state, of
which observers are told and nothing else, and runs no other query, whether it is called for
or runs again after a write. A mutation that fails leaves everything as it was. -/
theorem Run.fails_alone {σ : Type} {settings : Settings} {backend : Backend σ} {log : List Made}
    {client : Client σ} (h : Run settings backend log client) (hbackend : backend.Ordered) :
    (∀ source vars failure, QuerySource.Refused source failure →
      (∀ force, client.session.run settings backend source vars force =
        (.error failure, client.session)) ∧
      ∃ next, client.session.mutate settings backend source vars = (.error failure, next) ∧
        client.session.Unchanged next ∧ next.requests = client.session.requests) ∧
    (∀ source vars prepared failure,
      QuerySource.prepared? settings source vars = some prepared →
      backend.Fails prepared client.session.world failure →
      (∀ force, force = true ∨ client.session.cache.store.isFresh prepared.key = false →
        ∃ handle next, client.session.run settings backend source vars force =
            (.ok handle, next) ∧
          handle.key = prepared.key ∧ handle.state = .failed failure ∧
          client.session.cache.FailsAlone prepared.key failure next.cache) ∧
      ∃ next, client.session.mutate settings backend source vars =
          (.ok (.failed failure), next) ∧
        client.session.Unchanged next) ∧
    ∀ origin invalidation start rerun rest session prepared failure,
      client.Propagates settings backend origin invalidation start →
      WorkList.Turns settings backend ⟨Session.rerunsOf origin.toList invalidation, start⟩
        ⟨rerun :: rest, session⟩ →
      ¬ Session.Rerun.Blocked settings rerun →
      Table.get? session.registry rerun.key = some prepared →
      backend.Fails prepared session.world failure →
        ∃ next, WorkList.Turn settings backend ⟨rerun :: rest, session⟩ ⟨rest, next⟩ ∧
          session.cache.FailsAlone rerun.key failure next.cache ∧
          next.registry = session.registry := by
  have hsound := h.sound hbackend
  refine ⟨?_, ?_, ?_⟩
  · intro source vars failure hrefused
    have hprepare : ∀ session : Session σ,
        session.prepare settings source vars = (.error failure, session) :=
      Session.prepare_of_refused hrefused vars
    constructor
    · intro force
      rw [Session.run, hprepare]
    · refine ⟨_, Session.mutate_of_refused (hprepare _), ?_, Session.requests_advance _ _ _ _⟩
      exact (Session.noted_advance client.session "mutation" .idle .parsing).unchanged
  · intro source vars prepared failure hprepared hfails
    constructor
    · intro force hforce
      exact Session.run_of_fails hprepared hsound.store.indexed hfails hforce
    · exact Session.mutate_of_fails hprepared hfails
  · intro origin invalidation start rerun rest session prepared failure hpropagates hturns
      hfree hprepared hfails
    have hstart := hpropagates.sound hbackend hsound
    exact WorkList.turn_of_fails hfree (hturns.sound hbackend hstart) hprepared hfails

/-- A server that can be reached while it knows something of a user. No field is resolved. -/
def lostServer : Backend (List (String × String)) where
  fetch request user :=
    if user.isEmpty then (.error (.fileSystem "connection lost"), user)
    else (.ok (userAnswer request user), user)
  resolve _ _ _ world := (.error (.notFound "resolver"), world)

theorem ordered_lostServer : lostServer.Ordered := by
  constructor
  · intro request user data _ hdata
    simp only [lostServer] at hdata
    split at hdata
    · cases hdata
    · cases hdata
      exact Json.ordered_ofUser _ _
  · intro tree answer vars world resolved _ _ _ hresolved
    cases hresolved

/-- A query for a field that only a resolver knows. -/
def QuerySource.onResolver (name : String) : QuerySource :=
  .tree ⟨[⟨.query, some name, [], [], [.field ⟨none, name, [], [⟨"local", []⟩]⟩ none]⟩], []⟩

/-- Two queries for the name of a user are cached, and then the connection is lost. A text
that is no query is refused, a local field is not resolved, and the name is not fetched
again. When a new name is written through a handle, the other query fails on its turn. -/
theorem fails_alone_of_lost_connection :
    let calls : List (Call (List (String × String))) :=
      [.query (.onUser "name") [], .query (.onUser "nameAgain") [], .read (.onUser "name") [],
        .elapse []]
    let made := Client.performAll .standard lostServer calls ([], .start [("name", "Al")])
    let client := made.2
    let data := Json.ofUser "1" [("name", "Bo")]
    let written := client.session.cache.write (.onUser "name") (.ready data)
      (flatten data Settings.standard.identity)
    let session := { client.session with cache := written.2 }
    Run .standard lostServer made.1 client ∧ lostServer.Ordered ∧
      (∃ fault, (QuerySource.text "\x7b").Refused (.query fault) ∧
        client.session.refetch .standard lostServer (.text "\x7b") [] =
          (.error (.query fault), client.session)) ∧
      (∃ handle next, client.session.query .standard lostServer (.onResolver "size") [] =
          (.ok handle, next) ∧
        handle.state = .failed (.resolver "Item Not Found: resolver") ∧
        client.session.cache.FailsAlone handle.key (.resolver "Item Not Found: resolver")
          next.cache) ∧
      (∃ handle next, client.session.refetch .standard lostServer (.onUser "name") [] =
          (.ok handle, next) ∧
        handle.state = .failed (.transport "File System error: connection lost") ∧
        client.session.cache.FailsAlone handle.key
          (.transport "File System error: connection lost") next.cache) ∧
      ∃ rerun next, Session.rerunsOf [.onUser "name"] written.1 = [rerun] ∧
        WorkList.Turn .standard lostServer ⟨[rerun], session⟩ ⟨[], next⟩ ∧
        session.cache.FailsAlone (.onUser "nameAgain")
          (.transport "File System error: connection lost") next.cache := by
  intro calls made client data written session
  have hrun : Run .standard lostServer made.1 client := by
    refine Run.performAll ?_ (.start _)
    simp [calls, Call.Ordered, Json.Ordered, Json.OrderedMembers, Table.sorted_nil]
  obtain ⟨hrefused, hfailed, hreran⟩ := Run.fails_alone hrun ordered_lostServer
  refine ⟨hrun, ordered_lostServer, ?_, ?_, ?_, ?_⟩
  · cases hread : Document.ofText? "\x7b" with
    | error fault =>
        exact ⟨fault, .unread rfl hread, (hrefused _ [] _ (.unread rfl hread)).1 true⟩
    | ok document =>
        have hnone : (Document.ofText? "\x7b").toOption.isNone = true := by decide +kernel
        rw [hread] at hnone
        cases hnone
  · let source := QuerySource.onResolver "size"
    let prepared := (source.prepared? .standard []).get (by decide +kernel)
    have hprepared : source.prepared? .standard [] = some prepared := (Option.some_get _).symm
    have hanswered : lostServer.answer prepared client.session.world =
        (.ok none, client.session.world) := by
      rw [Backend.answer, if_neg (by decide +kernel)]
    have hfails : lostServer.Fails prepared client.session.world
        (.resolver "Item Not Found: resolver") :=
      .resolver hanswered (by decide +kernel) rfl rfl
    obtain ⟨handle, next, hquery, hkey, hstate, halone⟩ :=
      (hfailed source [] prepared _ hprepared hfails).1 false (Or.inr (by decide +kernel))
    exact ⟨handle, next, hquery, hstate, hkey ▸ halone⟩
  · let source := QuerySource.onUser "name"
    let prepared := (source.prepared? .standard []).get (by decide +kernel)
    have hprepared : source.prepared? .standard [] = some prepared := (Option.some_get _).symm
    have hworld : client.session.world = [] := rfl
    have hfails : lostServer.Fails prepared client.session.world
        (.transport "File System error: connection lost") :=
      .transport (by decide +kernel) (by rw [hworld]; rfl) rfl
    obtain ⟨handle, next, hrefetch, hkey, hstate, halone⟩ :=
      (hfailed source [] prepared _ hprepared hfails).1 true (Or.inl rfl)
    exact ⟨handle, next, hrefetch, hstate, hkey ▸ halone⟩
  · let rerun : Session.Rerun := ⟨.onUser "nameAgain", [.onUser "name"]⟩
    have hgiven : client.handles[0]? = some ⟨.onUser "name", true⟩ := by decide +kernel
    have hpropagates : client.Propagates .standard lostServer (some (.onUser "name"))
        written.1 session := .write hgiven (Json.ordered_ofUser _ _)
    have hqueries : written.1.queries = [.onUser "nameAgain"] := by decide +kernel
    have hreruns : Session.rerunsOf [.onUser "name"] written.1 = [rerun] := by
      rw [Session.rerunsOf, hqueries]
      rfl
    have hfree : ¬ rerun.Blocked .standard := by
      rw [Session.Rerun.Blocked]
      decide +kernel
    let prepared := (Table.get? session.registry rerun.key).get (by decide +kernel)
    have hprepared : Table.get? session.registry rerun.key = some prepared :=
      (Option.some_get _).symm
    have hworld : session.world = [] := rfl
    have hfails : lostServer.Fails prepared session.world
        (.transport "File System error: connection lost") :=
      .transport (by decide +kernel) (by rw [hworld]; rfl) rfl
    have hturns : WorkList.Turns .standard lostServer
        ⟨Session.rerunsOf (some (QueryKey.onUser "name")).toList written.1, session⟩
        ⟨[rerun], session⟩ := hreruns ▸ .refl
    obtain ⟨next, hturn, halone, -⟩ :=
      hreran _ _ _ rerun [] session prepared _ hpropagates hturns hfree hprepared hfails
    exact ⟨rerun, next, hreruns, hturn, halone⟩

end QueryCache
