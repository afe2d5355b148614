import QueryCache.Proofs.Client.Propagation
import QueryCache.Proofs.Client.Running
import QueryCache.Proofs.Client.Settled

/-!
# Who is loading when the server is asked

A request that follows an execution is that of the executed query, and this query alone is
loading then. Before the first execution only a mutation sends a request, and nothing is
loading. Both are sent only if they need the server. `Session.Asks` says so of one execution,
and `Session.Inquires` of everything that a call does (`Client.inquires_perform`).
-/

namespace QueryCache

variable {registry : Table QueryKey Prepared} {own : Prepared → Prop}

namespace Session

variable {σ : Type} {settings : Settings} {backend : Backend σ}

/-! ### The requests of one execution -/

/-- No execution has begun, and the requests that were sent are of this kind. -/
def Asks (sends : Request × List QueryKey → Prop) (session next : Session σ) : Prop :=
  ∃ entries, next.cache.journal = session.cache.journal ++ entries ∧
    ∀ entry ∈ entries, entry.executed? = none ∧
      ∀ sent, entry.request? = some sent → sends sent

variable {sends sends' : Request × List QueryKey → Prop} {first second third : Session σ}

theorem Asks.refl (session : Session σ) : Asks sends session session :=
  ⟨[], (List.append_nil _).symm, List.forall_mem_nil _⟩

theorem Asks.trans (h : Asks sends first second) (h' : Asks sends second third) :
    Asks sends first third := by
  obtain ⟨entries, hjournal, hentries⟩ := h
  obtain ⟨new, hnew, hnews⟩ := h'
  refine ⟨entries ++ new, ?_, List.forall_mem_append.2 ⟨hentries, hnews⟩⟩
  rw [hnew, hjournal, List.append_assoc]

theorem Asks.mono (h : Asks sends first second) (hsends : ∀ sent, sends sent → sends' sent) :
    Asks sends' first second := by
  obtain ⟨entries, hjournal, hentries⟩ := h
  refine ⟨entries, hjournal, fun entry hentry => ?_⟩
  obtain ⟨hsilent, hsent⟩ := hentries entry hentry
  exact ⟨hsilent, fun sent h => hsends sent (hsent sent h)⟩

theorem asks_note (session : Session σ) {entry : Entry} (hsilent : entry.executed? = none)
    (hsent : ∀ sent, entry.request? = some sent → sends sent) :
    Asks sends session (session.note entry) :=
  ⟨[entry], rfl, List.forall_mem_singleton.2 ⟨hsilent, hsent⟩⟩

/-- A step that leaves one entry, about neither an execution nor a request. -/
theorem asks_of_entry {session next : Session σ} {entry : Entry}
    (hjournal : next.cache.journal = session.cache.journal ++ [entry])
    (hsilent : entry.executed? = none) (hsent : entry.request? = none) :
    Asks sends session next := by
  refine ⟨[entry], hjournal, List.forall_mem_singleton.2 ⟨hsilent, fun sent h => ?_⟩⟩
  cases hsent.symm.trans h

theorem asks_advance (session : Session σ) (label : String) (before after : Phase) :
    Asks sends session (session.advance label before after) :=
  asks_of_entry rfl rfl rfl

/-- The server is asked for the query, while those are loading that were loading when its
turn came. -/
theorem asks_fetch (backend : Backend σ) (prepared : Prepared) (label : String)
    (session : Session σ) :
    Asks (fun sent => prepared.split.sendToServer = true ∧
        sent = (prepared.request, session.cache.store.loadingKeys))
      session (session.fetch backend prepared label).2 := by
  rw [fetch]
  split
  · rename_i hsend
    dsimp only
    have hrequested : Asks (fun sent => prepared.split.sendToServer = true ∧
          sent = (prepared.request, session.cache.store.loadingKeys))
        session ((session.advance label .parsing .fetching).note
          (.requested prepared.request session.cache.store.loadingKeys)) :=
      (asks_advance session label .parsing .fetching).trans
        (asks_note _ rfl fun _ h => ⟨hsend, (Option.some.inj h).symm⟩)
    rcases backend.fetch prepared.request _ with ⟨failure | data, world⟩
    · exact hrequested.trans (asks_advance _ label .fetching .failed)
    · exact hrequested
  · exact asks_advance session label .parsing .skipFetch

theorem asks_fetchAndResolve (backend : Backend σ) (prepared : Prepared) (label : String)
    (session : Session σ) :
    Asks (fun sent => prepared.split.sendToServer = true ∧
        sent = (prepared.request, session.cache.store.loadingKeys))
      session (session.fetchAndResolve backend prepared label).2 := by
  have hfetch := asks_fetch backend prepared label session
  rw [fetchAndResolve]
  generalize session.fetch backend prepared label = out at hfetch ⊢
  obtain ⟨failure | ⟨answer, phase⟩, next⟩ := out
  · exact hfetch
  · dsimp only
    split
    · have hresolving := hfetch.trans (asks_advance next label phase .resolving)
      rcases backend.resolve prepared.split.pathTree answer prepared.request.vars _ with
        ⟨failure | resolved, world⟩
      · exact hresolving.trans (asks_advance _ label .resolving .failed)
      · refine hresolving.trans ((asks_advance _ label .resolving .merging).trans ?_)
        refine ⟨(mergeNotes _ resolved).map .obstructed, rfl, fun entry hentry => ?_⟩
        obtain ⟨note, -, rfl⟩ := List.mem_map.1 hentry
        exact ⟨rfl, fun _ h => by cases h⟩
    · exact hfetch

theorem asks_conclude (settings : Settings) (prepared : Prepared)
    (out : Except Failure (Json × Phase) × Session σ) :
    Asks sends out.2 (conclude settings prepared out).2 := by
  have hwrote : ∀ (session : Session σ) (state : QueryState) (entities : Snapshots),
      Asks sends session
        { session with cache := (session.cache.write prepared.key state entities).2 } :=
    fun _ _ _ => asks_of_entry rfl rfl rfl
  obtain ⟨failure | ⟨data, phase⟩, session⟩ := out
  · exact (asks_of_entry rfl rfl rfl).trans (hwrote _ _ _)
  · exact ((asks_advance session prepared.label phase .caching).trans (hwrote _ _ _)).trans
      (asks_advance _ prepared.label .caching .done)

/-- An execution sends the request of its query at most, if that needs the server, and no other
query is loading then. -/
theorem asks_carryOut (settings : Settings) (backend : Backend σ) (prepared : Prepared)
    (force : Bool) {session : Session σ} (hrests : session.cache.store.Rests none)
    (hindexed : session.cache.store.Indexed) :
    Asks (fun sent => prepared.split.sendToServer = true ∧
        sent = (prepared.request, [prepared.key]))
      (session.note (.executed prepared.key))
      (session.carryOut settings backend prepared force).2 := by
  have hstarted : Asks (fun sent => prepared.split.sendToServer = true ∧
        sent = (prepared.request, [prepared.key]))
      (session.note (.executed prepared.key)) (session.started prepared) :=
    asks_advance _ prepared.label .idle .parsing
  rw [carryOut]
  split
  · exact hstarted.trans (asks_advance _ prepared.label .parsing .done)
  · have hfetch := asks_fetchAndResolve backend prepared prepared.label
      (session.awaiting prepared)
    refine (hstarted.trans (hfetch.mono ?_)).trans (asks_conclude settings prepared _)
    rintro sent ⟨hsend, rfl⟩
    exact ⟨hsend, congrArg (Prod.mk prepared.request)
      (hrests.loadingKeys_awaiting hindexed hsend)⟩

/-! ### The requests of one call -/

/-- The requests since a first session are asked by those that they are for. -/
def Inquires (own : Prepared → Prop) (first session : Session σ) : Prop :=
  ∃ entries, session.cache.journal = first.cache.journal ++ entries ∧
    Follows (AskedBy session.registry own) entries

theorem Inquires.asks {session next : Session σ} (h : Inquires own first session)
    (hregistry : next.registry = session.registry)
    (hnext : Asks (fun _ => False) session next) : Inquires own first next := by
  obtain ⟨entries, hjournal, hfollows⟩ := h
  obtain ⟨new, hnew, hnews⟩ := hnext
  refine ⟨entries ++ new, by rw [hnew, hjournal, List.append_assoc], ?_⟩
  rw [hregistry]
  refine hfollows.asked fun entry hentry => ?_
  obtain ⟨hsilent, hsent⟩ := hnews entry hentry
  exact ⟨hsilent, fun sent h => (hsent sent h).elim⟩

/-- While nothing has been executed, only what is the call's own may be asked for, and nothing
may be loading. -/
theorem inquires_of_asks {session : Session σ}
    (h : Asks (fun sent => ∃ prepared, own prepared ∧ prepared.split.sendToServer = true ∧
      sent = (prepared.request, [])) first session) :
    Inquires own first session := by
  obtain ⟨entries, hjournal, hentries⟩ := h
  exact ⟨[] ++ entries, hjournal, Follows.nil.asked hentries⟩

/-- A query that is registered is executed. -/
theorem Inquires.carryOut {session : Session σ} (h : Inquires own first session)
    {prepared : Prepared}
    (hprepared : Table.get? session.registry prepared.key = some prepared)
    (hrests : session.cache.store.Rests none) (hindexed : session.cache.store.Indexed)
    (force : Bool) :
    Inquires own first (session.carryOut settings backend prepared force).2 := by
  obtain ⟨entries, hjournal, hfollows⟩ := h
  obtain ⟨new, hnew, hnews⟩ :=
    asks_carryOut settings backend prepared force hrests hindexed
  refine ⟨entries ++ [.executed prepared.key] ++ new, ?_, ?_⟩
  · rw [hnew, note, Cache.note, hjournal]
    simp
  · rw [registry_carryOut]
    refine (hfollows.executed prepared.key).asked fun entry hentry => ?_
    obtain ⟨hsilent, hsent⟩ := hnews entry hentry
    refine ⟨hsilent, fun sent h => ?_⟩
    rw [running_append_executed]
    exact ⟨prepared, hprepared, hsent sent h⟩

end Session

namespace WorkList

variable {σ : Type} {settings : Settings} {backend : Backend σ}

open Session (Inquires)

/-- The re-run of a turn is registered under its own key, so it sends its own request. -/
theorem Turn.inquires {first : Session σ} {work next : WorkList σ}
    (h : Turn settings backend work next) (hsound : work.session.Sound)
    (hrests : work.session.cache.store.Rests none) (hwork : Inquires own first work.session) :
    Inquires own first next.session := by
  obtain @⟨rerun, rest, session, -⟩ := h
  cases hprepared : Table.get? session.registry rerun.key with
  | none =>
      rw [Session.rerun_of_none hprepared]
      exact hwork.asks rfl (Session.asks_of_entry rfl rfl rfl)
  | some prepared =>
      rw [Session.rerun_of_some hprepared]
      have hkey := (hsound.registered hprepared).1
      exact hwork.carryOut (hkey ▸ hprepared) hrests hsound.store.indexed true

theorem Turns.inquires {first : Session σ} {work next : WorkList σ}
    (h : Turns settings backend work next) (hbackend : backend.Ordered)
    (hsound : work.session.Sound) (hrests : work.session.cache.store.Rests none)
    (hwork : Inquires own first work.session) : Inquires own first next.session := by
  have hkeep := h.keep
    (fun next => next.session.Sound ∧ next.session.cache.store.Rests none ∧
      Inquires own first next.session) ⟨hsound, hrests, hwork⟩
  refine (hkeep ?_).2.2
  intro work' next' hturn ⟨hsound', hrests', hwork'⟩
  exact ⟨Turns.sound (.single hturn) hbackend hsound',
    Turns.rests (.single hturn) hbackend hsound' hrests', hturn.inquires hsound' hrests' hwork'⟩

theorem Ends.inquires {first : Session σ} {start : WorkList σ}
    {out : Except Failure Unit × Session σ} (h : Ends settings backend start out)
    (hbackend : backend.Ordered) (hsound : start.session.Sound)
    (hrests : start.session.cache.store.Rests none)
    (hstart : Inquires own first start.session) : Inquires own first out.2 := by
  cases h with
  | finished hturns => exact hturns.inquires hbackend hsound hrests hstart
  | blocked hturns _ =>
      exact (hturns.inquires hbackend hsound hrests hstart).asks rfl
        (Session.asks_of_entry rfl rfl rfl)

end WorkList

theorem Client.Propagates.rests {σ : Type} {settings : Settings} {backend : Backend σ}
    {client : Client σ} {origin : Option QueryKey} {invalidation : Invalidation}
    {session : Session σ}
    (h : client.Propagates settings backend origin invalidation session)
    (hbackend : backend.Ordered) (hsound : client.session.Sound)
    (hrests : client.session.cache.store.Rests none) : session.cache.store.Rests none := by
  obtain ⟨call, hopens⟩ := h.opens hbackend
  exact hopens.rests hsound hrests

/-- What a call asks the server for on its own account. A query is a part of its execution. -/
def Call.Fetches {σ : Type} (settings : Settings) : Call σ → Prepared → Prop
  | .mutate source vars, prepared => source.prepared? settings vars = some prepared
  | _, _ => False

namespace Session

variable {σ : Type} {settings : Settings} {backend : Backend σ} {client : Client σ}

/-- The requests of what a call hands over to propagation, and of the propagation. -/
theorem inquires_propagate {origin : Option QueryKey} {invalidation : Invalidation}
    {session : Session σ}
    (h : client.Propagates settings backend origin invalidation session)
    (hbackend : backend.Ordered) (hsound : client.session.Sound)
    (hrests : client.session.cache.store.Rests none)
    (hinquires : Inquires own client.session session) :
    Inquires own client.session
      (session.propagate settings backend origin invalidation).2 :=
  (WorkList.ends_propagate settings backend origin invalidation session).inquires hbackend
    (h.sound hbackend hsound) (h.rests hbackend hsound hrests) hinquires

theorem inquires_run {source : QuerySource} {vars : Variables}
    (hvars : Json.Ordered (.object vars)) (hbackend : backend.Ordered)
    (hsound : client.session.Sound) (hrests : client.session.cache.store.Rests none)
    (force : Bool) :
    Inquires own client.session (client.session.run settings backend source vars force).2 := by
  rcases prepare_cases settings source vars client.session with
    ⟨fault, hrefused⟩ | ⟨prepared, document, hprepare, -⟩
  · rw [run, hrefused]
    exact inquires_of_asks (Asks.refl _)
  · have hpropagates : client.Propagates settings backend _ _ _ :=
      .run hvars force hprepare (Session.execute_eq ..)
    have hregister : Inquires own client.session ((client.session.note (.split
        prepared.split.foundLocal prepared.split.sendToServer)).register prepared) :=
      inquires_of_asks (asks_of_entry rfl rfl rfl)
    exact (ends_run force hprepare).inquires hbackend (hpropagates.sound hbackend hsound)
      (hpropagates.rests hbackend hsound hrests)
      (hregister.carryOut (Table.get?_insert_self _ _ _) hrests hsound.store.indexed force)

theorem asks_absorb (settings : Settings) (label : String) (answer : Json × Phase)
    (session : Session σ) : Asks sends session (session.absorb settings label answer).2 := by
  have hwritten : Asks sends (session.advance label answer.2 .caching)
      { session.advance label answer.2 .caching with
        cache := ((session.advance label answer.2 .caching).cache.writeEntities none
          (flatten answer.1 settings.identity)).2 } :=
    asks_of_entry rfl rfl rfl
  exact ((asks_advance session label answer.2 .caching).trans hwritten).trans
    (asks_advance _ label .caching .done)

/-- A mutation is no cached query: when its own request is sent, none is loading. -/
theorem inquires_mutate {source : QuerySource} {vars : Variables}
    (hvars : Json.Ordered (.object vars)) (hbackend : backend.Ordered)
    (hsound : client.session.Sound) (hrests : client.session.cache.store.Rests none) :
    Inquires ((Call.mutate source vars : Call σ).Fetches settings) client.session
      (client.session.mutate settings backend source vars).2 := by
  have hbegin : Asks (fun sent => ∃ prepared,
      (Call.mutate source vars : Call σ).Fetches settings prepared ∧
        prepared.split.sendToServer = true ∧ sent = (prepared.request, []))
      client.session (client.session.advance "mutation" .idle .parsing) :=
    asks_advance _ _ _ _
  rcases prepare_cases settings source vars
      (client.session.advance "mutation" .idle .parsing) with
    ⟨fault, hrefused⟩ | ⟨prepared, document, hprepare, -⟩
  · rw [mutate_of_refused hrefused]
    exact inquires_of_asks hbegin
  · have hsplit : (Entry.split prepared.split.foundLocal prepared.split.sendToServer).executed? =
        none := rfl
    have hstart := hbegin.trans (asks_note _ hsplit fun _ h => by cases h)
    have hasks := hstart.trans
      ((asks_fetchAndResolve backend prepared prepared.label _).mono ?_)
    · rcases hfetch : Session.fetchAndResolve backend prepared prepared.label _ with
        ⟨failure | answer, next⟩
      · rw [mutate_of_failed hprepare hfetch]
        rw [hfetch] at hasks
        exact inquires_of_asks hasks
      · rw [mutate_of_answered hprepare hfetch, WorkList.snd_returning]
        rw [hfetch] at hasks
        exact inquires_propagate (.mutate hvars hprepare hfetch) hbackend hsound hrests
          (inquires_of_asks (hasks.trans (asks_absorb settings prepared.label answer next)))
    · rintro sent ⟨hsend, rfl⟩
      exact ⟨prepared, prepared?_of_prepare hprepare, hsend,
        congrArg (Prod.mk prepared.request) hrests.loadingKeys_eq_nil⟩

theorem inquires_writeQuery {handle : Nat} {held : Held}
    (hgiven : client.handles[handle]? = some held) {data : Json} (hdata : data.Ordered)
    (hbackend : backend.Ordered) (hsound : client.session.Sound)
    (hrests : client.session.cache.store.Rests none) :
    Inquires own client.session
      (client.session.writeQuery settings backend held.key data).2 :=
  inquires_propagate (.write hgiven hdata) hbackend hsound hrests
    (inquires_of_asks (asks_of_entry rfl rfl rfl))

end Session

/-- Whatever a call does, it asks the server for the query that is running, or for its own. -/
theorem Client.inquires_perform {σ : Type} {settings : Settings} {backend : Backend σ}
    (hbackend : backend.Ordered) {client : Client σ} (hsound : client.session.Sound)
    (hrests : client.session.cache.store.Rests none) {call : Call σ} (hcall : call.Ordered) :
    Session.Inquires (call.Fetches settings) client.session
      (client.perform settings backend call).2.session := by
  cases call with
  | query source vars =>
      rw [perform, session_resume]
      exact Session.inquires_run hcall hbackend hsound hrests false
  | refetch source vars =>
      rw [perform, session_resume]
      exact Session.inquires_run hcall hbackend hsound hrests true
  | mutate source vars =>
      rw [perform, session_resume]
      exact Session.inquires_mutate hcall hbackend hsound hrests
  | evict key =>
      refine Session.inquires_of_asks ?_
      rw [perform, Session.evict, Cache.evict]
      dsimp only
      split
      · exact Session.asks_of_entry rfl rfl rfl
      · exact Session.Asks.refl _
  | read source vars =>
      refine Session.inquires_of_asks ?_
      rw [perform]
      split <;> exact Session.Asks.refl _
  | write handle data =>
      rw [perform]
      split
      · rw [session_resume]
        exact Session.inquires_writeQuery ‹_› hcall hbackend hsound hrests
      · exact Session.inquires_of_asks (Session.Asks.refl _)
  | elapse world => exact Session.inquires_of_asks (Session.Asks.refl _)

end QueryCache
