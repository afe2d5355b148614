import QueryCache.Proofs.Client.Run
import QueryCache.Proofs.Client.WorkList

/-!
# What an operation does first

An operation that writes to the cache does one write of its own and then works
off the list of re-runs that the write asks for. `Session.Opens` lists the forms
that the first part has; `Session.ends_run`, `Session.ends_mutate` and
`Session.ends_writeQuery` say that the second part is all that is left. What every
operation keeps is therefore shown of an opening and of a turn.
-/

namespace QueryCache

namespace Store

/-- The query has a cell. -/
def IsCached (store : Store) (key : QueryKey) : Prop := ∃ id, store.cell? key = some id

theorem isCached_write_self (store : Store) (key : QueryKey) (state : QueryState)
    (entities : Snapshots) : (store.write key state entities).2.IsCached key := by
  rw [IsCached, cell?_write, if_pos rfl]
  exact ⟨_, rfl⟩

theorem isCached_write_of_ne {store : Store} {key other : QueryKey} (hne : other ≠ key)
    (state : QueryState) (entities : Snapshots) :
    (store.write key state entities).2.IsCached other ↔ store.IsCached other := by
  rw [IsCached, cell?_write, if_neg hne]
  rfl

theorem isCached_write {store : Store} {other : QueryKey} (h : store.IsCached other)
    (key : QueryKey) (state : QueryState) (entities : Snapshots) :
    (store.write key state entities).2.IsCached other := by
  by_cases hne : other = key
  · rw [hne]
    exact isCached_write_self store key state entities
  · exact (isCached_write_of_ne hne state entities).2 h

theorem isCached_awaiting_of_ne {store : Store} {prepared : Prepared} {other : QueryKey}
    (hne : other ≠ prepared.key) :
    (store.awaiting prepared).IsCached other ↔ store.IsCached other := by
  rw [IsCached, cell?_awaiting, if_neg hne]
  rfl

theorem isCached_of_isFresh {store : Store} {key : QueryKey} (h : store.isFresh key = true) :
    store.IsCached key := by
  rw [isFresh] at h
  cases hstate : store.state? key with
  | none => simp [hstate] at h
  | some state => exact state?_isSome_iff.1 ⟨state, hstate⟩

end Store

theorem QuerySource.exists_fault_of_document {source : QuerySource} {failure : Failure}
    (h : source.document = .error failure) : ∃ fault, failure = .query fault := by
  cases source with
  | text content =>
      rw [document] at h
      cases hread : Document.ofText? content with
      | error fault =>
          rw [hread] at h
          cases h
          exact ⟨fault, rfl⟩
      | ok found => simp [hread, Except.mapError] at h
  | tree found => cases h

/-- The query that a source is prepared to. -/
def QuerySource.prepared? (settings : Settings) (source : QuerySource) (vars : Variables) :
    Option Prepared :=
  (source.document.bind fun document => Prepared.ofDocument settings document vars).toOption

theorem Prepared.exists_fault_of_ofDocument {settings : Settings} {document : Document}
    {vars : Variables} {failure : Failure}
    (h : Prepared.ofDocument settings document vars = .error failure) :
    ∃ fault, failure = .query fault := by
  rw [ofDocument] at h
  cases hinlined : document.inlineFragments with
  | error fault =>
      rw [hinlined] at h
      cases h
      exact ⟨fault, rfl⟩
  | ok inlined =>
      rw [hinlined] at h
      cases h

namespace Session

variable {σ : Type} {settings : Settings} {backend : Backend σ}

/-- The session in which a prepared query can run again. -/
def register (session : Session σ) (prepared : Prepared) : Session σ :=
  { session with registry := Table.insert session.registry prepared.key prepared }

theorem Noted.register {session next : Session σ} (h : Noted session next)
    (prepared : Prepared) : Noted (session.register prepared) (next.register prepared) :=
  ⟨h.store, congrArg (Table.insert · prepared.key prepared) h.registry, h.journal⟩

theorem prepare_cases (settings : Settings) (source : QuerySource) (vars : Variables)
    (session : Session σ) :
    (∃ fault, session.prepare settings source vars = (.error (.query fault), session)) ∨
      ∃ prepared document, session.prepare settings source vars =
          (.ok prepared,
            session.note (.split prepared.split.foundLocal prepared.split.sendToServer)) ∧
        Prepared.ofDocument settings document vars = .ok prepared := by
  rw [prepare]
  cases hsource : source.document with
  | error failure =>
      obtain ⟨fault, rfl⟩ := source.exists_fault_of_document hsource
      exact Or.inl ⟨fault, rfl⟩
  | ok document =>
      dsimp only [Except.bind]
      cases hprepared : Prepared.ofDocument settings document vars with
      | error failure =>
          obtain ⟨fault, rfl⟩ := Prepared.exists_fault_of_ofDocument hprepared
          exact Or.inl ⟨fault, rfl⟩
      | ok prepared => exact Or.inr ⟨prepared, document, rfl, hprepared⟩

theorem prepare_eq_ok {source : QuerySource} {vars : Variables} {prepared : Prepared}
    {session start : Session σ}
    (h : session.prepare settings source vars = (.ok prepared, start)) :
    (source.document.bind fun document => Prepared.ofDocument settings document vars) =
        .ok prepared ∧
      start = session.note (.split prepared.split.foundLocal prepared.split.sendToServer) := by
  rw [prepare] at h
  split at h
  · rename_i found hfound
    cases h
    exact ⟨hfound, rfl⟩
  · cases h

theorem prepared?_of_prepare {source : QuerySource} {vars : Variables} {prepared : Prepared}
    {session start : Session σ}
    (h : session.prepare settings source vars = (.ok prepared, start)) :
    source.prepared? settings vars = some prepared := by
  rw [QuerySource.prepared?, (prepare_eq_ok h).1]
  rfl

theorem prepare_of_prepared? {source : QuerySource} {vars : Variables} {prepared : Prepared}
    (h : source.prepared? settings vars = some prepared) (session : Session σ) :
    session.prepare settings source vars = (.ok prepared,
      session.note (.split prepared.split.foundLocal prepared.split.sendToServer)) := by
  rw [QuerySource.prepared?] at h
  rw [prepare]
  generalize (source.document.bind fun document => Prepared.ofDocument settings document vars) =
    out at h ⊢
  cases out <;> cases h
  rfl

theorem prepared?_of_refused {source : QuerySource} {vars : Variables} {failure : Failure}
    {session start : Session σ}
    (h : session.prepare settings source vars = (.error failure, start)) :
    source.prepared? settings vars = none := by
  rw [prepare] at h
  rw [QuerySource.prepared?]
  split at h
  · cases h
  · rename_i hrefused
    rw [hrefused]
    rfl

namespace Executed

variable {prepared : Prepared} {session next : Session σ} {invalidation : Invalidation}

theorem store (h : Executed settings backend prepared session invalidation next) :
    next.cache.store = ((session.cache.store.awaiting prepared).write prepared.key
      (.ofOutcome (backend.result prepared session.world).1)
      (.ofOutcome settings.identity (backend.result prepared session.world).1)).2 :=
  congrArg Prod.snd h.write

theorem invalidation_eq (h : Executed settings backend prepared session invalidation next) :
    invalidation = ((session.cache.store.awaiting prepared).write prepared.key
      (.ofOutcome (backend.result prepared session.world).1)
      (.ofOutcome settings.identity (backend.result prepared session.world).1)).1 :=
  congrArg Prod.fst h.write

theorem isCached_self (h : Executed settings backend prepared session invalidation next) :
    next.cache.store.IsCached prepared.key := by
  rw [h.store]
  exact Store.isCached_write_self _ _ _ _

theorem isCached_of_ne (h : Executed settings backend prepared session invalidation next)
    {other : QueryKey} (hne : other ≠ prepared.key) :
    next.cache.store.IsCached other ↔ session.cache.store.IsCached other := by
  rw [h.store, Store.isCached_write_of_ne hne, Store.isCached_awaiting_of_ne hne]

theorem isCached (h : Executed settings backend prepared session invalidation next)
    {other : QueryKey} (hother : session.cache.store.IsCached other) :
    next.cache.store.IsCached other := by
  by_cases hne : other = prepared.key
  · rw [hne]
    exact h.isCached_self
  · exact (h.isCached_of_ne hne).2 hother

end Executed

/-- What a client comes to before a call begins to run other queries again. -/
inductive Opens (settings : Settings) (backend : Backend σ) (client : Client σ) :
    Call σ → WorkList σ → Prop
  /-- Nothing has been written. -/
  | noted {call : Call σ} {next : Session σ} (noted : Noted client.session next) :
      Opens settings backend client call ⟨[], next⟩
  /-- The result of a query was fresh. -/
  | fresh {call : Call σ} {prepared : Prepared} {start next : Session σ}
      (ordered : prepared.Ordered)
      (fresh : client.session.cache.store.isFresh prepared.key = true)
      (noted : Noted (client.session.register prepared) start)
      (done : Noted (start.note (.executed prepared.key)) next) :
      Opens settings backend client call ⟨[], next⟩
  /-- A query has been executed. -/
  | executed {call : Call σ} {prepared : Prepared} {start next : Session σ}
      {invalidation : Invalidation} (ordered : prepared.Ordered)
      (noted : Noted (client.session.register prepared) start)
      (executed : Executed settings backend prepared start invalidation next) :
      Opens settings backend client call ⟨rerunsOf [prepared.key] invalidation, next⟩
  /-- The entities of a mutation have been stored. -/
  | absorbed {call : Call σ} {start next : Session σ} {entities : Snapshots}
      {invalidation : Invalidation} (flat : entities.Flat)
      (noted : Noted client.session start)
      (store : next.cache.store = (start.cache.store.writeEntities none entities).2)
      (reported : invalidation = (start.cache.store.writeEntities none entities).1)
      (registry : next.registry = start.registry)
      (journal : ∃ count after, next.cache.journal = start.cache.journal ++
        .wroteEntities none count invalidation :: after ∧
          ∀ entry ∈ after, entry.isProgress = true) :
      Opens settings backend client call ⟨rerunsOf [] invalidation, next⟩
  /-- The result of a query has been replaced through a handle. -/
  | replaced {handle : Nat} {held : Held} {data : Json} {next : Session σ}
      {invalidation : Invalidation} (given : client.handles[handle]? = some held)
      (ordered : data.Ordered)
      (store : next.cache.store = (client.session.cache.store.write held.key (.ready data)
        (flatten data settings.identity)).2)
      (reported : invalidation = (client.session.cache.store.write held.key (.ready data)
        (flatten data settings.identity)).1)
      (registry : next.registry = client.session.registry)
      (journal : ∃ count, next.cache.journal = client.session.cache.journal ++
        [.wrote held.key (.ready data) count invalidation]) :
      Opens settings backend client (.write handle data)
        ⟨rerunsOf [held.key] invalidation, next⟩

/-- The work list of a prepared query: the query is registered and executed, and
what its result invalidates has to run again. -/
def opening (settings : Settings) (backend : Backend σ) (prepared : Prepared)
    (force : Bool) (session : Session σ) : WorkList σ :=
  let (invalidation, next) :=
    (session.register prepared).carryOut settings backend prepared force
  ⟨rerunsOf [prepared.key] invalidation, next⟩

theorem opens_opening {prepared : Prepared} (h : prepared.Ordered) (force : Bool)
    {client : Client σ} (call : Call σ) {start : Session σ}
    (hnoted : Noted client.session start) :
    Opens settings backend client call (start.opening settings backend prepared force) := by
  rcases executed_or_fresh settings backend prepared force (start.register prepared) with
    hexecuted | ⟨hfresh, heq⟩
  · exact .executed h (hnoted.register prepared) hexecuted
  · rw [opening, heq]
    have hstore : start.cache.store = client.session.cache.store := hnoted.store
    refine .fresh h (hstore ▸ hfresh) (hnoted.register prepared) ?_
    exact (noted_advance _ _ _ _).trans (noted_advance _ _ _ _)

theorem opening_of_unreported {prepared : Prepared} {force : Bool} {session : Session σ}
    (h : ((session.register prepared).carryOut settings backend prepared force).1 = .none) :
    session.opening settings backend prepared force =
      ⟨[], ((session.register prepared).carryOut settings backend prepared force).2⟩ := by
  rw [opening]
  generalize (session.register prepared).carryOut settings backend prepared force = out at h ⊢
  obtain ⟨invalidation, next⟩ := out
  obtain rfl : invalidation = .none := h
  rfl

theorem propagate_none (settings : Settings) (backend : Backend σ) (origin : Option QueryKey)
    (session : Session σ) :
    session.propagate settings backend origin .none = (.ok (), session) := by
  simp [propagate, rerunsOf, Invalidation.none, rerunFrom]

/-! ### Mutations -/

/-- The end of a mutation: the entities of its answer are stored. -/
def absorb (settings : Settings) (label : String) (answer : Json × Phase)
    (session : Session σ) : Invalidation × Session σ :=
  let session := session.advance label answer.2 .caching
  let (invalidation, cache) :=
    session.cache.writeEntities none (flatten answer.1 settings.identity)
  (invalidation, { session with cache }.advance label .caching .done)

section Mutation

variable {source : QuerySource} {vars : Variables} {session start next : Session σ}
  {prepared : Prepared}

theorem mutate_of_refused {failure : Failure}
    (hprepare : (session.advance "mutation" .idle .parsing).prepare settings source vars =
      (.error failure, start)) :
    session.mutate settings backend source vars = (.error failure, start) := by
  rw [mutate]
  simp only [hprepare]

/-- A mutation can only fail by the transport or a resolver, and then the failure is its state. -/
theorem mutate_of_failed {failure : Failure}
    (hprepare : (session.advance "mutation" .idle .parsing).prepare settings source vars =
      (.ok prepared, start))
    (hfetch : start.fetchAndResolve backend prepared prepared.label =
      (.error failure, next)) :
    session.mutate settings backend source vars = (.ok (.failed failure), next) := by
  have houtcome := (answers_fetchAndResolve backend prepared prepared.label start).outcome
  rw [hfetch] at houtcome
  rw [mutate]
  simp only [hprepare, hfetch, Backend.isRecordable_of_result houtcome.symm, if_true]

/-- A mutation that was answered stores the entities of the answer, and then runs other
queries again. -/
theorem mutate_of_answered {answer : Json × Phase}
    (hprepare : (session.advance "mutation" .idle .parsing).prepare settings source vars =
      (.ok prepared, start))
    (hfetch : start.fetchAndResolve backend prepared prepared.label = (.ok answer, next)) :
    session.mutate settings backend source vars =
      WorkList.returning (fun _ => .ready answer.1)
        ((next.absorb settings prepared.label answer).2.propagate settings backend none
          (next.absorb settings prepared.label answer).1) := by
  rw [mutate]
  simp only [hprepare, hfetch]
  rfl

end Mutation

theorem opens_absorb {client : Client σ} (call : Call σ) {start : Session σ}
    (hnoted : Noted client.session start) (label : String) {answer : Json × Phase}
    (hanswer : answer.1.Ordered) :
    Opens settings backend client call
      ⟨rerunsOf [] (start.absorb settings label answer).1,
        (start.absorb settings label answer).2⟩ := by
  refine .absorbed (flat_flatten hanswer settings.identity)
    (hnoted.trans (noted_advance start label answer.2 .caching)) rfl rfl rfl ?_
  refine ⟨(flatten answer.1 settings.identity).length, [.advanced label .caching .done], ?_,
    by simp [Entry.isProgress]⟩
  exact List.append_assoc _ _ _

/-! ### Turns -/

theorem rerun_of_none {rerun : Rerun} {session : Session σ}
    (h : Table.get? session.registry rerun.key = none) :
    session.rerun settings backend rerun = ([], session.note (.skipped rerun.key)) := by
  rw [Session.rerun, h]

theorem rerun_of_some {rerun : Rerun} {session : Session σ} {prepared : Prepared}
    (h : Table.get? session.registry rerun.key = some prepared) :
    session.rerun settings backend rerun =
      (rerunsOf (rerun.chain ++ [rerun.key])
          (session.carryOut settings backend prepared true).1,
        (session.carryOut settings backend prepared true).2) := by
  rw [Session.rerun, h]

end Session

namespace WorkList

open Session (Rerun Executed rerunsOf)

variable {σ : Type} {settings : Settings} {backend : Backend σ}

/-- A turn skips a query that is not registered, and executes one that is. -/
theorem turn_cases {work next : WorkList σ} (h : Turn settings backend work next) :
    ∃ rerun rest, work.reruns = rerun :: rest ∧ ¬ rerun.Blocked settings ∧
      (Table.get? work.session.registry rerun.key = none ∧
          next = ⟨rest, work.session.note (.skipped rerun.key)⟩ ∨
        ∃ prepared invalidation session,
          Table.get? work.session.registry rerun.key = some prepared ∧
          Executed settings backend prepared work.session invalidation session ∧
          next = ⟨rest ++ rerunsOf (rerun.chain ++ [rerun.key]) invalidation, session⟩) := by
  obtain @⟨rerun, rest, session, hfree⟩ := h
  refine ⟨rerun, rest, rfl, hfree, ?_⟩
  cases hprepared : Table.get? session.registry rerun.key with
  | none =>
      left
      rw [Session.rerun_of_none hprepared, List.append_nil]
      exact ⟨rfl, rfl⟩
  | some prepared =>
      right
      rw [Session.rerun_of_some hprepared]
      exact ⟨prepared, _, _, rfl,
        Session.executed_of_forced settings backend prepared session, rfl⟩

/-- Nothing is taken out of the journal. -/
theorem Turns.journal_prefix {work next : WorkList σ} (h : Turns settings backend work next) :
    work.session.cache.journal <+: next.session.cache.journal := by
  refine h.keep (fun next => work.session.cache.journal <+: next.session.cache.journal)
    List.prefix_rfl ?_
  intro work' next' hturn hprefix
  obtain ⟨rerun, rest, -, -, ⟨-, rfl⟩ | ⟨prepared, invalidation, session, -, hexecuted, rfl⟩⟩ :=
    turn_cases hturn
  · exact hprefix.trans (List.prefix_append _ _)
  · obtain ⟨before, after, count, hjournal, -⟩ := hexecuted.journal
    dsimp only
    rw [hjournal, List.append_assoc]
    exact hprefix.trans (List.prefix_append _ _)

theorem Ends.journal_prefix {start : WorkList σ} {out : Except Failure Unit × Session σ}
    (h : Ends settings backend start out) :
    start.session.cache.journal <+: out.2.cache.journal := by
  cases h with
  | finished turns => exact turns.journal_prefix
  | blocked turns _ => exact turns.journal_prefix.trans (List.prefix_append _ _)

theorem isCached_of_turns {work next : WorkList σ} (h : Turns settings backend work next)
    {key : QueryKey} (hkey : work.session.cache.store.IsCached key) :
    next.session.cache.store.IsCached key := by
  refine h.keep (fun next => next.session.cache.store.IsCached key) hkey ?_
  intro work' next' hturn hcached
  obtain ⟨rerun, rest, -, -, ⟨-, rfl⟩ | ⟨prepared, invalidation, session, -, hexecuted, rfl⟩⟩ :=
    turn_cases hturn
  · exact hcached
  · exact hexecuted.isCached hcached

end WorkList

namespace Session

variable {σ : Type} {settings : Settings} {backend : Backend σ}

/-! ### Operations -/

theorem isCached_opening (prepared : Prepared) (force : Bool) (session : Session σ) :
    (session.opening settings backend prepared force).session.cache.store.IsCached
      prepared.key := by
  rcases executed_or_fresh settings backend prepared force (session.register prepared) with
    hexecuted | ⟨hfresh, heq⟩
  · exact hexecuted.isCached_self
  · rw [opening, heq]
    exact Store.isCached_of_isFresh hfresh

theorem isCached_of_readQuery {source : QuerySource} {vars : Variables}
    {session : Session σ} {key : QueryKey} {state : QueryState}
    (h : session.readQuery source vars = .ok (key, state)) :
    session.cache.store.IsCached key := by
  rw [readQuery] at h
  cases hsource : source.document with
  | error failure => simp [hsource, bind, Except.bind] at h
  | ok document =>
      simp only [hsource, bind, Except.bind, Store.read, pure, Except.pure] at h
      cases hstate : session.cache.store.state? (.ofQuery document vars) with
      | none => simp [hstate] at h
      | some found =>
          simp only [hstate, Except.ok.injEq, Prod.mk.injEq] at h
          exact h.1 ▸ Store.state?_isSome_iff.1 ⟨found, hstate⟩

theorem ends_opening (settings : Settings) (backend : Backend σ) (prepared : Prepared)
    (force : Bool) (session : Session σ) :
    WorkList.Ends settings backend (session.opening settings backend prepared force)
      (((session.register prepared).carryOut settings backend prepared force).2.propagate settings
        backend (some prepared.key)
        ((session.register prepared).carryOut settings backend prepared force).1) :=
  WorkList.ends_propagate settings backend (some prepared.key) _ _

/-- The handle on a query that has a cell. -/
def handleOf (key : QueryKey) (session : Session σ) : Handle :=
  ⟨key, (session.cache.store.cell key).1,
    session.cache.store.stateOf (session.cache.store.cell key).1⟩

/-- A query that is prepared is registered and executed; then other queries run again. In the end
it still has its cell. -/
theorem run_of_prepared {source : QuerySource} {vars : Variables} {prepared : Prepared}
    {session start : Session σ} (force : Bool)
    (h : session.prepare settings source vars = (.ok prepared, start)) :
    session.run settings backend source vars force =
      WorkList.returning (handleOf prepared.key)
        (((start.register prepared).carryOut settings backend prepared force).2.propagate settings
          backend (some prepared.key)
          ((start.register prepared).carryOut settings backend prepared force).1) := by
  have hregister : { start with registry := Table.insert start.registry prepared.key prepared } =
      start.register prepared := rfl
  have hends := ends_opening settings backend prepared force start
  rw [run, h]
  dsimp only
  rw [hregister, execute_eq]
  dsimp only
  generalize Session.propagate settings backend (some prepared.key) _ _ = out at hends ⊢
  cases hends with
  | blocked turns hblocked => rfl
  | @finished next turns =>
      obtain ⟨id, hid⟩ := WorkList.isCached_of_turns turns (isCached_opening prepared force start)
      have hcell : next.cache.cell prepared.key = (id, next.cache) := by
        rw [Cache.cell, Store.cell_of_some hid]
      simp only [hcell, WorkList.returning, handleOf, Store.cell_of_some hid]

theorem ends_run {source : QuerySource} {vars : Variables} {prepared : Prepared}
    {session start : Session σ} (force : Bool)
    (h : session.prepare settings source vars = (.ok prepared, start)) :
    WorkList.Ends settings backend (start.opening settings backend prepared force)
      ((session.run settings backend source vars force).1.map fun _ => (),
        (session.run settings backend source vars force).2) := by
  rw [run_of_prepared force h]
  exact (ends_opening settings backend prepared force start).returning (handleOf prepared.key)

/-- A mutation stores the entities of its answer; then other queries run again. -/
theorem ends_mutate (source : QuerySource) {vars : Variables}
    (hvars : Json.Ordered (.object vars)) (hbackend : backend.Ordered)
    (client : Client σ) (call : Call σ) :
    (∃ fault next, Noted client.session next ∧
        client.session.mutate settings backend source vars = (.error (.query fault), next)) ∨
      ∃ work, Opens settings backend client call work ∧
        WorkList.Ends settings backend work
          ((client.session.mutate settings backend source vars).1.map fun _ => (),
            (client.session.mutate settings backend source vars).2) := by
  have hbegin := noted_advance client.session "mutation" .idle .parsing
  rcases prepare_cases settings source vars
      (client.session.advance "mutation" .idle .parsing) with
    ⟨fault, hprepare⟩ | ⟨prepared, document, hprepare, hdocument⟩
  · left
    exact ⟨fault, _, hbegin, mutate_of_refused hprepare⟩
  · right
    have hordered : prepared.Ordered := Prepared.ordered_ofDocument hvars hdocument
    have hanswers := answers_fetchAndResolve backend prepared prepared.label
      ((client.session.advance "mutation" .idle .parsing).note
        (.split prepared.split.foundLocal prepared.split.sendToServer))
    have hstart := (hbegin.trans (noted_note _ rfl)).trans hanswers.noted
    rcases hfetch : Session.fetchAndResolve backend prepared prepared.label _ with
      ⟨failure | answer, start⟩
    · rw [hfetch] at hstart
      rw [mutate_of_failed hprepare hfetch]
      exact ⟨⟨[], start⟩, .noted hstart, .finished .refl⟩
    · rw [hfetch] at hstart hanswers
      have hdata : answer.1.Ordered :=
        Backend.ordered_result hbackend hordered hanswers.outcome.symm
      rw [mutate_of_answered hprepare hfetch]
      exact ⟨_, opens_absorb call hstart prepared.label hdata,
        (WorkList.ends_propagate settings backend none _ _).returning _⟩

/-- A write through a handle replaces the result; then other queries run again. -/
theorem ends_writeQuery {client : Client σ} {handle : Nat} {held : Held}
    (hheld : client.handles[handle]? = some held) {data : Json} (hdata : data.Ordered) :
    ∃ work, Opens settings backend client (.write handle data) work ∧
      WorkList.Ends settings backend work
        (client.session.writeQuery settings backend held.key data) := by
  have hends := WorkList.ends_propagate settings backend (some held.key)
    (client.session.cache.write held.key (.ready data)
      (flatten data settings.identity)).1
    { client.session with
      cache := (client.session.cache.write held.key (.ready data)
        (flatten data settings.identity)).2 }
  refine ⟨_, ?_, hends⟩
  exact .replaced hheld hdata rfl rfl rfl ⟨_, rfl⟩

end Session

/-- The failures with which a call is refused before it has written anything. -/
def Call.canRefuse {σ : Type} : Call σ → Failure → Bool
  | query _ _, .query _ => true
  | refetch _ _, .query _ => true
  | mutate _ _, .query _ => true
  | read _ _, .query _ => true
  | read _ _, .notCached _ => true
  | _, _ => false

theorem Session.canRefuse_of_readQuery {σ : Type} {source : QuerySource} {vars : Variables}
    {session : Session σ} {failure : Failure}
    (h : session.readQuery source vars = .error failure) :
    (Call.read source vars : Call σ).canRefuse failure = true := by
  rw [readQuery] at h
  cases hsource : source.document with
  | error other =>
      rw [hsource] at h
      cases h
      obtain ⟨fault, rfl⟩ := source.exists_fault_of_document hsource
      rfl
  | ok document =>
      simp only [hsource, bind, Except.bind, Store.read, pure, Except.pure] at h
      cases hstate : session.cache.store.state? (.ofQuery document vars) with
      | none =>
          rw [hstate] at h
          cases h
          rfl
      | some state => simp [hstate] at h

namespace Client

open Session (Noted Opens Rerun)

variable {σ : Type} {settings : Settings} {backend : Backend σ}

/-- What a call does: it evicts, waits or reads, it is refused, or it opens a work
list and comes to the end of it or to a blocked re-run. -/
inductive Performs (settings : Settings) (backend : Backend σ) (client : Client σ) :
    Call σ → Option Failure × Client σ → Prop
  | evicted (key : QueryKey) :
      Performs settings backend client (.evict key)
        (none, ⟨(client.session.evict key).2, client.handles.map (Held.afterEvict key)⟩)
  | elapsed (world : σ) :
      Performs settings backend client (.elapse world)
        (none, { client with session := { client.session with world } })
  | read {call : Call σ} {key : QueryKey} (cached : client.session.cache.store.IsCached key) :
      Performs settings backend client call
        (none, { client with handles := client.handles ++ [⟨key, true⟩] })
  | refused {call : Call σ} {failure : Failure} {next : Session σ}
      (noted : Noted client.session next) (refusal : call.canRefuse failure = true) :
      Performs settings backend client call (some failure, { client with session := next })
  | finished {call : Call σ} {work : WorkList σ} {next : Session σ}
      (opens : Opens settings backend client call work)
      (turns : WorkList.Turns settings backend work ⟨[], next⟩) :
      Performs settings backend client call (none, { client with session := next })
  | blocked {call : Call σ} {work : WorkList σ} {rerun : Rerun} {rest : List Rerun}
      {next : Session σ} (opens : Opens settings backend client call work)
      (turns : WorkList.Turns settings backend work ⟨rerun :: rest, next⟩)
      (blocked : rerun.Blocked settings) :
      Performs settings backend client call
        (some (next.abort rerun).1, { client with session := (next.abort rerun).2 })

theorem performs_resume {α : Type} {client : Client σ} {call : Call σ} {work : WorkList σ}
    (hopens : Opens settings backend client call work) {out : Except Failure α × Session σ}
    (hends : WorkList.Ends settings backend work (out.1.map fun _ => (), out.2)) :
    Performs settings backend client call (client.resume out) := by
  obtain ⟨outcome, next⟩ := out
  cases outcome with
  | ok value =>
      generalize hout : ((Except.ok value : Except Failure α).map fun _ => (), next) = out at hends
      cases hends with
      | finished turns =>
          cases hout
          exact .finished hopens turns
      | blocked turns hblocked => cases hout
  | error failure =>
      generalize hout : ((Except.error failure : Except Failure α).map fun _ => (), next) = out
        at hends
      cases hends with
      | finished turns => cases hout
      | blocked turns hblocked =>
          cases hout
          exact .blocked hopens turns hblocked

theorem performs_run {source : QuerySource} {vars : Variables}
    (hvars : Json.Ordered (.object vars)) (force : Bool) (client : Client σ) {call : Call σ}
    (hcall : ∀ fault, call.canRefuse (.query fault) = true) :
    Performs settings backend client call
      (client.resume (client.session.run settings backend source vars force)) := by
  rcases Session.prepare_cases settings source vars client.session with
    ⟨fault, hprepare⟩ | ⟨prepared, document, hprepare, hdocument⟩
  · rw [Session.run, hprepare]
    exact .refused (Noted.refl _) (hcall fault)
  · refine performs_resume ?_ (Session.ends_run force hprepare)
    exact Session.opens_opening (Prepared.ordered_ofDocument hvars hdocument) force call
      (Session.noted_note _ rfl)

/-- Every call does one of these things. -/
theorem performs (hbackend : backend.Ordered) (client : Client σ) {call : Call σ}
    (hcall : call.Ordered) :
    Performs settings backend client call (client.perform settings backend call) := by
  cases call with
  | query source vars => exact performs_run hcall false client fun _ => rfl
  | refetch source vars => exact performs_run hcall true client fun _ => rfl
  | mutate source vars =>
      rw [perform]
      rcases Session.ends_mutate source hcall hbackend client (.mutate source vars) with
        ⟨fault, next, hnoted, heq⟩ | ⟨work, hopens, hends⟩
      · rw [heq]
        exact .refused hnoted rfl
      · exact performs_resume hopens hends
  | evict key => exact .evicted key
  | read source vars =>
      rw [perform]
      cases hread : client.session.readQuery source vars with
      | error failure =>
          exact .refused (Noted.refl _) (Session.canRefuse_of_readQuery hread)
      | ok answer =>
          obtain ⟨key, state⟩ := answer
          exact .read (Session.isCached_of_readQuery hread)
  | write handle data =>
      rw [perform]
      cases hheld : client.handles[handle]? with
      | none => exact .finished (.noted (Noted.refl _)) .refl
      | some held =>
          obtain ⟨work, hopens, hends⟩ := Session.ends_writeQuery hheld hcall
          refine performs_resume hopens ?_
          convert hends
          cases (client.session.writeQuery settings backend held.key data).1 <;> rfl
  | elapse world => exact .elapsed world

end Client

/-- What holds of a client over an empty cache and is kept by every call holds all
along a run. -/
theorem Run.keep {σ : Type} {settings : Settings} {backend : Backend σ}
    (hbackend : backend.Ordered) (P : List Made → Client σ → Prop)
    (hstart : ∀ world, P [] (.start world))
    (hcall : ∀ {log client call failure next}, Run settings backend log client →
      P log client → Client.Performs settings backend client call (failure, next) →
        P (log ++ [⟨client.isCurrent call, failure⟩]) next)
    {log : List Made} {client : Client σ} (h : Run settings backend log client) :
    P log client := by
  induction h with
  | start world => exact hstart world
  | call run call ordered ih =>
      exact hcall run ih (Client.performs hbackend _ ordered)

end QueryCache
