import QueryCache.Proofs.Client.Result
import QueryCache.Proofs.Store.Sound

/-!
# One execution of a query

What an execution does to a session is decided by what the query comes to,
`Backend.result`, and by a single write: `Session.Executed` says that the
outcome of a prepared query has been stored, and lists what else has happened on
the way. A forced run always ends there
(`Session.executed_of_forced`); another run may leave it at a fresh result
(`Session.executed_or_fresh`).
-/

namespace QueryCache

namespace Entry

/-- The entry tells of the progress of an execution, not of a write or a run. -/
def isProgress : Entry → Bool
  | advanced _ _ _ => true
  | requested _ _ => true
  | obstructed _ => true
  | failed _ _ => true
  | split _ _ => true
  | _ => false

/-- Observers are told nothing of the progress of an execution. -/
theorem flatMap_events_of_isProgress {entries : List Entry}
    (h : ∀ entry ∈ entries, entry.isProgress = true) : entries.flatMap events = [] := by
  refine List.flatMap_eq_nil_iff.2 fun entry hentry => ?_
  have hprogress := h entry hentry
  cases entry <;> simp_all [isProgress, events]

/-- Of an execution that stores its outcome, observers see the write. -/
theorem flatMap_events_of_executed {before after : List Entry}
    (hbefore : ∀ entry ∈ before, entry.isProgress = true)
    (hafter : ∀ entry ∈ after, entry.isProgress = true) (key : QueryKey) (state : QueryState)
    (count : Nat) (invalidation : Invalidation) :
    (.executed key :: before ++ .wrote key state count invalidation :: after).flatMap events =
      (wrote key state count invalidation).events := by
  rw [List.flatMap_append, List.flatMap_cons, List.flatMap_cons,
    flatMap_events_of_isProgress hbefore, flatMap_events_of_isProgress hafter, List.append_nil,
    List.append_nil]
  rfl

end Entry

theorem Cache.events_append {cache next : Cache} {entries : List Entry}
    (h : next.journal = cache.journal ++ entries) :
    next.events = cache.events ++ entries.flatMap Entry.events := by
  rw [events, h, List.flatMap_append, events]

namespace Store

/-- The store in which a query has a cell. It is loading when the server is
asked. -/
def awaiting (store : Store) (prepared : Prepared) : Store :=
  let (id, store) := store.cell prepared.key
  if prepared.split.sendToServer then
    store.updateCell id fun state => { state with loading := true }
  else store

theorem Indexed.awaiting {store : Store} (h : Indexed store) (prepared : Prepared) :
    Indexed (store.awaiting prepared) := by
  rw [Store.awaiting]
  dsimp only
  split
  · exact (h.cell prepared.key).updateCell _ _
  · exact h.cell prepared.key

theorem Sound.awaiting {store : Store} (h : Sound store) (prepared : Prepared) :
    Sound (store.awaiting prepared) := by
  rw [Store.awaiting]
  dsimp only
  split
  · exact (h.cell prepared.key).updateCell _ _
  · exact h.cell prepared.key

@[simp] theorem snapshots_awaiting (store : Store) (prepared : Prepared) :
    (store.awaiting prepared).snapshots = store.snapshots := by
  rw [awaiting]
  dsimp only
  split <;> exact snapshots_cell store prepared.key

@[simp] theorem dependents_awaiting (store : Store) (prepared : Prepared) :
    (store.awaiting prepared).dependents = store.dependents := by
  rw [awaiting]
  dsimp only
  split <;> exact dependents_cell store prepared.key

theorem snapshot?_awaiting (store : Store) (prepared : Prepared) (entity : EntityKey) :
    (store.awaiting prepared).snapshot? entity = store.snapshot? entity := by
  rw [snapshot?, snapshots_awaiting, snapshot?]

theorem dependentsOf_awaiting (store : Store) (prepared : Prepared) (entity : EntityKey) :
    (store.awaiting prepared).dependentsOf entity = store.dependentsOf entity := by
  rw [dependentsOf, dependents_awaiting, dependentsOf]

theorem cell?_awaiting (store : Store) (prepared : Prepared) (other : QueryKey) :
    (store.awaiting prepared).cell? other =
      if other = prepared.key then some (store.cell prepared.key).1
      else store.cell? other := by
  rw [awaiting]
  dsimp only
  split <;> exact cell?_cell store prepared.key other

theorem fst_cell_awaiting (store : Store) (prepared : Prepared) :
    ((store.awaiting prepared).cell prepared.key).1 = (store.cell prepared.key).1 := by
  have hself := cell?_awaiting store prepared prepared.key
  rw [if_pos rfl] at hself
  rw [cell_of_some hself]

theorem cellOf_awaiting_of_ne (store : Store) {prepared : Prepared} {id : CellId}
    (hne : (store.cell prepared.key).1 ≠ id) :
    (store.awaiting prepared).cellOf id = store.cellOf id := by
  rw [awaiting]
  dsimp only
  split
  · exact (cellOf_updateCell_of_ne _ hne _).trans (cellOf_cell store prepared.key id)
  · exact cellOf_cell store prepared.key id

/-- While a query is under way the states of the others are what they were. -/
theorem state?_awaiting_of_ne {store : Store} (h : store.Indexed) (prepared : Prepared)
    {other : QueryKey} (hne : other ≠ prepared.key) :
    (store.awaiting prepared).state? other = store.state? other := by
  have hcell : (store.cell prepared.key).2.state? other = store.state? other := by
    rw [state?_cell h, if_neg hne]
  have hself : (store.cell prepared.key).2.cell? prepared.key =
      some (store.cell prepared.key).1 := by
    rw [cell?_cell, if_pos rfl]
  rw [awaiting]
  dsimp only
  split
  · rw [state?_updateCell (h.cell prepared.key) hself, if_neg hne, hcell]
  · exact hcell

end Store

namespace Session

variable {σ : Type}

/-- Only notes on the progress of an execution have been added to the journal. -/
structure Noted (session next : Session σ) : Prop where
  store : next.cache.store = session.cache.store
  registry : next.registry = session.registry
  journal : ∃ entries, next.cache.journal = session.cache.journal ++ entries ∧
    ∀ entry ∈ entries, entry.isProgress = true

theorem Noted.refl (session : Session σ) : Noted session session :=
  ⟨rfl, rfl, [], by simp, by simp⟩

theorem Noted.trans {first second third : Session σ} (h : Noted first second)
    (h' : Noted second third) : Noted first third := by
  obtain ⟨entries, hjournal, hentries⟩ := h.journal
  obtain ⟨entries', hjournal', hentries'⟩ := h'.journal
  refine ⟨h'.store.trans h.store, h'.registry.trans h.registry, entries ++ entries', ?_, ?_⟩
  · rw [hjournal', hjournal, List.append_assoc]
  · intro entry hmem
    rcases List.mem_append.1 hmem with hmem | hmem
    · exact hentries entry hmem
    · exact hentries' entry hmem

theorem Noted.events {session next : Session σ} (h : Noted session next) :
    next.cache.events = session.cache.events := by
  obtain ⟨entries, hjournal, hentries⟩ := h.journal
  rw [Cache.events_append hjournal, Entry.flatMap_events_of_isProgress hentries,
    List.append_nil]

theorem noted_note (session : Session σ) {entry : Entry} (h : entry.isProgress = true) :
    Noted session (session.note entry) :=
  ⟨rfl, rfl, [entry], rfl, by simpa using h⟩

theorem noted_advance (session : Session σ) (label : String) (before after : Phase) :
    Noted session (session.advance label before after) :=
  noted_note session rfl

theorem noted_world (session : Session σ) (world : σ) :
    Noted session { session with world } :=
  ⟨rfl, rfl, [], by simp, by simp⟩

theorem noted_noteAll (session : Session σ) (notes : List MergeNote) :
    Noted session { session with cache := session.cache.noteAll (notes.map .obstructed) } := by
  refine ⟨rfl, rfl, notes.map .obstructed, rfl, ?_⟩
  intro entry hmem
  obtain ⟨note, -, rfl⟩ := List.mem_map.1 hmem
  rfl

theorem world_note (session : Session σ) (entry : Entry) :
    (session.note entry).world = session.world := rfl

theorem world_advance (session : Session σ) (label : String) (before after : Phase) :
    (session.advance label before after).world = session.world := rfl

/-- A phase of an execution ends as the world outside answers, with nothing but
notes on the way. -/
structure Answers {α : Type} (session : Session σ)
    (out : Except Failure (α × Phase) × Session σ) (answer : Except Failure α × σ) :
    Prop where
  noted : Noted session out.2
  world : out.2.world = answer.2
  outcome : out.1.map Prod.fst = answer.1

theorem answers_fetch (backend : Backend σ) (prepared : Prepared) (label : String)
    (session : Session σ) :
    Answers session (session.fetch backend prepared label)
      (backend.answer prepared session.world) := by
  rw [fetch, Backend.answer]
  split
  · dsimp only
    have hstart : Noted session ((session.advance label .parsing .fetching).note
        (.requested prepared.request
          (session.advance label .parsing .fetching).cache.store.loadingKeys)) :=
      (noted_advance session label .parsing .fetching).trans (noted_note _ rfl)
    rw [world_note, world_advance]
    rcases backend.fetch prepared.request session.world with ⟨failure | data, world⟩
    · exact ⟨(hstart.trans (noted_world _ world)).trans (noted_advance _ _ _ _), rfl, rfl⟩
    · exact ⟨hstart.trans (noted_world _ world), rfl, rfl⟩
  · exact ⟨noted_advance _ _ _ _, rfl, rfl⟩

theorem answers_fetchAndResolve (backend : Backend σ) (prepared : Prepared)
    (label : String) (session : Session σ) :
    Answers session (session.fetchAndResolve backend prepared label)
      (backend.result prepared session.world) := by
  obtain ⟨hnoted, hworld, houtcome⟩ := answers_fetch backend prepared label session
  rw [fetchAndResolve, Backend.result]
  generalize session.fetch backend prepared label = out at hnoted hworld houtcome
  generalize backend.answer prepared session.world = answer at hworld houtcome
  obtain ⟨outcome, next⟩ := out
  obtain ⟨answer, world⟩ := answer
  dsimp only at hnoted hworld houtcome
  subst hworld houtcome
  cases outcome with
  | error failure => exact ⟨hnoted, rfl, rfl⟩
  | ok answer =>
      obtain ⟨answer, phase⟩ := answer
      dsimp only [Except.map]
      split
      · have hresolving := hnoted.trans (noted_advance next label phase .resolving)
        rw [world_advance]
        rcases backend.resolve prepared.split.pathTree answer prepared.request.vars
          next.world with ⟨failure | resolved, world⟩
        · exact ⟨(hresolving.trans (noted_world _ world)).trans (noted_advance _ _ _ _),
            rfl, rfl⟩
        · exact ⟨((hresolving.trans (noted_world _ world)).trans
            (noted_advance _ _ _ _)).trans (noted_noteAll _ _), rfl, rfl⟩
      · exact ⟨hnoted, rfl, rfl⟩

/-- The outcome of a prepared query has been stored. Between the beginning of the
run and the write, and after the write, only its progress has been noted. -/
structure Executed (settings : Settings) (backend : Backend σ) (prepared : Prepared)
    (session : Session σ) (invalidation : Invalidation) (next : Session σ) : Prop where
  write : (invalidation, next.cache.store) =
    (session.cache.store.awaiting prepared).write prepared.key
      (.ofOutcome (backend.result prepared session.world).1)
      (.ofOutcome settings.identity (backend.result prepared session.world).1)
  world : next.world = (backend.result prepared session.world).2
  registry : next.registry = session.registry
  journal : ∃ before after entities, next.cache.journal = session.cache.journal ++
      .executed prepared.key :: before ++
        .wrote prepared.key (.ofOutcome (backend.result prepared session.world).1)
          entities invalidation :: after ∧
    (∀ entry ∈ before, entry.isProgress = true) ∧ ∀ entry ∈ after, entry.isProgress = true

/-- The session of an execution that has begun. -/
def started (session : Session σ) (prepared : Prepared) : Session σ :=
  (session.note (.executed prepared.key)).advance prepared.label .idle .parsing

/-- The session of an execution that waits for its result. -/
def awaiting (session : Session σ) (prepared : Prepared) : Session σ :=
  let session := session.started prepared
  { session with
    cache := { session.cache with store := session.cache.store.awaiting prepared } }

/-- The end of an execution: its outcome is stored. -/
def conclude (settings : Settings) (prepared : Prepared) :
    Except Failure (Json × Phase) × Session σ → Invalidation × Session σ
  | (.ok (data, phase), session) =>
    let session := session.advance prepared.label phase .caching
    let (invalidation, cache) :=
      session.cache.write prepared.key (.ready data) (flatten data settings.identity)
    (invalidation, { session with cache }.advance prepared.label .caching .done)
  | (.error failure, session) =>
    let session := session.note (.failed prepared.label failure)
    let (_, cache) := session.cache.write prepared.key (.failed failure) []
    (.none, { session with cache })

theorem execute_of_awaiting (settings : Settings) (backend : Backend σ) (prepared : Prepared)
    (force : Bool) (session : Session σ) :
    session.execute settings backend prepared force =
      if !force && session.cache.store.isFresh prepared.key then
        (.ok .none, (session.started prepared).advance prepared.label .parsing .done)
      else
        match (session.awaiting prepared).fetchAndResolve backend prepared prepared.label with
        | (.ok (data, phase), next) =>
          (.ok (conclude settings prepared (.ok (data, phase), next)).1,
            (conclude settings prepared (.ok (data, phase), next)).2)
        | (.error failure, next) =>
          (if failure.isRecordable then .ok .none else .error failure,
            (conclude settings prepared (.error failure, next)).2) := by
  have hawaiting : session.awaiting prepared = { session.started prepared with
      cache := if prepared.split.sendToServer then
          ((session.started prepared).cache.cell prepared.key).2.updateCell
            ((session.started prepared).cache.cell prepared.key).1
              fun state => { state with loading := true }
        else ((session.started prepared).cache.cell prepared.key).2 } := by
    simp only [awaiting, Store.awaiting]
    split <;> rfl
  rw [hawaiting]
  rfl

/-- What an execution comes to. A fresh result stays as it is; else the outcome is stored. -/
def carryOut (settings : Settings) (backend : Backend σ) (prepared : Prepared)
    (force : Bool) (session : Session σ) : Invalidation × Session σ :=
  if !force && session.cache.store.isFresh prepared.key then
    (.none, (session.started prepared).advance prepared.label .parsing .done)
  else
    conclude settings prepared
      ((session.awaiting prepared).fetchAndResolve backend prepared prepared.label)

/-- An execution returns no failure: it can only come to one of the transport or of a resolver,
and these are recorded. -/
theorem execute_eq (settings : Settings) (backend : Backend σ) (prepared : Prepared)
    (force : Bool) (session : Session σ) :
    session.execute settings backend prepared force =
      (.ok (session.carryOut settings backend prepared force).1,
        (session.carryOut settings backend prepared force).2) := by
  have houtcome := (answers_fetchAndResolve backend prepared prepared.label
    (session.awaiting prepared)).outcome
  rw [execute_of_awaiting, carryOut]
  split
  · rfl
  · generalize (session.awaiting prepared).fetchAndResolve backend prepared prepared.label =
      out at houtcome ⊢
    obtain ⟨failure | answer, next⟩ := out
    · dsimp only
      rw [if_pos (Backend.isRecordable_of_result houtcome.symm)]
      rfl
    · rfl

theorem carryOut_of_execute {settings : Settings} {backend : Backend σ} {prepared : Prepared}
    {force : Bool} {session next : Session σ} {invalidation : Invalidation}
    (h : session.execute settings backend prepared force = (.ok invalidation, next)) :
    invalidation = (session.carryOut settings backend prepared force).1 ∧
      next = (session.carryOut settings backend prepared force).2 := by
  cases (execute_eq settings backend prepared force session).symm.trans h
  exact ⟨rfl, rfl⟩

theorem write_conclude (settings : Settings) (prepared : Prepared)
    (out : Except Failure (Json × Phase) × Session σ) :
    ((conclude settings prepared out).1, (conclude settings prepared out).2.cache.store) =
      out.2.cache.store.write prepared.key (.ofOutcome (out.1.map Prod.fst))
        (.ofOutcome settings.identity (out.1.map Prod.fst)) := by
  obtain ⟨outcome, session⟩ := out
  cases outcome with
  | ok answer => rfl
  | error failure => rfl

theorem registry_conclude (settings : Settings) (prepared : Prepared)
    (out : Except Failure (Json × Phase) × Session σ) :
    (conclude settings prepared out).2.registry = out.2.registry := by
  obtain ⟨outcome, session⟩ := out
  cases outcome <;> rfl

theorem world_conclude (settings : Settings) (prepared : Prepared)
    (out : Except Failure (Json × Phase) × Session σ) :
    (conclude settings prepared out).2.world = out.2.world := by
  obtain ⟨outcome, session⟩ := out
  cases outcome <;> rfl

theorem journal_conclude (settings : Settings) (prepared : Prepared)
    (out : Except Failure (Json × Phase) × Session σ) :
    ∃ before after entities, (conclude settings prepared out).2.cache.journal =
        out.2.cache.journal ++ (before ++ .wrote prepared.key
          (.ofOutcome (out.1.map Prod.fst)) entities (conclude settings prepared out).1 ::
            after) ∧
      (∀ entry ∈ before, entry.isProgress = true) ∧
        ∀ entry ∈ after, entry.isProgress = true := by
  obtain ⟨outcome, session⟩ := out
  cases outcome with
  | ok answer =>
      obtain ⟨data, phase⟩ := answer
      refine ⟨[.advanced prepared.label phase .caching],
        [.advanced prepared.label .caching .done], (flatten data settings.identity).length,
        ?_, by simp [Entry.isProgress], by simp [Entry.isProgress]⟩
      simp [conclude, advance, note, Cache.note, Cache.write, QueryState.ofOutcome, Except.map]
  | error failure =>
      refine ⟨[.failed prepared.label failure], [], 0, ?_, by simp [Entry.isProgress], by simp⟩
      simp [conclude, note, Cache.note, Cache.write, QueryState.ofOutcome, Except.map,
        Store.write_of_none, QueryState.failed]

/-- A run that does not stop at a fresh result. -/
theorem executed_of_not_fresh (settings : Settings) (backend : Backend σ)
    (prepared : Prepared) {force : Bool} {session : Session σ}
    (h : force = true ∨ session.cache.store.isFresh prepared.key = false) :
    Executed settings backend prepared session
      (session.carryOut settings backend prepared force).1
      (session.carryOut settings backend prepared force).2 := by
  have hrun : ¬ (!force && session.cache.store.isFresh prepared.key) = true := by
    rcases h with h | h <;> simp [h]
  obtain ⟨hnoted, hworld, houtcome⟩ := answers_fetchAndResolve backend prepared
    prepared.label (session.awaiting prepared)
  rw [carryOut, if_neg hrun]
  generalize (session.awaiting prepared).fetchAndResolve backend prepared prepared.label =
    out at hnoted hworld houtcome
  have hwrite := write_conclude settings prepared out
  obtain ⟨before, after, entities, hjournal, hbefore, hafter⟩ :=
    journal_conclude settings prepared out
  obtain ⟨notes, hnotes, hprogress⟩ := hnoted.journal
  rw [houtcome] at hwrite hjournal
  refine ⟨?_, ?_, ?_, ?_⟩
  · rw [hwrite, hnoted.store]
    rfl
  · rw [world_conclude, hworld]
    rfl
  · rw [registry_conclude, hnoted.registry]
    rfl
  · refine ⟨.advanced prepared.label .idle .parsing :: notes ++ before, after, entities,
      ?_, ?_, hafter⟩
    · rw [hjournal, hnotes]
      simp [awaiting, started, advance, note, Cache.note]
    · intro entry hmem
      simp only [List.cons_append, List.mem_cons, List.mem_append] at hmem
      rcases hmem with rfl | hmem | hmem
      · rfl
      · exact hprogress entry hmem
      · exact hbefore entry hmem

theorem executed_of_forced (settings : Settings) (backend : Backend σ)
    (prepared : Prepared) (session : Session σ) :
    Executed settings backend prepared session
      (session.carryOut settings backend prepared true).1
      (session.carryOut settings backend prepared true).2 :=
  executed_of_not_fresh settings backend prepared (Or.inl rfl)

/-- A run that is not forced may stop at a fresh result. Then it only takes notes. -/
theorem executed_or_fresh (settings : Settings) (backend : Backend σ)
    (prepared : Prepared) (force : Bool) (session : Session σ) :
    Executed settings backend prepared session
        (session.carryOut settings backend prepared force).1
        (session.carryOut settings backend prepared force).2 ∨
      session.cache.store.isFresh prepared.key = true ∧
        session.carryOut settings backend prepared force =
          (.none, (session.started prepared).advance prepared.label .parsing .done) := by
  cases hfresh : session.cache.store.isFresh prepared.key with
  | false => exact Or.inl (executed_of_not_fresh settings backend prepared (Or.inr hfresh))
  | true =>
      cases force with
      | true => exact Or.inl (executed_of_forced settings backend prepared session)
      | false =>
          refine Or.inr ⟨rfl, ?_⟩
          rw [carryOut, hfresh]
          rfl

theorem registry_carryOut (settings : Settings) (backend : Backend σ) (prepared : Prepared)
    (force : Bool) (session : Session σ) :
    (session.carryOut settings backend prepared force).2.registry = session.registry := by
  rcases executed_or_fresh settings backend prepared force session with hexecuted | ⟨-, heq⟩
  · exact hexecuted.registry
  · rw [heq]
    rfl

end Session

end QueryCache
