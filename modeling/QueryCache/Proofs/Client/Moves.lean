import QueryCache.Proofs.Client.Courses
import QueryCache.Proofs.Client.Propagation

/-!
# What an execution goes through

An execution notes every step of its tracker in the journal. `Session.Moves` keeps account of these
steps and of the contacts with the world outside for any part of an execution, and is put together
from part to part. A whole execution takes one of the courses that there are (`Session.Passes`).
-/

namespace QueryCache

/-- The step of a tracker that an entry tells of. -/
def Entry.step? : Entry → Option (Phase × Phase)
  | advanced _ before after => some (before, after)
  | _ => none

theorem Store.exists_state?_of_isFresh {store : Store} {key : QueryKey}
    (h : store.isFresh key = true) : ∃ state, store.state? key = some state ∧
      state.isFresh = true := by
  rw [isFresh] at h
  cases hstate : store.state? key with
  | none => simp [hstate] at h
  | some state =>
      rw [hstate] at h
      exact ⟨state, rfl, h⟩

namespace Session

variable {σ : Type} {settings : Settings} {backend : Backend σ}

/-! ### The parts of an execution -/

/-- From one session to another, trackers go these steps, and the world has these contacts. The
contacts with the server are noted too. -/
structure Moves (backend : Backend σ) (session : Session σ) (steps : List (Phase × Phase))
    (contacts : List Contact) (next : Session σ) : Prop where
  journal : ∃ entries, next.cache.journal = session.cache.journal ++ entries ∧
    entries.filterMap Entry.step? = steps ∧
      (entries.filterMap Entry.request?).map Prod.fst = contacts.filterMap Contact.request?
  world : backend.Leads session.world contacts next.world

variable {first second third session next : Session σ} {steps steps' : List (Phase × Phase)}
  {contacts contacts' : List Contact}

theorem Moves.trans (h : Moves backend first steps contacts second)
    (h' : Moves backend second steps' contacts' third) :
    Moves backend first (steps ++ steps') (contacts ++ contacts') third := by
  obtain ⟨entries, hjournal, hsteps, hrequests⟩ := h.journal
  obtain ⟨entries', hjournal', hsteps', hrequests'⟩ := h'.journal
  refine ⟨⟨entries ++ entries', ?_, ?_, ?_⟩, h.world.trans h'.world⟩
  · rw [hjournal', hjournal, List.append_assoc]
  · rw [List.filterMap_append, hsteps, hsteps']
  · rw [List.filterMap_append, List.map_append, List.filterMap_append, hrequests, hrequests']

/-- A part in which no tracker goes on and the world is left alone. -/
theorem moves_of_silent {entries : List Entry}
    (hjournal : next.cache.journal = session.cache.journal ++ entries)
    (hentries : ∀ entry ∈ entries, entry.step? = none ∧ entry.request? = none)
    (hworld : next.world = session.world) : Moves backend session [] [] next := by
  refine ⟨⟨entries, hjournal, ?_, ?_⟩, ?_⟩
  · exact List.filterMap_eq_nil_iff.2 fun entry hentry => (hentries entry hentry).1
  · rw [List.filterMap_eq_nil_iff.2 fun entry hentry => (hentries entry hentry).2]
    rfl
  · rw [hworld]
    exact .refl session.world

theorem moves_note (session : Session σ) {entry : Entry} (hstep : entry.step? = none)
    (hrequest : entry.request? = none) : Moves backend session [] [] (session.note entry) :=
  moves_of_silent rfl (List.forall_mem_singleton.2 ⟨hstep, hrequest⟩) rfl

theorem moves_advance (session : Session σ) (label : String) (before after : Phase) :
    Moves backend session [(before, after)] [] (session.advance label before after) :=
  ⟨⟨[.advanced label before after], rfl, rfl, rfl⟩, .refl session.world⟩

theorem moves_noteAll (session : Session σ) (notes : List MergeNote) :
    Moves backend session [] []
      { session with cache := session.cache.noteAll (notes.map .obstructed) } := by
  refine moves_of_silent rfl (fun entry hentry => ?_) rfl
  obtain ⟨note, -, rfl⟩ := List.mem_map.1 hentry
  exact ⟨rfl, rfl⟩

/-- The server is asked, which is noted before. -/
theorem moves_ask (backend : Backend σ) (request : Request) (loading : List QueryKey)
    (session : Session σ) :
    Moves backend session [] [.asked request (backend.fetch request session.world).1]
      { session.note (.requested request loading) with
        world := (backend.fetch request session.world).2 } :=
  ⟨⟨[.requested request loading], rfl, rfl, rfl⟩, .ask request (.refl _)⟩

theorem moves_resolve (backend : Backend σ) (tree : PathTree) (answer : Option Json)
    (vars : Variables) (session : Session σ) :
    Moves backend session []
      [.resolved tree answer (backend.resolve tree answer vars session.world).1]
      { session with world := (backend.resolve tree answer vars session.world).2 } :=
  ⟨⟨[], (List.append_nil _).symm, rfl, rfl⟩, .resolve tree answer vars (.refl _)⟩

theorem moves_fetch (backend : Backend σ) (prepared : Prepared) (label : String)
    (session : Session σ) :
    ∃ phases contacts, prepared.Fetches phases contacts (session.fetch backend prepared label).1 ∧
      Moves backend session ((.parsing :: phases).zip phases) contacts
        (session.fetch backend prepared label).2 := by
  rw [fetch]
  split
  · have hasked := (moves_advance session label .parsing .fetching).trans
      (moves_ask backend prepared.request
        (session.advance label .parsing .fetching).cache.store.loadingKeys _)
    dsimp only at hasked ⊢
    rw [world_note]
    rcases hfetch : backend.fetch prepared.request
      (session.advance label .parsing .fetching).world with ⟨failure | data, world⟩
    · rw [hfetch] at hasked
      exact ⟨_, _, .failed failure, hasked.trans (moves_advance _ label .fetching .failed)⟩
    · rw [hfetch] at hasked
      exact ⟨_, _, .answered data, hasked⟩
  · exact ⟨_, _, .skipped, moves_advance session label .parsing .skipFetch⟩

theorem moves_fetchAndResolve (backend : Backend σ) (prepared : Prepared) (label : String)
    (session : Session σ) :
    ∃ phases contacts,
      prepared.Comes phases contacts (session.fetchAndResolve backend prepared label).1 ∧
        Moves backend session ((.parsing :: phases).zip phases) contacts
          (session.fetchAndResolve backend prepared label).2 := by
  obtain ⟨phases, contacts, hfetches, hmoves⟩ := moves_fetch backend prepared label session
  rw [fetchAndResolve]
  generalize session.fetch backend prepared label = out at hfetches hmoves
  obtain ⟨failure | ⟨answer, phase⟩, asked⟩ := out
  · exact ⟨phases, contacts, .unanswered hfetches, hmoves⟩
  · dsimp only at hfetches hmoves ⊢
    split
    · have hresolving := (hmoves.trans (moves_advance asked label phase .resolving)).trans
        (moves_resolve backend prepared.split.pathTree answer prepared.request.vars _)
      rw [List.append_nil] at hresolving
      rcases hresolve : backend.resolve prepared.split.pathTree answer prepared.request.vars
        (asked.advance label phase .resolving).world with ⟨failure | resolved, world⟩
      · rw [hresolve] at hresolving
        refine ⟨_, _, .unresolved hfetches failure, ?_⟩
        rw [hfetches.zip_append]
        simpa using hresolving.trans (moves_advance _ label .resolving .failed)
      · rw [hresolve] at hresolving
        refine ⟨_, _, .merged hfetches resolved, ?_⟩
        rw [hfetches.zip_append]
        -- where a value could not be put into the answer, this is noted, but is no step
        have hmerging := hresolving.trans (moves_advance _ label .resolving .merging)
        simpa using hmerging.trans (moves_noteAll _ _)
    · exact ⟨phases, contacts, .plain hfetches, hmoves⟩

theorem moves_write (session : Session σ) (key : QueryKey) (state : QueryState)
    (entities : Snapshots) :
    Moves backend session [] []
      { session with cache := (session.cache.write key state entities).2 } :=
  moves_of_silent rfl (List.forall_mem_singleton.2 ⟨rfl, rfl⟩) rfl

theorem moves_conclude (settings : Settings) (prepared : Prepared)
    (out : Except Failure (Json × Phase) × Session σ) :
    Moves backend out.2 (Prepared.closing out.1) [] (conclude settings prepared out).2 := by
  obtain ⟨failure | ⟨data, phase⟩, session⟩ := out
  · exact (moves_note session rfl rfl).trans
      (moves_write _ prepared.key (.failed failure) [])
  · exact ((moves_advance session prepared.label phase .caching).trans
      (moves_write _ prepared.key (.ready data) (flatten data settings.identity))).trans
        (moves_advance _ prepared.label .caching .done)

theorem moves_absorb (settings : Settings) (label : String) (answer : Json × Phase)
    (session : Session σ) :
    Moves backend session (Prepared.closing (.ok answer)) []
      (session.absorb settings label answer).2 := by
  have hwritten : ∀ session : Session σ, Moves backend session [] []
      { session with cache := (session.cache.writeEntities none
          (flatten answer.1 settings.identity)).2 } :=
    fun session => moves_of_silent rfl (List.forall_mem_singleton.2 ⟨rfl, rfl⟩) rfl
  exact ((moves_advance session label answer.2 .caching).trans (hwritten _)).trans
    (moves_advance _ label .caching .done)

/-! ### Whole executions -/

/-- Between the two sessions lies one execution of a prepared query, which comes to this state. -/
def Passes (backend : Backend σ) (prepared : Prepared) (session : Session σ) (state : QueryState)
    (next : Session σ) : Prop :=
  ∃ phases contacts, Moves backend session (phases.zip phases.tail) contacts next ∧
    prepared.Course phases contacts state

theorem Passes.of_comes {prepared : Prepared} {start : Session σ} {phases : List Phase}
    {outcome : Except Failure (Json × Phase)} (hcomes : prepared.Comes phases contacts outcome)
    (hstart : Moves backend session [(.idle, .parsing)] [] start)
    (hmoves : Moves backend start ((.parsing :: phases).zip phases) contacts second)
    (hclosing : Moves backend second (Prepared.closing outcome) [] next) :
    Passes backend prepared session (.ofOutcome (outcome.map Prod.fst)) next := by
  refine ⟨_, contacts, ?_, hcomes.course⟩
  rw [← hcomes.steps]
  simpa using hstart.trans (hmoves.trans hclosing)

/-- Where the world keeps a record, the course tells what comes on record. -/
theorem Passes.recorded {session next : Session (σ × List Contact)} {prepared : Prepared}
    {state : QueryState} (h : Passes backend.recording prepared session state next) :
    ∃ phases contacts, next.world.2 = session.world.2 ++ contacts ∧
      prepared.Course phases contacts state := by
  obtain ⟨phases, contacts, hmoves, hcourse⟩ := h
  exact ⟨phases, contacts, hmoves.world.recorded, hcourse⟩

theorem moves_started (session : Session σ) (prepared : Prepared) :
    Moves backend session [(.idle, .parsing)] [] (session.started prepared) :=
  (moves_note session rfl rfl).trans (moves_advance _ prepared.label .idle .parsing)

theorem moves_awaiting (session : Session σ) (prepared : Prepared) :
    Moves backend session [(.idle, .parsing)] [] (session.awaiting prepared) :=
  (moves_started session prepared).trans
    (moves_of_silent (List.append_nil _).symm (List.forall_mem_nil _) rfl)

/-- An execution leaves the state that it comes to in the cell of its query. -/
theorem passes_carryOut (settings : Settings) (backend : Backend σ) (prepared : Prepared)
    (force : Bool) (session : Session σ) :
    ∃ state, Passes backend prepared session state
        (session.carryOut settings backend prepared force).2 ∧
      (session.cache.store.Indexed →
        (session.carryOut settings backend prepared force).2.cache.store.state? prepared.key =
          some state) := by
  rw [carryOut]
  split
  · rename_i hfresh
    obtain ⟨state, hstate, hsettled⟩ :=
      Store.exists_state?_of_isFresh (Bool.and_eq_true_iff.1 hfresh).2
    exact ⟨state, ⟨_, [], (moves_started session prepared).trans
      (moves_advance _ prepared.label .parsing .done), prepared.course_of_isFresh hsettled⟩,
      fun _ => hstate⟩
  · obtain ⟨phases, contacts, hcomes, hmoves⟩ := moves_fetchAndResolve backend prepared
      prepared.label (session.awaiting prepared)
    -- the cell is not touched until the outcome is written to it
    have hstore := (answers_fetchAndResolve backend prepared prepared.label
      (session.awaiting prepared)).noted.store
    generalize (session.awaiting prepared).fetchAndResolve backend prepared prepared.label =
      out at hcomes hmoves hstore ⊢
    refine ⟨_, .of_comes hcomes (moves_awaiting session prepared) hmoves
      (moves_conclude settings prepared out), fun hindexed => ?_⟩
    have hwrite := congrArg Prod.snd (write_conclude settings prepared out)
    dsimp only at hwrite
    rw [hwrite, hstore]
    exact (Store.state?_write (hindexed.awaiting prepared) _ _ _ _).trans (if_pos rfl)

/-- A mutation returns the state that its execution comes to, unless the queries that run again
after it fail. After a failure no query runs again. -/
theorem passes_mutate {source : QuerySource} {vars : Variables} {prepared : Prepared}
    {start : Session σ} (backend : Backend σ)
    (hprepare : (session.advance "mutation" .idle .parsing).prepare settings source vars =
      (.ok prepared, start)) :
    ∃ state invalidation next, Passes backend prepared session state next ∧
      ((∃ failure, state = .failed failure) → invalidation = .none) ∧
      session.mutate settings backend source vars =
        WorkList.returning (fun _ => state)
          (next.propagate settings backend none invalidation) := by
  have hstart : Moves backend session [(.idle, .parsing)] [] start := by
    rw [(prepare_eq_ok hprepare).2]
    exact (moves_advance session "mutation" .idle .parsing).trans (moves_note _ rfl rfl)
  obtain ⟨phases, contacts, hcomes, hmoves⟩ := moves_fetchAndResolve backend prepared
    prepared.label start
  rcases hfetch : start.fetchAndResolve backend prepared prepared.label with
    ⟨failure | answer, next⟩
  · rw [hfetch] at hcomes hmoves
    -- nothing is stored of a mutation that failed, so that there is nothing to propagate
    refine ⟨_, .none, next, .of_comes hcomes hstart hmoves ?_, fun _ => rfl, ?_⟩
    · exact moves_of_silent (List.append_nil _).symm (List.forall_mem_nil _) rfl
    · rw [mutate_of_failed hprepare hfetch, propagate_none]
      rfl
  · rw [hfetch] at hcomes hmoves
    refine ⟨_, (next.absorb settings prepared.label answer).1, _, .of_comes hcomes hstart hmoves
      (moves_absorb settings prepared.label answer next), ?_, ?_⟩
    · rintro ⟨failure, hfailed⟩
      cases hfailed
    · rw [mutate_of_answered hprepare hfetch]
      rfl

end Session

end QueryCache
