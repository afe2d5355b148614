import QueryCache.Client.Basic
import QueryCache.Proofs.Client.Result

/-!
# The courses of an execution

An execution calls on the world outside by asking the server and the resolvers (`Contact`). There
are few ways in which a result comes about (`Prepared.Fetches`, `Prepared.Comes`), and in each of
them the phases form a path of the phase machine, from its beginning to one of its ends
(`Prepared.Comes.steps`, `Prepared.Comes.course`).
-/

namespace QueryCache

/-! ### Contacts -/

/-- A call on the world outside, and what came back. -/
inductive Contact where
  /-- The server was asked. -/
  | asked (request : Request) (answer : Except Failure Json)
  /-- The resolvers were given a path tree and the answer of the server. -/
  | resolved (tree : PathTree) (answer : Option Json) (outcome : Except Failure PathTree)

/-- What the server was asked. -/
def Contact.request? : Contact → Option Request
  | asked request _ => some request
  | resolved _ _ _ => none

namespace Backend

variable {σ : Type} {backend : Backend σ}

/-- The world comes from one state to another by these contacts and no others. -/
inductive Leads (backend : Backend σ) : σ → List Contact → σ → Prop
  | refl (world : σ) : Leads backend world [] world
  | ask (request : Request) {world next : σ} {contacts : List Contact}
      (rest : Leads backend (backend.fetch request world).2 contacts next) :
      Leads backend world (.asked request (backend.fetch request world).1 :: contacts) next
  | resolve (tree : PathTree) (answer : Option Json) (vars : Variables) {world next : σ}
      {contacts : List Contact}
      (rest : Leads backend (backend.resolve tree answer vars world).2 contacts next) :
      Leads backend world
        (.resolved tree answer (backend.resolve tree answer vars world).1 :: contacts) next

theorem Leads.trans {first second third : σ} {contacts contacts' : List Contact}
    (h : backend.Leads first contacts second) (h' : backend.Leads second contacts' third) :
    backend.Leads first (contacts ++ contacts') third := by
  induction h with
  | refl world => exact h'
  | ask request rest ih => exact .ask request (ih h')
  | resolve tree answer vars rest ih => exact .resolve tree answer vars (ih h')

/-- The same world, which keeps a record of its contacts. -/
def recording (backend : Backend σ) : Backend (σ × List Contact) where
  fetch request world :=
    let (answer, next) := backend.fetch request world.1
    (answer, next, world.2 ++ [.asked request answer])
  resolve tree answer vars world :=
    let (outcome, next) := backend.resolve tree answer vars world.1
    (outcome, next, world.2 ++ [.resolved tree answer outcome])

/-- Where a record is kept, the contacts are those on record. -/
theorem Leads.recorded {first second : σ × List Contact} {contacts : List Contact}
    (h : backend.recording.Leads first contacts second) : second.2 = first.2 ++ contacts := by
  induction h with
  | refl world => exact (List.append_nil _).symm
  | ask request rest ih => exact ih.trans (List.append_assoc _ _ _)
  | resolve tree answer vars rest ih => exact ih.trans (List.append_assoc _ _ _)

theorem ordered_recording (h : backend.Ordered) : backend.recording.Ordered :=
  ⟨fun request world => h.fetch request world.1,
    fun tree answer vars world => h.resolve tree answer vars world.1⟩

end Backend

/-! ### Courses -/

/-- Every step along a path of the phase machine is one that it has. -/
theorem Phase.canAdvance_of_mem_zip_tail {phases : List Phase}
    (h : phases.IsChain fun before after => before.canAdvance after = true)
    {step : Phase × Phase} (hstep : step ∈ phases.zip phases.tail) :
    step.1.canAdvance step.2 = true := by
  induction phases with
  | nil => cases hstep
  | cons first rest ih =>
      cases rest with
      | nil => cases hstep
      | cons second rest =>
          obtain ⟨hfirst, hrest⟩ := List.isChain_cons_cons.1 h
          rcases List.mem_cons.1 hstep with rfl | hstep
          · exact hfirst
          · exact ih hrest hstep

namespace Prepared

/-- An execution goes through these phases, has these contacts, and comes to this state. -/
structure Course (prepared : Prepared) (phases : List Phase) (contacts : List Contact)
    (state : QueryState) : Prop where
  begins : phases.head? = some .idle
  allowed : phases.IsChain fun before after => before.canAdvance after = true
  /-- The machine ends in the last phase, and this one tells whether the execution has failed. -/
  ends : ∃ last, phases.getLast? = some last ∧ last.isTerminal = true ∧
    (last = .failed ↔ ∃ failure, state = .failed failure)
  fetches : .fetching ∈ phases ↔ ∃ request answer, .asked request answer ∈ contacts
  merges : .merging ∈ phases ↔
    ∃ tree answer resolved, .resolved tree answer (.ok resolved) ∈ contacts
  /-- What the resolvers gave for the marked fields is in the result. -/
  merged : ∀ tree answer resolved, .resolved tree answer (.ok resolved) ∈ contacts →
    tree = prepared.split.pathTree ∧ state = .ready (merge (answer.getD .emptyObject) resolved)

/-- How the server is asked: the phases after parsing, the contacts, and the outcome. -/
inductive Fetches (prepared : Prepared) :
    List Phase → List Contact → Except Failure (Option Json × Phase) → Prop
  | skipped : Fetches prepared [.skipFetch] [] (.ok (none, .skipFetch))
  | answered (data : Json) :
      Fetches prepared [.fetching] [.asked prepared.request (.ok data)]
        (.ok (some data, .fetching))
  | failed (failure : Failure) :
      Fetches prepared [.fetching, .failed] [.asked prepared.request (.error failure)]
        (.error failure.asTransport)

/-- The resolvers have not been called yet. -/
theorem Fetches.not_resolved {prepared : Prepared} {phases : List Phase} {contacts : List Contact}
    {outcome : Except Failure (Option Json × Phase)}
    (h : prepared.Fetches phases contacts outcome) {tree : PathTree} {answer : Option Json}
    {resolved : Except Failure PathTree} : .resolved tree answer resolved ∉ contacts := by
  cases h <;> simp

/-- The only call on the resolvers is the one that comes after. -/
theorem Fetches.eq_of_mem_resolved {prepared : Prepared} {phases : List Phase}
    {contacts : List Contact} {outcome : Except Failure (Option Json × Phase)}
    (h : prepared.Fetches phases contacts outcome) {tree given : PathTree}
    {answer found : Option Json} {resolved values : Except Failure PathTree}
    (hmem : .resolved given found values ∈ contacts ++ [.resolved tree answer resolved]) :
    given = tree ∧ found = answer ∧ values = resolved := by
  rcases List.mem_append.1 hmem with hmem | hmem
  · exact absurd hmem h.not_resolved
  · cases List.mem_singleton.1 hmem
    exact ⟨rfl, rfl, rfl⟩

/-- The last phase is the one that the tracker stands at. -/
theorem Fetches.zip_append {prepared : Prepared} {phases : List Phase} {contacts : List Contact}
    {answer : Option Json} {phase : Phase}
    (h : prepared.Fetches phases contacts (.ok (answer, phase))) (further : List Phase) :
    (.parsing :: (phases ++ further)).zip (phases ++ further) =
      (.parsing :: phases).zip phases ++ (phase :: further).zip further := by
  cases h <;> rfl

/-- How a result comes about: the phases after parsing, the contacts, and the outcome. -/
inductive Comes (prepared : Prepared) :
    List Phase → List Contact → Except Failure (Json × Phase) → Prop
  | unanswered {phases : List Phase} {contacts : List Contact} {failure : Failure}
      (fetches : prepared.Fetches phases contacts (.error failure)) :
      Comes prepared phases contacts (.error failure)
  /-- There is nothing to resolve. -/
  | plain {phases : List Phase} {contacts : List Contact} {answer : Option Json} {phase : Phase}
      (fetches : prepared.Fetches phases contacts (.ok (answer, phase))) :
      Comes prepared phases contacts (.ok (answer.getD .emptyObject, phase))
  | unresolved {phases : List Phase} {contacts : List Contact} {answer : Option Json}
      {phase : Phase} (fetches : prepared.Fetches phases contacts (.ok (answer, phase)))
      (failure : Failure) :
      Comes prepared (phases ++ [.resolving, .failed])
        (contacts ++ [.resolved prepared.split.pathTree answer (.error failure)])
        (.error failure.asResolver)
  | merged {phases : List Phase} {contacts : List Contact} {answer : Option Json}
      {phase : Phase} (fetches : prepared.Fetches phases contacts (.ok (answer, phase)))
      (resolved : PathTree) :
      Comes prepared (phases ++ [.resolving, .merging])
        (contacts ++ [.resolved prepared.split.pathTree answer (.ok resolved)])
        (.ok (merge (answer.getD .emptyObject) resolved, .merging))

/-- The phases of an execution, given those after parsing and the outcome. -/
def path (phases : List Phase) : Except Failure (Json × Phase) → List Phase
  | .ok _ => .idle :: .parsing :: phases ++ [.caching, .done]
  | .error _ => .idle :: .parsing :: phases

/-- The last steps of an execution: an outcome that is no failure is stored. -/
def closing : Except Failure (Json × Phase) → List (Phase × Phase)
  | .ok (_, phase) => [(phase, .caching), (.caching, .done)]
  | .error _ => []

/-- An execution that finds a fresh result is done. -/
theorem course_of_isFresh (prepared : Prepared) {state : QueryState} (h : state.isFresh = true) :
    prepared.Course [.idle, .parsing, .done] [] state := by
  refine ⟨rfl, by decide, ⟨.done, rfl, rfl, ?_⟩, by simp, by simp, by simp⟩
  constructor
  · intro heq
    cases heq
  · rintro ⟨failure, rfl⟩
    cases h

variable {prepared : Prepared} {phases : List Phase} {contacts : List Contact}
  {outcome : Except Failure (Json × Phase)}

/-- The steps join up: every one begins where the one before has ended. -/
theorem Comes.steps (h : prepared.Comes phases contacts outcome) :
    (.idle, .parsing) :: ((.parsing :: phases).zip phases ++ closing outcome) =
      (path phases outcome).zip (path phases outcome).tail := by
  cases h with
  | unanswered hfetches =>
      cases hfetches
      rfl
  | plain hfetches => cases hfetches <;> rfl
  | unresolved hfetches => cases hfetches <;> rfl
  | merged hfetches => cases hfetches <;> rfl

theorem Comes.course (h : prepared.Comes phases contacts outcome) :
    prepared.Course (path phases outcome) contacts (.ofOutcome (outcome.map Prod.fst)) := by
  have hdone : ∀ data, Phase.done = .failed ↔
      ∃ failure, QueryState.ready data = .failed failure := by
    simp [QueryState.ready, QueryState.failed]
  have hfailed : ∀ failure, Phase.failed = .failed ↔
      ∃ other, QueryState.failed failure = .failed other :=
    fun failure => iff_of_true rfl ⟨failure, rfl⟩
  cases h with
  | unanswered hfetches =>
      cases hfetches
      exact ⟨rfl, by simp [path, Phase.canAdvance], ⟨_, rfl, rfl, hfailed _⟩, by simp [path],
        by simp [path], by simp⟩
  | plain hfetches =>
      cases hfetches
      all_goals exact ⟨rfl, by simp [path, Phase.canAdvance], ⟨_, rfl, rfl, hdone _⟩,
        by simp [path], by simp [path], by simp⟩
  | unresolved hfetches failure =>
      cases hfetches
      all_goals exact ⟨rfl, by simp [path, Phase.canAdvance], ⟨_, rfl, rfl, hfailed _⟩,
        by simp [path], by simp [path], by simp⟩
  | @merged _ contacts answer _ hfetches resolved =>
      have hmerged : ∀ tree given found, Contact.resolved tree given (.ok found) ∈
          contacts ++ [.resolved prepared.split.pathTree answer (.ok resolved)] →
          tree = prepared.split.pathTree ∧
            QueryState.ready (merge (answer.getD .emptyObject) resolved) =
              .ready (merge (given.getD .emptyObject) found) := by
        intro tree given found hmem
        obtain ⟨rfl, rfl, hfound⟩ := hfetches.eq_of_mem_resolved hmem
        cases hfound
        exact ⟨rfl, rfl⟩
      cases hfetches
      all_goals exact ⟨rfl, by simp [path, Phase.canAdvance], ⟨_, rfl, rfl, hdone _⟩,
        by simp [path], by simp [path], hmerged⟩

end Prepared

end QueryCache
