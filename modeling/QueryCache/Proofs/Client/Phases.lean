import QueryCache.Proofs.Client.Contacts
import QueryCache.Proofs.Client.Simple

/-!
# The phases of an execution

No step but those of the phase machine ever comes into the journal (`Session.Legal`), since a call
lets trackers go such steps only. The executions of a call are the first one of a query that is run
and those of the queries that run again (`Client.Executes`). Each of them passes through the phase
machine and leaves the state that it comes to in the cell of its query, and a mutation returns it:
`Run.follows_phases` says so of every client that a run comes to (`Client.FollowsPhases`).
-/

namespace QueryCache

namespace Session

variable {σ : Type} {backend : Backend σ} {session next : Session σ}

/-- Every step that the journal tells of is one of the phase machine. -/
def Legal (session : Session σ) : Prop :=
  ∀ entry ∈ session.cache.journal, ∀ before after, entry.step? = some (before, after) →
    before.canAdvance after = true

theorem Legal.proceeds (h : session.Legal) (hproceeds : Proceeds backend session next) :
    next.Legal := by
  obtain ⟨steps, contacts, hmoves, hallowed⟩ := hproceeds
  obtain ⟨entries, hjournal, hsteps, -⟩ := hmoves.journal
  intro entry hentry before after hstep
  rw [hjournal] at hentry
  rcases List.mem_append.1 hentry with hentry | hentry
  · exact h entry hentry before after hstep
  · exact hallowed (before, after) (hsteps ▸ List.mem_filterMap.2 ⟨entry, hentry, hstep⟩)

end Session

/-- The query that a call runs, and whether the run is forced. -/
def Call.runs? {σ : Type} : Call σ → Option (QuerySource × Variables × Bool)
  | query source vars => some (source, vars, false)
  | refetch source vars => some (source, vars, true)
  | _ => none

namespace Client

variable {σ : Type} {settings : Settings} {backend : Backend σ} {client : Client σ}

/-- An execution that a call begins: the first one of a query that is run, or one of the queries
that run again after a write of the call. -/
inductive Executes (settings : Settings) (backend : Backend σ) (client : Client σ) :
    Call σ → Prepared → Bool → Session σ → Prop
  | first {call : Call σ} {source : QuerySource} {vars : Variables} {force : Bool}
      {prepared : Prepared} {start : Session σ} (runs : call.runs? = some (source, vars, force))
      (prepare : client.session.prepare settings source vars = (.ok prepared, start)) :
      Executes settings backend client call prepared force (start.register prepared)
  | again {call : Call σ} {work : WorkList σ} {rerun : Session.Rerun} {rest : List Session.Rerun}
      {session : Session σ} {prepared : Prepared}
      (begins : client.Begins settings backend call work)
      (turns : WorkList.Turns settings backend work ⟨rerun :: rest, session⟩)
      (free : ¬ rerun.Blocked settings)
      (registered : Table.get? session.registry rerun.key = some prepared) :
      Executes settings backend client call prepared true session

theorem Executes.indexed {call : Call σ} {prepared : Prepared} {force : Bool}
    {session : Session σ} (h : client.Executes settings backend call prepared force session)
    (hbackend : backend.Ordered) (hclient : client.session.Sound) :
    session.cache.store.Indexed := by
  cases h with
  | first hruns hprepare =>
      obtain ⟨-, rfl⟩ := Session.prepare_eq_ok hprepare
      exact hclient.store.indexed
  | again hbegins hturns _ _ =>
      obtain ⟨hpropagates, -⟩ := hbegins
      exact (hturns.sound hbackend (hpropagates.sound hbackend hclient)).store.indexed

end Client

theorem Entry.level_of_allowed {entry : Entry} {before after : Phase}
    (hstep : entry.step? = some (before, after)) (hallowed : before.canAdvance after = true) :
    ∀ line ∈ entry.lines, line.level = .debug := by
  cases entry with
  | advanced label first last =>
      cases hstep
      simp [lines, hallowed]
  | _ => cases hstep

/-- What a client has come to follows the phase machine, and so does what comes next. -/
structure Client.FollowsPhases {σ : Type} (settings : Settings) (backend : Backend σ)
    (client : Client σ) : Prop where
  /-- An execution that a call begins leaves the state that it comes to in the cell of its query. -/
  executions : ∀ call prepared force session,
    client.Executes settings backend call prepared force session →
      ∃ state, Session.Passes backend prepared session state
          (session.execute settings backend prepared force).2 ∧
        (session.execute settings backend prepared force).2.cache.store.state? prepared.key =
          some state
  /-- A mutation returns the state that it comes to, unless the queries that run again after it
  fail. After a failure no query runs again. -/
  mutations : ∀ source vars prepared start,
    (client.session.advance "mutation" .idle .parsing).prepare settings source vars =
        (.ok prepared, start) →
      ∃ state invalidation next, Session.Passes backend prepared client.session state next ∧
        ((∃ failure, state = .failed failure) → invalidation = .none) ∧
        client.session.mutate settings backend source vars =
          WorkList.returning (fun _ => state)
            (next.propagate settings backend none invalidation)
  /-- No step is logged as a warning. -/
  steps : ∀ entry ∈ client.session.cache.journal, ∀ before after,
    entry.step? = some (before, after) →
      before.canAdvance after = true ∧ ∀ line ∈ entry.lines, line.level = .debug

section Run

variable {σ : Type} {settings : Settings} {backend : Backend σ} {log : List Made}
  {client : Client σ}

theorem Run.legal (h : Run settings backend log client) : client.session.Legal := by
  induction h with
  | start world => exact List.forall_mem_nil _
  | @call log client run call ordered ih =>
      have hbegin : Session.Legal
          { client.session with world := call.world client.session.world } := ih
      exact hbegin.proceeds (Client.proceeds_perform settings backend call client)

/-- Whatever a client has come to, every execution that a call begins, and that of every mutation,
goes through the phase machine. Its tracker starts in the first phase and goes step by step to a
phase in which the machine ends, which is `failed` exactly if a failed state comes of it. It goes
through `fetching` exactly if the server is asked, and through `merging` exactly if the resolvers
give values, which are then in the result. No step is logged as a warning, in no call at all. -/
theorem Run.follows_phases (h : Run settings backend log client) (hbackend : backend.Ordered) :
    client.FollowsPhases settings backend := by
  constructor
  · intro call prepared force session hexecutes
    obtain ⟨state, hpasses, hstate⟩ :=
      Session.passes_carryOut settings backend prepared force session
    rw [Session.execute_eq]
    exact ⟨state, hpasses, hstate (hexecutes.indexed hbackend (h.sound hbackend))⟩
  · intro source vars prepared start hprepare
    exact Session.passes_mutate backend hprepare
  · intro entry hentry before after hstep
    have hallowed := h.legal entry hentry before after hstep
    exact ⟨hallowed, entry.level_of_allowed hstep hallowed⟩

end Run

/-- The server keeps a record. A user was asked for and is asked for again, be it forced or not;
then the user is changed by a mutation. -/
theorem follows_phases_of_user :
    let backend := userServer.recording
    let made := Client.performAll .standard backend [.query (.onUser "name") []]
      ([], .start ([("name", "Al")], []))
    let client := made.2
    Run .standard backend made.1 client ∧ backend.Ordered ∧
      client.FollowsPhases .standard backend ∧
      (∀ call ∈ [Call.query (.onUser "name") [], .refetch (.onUser "name") []],
        ∃ prepared force session state phases contacts,
          client.Executes .standard backend call prepared force session ∧
          (session.execute .standard backend prepared force).2.world.2 =
            session.world.2 ++ contacts ∧
          prepared.Course phases contacts state) ∧
      ∃ prepared start, (client.session.advance "mutation" .idle .parsing).prepare .standard
        (.tree (.onUser .mutation "name")) [] = (.ok prepared, start) := by
  intro backend made client
  have hbackend : backend.Ordered := Backend.ordered_recording ordered_userServer
  have hrun : Run .standard backend made.1 client := by
    refine Run.performAll ?_ (.start _)
    simp [Call.Ordered, Json.Ordered, Json.OrderedMembers, Table.sorted_nil]
  have hfollows := hrun.follows_phases hbackend
  refine ⟨hrun, hbackend, hfollows, ?_, ?_⟩
  · let prepared := ((QuerySource.onUser "name").prepared? .standard []).get (by decide +kernel)
    have hprepared : (QuerySource.onUser "name").prepared? .standard [] = some prepared :=
      (Option.some_get _).symm
    have hprepare := Session.prepare_of_prepared? hprepared client.session
    have hrecorded : ∀ {call : Call _} {force : Bool} {session : Session _},
        client.Executes .standard backend call prepared force session →
          ∃ prepared force session state phases contacts,
            client.Executes .standard backend call prepared force session ∧
            (session.execute .standard backend prepared force).2.world.2 =
              session.world.2 ++ contacts ∧
            prepared.Course phases contacts state := by
      intro call force session hexecutes
      obtain ⟨state, hpasses, -⟩ := hfollows.executions _ _ _ _ hexecutes
      obtain ⟨phases, contacts, hworld, hcourse⟩ := hpasses.recorded
      exact ⟨_, _, _, state, phases, contacts, hexecutes, hworld, hcourse⟩
    intro call hcall
    rcases List.mem_pair.1 hcall with rfl | rfl
    · exact hrecorded (.first rfl hprepare)
    · exact hrecorded (.first rfl hprepare)
  · let source : QuerySource := .tree (.onUser .mutation "name")
    have hprepared : source.prepared? .standard [] =
        some ((source.prepared? .standard []).get (by decide +kernel)) := (Option.some_get _).symm
    exact ⟨_, _, Session.prepare_of_prepared? hprepared _⟩

end QueryCache
