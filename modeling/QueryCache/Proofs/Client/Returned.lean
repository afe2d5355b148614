import QueryCache.Proofs.Client.Contacts
import QueryCache.Proofs.Client.Inquiries
import QueryCache.Proofs.Client.Simple

/-!
# What a call returns

A call is refused, or it comes to a cycle of re-runs, or it succeeds: the failures of the transport
and of the resolvers are recorded with their queries, so an execution returns none
(`Session.execute_eq`) and neither does a call (`Client.canFail_of_perform`). The handle of a query
that was run agrees with the cache (`Client.handle_of_run`), since propagation does not touch the
query that it has come from.

`Run.settles` puts together what a caller can rely on, whatever a run has come to
(`Client.Settles`).
-/

namespace QueryCache

/-- The failures that a call returns. -/
def Call.canFail {σ : Type} : Call σ → Failure → Bool
  | query _ _, .query _ => true
  | query _ _, .cyclic _ => true
  | refetch _ _, .query _ => true
  | refetch _ _, .cyclic _ => true
  | mutate _ _, .query _ => true
  | mutate _ _, .cyclic _ => true
  | write _ _, .cyclic _ => true
  | read _ _, .query _ => true
  | read _ _, .notCached _ => true
  | _, _ => false

theorem Call.canFail_of_canRefuse {σ : Type} {call : Call σ} {failure : Failure}
    (h : call.canRefuse failure = true) : call.canFail failure = true := by
  cases call <;> cases failure <;> first | rfl | cases h

/-- What is not refused can only come to a cycle. -/
theorem Client.Performs.failure {σ : Type} {settings : Settings} {backend : Backend σ}
    {client next : Client σ} {call : Call σ} {failure : Failure}
    (h : Performs settings backend client call (some failure, next)) :
    call.canRefuse failure = true ∨ ∃ cycle, failure = .cyclic cycle := by
  cases h with
  | refused _ hrefusal => exact Or.inl hrefusal
  | blocked => exact Or.inr ⟨_, rfl⟩

theorem Client.canFail_of_perform {σ : Type} {settings : Settings} {backend : Backend σ}
    (hbackend : backend.Ordered) {client : Client σ} {call : Call σ} (hcall : call.Ordered)
    {failure : Failure} (h : (client.perform settings backend call).1 = some failure) :
    call.canFail failure = true := by
  have hperforms : Performs settings backend client call
      (some failure, (client.perform settings backend call).2) := by
    rw [← h]
    exact performs hbackend client hcall
  cases call with
  | evict key => cases h
  | elapse world => cases h
  | read source vars =>
      rw [perform] at h
      split at h
      · cases h
      · cases h
        exact Call.canFail_of_canRefuse (Session.canRefuse_of_readQuery ‹_›)
  | _ =>
      rcases hperforms.failure with hrefused | ⟨cycle, rfl⟩
      · exact Call.canFail_of_canRefuse hrefused
      · rfl

namespace Session

variable {σ : Type} {settings : Settings} {backend : Backend σ}

/-- A handle is on the cell of its query, in which its state is. -/
theorem turns_of_run {source : QuerySource} {vars : Variables} {force : Bool}
    {session next : Session σ} {handle : Handle}
    (h : session.run settings backend source vars force = (.ok handle, next)) :
    ∃ prepared start, session.prepare settings source vars = (.ok prepared, start) ∧
      WorkList.Turns settings backend (start.opening settings backend prepared force)
        ⟨[], next⟩ ∧
      handle.key = prepared.key ∧ next.cache.store.cell? prepared.key = some handle.cell ∧
      next.cache.store.stateOf handle.cell = handle.state := by
  rcases prepare_cases settings source vars session with
    ⟨fault, hprepare⟩ | ⟨prepared, document, hprepare, -⟩
  · rw [run, hprepare] at h
    cases h
  · refine ⟨prepared, _, hprepare, ?_⟩
    generalize session.note (.split prepared.split.foundLocal
      prepared.split.sendToServer) = start at hprepare ⊢
    rw [run_of_prepared force hprepare] at h
    obtain ⟨hout, rfl⟩ := WorkList.eq_of_returning_ok h
    have hends := ends_opening settings backend prepared force start
    rw [hout] at hends
    cases hends with
    | finished hturns =>
        obtain ⟨id, hid⟩ := WorkList.isCached_of_turns hturns
          (isCached_opening prepared force start)
        refine ⟨hturns, rfl, ?_, rfl⟩
        rw [handleOf, hid, Store.cell_of_some hid]

/-- A query whose execution reports nothing ends with it, and its handle shows the outcome. -/
theorem run_of_unreported {source : QuerySource} {vars : Variables} {prepared : Prepared}
    {force : Bool} {session start : Session σ}
    (hprepare : session.prepare settings source vars = (.ok prepared, start))
    (hnone : ((start.register prepared).carryOut settings backend prepared force).1 = .none) :
    ∃ handle, session.run settings backend source vars force =
        (.ok handle, ((start.register prepared).carryOut settings backend prepared force).2) ∧
      handle.key = prepared.key ∧
      ((start.register prepared).carryOut settings backend prepared force).2.cache.store.state?
        prepared.key = some handle.state := by
  have hends : WorkList.Ends settings backend _ _ := ends_run force hprepare
  rw [opening_of_unreported hnone] at hends
  obtain ⟨houtcome, hnext⟩ := Prod.mk.inj hends.eq_of_nil
  rcases hrun : session.run settings backend source vars force with ⟨failure | handle, next⟩
  · rw [hrun] at houtcome
    cases houtcome
  · rw [hrun] at hnext
    obtain rfl : next = _ := hnext
    obtain ⟨found, start', hfound, -, hkey, hcell, hstate⟩ := turns_of_run hrun
    cases hfound.symm.trans hprepare
    refine ⟨handle, rfl, hkey, ?_⟩
    rw [Store.state?, hcell, ← hstate]
    rfl

end Session

/-- A query from which all chains have come is not executed again. -/
theorem WorkList.Turns.state?_of_common {σ : Type} {settings : Settings} {backend : Backend σ}
    {work next : WorkList σ} (h : Turns settings backend work next)
    (hbackend : backend.Ordered) (hsound : work.session.Sound) {key : QueryKey}
    (hcommon : ∀ rerun ∈ work.reruns, key ∈ rerun.chain) :
    next.session.cache.store.state? key = work.session.cache.store.state? key := by
  have hkeep := h.keep
    (fun next => next.session.Sound ∧ (∀ rerun ∈ next.reruns, key ∈ rerun.chain) ∧
      next.session.cache.store.state? key = work.session.cache.store.state? key)
    ⟨hsound, hcommon, rfl⟩
  refine (hkeep ?_).2.2
  intro work' next' hturn ⟨hsound', hcommon', hstate⟩
  refine ⟨Turns.sound (.single hturn) hbackend hsound', ?_⟩
  obtain ⟨rerun, rest, hreruns, hfree, ⟨-, rfl⟩ | ⟨prepared, invalidation, session, hprepared,
    hexecuted, rfl⟩⟩ := turn_cases hturn
  · exact ⟨fun other hother => hcommon' other (hreruns ▸ List.mem_cons_of_mem _ hother), hstate⟩
  · have hmem : key ∈ rerun.chain := hcommon' rerun (hreruns ▸ List.mem_cons_self)
    have hne : key ≠ prepared.key := by
      rw [(hsound'.registered hprepared).1]
      rintro rfl
      exact hfree (Or.inl hmem)
    constructor
    · intro other hother
      rcases List.mem_append.1 hother with hother | hother
      · exact hcommon' other (hreruns ▸ List.mem_cons_of_mem _ hother)
      · rw [(Session.mem_rerunsOf.1 hother).2]
        exact List.mem_append_left _ hmem
    · rw [hexecuted.store, Store.state?_write (hsound'.store.awaiting prepared).indexed,
        if_neg hne, Store.state?_awaiting_of_ne hsound'.store.indexed prepared hne, hstate]

/-- The state in a handle is the one in its cell, which is that of its query, and the one that is
read. -/
structure Handle.AgreesWith (handle : Handle) (store : Store) : Prop where
  cell : store.cell? handle.key = some handle.cell
  state : store.stateOf handle.cell = handle.state
  read : store.read handle.key = .ok handle.state

/-- The handle of a query that was run agrees with the cache, and shows what the execution of the
query had left there: propagation has not touched it. -/
theorem Client.handle_of_run {σ : Type} {settings : Settings} {backend : Backend σ}
    (hbackend : backend.Ordered) {client : Client σ} (hsound : client.session.Sound)
    {source : QuerySource} {vars : Variables} (hvars : Json.Ordered (.object vars))
    {force : Bool} {handle : Handle} {next : Session σ}
    (h : client.session.run settings backend source vars force = (.ok handle, next)) :
    handle.AgreesWith next.cache.store ∧
      ∃ prepared start, client.session.prepare settings source vars = (.ok prepared, start) ∧
        handle.key = prepared.key ∧
        ((start.register prepared).execute settings backend prepared force).2.cache.store.read
          handle.key = .ok handle.state := by
  obtain ⟨prepared, start, hprepare, hturns, hkey, hcell, hstate⟩ := Session.turns_of_run h
  have hpropagates : client.Propagates settings backend _ _ _ :=
    .run hvars force hprepare (Session.execute_eq ..)
  have hkept : next.cache.store.state? prepared.key =
      (start.opening settings backend prepared force).session.cache.store.state?
        prepared.key := by
    refine hturns.state?_of_common hbackend (hpropagates.sound hbackend hsound) ?_
    intro rerun hrerun
    rw [(Session.mem_rerunsOf.1 hrerun).2]
    exact List.mem_singleton_self _
  have hfound : next.cache.store.state? prepared.key = some handle.state := by
    rw [Store.state?, hcell, ← hstate]
    rfl
  refine ⟨⟨hkey ▸ hcell, hstate, ?_⟩, prepared, start, hprepare, hkey, ?_⟩
  · rw [hkey, Store.read, hfound]
  · rw [Session.opening] at hkept
    rw [hkey, Session.execute_eq, Store.read, ← hkept, hfound]

/-- What the caller of a client can rely on. -/
structure Client.Settles {σ : Type} (settings : Settings) (backend : Backend σ)
    (client : Client σ) (call : Call σ) : Prop where
  /-- The call fails only because a query is refused or re-runs come to a cycle, a write only for
  the latter reason. -/
  failures : ∀ failure, (client.perform settings backend call).1 = some failure →
    call.canFail failure = true
  /-- After the call all cells are settled, whether it has failed or not. -/
  cells : ∀ key state,
    (client.perform settings backend call).2.session.cache.store.state? key = some state →
      state.IsSettled
  /-- Whenever the server is asked, this is for the query that is executed, and no other query is
  loading, or for the mutation of the call, and none is. -/
  requests : ∃ entries, (client.perform settings backend call).2.session.cache.journal =
      client.session.cache.journal ++ entries ∧
    backend.Accounts (call.world client.session.world) entries
      (client.perform settings backend call).2.session.world ∧
    Follows (AskedBy (client.perform settings backend call).2.session.registry
      (call.Fetches settings)) entries
  /-- A handle agrees with the cache, and shows the outcome of its query. -/
  handles : ∀ source vars force handle next, Json.Ordered (.object vars) →
    client.session.run settings backend source vars force = (.ok handle, next) →
      handle.AgreesWith next.cache.store ∧
      ∃ prepared start, client.session.prepare settings source vars = (.ok prepared, start) ∧
        handle.key = prepared.key ∧
        ((start.register prepared).execute settings backend prepared force).2.cache.store.read
          handle.key = .ok handle.state

/-- After every call of a run all cells are settled. The call itself fails only because a
query is refused or re-runs come to a cycle, a write only for the latter reason: no failure of the
transport or of a resolver is returned, of whatever kind it is. Whenever the call asks the server
for a query, this query is the only one that is loading, and none is when a mutation asks. The
state in a returned handle is that of its cell and of its query in the cache. -/
theorem Run.settles {σ : Type} {settings : Settings} {backend : Backend σ} {log : List Made}
    {client : Client σ} (h : Run settings backend log client) (hbackend : backend.Ordered)
    {call : Call σ} (hcall : call.Ordered) : client.Settles settings backend call := by
  have hsound := h.sound hbackend
  constructor
  · intro failure hfailure
    exact Client.canFail_of_perform hbackend hcall hfailure
  · intro key state hstate
    exact ((Run.call h call hcall).rests hbackend).settled (by simp) hstate
  · obtain ⟨entries, hjournal, hfollows⟩ :=
      Client.inquires_perform hbackend hsound (h.rests hbackend) hcall
    exact ⟨entries, hjournal, Client.accounts_perform hjournal, hfollows⟩
  · intro source vars force handle next hvars hrun
    exact Client.handle_of_run hbackend hsound hvars hrun

/-- A user is renamed while two queries for the name are cached, and the first is fetched
again. -/
theorem settles_of_renamed_user :
    let calls : List (Call (List (String × String))) :=
      [.query (.onUser "name") [], .query (.onUser "nameAgain") [], .elapse [("name", "Bo")]]
    let made := Client.performAll .standard userServer calls ([], .start [("name", "Al")])
    let call : Call (List (String × String)) := .refetch (.onUser "name") []
    Run .standard userServer made.1 made.2 ∧ userServer.Ordered ∧ call.Ordered ∧
      made.2.Settles .standard userServer call := by
  intro calls made call
  have hrun : Run .standard userServer made.1 made.2 := by
    refine Run.performAll ?_ (.start _)
    simp [calls, Call.Ordered, Json.Ordered, Json.OrderedMembers, Table.sorted_nil]
  have hcall : call.Ordered := Json.ordered_emptyObject
  exact ⟨hrun, ordered_userServer, hcall, Run.settles hrun ordered_userServer hcall⟩

end QueryCache
