import QueryCache.Proofs.Client.Registered

/-!
# Where propagation starts

Three calls write to the cache and then run other queries again: a query, a mutation and a
write through a handle. `Client.Propagates` lists what each of them hands over to
`Session.propagate`. Whatever that is, the queries to be run again are cached and all
different (`Client.Propagates.isCached`, `Client.Propagates.nodup`). The other calls evict a
query or leave notes at most (`Client.begins_or_noted`).
-/

namespace QueryCache

namespace KeySet

variable {κ : Type} [DecidableEq κ] [LT κ] [DecidableLT κ]
  [Trans (α := κ) (· < ·) (· < ·) (· < ·)] [Std.Trichotomous (α := κ) (· < ·)]

theorem sorted_insertAll {s : KeySet κ} (h : Sorted s) (new : List κ) :
    Sorted (insertAll s new) := by
  induction new generalizing s with
  | nil => exact h
  | cons key rest ih => exact ih (sorted_insert h key)

theorem sorted_foldl_insertAll {α : Type} (keysOf : α → List κ) (items : List α)
    {start : KeySet κ} (h : Sorted start) :
    Sorted (items.foldl (fun found item => insertAll found (keysOf item)) start) := by
  induction items generalizing start with
  | nil => exact h
  | cons item rest ih => exact ih (sorted_insertAll h (keysOf item))

end KeySet

namespace Store

/-- A query is reported once, however many of its entities have changed. -/
theorem nodup_queries_invalidation (store : Store) (origin : Option QueryKey)
    (entities : Snapshots) : (store.invalidation origin entities).queries.Nodup := by
  have hsorted : KeySet.Sorted (store.invalidation origin entities).queries :=
    KeySet.sorted_foldl_insertAll _ _ List.Pairwise.nil
  refine hsorted.imp ?_
  intro key other hlt heq
  rw [heq] at hlt
  exact Std.Irrefl.irrefl _ hlt

theorem nodup_queries_write (store : Store) (key : QueryKey) (state : QueryState)
    (entities : Snapshots) : (store.write key state entities).1.queries.Nodup := by
  cases hdata : state.data with
  | none =>
      rw [write_of_none hdata]
      exact List.nodup_nil
  | some data =>
      rw [write_of_some hdata]
      exact nodup_queries_invalidation _ _ _

end Store

namespace Session

variable {σ : Type} {settings : Settings} {backend : Backend σ}

/-- Preparing a query leaves a note, and nothing else. -/
theorem noted_of_prepare {source : QuerySource} {vars : Variables} {prepared : Prepared}
    {session start : Session σ} (hvars : Json.Ordered (.object vars))
    (h : session.prepare settings source vars = (.ok prepared, start)) :
    Noted session start ∧ prepared.Ordered := by
  rcases prepare_cases settings source vars session with
    ⟨fault, hrefused⟩ | ⟨found, document, hfound, hdocument⟩
  · cases hrefused.symm.trans h
  · cases hfound.symm.trans h
    exact ⟨noted_note session rfl, Prepared.ordered_ofDocument hvars hdocument⟩

/-- An execution reports a query once. -/
theorem Executed.nodup_queries {prepared : Prepared} {session next : Session σ}
    {invalidation : Invalidation}
    (h : Executed settings backend prepared session invalidation next) :
    invalidation.queries.Nodup := by
  rw [h.invalidation_eq]
  exact Store.nodup_queries_write _ _ _ _

end Session

namespace Client

variable {σ : Type}

/-- What a call hands over to propagation: the query that it has written, if any, what the
write means for other queries, and the session after the write. -/
inductive Propagates (settings : Settings) (backend : Backend σ) (client : Client σ) :
    Option QueryKey → Invalidation → Session σ → Prop
  /-- A query has been prepared, registered and executed. -/
  | run {source : QuerySource} {vars : Variables} {prepared : Prepared} {start : Session σ}
      {invalidation : Invalidation} {next : Session σ}
      (ordered : Json.Ordered (.object vars)) (force : Bool)
      (prepare : client.session.prepare settings source vars = (.ok prepared, start))
      (execute : (start.register prepared).execute settings backend prepared force =
        (.ok invalidation, next)) :
      Propagates settings backend client (some prepared.key) invalidation next
  /-- A mutation has been prepared and answered, and the answer has been stored. -/
  | mutate {source : QuerySource} {vars : Variables} {prepared : Prepared}
      {start next : Session σ} {answer : Json × Phase}
      (ordered : Json.Ordered (.object vars))
      (prepare : (client.session.advance "mutation" .idle .parsing).prepare settings source
        vars = (.ok prepared, start))
      (fetch : start.fetchAndResolve backend prepared prepared.label = (.ok answer, next)) :
      Propagates settings backend client none
        (next.absorb settings prepared.label answer).1
        (next.absorb settings prepared.label answer).2
  /-- The result of a query has been replaced through a handle. -/
  | write {handle : Nat} {held : Held} {data : Json}
      (given : client.handles[handle]? = some held) (ordered : data.Ordered) :
      Propagates settings backend client (some held.key)
        (client.session.cache.write held.key (.ready data)
          (flatten data settings.identity)).1
        { client.session with
          cache := (client.session.cache.write held.key (.ready data)
            (flatten data settings.identity)).2 }

namespace Propagates

open Session (Executed Noted noted_advance noted_note)

variable {settings : Settings} {backend : Backend σ} {client : Client σ}
  {origin : Option QueryKey} {invalidation : Invalidation} {session : Session σ}

/-- What is handed over is what a call has come to first. -/
theorem opens (h : client.Propagates settings backend origin invalidation session)
    (hbackend : backend.Ordered) :
    ∃ call, Session.Opens settings backend client call
      ⟨Session.rerunsOf origin.toList invalidation, session⟩ := by
  cases h with
  | @run source vars prepared start invalidation next hvars force hprepare hexecute =>
      obtain ⟨rfl, rfl⟩ := Session.carryOut_of_execute hexecute
      obtain ⟨hnoted, hordered⟩ := Session.noted_of_prepare hvars hprepare
      exact ⟨.query source vars, Session.opens_opening hordered force _ hnoted⟩
  | @mutate source vars prepared start next answer hvars hprepare hfetch =>
      obtain ⟨hnoted, hordered⟩ := Session.noted_of_prepare hvars hprepare
      have hanswers := Session.answers_fetchAndResolve backend prepared prepared.label start
      rw [hfetch] at hanswers
      have hdata : answer.1.Ordered :=
        Backend.ordered_result hbackend hordered hanswers.outcome.symm
      have hstart := ((noted_advance client.session "mutation" .idle .parsing).trans
        hnoted).trans hanswers.noted
      exact ⟨.mutate source vars, Session.opens_absorb _ hstart prepared.label hdata⟩
  | @write handle held data hgiven hdata =>
      exact ⟨.write handle data, .replaced hgiven hdata rfl rfl rfl ⟨_, rfl⟩⟩

theorem sound (h : client.Propagates settings backend origin invalidation session)
    (hbackend : backend.Ordered) (hsound : client.session.Sound) : session.Sound := by
  obtain ⟨call, hopens⟩ := h.opens hbackend
  exact hopens.sound hbackend hsound

/-- Propagation is asked for cached queries only. -/
theorem isCached (h : client.Propagates settings backend origin invalidation session)
    (hsound : client.session.Sound) {query : QueryKey} (hquery : query ∈ invalidation.queries) :
    session.cache.store.IsCached query := by
  cases h with
  | @run source vars prepared start invalidation next hvars force hprepare hexecute =>
      obtain ⟨rfl, rfl⟩ := Session.carryOut_of_execute hexecute
      obtain ⟨hnoted, hordered⟩ := Session.noted_of_prepare hvars hprepare
      have hstart := (hnoted.sound hsound).register hordered
      rcases Session.executed_or_fresh settings backend prepared force (start.register prepared)
        with hexecuted | ⟨-, heq⟩
      · exact hexecuted.isCached_of_mem_queries hstart hquery
      · rw [heq] at hquery
        cases hquery
  | @mutate source vars prepared start next answer hvars hprepare hfetch =>
      obtain ⟨hnoted, hordered⟩ := Session.noted_of_prepare hvars hprepare
      have hanswers := Session.answers_fetchAndResolve backend prepared prepared.label start
      rw [hfetch] at hanswers
      have hnext := hanswers.noted.sound (hnoted.sound (hsound.note _))
      exact Store.isCached_of_mem_queries_writeEntities hnext.store hquery
  | @write handle held data hgiven hdata =>
      have hreported : query ∈ (client.session.cache.store.write held.key (.ready data)
        (flatten data settings.identity)).1.queries := hquery
      obtain ⟨-, hcached⟩ := Store.isCached_of_mem_queries_write hsound.store hreported
      exact Store.isCached_write hcached held.key (.ready data) _

/-- Propagation is asked for a query once. -/
theorem nodup (h : client.Propagates settings backend origin invalidation session) :
    invalidation.queries.Nodup := by
  cases h with
  | @run source vars prepared start invalidation next hvars force hprepare hexecute =>
      obtain ⟨rfl, rfl⟩ := Session.carryOut_of_execute hexecute
      rcases Session.executed_or_fresh settings backend prepared force (start.register prepared)
        with hexecuted | ⟨-, heq⟩
      · exact hexecuted.nodup_queries
      · rw [heq]
        exact List.nodup_nil
  | mutate => exact Store.nodup_queries_invalidation _ _ _
  | @write handle held data hgiven hdata =>
      exact Store.nodup_queries_write client.session.cache.store held.key (.ready data) _

end Propagates

/-- The work list that a call begins with after it has written. The call ends as the work
on this list does. -/
inductive Begins (settings : Settings) (backend : Backend σ) (client : Client σ)
    (call : Call σ) : WorkList σ → Prop
  | mk {origin : Option QueryKey} {invalidation : Invalidation} {start : Session σ}
      {outcome : Except Failure Unit}
      (propagates : client.Propagates settings backend origin invalidation start)
      (ends : WorkList.Ends settings backend
        ⟨Session.rerunsOf origin.toList invalidation, start⟩
        (outcome, (client.perform settings backend call).2.session)) :
      Begins settings backend client call
        ⟨Session.rerunsOf origin.toList invalidation, start⟩

theorem Begins.of_propagate {settings : Settings} {backend : Backend σ} {client : Client σ}
    {call : Call σ} {origin : Option QueryKey} {invalidation : Invalidation}
    {start : Session σ} (h : client.Propagates settings backend origin invalidation start)
    (hnext : (client.perform settings backend call).2.session =
      (start.propagate settings backend origin invalidation).2) :
    client.Begins settings backend call
      ⟨Session.rerunsOf origin.toList invalidation, start⟩ := by
  have hends := WorkList.ends_propagate settings backend origin invalidation start
  have hout : start.propagate settings backend origin invalidation =
      ((start.propagate settings backend origin invalidation).1,
        (client.perform settings backend call).2.session) := Prod.ext rfl hnext.symm
  rw [hout] at hends
  exact .mk h hends

open Session (Noted noted_advance) in
/-- A call other than an eviction begins with a work list, or leaves notes at most. -/
theorem begins_or_noted (settings : Settings) (backend : Backend σ) (client : Client σ)
    {call : Call σ} (hcall : call.Ordered) :
    (∃ key, call = .evict key) ∨
      Noted client.session (client.perform settings backend call).2.session ∨
        ∃ work, client.Begins settings backend call work := by
  have hrun : ∀ {source vars force}, Json.Ordered (.object vars) →
      (client.perform settings backend call).2.session =
        (client.session.run settings backend source vars force).2 →
      Noted client.session (client.perform settings backend call).2.session ∨
        ∃ work, client.Begins settings backend call work := by
    intro source vars force hvars hnext
    rcases Session.prepare_cases settings source vars client.session with
      ⟨fault, hprepare⟩ | ⟨prepared, document, hprepare, -⟩
    · left
      rw [hnext, Session.run, hprepare]
      exact Noted.refl _
    · right
      have hpropagates : client.Propagates settings backend _ _ _ :=
        .run hvars force hprepare (Session.execute_eq ..)
      exact ⟨_, .mk hpropagates (hnext ▸ Session.ends_run force hprepare)⟩
  cases call with
  | query source vars => exact Or.inr (hrun hcall (session_resume _ _))
  | refetch source vars => exact Or.inr (hrun hcall (session_resume _ _))
  | evict key => exact Or.inl ⟨key, rfl⟩
  | elapse world => exact Or.inr (Or.inl (Session.noted_world client.session world))
  | read source vars =>
      right; left
      rw [perform]
      split <;> exact Noted.refl _
  | mutate source vars =>
      right
      have hnext : (client.perform settings backend (.mutate source vars)).2.session =
          (client.session.mutate settings backend source vars).2 := session_resume _ _
      have hbegin := noted_advance client.session "mutation" .idle .parsing
      rcases Session.prepare_cases settings source vars
          (client.session.advance "mutation" .idle .parsing) with
        ⟨fault, hprepare⟩ | ⟨prepared, document, hprepare, -⟩
      · left
        rw [hnext, Session.mutate_of_refused hprepare]
        exact hbegin
      · have hanswers := Session.answers_fetchAndResolve backend prepared prepared.label
          ((client.session.advance "mutation" .idle .parsing).note
            (.split prepared.split.foundLocal prepared.split.sendToServer))
        have hnoted := (hbegin.trans (Session.noted_note _ rfl)).trans hanswers.noted
        rcases hfetch : Session.fetchAndResolve backend prepared prepared.label _ with
          ⟨failure | answer, next⟩
        · left
          rw [hfetch] at hnoted
          rw [hnext, Session.mutate_of_failed hprepare hfetch]
          exact hnoted
        · right
          have hpropagates : client.Propagates settings backend _ _ _ :=
            .mutate hcall hprepare hfetch
          refine ⟨_, .of_propagate hpropagates ?_⟩
          rw [hnext, Session.mutate_of_answered hprepare hfetch, WorkList.snd_returning]
  | write handle data =>
      right
      cases hheld : client.handles[handle]? with
      | none =>
          left
          rw [perform, hheld]
          exact Noted.refl _
      | some held =>
          right
          have hpropagates : client.Propagates settings backend _ _ _ := .write hheld hcall
          refine ⟨_, .of_propagate hpropagates ?_⟩
          rw [perform, hheld]
          exact session_resume _ _

end Client

end QueryCache
