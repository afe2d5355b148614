import QueryCache.Proofs.Client.Registered
import QueryCache.Proofs.Client.Simple

/-!
# Invalidated queries are not left behind

When an operation returns without a failure, every query that one of its writes
has invalidated was executed after that write, or skipped because the registry
does not know it (`Run.answered_of_ok`). Skipped queries are there only in runs
that write through a handle whose query has been evicted.
-/

namespace QueryCache

namespace Entry

/-- What a write has reported. -/
def invalidation? : Entry → Option Invalidation
  | wrote _ _ _ invalidation => some invalidation
  | wroteEntities _ _ invalidation => some invalidation
  | _ => none

/-- Entries on the progress of queries report nothing. -/
theorem invalidation?_of_isProgress {entries : List Entry}
    (h : ∀ entry ∈ entries, entry.isProgress = true) :
    ∀ entry ∈ entries, entry.invalidation? = none := by
  intro entry hentry
  have hprogress := h entry hentry
  cases entry <;> simp_all [isProgress, invalidation?]

theorem invalidation?_of_executed {before after : List Entry} {key : QueryKey}
    (hbefore : ∀ entry ∈ before, entry.isProgress = true)
    (hafter : ∀ entry ∈ after, entry.isProgress = true) :
    ∀ entry ∈ before ++ .executed key :: after, entry.invalidation? = none := by
  intro entry hentry
  rcases List.mem_append.1 hentry with hentry | hentry
  · exact invalidation?_of_isProgress hbefore entry hentry
  · rcases List.mem_cons.1 hentry with rfl | hentry
    · rfl
    · exact invalidation?_of_isProgress hafter entry hentry

end Entry

/-- The query has been executed, and its outcome stored. -/
def RunsAgain (query : QueryKey) (entries : List Entry) : Prop :=
  ∃ before between after state count invalidation, entries =
    before ++ .executed query :: between ++ .wrote query state count invalidation :: after

/-- The query has been executed if the registry knows it, and skipped if not. -/
def Answered (registered : QueryKey → Prop) (query : QueryKey) (entries : List Entry) :
    Prop :=
  (registered query → RunsAgain query entries) ∧
    (¬ registered query → .skipped query ∈ entries)

/-- Every query that a write has reported is answered after it, or still pending. -/
def Settled (registered pending : QueryKey → Prop) (entries : List Entry) : Prop :=
  ∀ before entry after, entries = before ++ entry :: after →
    ∀ invalidation, entry.invalidation? = some invalidation →
      ∀ query ∈ invalidation.queries, pending query ∨ Answered registered query after

variable {registered pending : QueryKey → Prop}

theorem RunsAgain.append {query : QueryKey} {entries : List Entry}
    (h : RunsAgain query entries) (new : List Entry) : RunsAgain query (entries ++ new) := by
  obtain ⟨before, between, after, state, count, invalidation, rfl⟩ := h
  exact ⟨before, between, after ++ new, state, count, invalidation, by simp⟩

theorem RunsAgain.prepend {query : QueryKey} {entries : List Entry}
    (h : RunsAgain query entries) (old : List Entry) : RunsAgain query (old ++ entries) := by
  obtain ⟨before, between, after, state, count, invalidation, rfl⟩ := h
  exact ⟨old ++ before, between, after, state, count, invalidation, by simp⟩

theorem Answered.append {query : QueryKey} {entries : List Entry}
    (h : Answered registered query entries) (new : List Entry) :
    Answered registered query (entries ++ new) :=
  ⟨fun hquery => (h.1 hquery).append new,
    fun hquery => List.mem_append_left _ (h.2 hquery)⟩

theorem Answered.prepend {query : QueryKey} {entries : List Entry}
    (h : Answered registered query entries) (old : List Entry) :
    Answered registered query (old ++ entries) :=
  ⟨fun hquery => (h.1 hquery).prepend old,
    fun hquery => List.mem_append_right _ (h.2 hquery)⟩

theorem settled_of_silent {entries : List Entry}
    (h : ∀ entry ∈ entries, entry.invalidation? = none) :
    Settled registered pending entries := by
  intro before entry after heq invalidation hinvalidation
  rw [h entry (by simp [heq])] at hinvalidation
  simp at hinvalidation

/-- What follows answers the queries that are no longer pending. -/
theorem Settled.append {entries new : List Entry} (h : Settled registered pending entries)
    {pending' : QueryKey → Prop} (hnew : Settled registered pending' new)
    (hpending : ∀ query, pending query → pending' query ∨ Answered registered query new) :
    Settled registered pending' (entries ++ new) := by
  intro before entry after heq invalidation hinvalidation query hquery
  rcases List.append_eq_append_iff.1 heq with ⟨part, rfl, hpart⟩ | ⟨part, rfl, hpart⟩
  · exact hnew part entry after hpart invalidation hinvalidation query hquery
  · cases part with
    | nil => exact hnew [] entry after hpart.symm invalidation hinvalidation query hquery
    | cons first rest =>
        obtain ⟨rfl, rfl⟩ := List.cons.inj hpart
        rcases h before entry rest rfl invalidation hinvalidation query hquery with
          hwaits | hanswered
        · exact (hpending query hwaits).imp_right fun hanswered => hanswered.prepend rest
        · exact Or.inr (hanswered.append new)

/-- A write among the entries has reported the query. -/
def Reported (query : QueryKey) (entries : List Entry) : Prop :=
  ∃ entry ∈ entries, ∃ invalidation, entry.invalidation? = some invalidation ∧
    query ∈ invalidation.queries

theorem reported_append_iff {query : QueryKey} {entries new : List Entry} :
    Reported query (entries ++ new) ↔ Reported query entries ∨ Reported query new := by
  simp only [Reported, List.mem_append, or_and_right, exists_or]

theorem not_reported_of_silent {entries : List Entry}
    (h : ∀ entry ∈ entries, entry.invalidation? = none) (query : QueryKey) :
    ¬ Reported query entries := by
  rintro ⟨entry, hentry, invalidation, hinvalidation, -⟩
  rw [h entry hentry] at hinvalidation
  simp at hinvalidation

theorem mem_queries_of_reported {before after : List Entry} {entry : Entry}
    (hbefore : ∀ entry ∈ before, entry.invalidation? = none)
    (hafter : ∀ entry ∈ after, entry.isProgress = true) {invalidation : Invalidation}
    (hentry : entry.invalidation? = some invalidation) {query : QueryKey}
    (h : Reported query (before ++ entry :: after)) : query ∈ invalidation.queries := by
  obtain ⟨other, hother, invalidation', hinvalidation, hquery⟩ := h
  rcases List.mem_append.1 hother with hother | hother
  · rw [hbefore other hother] at hinvalidation
    simp at hinvalidation
  · rcases List.mem_cons.1 hother with rfl | hother
    · cases hentry.symm.trans hinvalidation
      exact hquery
    · rw [Entry.invalidation?_of_isProgress hafter other hother] at hinvalidation
      simp at hinvalidation

/-- A write whose queries are all pending. -/
theorem settled_write {before after : List Entry} {entry : Entry}
    (hbefore : ∀ entry ∈ before, entry.invalidation? = none)
    (hafter : ∀ entry ∈ after, entry.isProgress = true) {invalidation : Invalidation}
    (hentry : entry.invalidation? = some invalidation)
    (hpending : ∀ query ∈ invalidation.queries, pending query) :
    Settled registered pending (before ++ entry :: after) := by
  have hsilent : Settled registered pending before := settled_of_silent hbefore
  refine hsilent.append ?_ fun _ => Or.inl
  intro first other rest heq invalidation' hinvalidation query hquery
  cases first with
  | nil =>
      obtain ⟨rfl, rfl⟩ := List.cons.inj heq
      cases hentry.symm.trans hinvalidation
      exact Or.inl (hpending query hquery)
  | cons head tail =>
      obtain ⟨rfl, rfl⟩ := List.cons.inj heq
      rw [Entry.invalidation?_of_isProgress hafter other (by simp)] at hinvalidation
      simp at hinvalidation

/-! ### Work lists -/

open Session (Executed Noted Opens rerunsOf mem_rerunsOf)

variable {σ : Type} {settings : Settings} {backend : Backend σ}

theorem Session.isRegistered_congr {session next : Session σ}
    (h : next.registry = session.registry) : next.IsRegistered = session.IsRegistered := by
  funext key
  rw [IsRegistered, IsRegistered, h]

/-- In what the journal has gained, every query that a write has reported is
answered, or still in the list. All these queries are cached. -/
def WorkList.Settled (journal : List Entry) (work : WorkList σ) : Prop :=
  ∃ entries, work.session.cache.journal = journal ++ entries ∧
    QueryCache.Settled work.session.IsRegistered
      (fun query => ∃ rerun ∈ work.reruns, rerun.key = query) entries ∧
    ∀ query, Reported query entries → work.session.cache.store.IsCached query

/-- An execution answers its own query, and reports no others than its write does. -/
theorem Session.Executed.answered {prepared : Prepared} {session next : Session σ}
    {invalidation : Invalidation}
    (h : Executed settings backend prepared session invalidation next)
    (hprepared : session.IsRegistered prepared.key) :
    ∃ entries, next.cache.journal = session.cache.journal ++ entries ∧
      Answered session.IsRegistered prepared.key entries ∧
        (∀ {pending : QueryKey → Prop}, (∀ query ∈ invalidation.queries, pending query) →
          QueryCache.Settled session.IsRegistered pending entries) ∧
        ∀ query, Reported query entries → query ∈ invalidation.queries := by
  obtain ⟨before, after, count, hjournal, hbefore, hafter⟩ := h.journal
  have hsilent : ∀ entry ∈ .executed prepared.key :: before, entry.invalidation? = none :=
    Entry.invalidation?_of_executed (List.forall_mem_nil _) hbefore
  refine ⟨.executed prepared.key :: before ++ .wrote prepared.key
    (.ofOutcome (backend.result prepared session.world).1) count invalidation :: after,
    ?_, ?_, ?_, ?_⟩
  · rw [hjournal]
    simp
  · refine ⟨fun _ => ⟨[], before, after, _, count, invalidation, rfl⟩, fun hnot => ?_⟩
    exact absurd hprepared hnot
  · intro pending hpending
    exact settled_write hsilent hafter rfl hpending
  · intro query hreported
    exact mem_queries_of_reported hsilent hafter rfl hreported

theorem WorkList.Turn.settled {work next : WorkList σ}
    (h : Turn settings backend work next) (hsound : work.session.Sound)
    {journal : List Entry} (hwork : work.Settled journal) : next.Settled journal := by
  obtain ⟨entries, hjournal, hsettled, hreported⟩ := hwork
  obtain ⟨rerun, rest, hreruns, -, ⟨hnone, rfl⟩ | ⟨prepared, invalidation, session,
    hprepared, hexecuted, rfl⟩⟩ := turn_cases h
  · refine ⟨entries ++ [.skipped rerun.key], ?_, ?_, ?_⟩
    · change work.session.cache.journal ++ [_] = _
      rw [hjournal, List.append_assoc]
    · refine hsettled.append (settled_of_silent (by simp [Entry.invalidation?])) ?_
      rintro query ⟨other, hother, rfl⟩
      rw [hreruns] at hother
      rcases List.mem_cons.1 hother with rfl | hother
      · refine Or.inr ⟨fun hregistered => ?_, fun _ => List.mem_singleton_self _⟩
        obtain ⟨prepared, hprepared⟩ := hregistered
        exact absurd (hnone.symm.trans hprepared) (by simp)
      · exact Or.inl ⟨other, hother, rfl⟩
    · intro query hquery
      rcases reported_append_iff.1 hquery with hquery | hquery
      · exact hreported query hquery
      · exact absurd hquery (not_reported_of_silent (by simp [Entry.invalidation?]) query)
  · have hkey := (hsound.registered hprepared).1
    obtain ⟨new, hnew, hanswered, hsettledNew, hreportedNew⟩ :=
      hexecuted.answered ⟨prepared, hkey ▸ hprepared⟩
    refine ⟨entries ++ new, ?_, ?_, ?_⟩
    · change session.cache.journal = _
      rw [hnew, hjournal, List.append_assoc]
    · rw [Session.isRegistered_congr hexecuted.registry]
      refine hsettled.append (hsettledNew fun query hquery => ?_) ?_
      · exact ⟨⟨query, rerun.chain ++ [rerun.key]⟩,
          List.mem_append_right _ (mem_rerunsOf.2 ⟨hquery, rfl⟩), rfl⟩
      · rintro query ⟨other, hother, rfl⟩
        rw [hreruns] at hother
        rcases List.mem_cons.1 hother with rfl | hother
        · exact Or.inr (hkey ▸ hanswered)
        · exact Or.inl ⟨other, List.mem_append_left _ hother, rfl⟩
    · intro query hquery
      rcases reported_append_iff.1 hquery with hquery | hquery
      · exact hexecuted.isCached (hreported query hquery)
      · exact hexecuted.isCached_of_mem_queries hsound (hreportedNew query hquery)

theorem WorkList.Turns.settled {work next : WorkList σ}
    (h : Turns settings backend work next) (hbackend : backend.Ordered)
    (hsound : work.session.Sound) {journal : List Entry} (hwork : work.Settled journal) :
    next.Settled journal := by
  have hkeep := h.keep (fun next => next.session.Sound ∧ next.Settled journal)
    ⟨hsound, hwork⟩
  refine (hkeep ?_).2
  intro work' next' hturn ⟨hsound', hwork'⟩
  exact ⟨Turns.sound (.single hturn) hbackend hsound', hturn.settled hsound' hwork'⟩

/-- A list is settled while nothing has been written. -/
theorem WorkList.settled_of_silent {work : WorkList σ} {journal entries : List Entry}
    (hjournal : work.session.cache.journal = journal ++ entries)
    (hsilent : ∀ entry ∈ entries, entry.invalidation? = none) : work.Settled journal := by
  refine ⟨entries, hjournal, QueryCache.settled_of_silent hsilent, fun query hquery => ?_⟩
  exact absurd hquery (not_reported_of_silent hsilent query)

/-- A list that begins with what one write has named. -/
theorem WorkList.settled_of_write {chain : List QueryKey} {invalidation : Invalidation}
    {session : Session σ} {journal before after : List Entry} {entry : Entry}
    (hjournal : session.cache.journal = journal ++ (before ++ entry :: after))
    (hbefore : ∀ entry ∈ before, entry.invalidation? = none)
    (hafter : ∀ entry ∈ after, entry.isProgress = true)
    (hentry : entry.invalidation? = some invalidation)
    (hcached : ∀ query ∈ invalidation.queries, session.cache.store.IsCached query) :
    WorkList.Settled journal ⟨rerunsOf chain invalidation, session⟩ := by
  have hlisted : ∀ query ∈ invalidation.queries,
      ∃ rerun ∈ rerunsOf chain invalidation, rerun.key = query :=
    fun query hquery => ⟨⟨query, chain⟩, mem_rerunsOf.2 ⟨hquery, rfl⟩, rfl⟩
  refine ⟨_, hjournal, settled_write hbefore hafter hentry hlisted, fun query hquery => ?_⟩
  exact hcached query (mem_queries_of_reported hbefore hafter hentry hquery)

/-- The first part of an operation leaves the queries that its write has reported in
the list. -/
theorem Session.Opens.settled {client : Client σ} {call : Call σ} {work : WorkList σ}
    (h : Opens settings backend client call work) (hsound : client.session.Sound) :
    work.Settled client.session.cache.journal := by
  cases h with
  | noted hnoted =>
      obtain ⟨entries, hjournal, hentries⟩ := hnoted.journal
      exact WorkList.settled_of_silent hjournal (Entry.invalidation?_of_isProgress hentries)
  | @fresh _ prepared start next _ _ hnoted hdone =>
      obtain ⟨entries, hjournal, hentries⟩ := hnoted.journal
      obtain ⟨entries', hjournal', hentries'⟩ := hdone.journal
      have hgained : next.cache.journal =
          client.session.cache.journal ++ (entries ++ .executed prepared.key :: entries') := by
        rw [hjournal', Session.note, Cache.note, hjournal]
        simp [register]
      exact WorkList.settled_of_silent hgained
        (Entry.invalidation?_of_executed hentries hentries')
  | @executed _ prepared start next invalidation hordered hnoted hexecuted =>
      have hstart := hnoted.sound (hsound.register hordered)
      obtain ⟨entries, hjournal, hentries⟩ := hnoted.journal
      obtain ⟨before, after, count, hjournal', hbefore, hafter⟩ := hexecuted.journal
      have hgained : next.cache.journal = client.session.cache.journal ++
          (entries ++ .executed prepared.key :: before ++ .wrote prepared.key
            (.ofOutcome (backend.result prepared start.world).1) count invalidation :: after) := by
        rw [hjournal', hjournal]
        simp [register]
      exact WorkList.settled_of_write hgained
        (Entry.invalidation?_of_executed hentries hbefore) hafter rfl
        fun query hquery => hexecuted.isCached_of_mem_queries hstart hquery
  | @absorbed _ start next _ invalidation _ hnoted hstore hreported _ hwritten =>
      obtain ⟨entries, hjournal, hentries⟩ := hnoted.journal
      obtain ⟨count, after, hjournal', hafter⟩ := hwritten
      have hgained : next.cache.journal = client.session.cache.journal ++
          (entries ++ .wroteEntities none count invalidation :: after) := by
        rw [hjournal', hjournal, List.append_assoc]
      refine WorkList.settled_of_write hgained (Entry.invalidation?_of_isProgress hentries)
        hafter rfl fun query hquery => ?_
      rw [hreported] at hquery
      rw [hstore]
      exact Store.isCached_of_mem_queries_writeEntities (hnoted.sound hsound).store hquery
  | @replaced _ held data next invalidation _ _ hstore hreported _ hwritten =>
      obtain ⟨count, hjournal⟩ := hwritten
      have hgained : next.cache.journal = client.session.cache.journal ++
          ([] ++ .wrote held.key (.ready data) count invalidation :: []) := hjournal
      refine WorkList.settled_of_write hgained (by simp) (by simp) rfl fun query hquery => ?_
      rw [hreported] at hquery
      have hcached := (Store.isCached_of_mem_queries_write hsound.store hquery).2
      rw [hstore]
      exact Store.isCached_write hcached _ _ _

theorem Session.journal_evict (session : Session σ) (key : QueryKey) :
    ∃ entries, (session.evict key).2.cache.journal = session.cache.journal ++ entries ∧
      ∀ entry ∈ entries, entry.invalidation? = none := by
  rw [evict, Cache.evict]
  dsimp only
  split
  · exact ⟨[.evicted key], rfl, by simp [Entry.invalidation?]⟩
  · exact ⟨[], (List.append_nil _).symm, by simp⟩

/-- Neither the calls so far nor this one write through a handle whose query has been evicted. -/
def Client.AllCurrent (log : List Made) (client : Client σ) (call : Call σ) : Prop :=
  (∀ made ∈ log, made.current = true) ∧ client.isCurrent call = true

/-- Whatever query a write of a call has reported, it was executed after that, or skipped because
it is not registered. All of them are registered where only current handles are written
through. -/
def Client.Answers (log : List Made) (client : Client σ) (call : Call σ) (next : Client σ) : Prop :=
  ∃ entries, next.session.cache.journal = client.session.cache.journal ++ entries ∧
    ∀ before entry after, entries = before ++ entry :: after →
      ∀ invalidation, entry.invalidation? = some invalidation →
        ∀ query ∈ invalidation.queries,
          Answered next.session.IsRegistered query after ∧
            (client.AllCurrent log call → next.session.IsRegistered query)

/-- Every query that an operation without a failure has invalidated was executed after
that, or skipped because it is not registered. If the run writes through current
handles only, all of them are registered. -/
theorem Run.answered_of_ok {log : List Made} {client : Client σ}
    (h : Run settings backend log client) (hbackend : backend.Ordered) {call : Call σ}
    (hcall : call.Ordered) {next : Client σ}
    (hok : client.perform settings backend call = (none, next)) :
    client.Answers log call next := by
  have hsound := h.sound hbackend
  have hperforms : Client.Performs settings backend client call (none, next) :=
    hok ▸ Client.performs hbackend client hcall
  cases hperforms with
  | evicted key =>
      obtain ⟨entries, hjournal, hentries⟩ := Session.journal_evict client.session key
      refine ⟨entries, hjournal, ?_⟩
      intro before entry after heq invalidation hinvalidation
      rw [hentries entry (by simp [heq])] at hinvalidation
      simp at hinvalidation
  | elapsed world => exact ⟨[], (List.append_nil _).symm, by simp⟩
  | read _ => exact ⟨[], (List.append_nil _).symm, by simp⟩
  | @finished _ work next hopens hturns =>
      obtain ⟨entries, hjournal, hsettled, hreported⟩ :=
        hturns.settled hbackend (hopens.sound hbackend hsound) (hopens.settled hsound)
      refine ⟨entries, hjournal, ?_⟩
      intro before entry after heq invalidation hinvalidation query hquery
      have hanswered := hsettled before entry after heq invalidation hinvalidation query hquery
      rcases hanswered with hlisted | hanswered
      · simp at hlisted
      · refine ⟨hanswered, fun ⟨hlog, hcurrent⟩ => ?_⟩
        have hwork := hopens.allRegistered (h.registered hbackend hlog) hcurrent
        have hend := hturns.allRegistered hbackend (hopens.sound hbackend hsound) hwork
        refine hend query (hreported query ?_)
        exact ⟨entry, by simp [heq], invalidation, hinvalidation, hquery⟩

/-- A user is renamed while two queries for the name are cached. The first is fetched
again, and the second is executed after that. -/
theorem answered_of_renamed_user :
    let calls : List (Call (List (String × String))) :=
      [.query (.onUser "name") [], .query (.onUser "nameAgain") [], .elapse [("name", "Bo")]]
    let done := Client.performAll .standard userServer calls ([], .start [("name", "Al")])
    let call := Call.refetch (QuerySource.onUser "name") []
    let next := (done.2.perform .standard userServer call).2
    Run .standard userServer done.1 done.2 ∧ userServer.Ordered ∧ call.Ordered ∧
      done.2.perform .standard userServer call = (none, next) ∧
      done.2.AllCurrent done.1 call ∧ done.2.Answers done.1 call next := by
  intro calls done call next
  have hrun : Run .standard userServer done.1 done.2 := by
    refine Run.performAll ?_ (.start _)
    simp [calls, Call.Ordered, Json.Ordered, Json.OrderedMembers, Table.sorted_nil]
  have hcall : call.Ordered := Json.ordered_emptyObject
  have hok : done.2.perform .standard userServer call = (none, next) :=
    Client.perform_of_none (by decide +kernel)
  exact ⟨hrun, ordered_userServer, hcall, hok, ⟨by decide +kernel, rfl⟩,
    Run.answered_of_ok hrun ordered_userServer hcall hok⟩

/-- A query is evicted, and then written through a handle from before. A mutation that
renames the user names the query, and nothing executes it. -/
theorem not_executed_after_stray_write :
    ¬ ∀ (log : List Made) (client : Client (List (String × String))),
      Run .standard userServer log client → ∀ call : Call (List (String × String)),
        call.Ordered → ∀ next, client.perform .standard userServer call = (none, next) →
          ∀ before entry after,
            next.session.cache.journal =
              client.session.cache.journal ++ (before ++ entry :: after) →
            ∀ invalidation, entry.invalidation? = some invalidation →
              ∀ query ∈ invalidation.queries, RunsAgain query after := by
  intro hclaim
  let calls : List (Call (List (String × String))) :=
    [.query (.onUser "name") [], .read (.onUser "name") [], .evict (.onUser "name"),
      .write 0 (.ofUser "1" [("name", "Al")]), .elapse [("name", "Bo")]]
  let done := Client.performAll .standard userServer calls ([], .start [("name", "Al")])
  let call : Call (List (String × String)) := .mutate (.tree (.onUser .mutation "nameSet")) []
  let next := (done.2.perform .standard userServer call).2
  let entries := next.session.cache.journal.drop done.2.session.cache.journal.length
  let invalidation : Invalidation := ⟨[⟨"User-1"⟩], [.onUser "name"]⟩
  have hrun : Run .standard userServer done.1 done.2 := by
    refine Run.performAll ?_ (.start _)
    simp [calls, Call.Ordered, Json.ordered_ofUser, Json.Ordered, Json.OrderedMembers,
      Table.sorted_nil]
  have hok : done.2.perform .standard userServer call = (none, next) :=
    Client.perform_of_none (by decide +kernel)
  have hentries : next.session.cache.journal = done.2.session.cache.journal ++
      (entries.take 5 ++ .wroteEntities none 1 invalidation :: entries.drop 6) := by
    decide +kernel
  have hruns : RunsAgain (.onUser "name") (entries.drop 6) :=
    hclaim done.1 done.2 hrun call Json.ordered_emptyObject next hok _ _ _ hentries
      invalidation rfl _ (List.mem_singleton_self _)
  obtain ⟨before, between, after, state, count, invalidation', heq⟩ := hruns
  have hmem : Entry.executed (.onUser "name") ∈ entries.drop 6 := by simp [heq]
  have hnot : Entry.executed (.onUser "name") ∉ entries.drop 6 := by decide +kernel
  exact hnot hmem

end QueryCache
