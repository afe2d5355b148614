import QueryCache.Proofs.Client.Reruns

/-!
# What a cycle leaves behind

The work list is worked off in the order in which writes report queries. An
operation that comes to a blocked re-run gives up there, and with it whatever still
stands in the list: `Run.reruns_of_cyclic` says which reported queries have had their
turn by then, and which are left. A query that is left, and that the operation has not
executed for another reason, keeps its state. So it stays fresh although what it shows
is outdated.
-/

namespace QueryCache

namespace Entry

/-- The queries that a write has reported. -/
def reported (entry : Entry) : List QueryKey :=
  (entry.invalidation?.map Invalidation.queries).getD []

/-- The query whose turn it is: it is executed or skipped. -/
def attempted? : Entry → Option QueryKey
  | executed key => some key
  | skipped key => some key
  | _ => none

/-- The query whose state is stored. -/
def written? : Entry → Option QueryKey
  | wrote key _ _ _ => some key
  | _ => none

theorem mem_reported {entry : Entry} {query : QueryKey} :
    query ∈ entry.reported ↔
      ∃ invalidation, entry.invalidation? = some invalidation ∧
        query ∈ invalidation.queries := by
  cases h : entry.invalidation? <;> simp [reported, h]

theorem flatMap_reported_of_isProgress {entries : List Entry}
    (h : ∀ entry ∈ entries, entry.isProgress = true) : entries.flatMap reported = [] := by
  refine List.flatMap_eq_nil_iff.2 fun entry hentry => ?_
  rw [reported, invalidation?_of_isProgress h entry hentry]
  rfl

theorem filterMap_attempted_of_isProgress {entries : List Entry}
    (h : ∀ entry ∈ entries, entry.isProgress = true) :
    entries.filterMap attempted? = [] := by
  refine List.filterMap_eq_nil_iff.2 fun entry hentry => ?_
  have hprogress := h entry hentry
  cases entry <;> simp_all [isProgress, attempted?]

/-- Of an execution that stores its outcome, one query has its turn. -/
theorem filterMap_attempted_of_executed {before after : List Entry}
    (hbefore : ∀ entry ∈ before, entry.isProgress = true)
    (hafter : ∀ entry ∈ after, entry.isProgress = true) (key : QueryKey) (state : QueryState)
    (count : Nat) (invalidation : Invalidation) :
    (.executed key :: before ++ .wrote key state count invalidation :: after).filterMap
      attempted? = [key] := by
  simp [filterMap_attempted_of_isProgress hbefore, List.filterMap_cons,
    filterMap_attempted_of_isProgress hafter, attempted?]

end Entry

open Session (Executed Noted Opens Rerun rerunsOf)

variable {σ : Type} {settings : Settings} {backend : Backend σ}

namespace Session

/-- The journal has gained these entries, and a query that is not written in them has
the state that it had. -/
structure Gains (session : Session σ) (entries : List Entry) (next : Session σ) : Prop where
  journal : next.cache.journal = session.cache.journal ++ entries
  kept : ∀ query, (∀ entry ∈ entries, entry.written? ≠ some query) →
    next.cache.store.state? query = session.cache.store.state? query

variable {first second third : Session σ}

theorem Gains.trans {entries new : List Entry} (h : Gains first entries second)
    (h' : Gains second new third) : Gains first (entries ++ new) third := by
  constructor
  · rw [h'.journal, h.journal, List.append_assoc]
  · intro query hquery
    rw [h'.kept query fun entry hentry => hquery entry (List.mem_append_right _ hentry),
      h.kept query fun entry hentry => hquery entry (List.mem_append_left _ hentry)]

theorem gains_note (session : Session σ) (entry : Entry) :
    Gains session [entry] (session.note entry) :=
  ⟨rfl, fun _ _ => rfl⟩

theorem Noted.gains (h : Noted first second) :
    ∃ entries, Gains first entries second ∧ ∀ entry ∈ entries, entry.isProgress = true := by
  obtain ⟨entries, hjournal, hentries⟩ := h.journal
  exact ⟨entries, ⟨hjournal, fun _ _ => by rw [h.store]⟩, hentries⟩

theorem gains_register (session : Session σ) (prepared : Prepared) :
    Gains session [] (session.register prepared) :=
  ⟨(List.append_nil _).symm, fun _ _ => rfl⟩

/-- An execution is one turn, and writes its own query. -/
theorem Executed.gains {prepared : Prepared} {invalidation : Invalidation}
    (h : Executed settings backend prepared first invalidation second)
    (hsound : first.Sound) :
    ∃ entries, Gains first entries second ∧
      entries.filterMap Entry.attempted? = [prepared.key] ∧
      entries.flatMap Entry.reported = invalidation.queries := by
  obtain ⟨before, after, count, hjournal, hbefore, hafter⟩ := h.journal
  let wrote := Entry.wrote prepared.key
    (.ofOutcome (backend.result prepared first.world).1) count invalidation
  refine ⟨.executed prepared.key :: before ++ wrote :: after, ⟨?_, ?_⟩, ?_, ?_⟩
  · rw [hjournal, List.append_assoc]
  · intro query hquery
    have hne : query ≠ prepared.key := by
      rintro rfl
      exact hquery wrote (by simp) rfl
    rw [h.store, Store.state?_write (hsound.store.awaiting prepared).indexed, if_neg hne,
      Store.state?_awaiting_of_ne hsound.store.indexed prepared hne]
  · simp [Entry.filterMap_attempted_of_isProgress hbefore, List.filterMap_cons,
      Entry.filterMap_attempted_of_isProgress hafter, Entry.attempted?, wrote]
  · rw [List.flatMap_append, List.flatMap_cons, List.flatMap_cons,
      Entry.flatMap_reported_of_isProgress hbefore,
      Entry.flatMap_reported_of_isProgress hafter]
    exact List.append_nil _

theorem map_key_rerunsOf (chain : List QueryKey) (invalidation : Invalidation) :
    (rerunsOf chain invalidation).map Rerun.key = invalidation.queries := by
  simp [rerunsOf, Function.comp_def]

end Session

/-! ### The order of the list -/

/-- The list is in the order of the reports. What the journal has gained tells which
queries have had their turn, apart from the operation's own query: they are those that
were reported first, and the list holds the others. -/
structure WorkList.InOrder (start : Session σ) (own : Option QueryKey)
    (entries : List Entry) (work : WorkList σ) : Prop where
  gains : start.Gains entries work.session
  order : ∃ done, entries.filterMap Entry.attempted? = own.toList ++ done ∧
    entries.flatMap Entry.reported = done ++ work.reruns.map Rerun.key

variable {start : Session σ} {own : Option QueryKey}

/-- A turn takes the first query of the list, and what it reports comes last. -/
theorem WorkList.Turn.inOrder {work next : WorkList σ} {entries : List Entry}
    (h : Turn settings backend work next) (hsound : work.session.Sound)
    (hwork : work.InOrder start own entries) :
    ∃ entries, next.InOrder start own entries := by
  obtain ⟨hgains, done, hattempted, hreported⟩ := hwork
  obtain ⟨rerun, rest, hreruns, -, ⟨-, rfl⟩ | ⟨prepared, invalidation, session,
    hprepared, hexecuted, rfl⟩⟩ := turn_cases h
  · refine ⟨entries ++ [.skipped rerun.key], hgains.trans (Session.gains_note _ _),
      done ++ [rerun.key], ?_, ?_⟩
    · rw [List.filterMap_append, hattempted, List.append_assoc]
      rfl
    · rw [List.flatMap_append, hreported, hreruns]
      simp [Entry.reported, Entry.invalidation?]
  · have hkey := (hsound.registered hprepared).1
    obtain ⟨new, hnew, hattemptedNew, hreportedNew⟩ := hexecuted.gains hsound
    refine ⟨entries ++ new, hgains.trans hnew, done ++ [rerun.key], ?_, ?_⟩
    · rw [List.filterMap_append, hattempted, hattemptedNew, hkey, List.append_assoc]
    · rw [List.flatMap_append, hreported, hreportedNew, hreruns, List.map_append,
        Session.map_key_rerunsOf]
      simp

theorem WorkList.Turns.inOrder {work next : WorkList σ} {entries : List Entry}
    (h : Turns settings backend work next) (hbackend : backend.Ordered)
    (hsound : work.session.Sound) (hwork : work.InOrder start own entries) :
    ∃ entries, next.InOrder start own entries := by
  have hkeep := h.keep
    (fun next => next.session.Sound ∧ ∃ entries, next.InOrder start own entries)
    ⟨hsound, entries, hwork⟩
  refine (hkeep ?_).2
  rintro work' next' hturn ⟨hsound', entries', hwork'⟩
  exact ⟨Turns.sound (.single hturn) hbackend hsound', hturn.inOrder hsound' hwork'⟩

/-- The list that an operation opens holds what its own write has reported. -/
theorem Session.Opens.inOrder {client : Client σ} {call : Call σ} {work : WorkList σ}
    (h : Opens settings backend client call work) (hsound : client.session.Sound) :
    ∃ own entries, work.InOrder client.session own entries := by
  cases h with
  | noted hnoted =>
      obtain ⟨entries, hgains, hentries⟩ := hnoted.gains
      refine ⟨none, entries, hgains, [], ?_, ?_⟩
      · exact Entry.filterMap_attempted_of_isProgress hentries
      · exact Entry.flatMap_reported_of_isProgress hentries
  | @fresh _ prepared start next _ _ hnoted hdone =>
      obtain ⟨entries, hgains, hentries⟩ := hnoted.gains
      obtain ⟨entries', hgains', hentries'⟩ := hdone.gains
      refine ⟨some prepared.key, [] ++ entries ++ [.executed prepared.key] ++ entries',
        (((gains_register _ _).trans hgains).trans (gains_note _ _)).trans hgains', [], ?_, ?_⟩
      · simp [Entry.filterMap_attempted_of_isProgress hentries,
          Entry.filterMap_attempted_of_isProgress hentries', Entry.attempted?]
      · simp [Entry.flatMap_reported_of_isProgress hentries,
          Entry.flatMap_reported_of_isProgress hentries', Entry.reported, Entry.invalidation?]
  | @executed _ prepared start next invalidation hordered hnoted hexecuted =>
      obtain ⟨entries, hgains, hentries⟩ := hnoted.gains
      obtain ⟨entries', hgains', hattempted, hreported⟩ :=
        hexecuted.gains (hnoted.sound (hsound.register hordered))
      refine ⟨some prepared.key, [] ++ entries ++ entries',
        ((gains_register _ _).trans hgains).trans hgains', [], ?_, ?_⟩
      · rw [List.nil_append, List.filterMap_append, hattempted,
          Entry.filterMap_attempted_of_isProgress hentries]
        rfl
      · rw [List.nil_append, List.flatMap_append, hreported, map_key_rerunsOf,
          Entry.flatMap_reported_of_isProgress hentries]
  | @absorbed _ start next _ invalidation _ hnoted hstore _ _ hwritten =>
      obtain ⟨entries, hgains, hentries⟩ := hnoted.gains
      obtain ⟨count, after, hjournal, hafter⟩ := hwritten
      have hgains' : start.Gains (.wroteEntities none count invalidation :: after) next := by
        refine ⟨hjournal, fun query _ => ?_⟩
        rw [hstore]
        rfl
      refine ⟨none, _, hgains.trans hgains', [], ?_, ?_⟩
      · rw [List.filterMap_append, List.filterMap_cons_none rfl,
          Entry.filterMap_attempted_of_isProgress hentries,
          Entry.filterMap_attempted_of_isProgress hafter]
        rfl
      · rw [List.flatMap_append, List.flatMap_cons,
          Entry.flatMap_reported_of_isProgress hentries,
          Entry.flatMap_reported_of_isProgress hafter, map_key_rerunsOf]
        exact List.append_nil _
  | @replaced _ held data next invalidation _ _ hstore _ _ hwritten =>
      obtain ⟨count, hjournal⟩ := hwritten
      refine ⟨none, [.wrote held.key (.ready data) count invalidation],
        ⟨hjournal, fun query hquery => ?_⟩, [], rfl, ?_⟩
      · have hne : query ≠ held.key := by
          rintro rfl
          exact hquery _ (List.mem_singleton_self _) rfl
        rw [hstore, Store.state?_write hsound.store.indexed, if_neg hne]
      · rw [map_key_rerunsOf]
        exact List.append_nil _

/-- A call comes to a cycle and gives up. The queries that its writes have reported are listed in
their order: those that had their turn after the call's own, the last one of the cycle, and those
that are left. -/
def Client.GivesUp (log : List Made) (client : Client σ) (call : Call σ) (cycle : List String)
    (next : Client σ) : Prop :=
  ∃ own chain key done left entries,
    cycle = (chain ++ [key]).map QueryKey.text ∧
    next.session.cache.journal =
      client.session.cache.journal ++ entries ++ [.aborted (chain.length + 1)] ∧
    entries.filterMap Entry.attempted? = (own : Option QueryKey).toList ++ done ∧
    entries.flatMap Entry.reported = done ++ key :: left ∧
    (∀ before entry after, entries = before ++ entry :: after →
      ∀ query ∈ entry.reported, query ∉ key :: left →
        Answered next.session.IsRegistered query after ∧
          (client.AllCurrent log call → next.session.IsRegistered query)) ∧
    ∀ query, (∀ entry ∈ entries, entry.written? ≠ some query) →
      next.session.cache.store.state? query = client.session.cache.store.state? query

/-- An operation that ends at a cycle has worked off the reported queries in their
order, up to the last one of the cycle. What was reported is answered after that,
unless it is this one or among those that are left; all of these are registered if the
run writes through current handles only. A query whose outcome the operation has not
stored keeps its state, fresh or not. -/
theorem Run.reruns_of_cyclic {log : List Made} {client : Client σ}
    (h : Run settings backend log client) (hbackend : backend.Ordered) {call : Call σ}
    (hcall : call.Ordered) {cycle : List String} {next : Client σ}
    (hcyclic : client.perform settings backend call = (some (.cyclic cycle), next)) :
    client.GivesUp log call cycle next := by
  have hsound := h.sound hbackend
  have hperforms : Client.Performs settings backend client call (some (.cyclic cycle), next) :=
    hcyclic ▸ Client.performs hbackend client hcall
  generalize hfailure : some (Failure.cyclic cycle) = failure at hperforms
  cases hperforms with
  | evicted key => cases hfailure
  | elapsed world => cases hfailure
  | read _ => cases hfailure
  | refused _ hrefusal =>
      cases hfailure
      cases call <;> cases hrefusal
  | finished _ _ => cases hfailure
  | @blocked _ work rerun rest next hopens hturns _ =>
      cases hfailure
      have hwork := hopens.sound hbackend hsound
      obtain ⟨entries, hjournal, hsettled, hreported⟩ :=
        hturns.settled hbackend hwork (hopens.settled hsound)
      obtain ⟨own, opened, hopened⟩ := hopens.inOrder hsound
      obtain ⟨entries', hgains, done, hattempted, horder⟩ :=
        hturns.inOrder hbackend hwork hopened
      obtain rfl : entries' = entries :=
        List.append_cancel_left (hgains.journal.symm.trans hjournal)
      refine ⟨own, rerun.chain, rerun.key, done, rest.map Rerun.key, entries', rfl, ?_,
        hattempted, horder, ?_, hgains.kept⟩
      · rw [← hjournal]
        exact congrArg (fun count => next.cache.journal ++ [Entry.aborted count])
          List.length_append
      · intro before entry after heq query hquery hleft
        obtain ⟨invalidation, hinvalidation, hmem⟩ := Entry.mem_reported.1 hquery
        rcases hsettled before entry after heq invalidation hinvalidation query hmem with
          ⟨other, hother, rfl⟩ | hanswered
        · exact absurd (List.mem_map_of_mem hother) hleft
        · refine ⟨hanswered, fun ⟨hlog, hcurrent⟩ => ?_⟩
          have hregistered := hturns.allRegistered hbackend hwork
            (hopens.allRegistered (h.registered hbackend hlog) hcurrent)
          refine hregistered query (hreported query ?_)
          exact ⟨entry, by simp [heq], invalidation, hinvalidation, hmem⟩

/-! ### A query that is left -/

/-- The answer about a user and a club. The name is the user's alone, the rank comes
with the club, and the size is the club's alone. All three are new after a move. -/
def clubAnswer (request : Request) (moved : Bool) : Json :=
  let shown : Json := .string (if moved then "new" else "old")
  let entity (type field : String) : Json :=
    .object [("__typename", .string type), ("id", .string "1"), (field, shown)]
  match request.operationName with
  | some "rank" => .object [("club", entity "Club" "size"), ("me", entity "User" "rank")]
  | some "size" => .object [("club", entity "Club" "size")]
  | _ => .object [("me", entity "User" "name")]

/-- A server that knows a user and a club. -/
def clubServer : Backend Bool := .ofAnswers clubAnswer

theorem ordered_clubServer : clubServer.Ordered := by
  have hid : "__typename" < "id" := by decide
  have hentity : ∀ {type field : String} (shown : String), "id" < field → Json.Ordered
      (.object [("__typename", .string type), ("id", .string "1"), (field, .string shown)]) := by
    intro type field shown hfield
    refine Json.ordered_object_iff.2 ⟨List.pairwise_cons.2 ⟨?_, List.pairwise_pair.2 hfield⟩, ?_⟩
    · exact List.forall_mem_cons.2 ⟨hid, List.forall_mem_singleton.2 (String.lt_trans hid hfield)⟩
    · simp [Json.Ordered]
  refine Backend.ordered_ofAnswers fun request moved => ?_
  have hclub : "club" < "me" := by decide
  rw [clubAnswer]
  dsimp only
  split
  · exact Json.ordered_object_iff.2 ⟨List.pairwise_pair.2 hclub, List.forall_mem_cons.2
      ⟨hentity _ (by decide), List.forall_mem_singleton.2 (hentity _ (by decide))⟩⟩
  · exact Json.ordered_object_iff.2 ⟨List.pairwise_singleton _ _,
      List.forall_mem_singleton.2 (hentity _ (by decide))⟩
  · exact Json.ordered_object_iff.2 ⟨List.pairwise_singleton _ _,
      List.forall_mem_singleton.2 (hentity _ (by decide))⟩

theorem Client.perform_of_fst {call : Call σ} {client : Client σ} {failure : Option Failure}
    (h : (client.perform settings backend call).1 = failure) :
    client.perform settings backend call =
      (failure, (client.perform settings backend call).2) :=
  Prod.ext h rfl

/-- The client that has all three queries cached when everything changes. -/
def clubClient : List Made × Client Bool :=
  Client.performAll .standard clubServer
    [.query (.onUser "name") [], .query (.onUser "rank") [], .query (.onUser "size") [],
      .elapse true] ([], .start false)

theorem run_clubClient : Run .standard clubServer clubClient.1 clubClient.2 := by
  refine Run.performAll ?_ (.start _)
  simp [Call.Ordered, Json.Ordered, Json.OrderedMembers, Table.sorted_nil]

/-- The name is fetched again. The new name has the rank executed, the rank's own news
name the query for the name once more, and the operation gives up: the query for the
size is left. -/
theorem reruns_of_renamed_user :
    let call := Call.refetch (QuerySource.onUser "name") []
    let next := (clubClient.2.perform .standard clubServer call).2
    let cycle := [QueryKey.onUser "name", .onUser "rank", .onUser "name"].map QueryKey.text
    Run .standard clubServer clubClient.1 clubClient.2 ∧ clubServer.Ordered ∧
      call.Ordered ∧
      clubClient.2.perform .standard clubServer call = (some (.cyclic cycle), next) ∧
      clubClient.2.GivesUp clubClient.1 call cycle next := by
  intro call next cycle
  have hcyclic : clubClient.2.perform .standard clubServer call =
      (some (.cyclic cycle), next) := Client.perform_of_fst (by decide +kernel)
  have hcall : call.Ordered := Json.ordered_emptyObject
  exact ⟨run_clubClient, ordered_clubServer, hcall, hcyclic,
    Run.reruns_of_cyclic run_clubClient ordered_clubServer hcall hcyclic⟩

/-- The query for the size has been invalidated, is not in the cycle, and has not been
executed again, but it is fresh. -/
theorem fresh_beside_cycle :
    ¬ ∀ (log : List Made) (client : Client Bool),
      Run .standard clubServer log client → ∀ call : Call Bool, call.Ordered →
        ∀ cycle next, client.perform .standard clubServer call =
            (some (.cyclic cycle), next) →
          ∀ before entry after,
            next.session.cache.journal =
              client.session.cache.journal ++ (before ++ entry :: after) →
            ∀ query ∈ entry.reported, query.text ∉ cycle →
              RunsAgain query after ∨ next.session.cache.store.isFresh query = false := by
  intro hclaim
  let call : Call Bool := .refetch (QuerySource.onUser "name") []
  let next := (clubClient.2.perform .standard clubServer call).2
  let entries := next.session.cache.journal.drop clubClient.2.session.cache.journal.length
  let invalidation : Invalidation :=
    ⟨[⟨"Club-1"⟩, ⟨"User-1"⟩], [.onUser "name", .onUser "size"]⟩
  have hcyclic : clubClient.2.perform .standard clubServer call =
      (some (.cyclic ([QueryKey.onUser "name", .onUser "rank", .onUser "name"].map
        QueryKey.text)), next) := Client.perform_of_fst (by decide +kernel)
  have hentries : next.session.cache.journal = clubClient.2.session.cache.journal ++
      (entries.take 13 ++ .wrote (.onUser "rank")
        (.ready (clubAnswer ⟨"", [], some "rank"⟩ true)) 2 invalidation ::
          entries.drop 14) := by
    decide +kernel
  have houtcome : RunsAgain (.onUser "size") (entries.drop 14) ∨
      next.session.cache.store.isFresh (.onUser "size") = false :=
    hclaim clubClient.1 clubClient.2 run_clubClient call Json.ordered_emptyObject _ next
      hcyclic _ _ _ hentries (.onUser "size") (by decide +kernel) (by decide +kernel)
  rcases houtcome with ⟨before, between, after, state, count, invalidation', heq⟩ | hstale
  · have hmem : Entry.executed (.onUser "size") ∈ entries.drop 14 := by simp [heq]
    have hnot : Entry.executed (.onUser "size") ∉ entries.drop 14 := by decide +kernel
    exact hnot hmem
  · have hfresh : next.session.cache.store.isFresh (.onUser "size") = true := by
      decide +kernel
    exact absurd (hfresh.symm.trans hstale) (by decide)

end QueryCache
