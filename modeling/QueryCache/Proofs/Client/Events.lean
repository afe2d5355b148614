import QueryCache.Proofs.Client.Propagation
import QueryCache.Proofs.Client.Running
import QueryCache.Proofs.Client.Simple
import QueryCache.Proofs.Store.Lifecycle

/-!
# What observers can rely on

Observers see the events alone. The last event on the cell of a query says whether the query
has a cell, and of which kind the state in it is (`Event.Reflects`). An event that a query has
to run again stands behind the other events of its write, and these name an entity that the
query depends on after the write (`Cache.Announces`). Both are kept by every write and every
eviction (`Cache.Faithful`), so they hold after all calls (`Client.events_faithful`).
-/

namespace QueryCache

/-! ### The last event on a cell -/

/-- The query of whose cell an event tells. -/
def Event.told? : Event → Option QueryKey
  | queryWritten key => some key
  | queryFailed key => some key
  | queryEvicted key => some key
  | _ => none

namespace Entry

theorem events_wrote_ready (key : QueryKey) (data : Json) (count : Nat)
    (invalidation : Invalidation) :
    (wrote key (.ready data) count invalidation).events =
      [.queryWritten key] ++ invalidationEvents (some key) invalidation := rfl

theorem events_wrote_failed (key : QueryKey) (failure : Failure) (count : Nat)
    (invalidation : Invalidation) :
    (wrote key (.failed failure) count invalidation).events = [.queryFailed key] := rfl

theorem told?_of_mem_invalidationEvents {origin : Option QueryKey} {invalidation : Invalidation}
    {event : Event} (h : event ∈ invalidationEvents origin invalidation) :
    event.told? = none := by
  rcases List.mem_append.1 h with h | h
  · obtain ⟨entity, -, rfl⟩ := List.mem_map.1 h
    rfl
  · obtain ⟨query, -, rfl⟩ := List.mem_map.1 h
    rfl

/-- The events of an outcome that is stored are on no cell but that of its query. -/
theorem eq_of_told?_of_mem_wrote {key other : QueryKey} {outcome : Except Failure Json}
    {count : Nat} {invalidation : Invalidation} {event : Event}
    (h : event ∈ (wrote key (.ofOutcome outcome) count invalidation).events)
    (htold : event.told? = some other) : other = key := by
  cases outcome with
  | ok data =>
      rcases List.mem_cons.1 h with rfl | h
      · exact (Option.some.inj htold).symm
      · cases (told?_of_mem_invalidationEvents h).symm.trans htold
  | error failure =>
      obtain rfl := List.mem_singleton.1 h
      exact (Option.some.inj htold).symm

end Entry

/-- The last event on the cell of a query. -/
def lastTold (key : QueryKey) (events : List Event) : Option Event :=
  (events.filter fun event => event.told? = some key).getLast?

/-- What the last event on the cell of a query says about its state. -/
inductive Event.Reflects (key : QueryKey) : Option Event → Option QueryState → Prop
  | unknown : Reflects key none none
  | evicted : Reflects key (some (.queryEvicted key)) none
  | ready (data : Json) : Reflects key (some (.queryWritten key)) (some (.ready data))
  | failed (failure : Failure) : Reflects key (some (.queryFailed key)) (some (.failed failure))

theorem lastTold_append (key : QueryKey) (events new : List Event) :
    lastTold key (events ++ new) = (lastTold key new).or (lastTold key events) := by
  rw [lastTold, List.filter_append, List.getLast?_append]
  rfl

theorem lastTold_of_untold {key : QueryKey} {events : List Event}
    (h : ∀ event ∈ events, event.told? ≠ some key) : lastTold key events = none := by
  rw [lastTold, List.filter_eq_nil_iff.2 fun event hevent => by simpa using h event hevent]
  rfl

theorem lastTold_append_of_untold {key : QueryKey} (events : List Event) {new : List Event}
    (h : ∀ event ∈ new, event.told? ≠ some key) :
    lastTold key (events ++ new) = lastTold key events := by
  rw [lastTold_append, lastTold_of_untold h, Option.none_or]

theorem lastTold_concat {key : QueryKey} (events : List Event) {event : Event}
    (h : event.told? = some key) : lastTold key (events ++ [event]) = some event := by
  simp [lastTold, List.filter_append, h]

/-- Whatever has been told before, the event of a stored outcome is the last one then. -/
theorem reflects_wrote (key : QueryKey) (outcome : Except Failure Json) (count : Nat)
    (invalidation : Invalidation) (events : List Event) :
    Event.Reflects key
      (lastTold key (events ++ (Entry.wrote key (.ofOutcome outcome) count invalidation).events))
      (some (.ofOutcome outcome)) := by
  cases outcome with
  | ok data =>
      have hlast : lastTold key (events ++ (Entry.wrote key (.ready data) count
          invalidation).events) = some (.queryWritten key) := by
        rw [Entry.events_wrote_ready, ← List.append_assoc, lastTold_append_of_untold,
          lastTold_concat _ rfl]
        intro event hevent
        simp [Entry.told?_of_mem_invalidationEvents hevent]
      exact hlast ▸ .ready data
  | error failure =>
      have hlast : lastTold key (events ++ (Entry.wrote key (.failed failure) count
          invalidation).events) = some (.queryFailed key) := by
        rw [Entry.events_wrote_failed, lastTold_concat _ rfl]
      exact hlast ▸ .failed failure

/-! ### Announcements -/

/-- The last write of a cache tells observers that a query has to run again. Before that it
has told them of the query that was written, if there is one, and of the entities that have
changed, and now the query depends on one of these. -/
inductive Cache.Announces (cache : Cache) : List Event → QueryKey → Option QueryKey → Prop
  | intro {earlier notes : List Entry} {entry : Entry} {cause : Option QueryKey}
      {changed : List EntityKey} {named others : List QueryKey} {query : QueryKey}
      {entity : EntityKey} (journal : cache.journal = earlier ++ entry :: notes)
      (last : ∀ note ∈ notes, note.isProgress = true)
      (events : entry.events = cause.toList.map .queryWritten ++ (changed.map .entityChanged ++
        (named ++ query :: others).map fun named => .queryInvalidated named cause))
      (entityChanged : entity ∈ changed)
      (depends : query ∈ cache.store.dependentsOf entity) :
      Announces cache (earlier.flatMap Entry.events ++ (cause.toList.map .queryWritten ++
        (changed.map .entityChanged ++ named.map fun named => .queryInvalidated named cause)))
        query cause

/-- A write that reports dependents of changed entities announces each of them. -/
theorem Cache.announces_of_write {cache : Cache} {earlier notes : List Entry} {entry : Entry}
    (hjournal : cache.journal = earlier ++ entry :: notes)
    (hnotes : ∀ note ∈ notes, note.isProgress = true) {cause : Option QueryKey}
    {invalidation : Invalidation}
    (hevents : entry.events =
      cause.toList.map .queryWritten ++ Entry.invalidationEvents cause invalidation)
    (hdepends : ∀ query ∈ invalidation.queries, ∃ entity ∈ invalidation.changed,
      query ∈ cache.store.dependentsOf entity)
    {before after : List Event} {query : QueryKey} {named : Option QueryKey}
    (hsplit : entry.events = before ++ .queryInvalidated query named :: after) :
    cache.Announces (earlier.flatMap Entry.events ++ before) query named := by
  have hwritten : .queryInvalidated query named ∉
      (cause.toList.map .queryWritten ++ invalidation.changed.map Event.entityChanged) := by
    simp
  rw [Entry.invalidationEvents, ← List.append_assoc] at hevents
  rcases split_append (hevents.symm.trans hsplit) with ⟨rest, hfirst⟩ | ⟨rest, hbefore, hsecond⟩
  · refine absurd ?_ hwritten
    rw [hfirst]
    exact List.mem_append_right _ List.mem_cons_self
  · obtain ⟨done, left, hqueries, hdone, hleft⟩ := List.map_eq_append_iff.1 hsecond
    obtain ⟨found, others, rfl, hfound, -⟩ := List.map_eq_cons_iff.1 hleft
    cases hfound
    obtain ⟨entity, hentity, hquery⟩ := hdepends query (by simp [hqueries])
    rw [hbefore, ← hdone, List.append_assoc]
    rw [List.append_assoc, hqueries] at hevents
    exact .intro hjournal hnotes hevents hentity hquery

namespace Store

/-- A query that a write reports depends on a changed entity after it. -/
theorem exists_dependsOn_of_mem_queries_write {store : Store} {key query : QueryKey}
    {state : QueryState} {entities : Snapshots}
    (h : query ∈ (store.write key state entities).1.queries) :
    ∃ entity ∈ (store.write key state entities).1.changed,
      query ∈ (store.write key state entities).2.dependentsOf entity := by
  cases hdata : state.data with
  | none =>
      rw [write_of_none hdata] at h
      cases h
  | some data =>
      obtain ⟨-, entity, hentity, hquery⟩ := (mem_queries_write_iff hdata).1 h
      refine ⟨entity, (changed_write hdata).symm ▸ hentity, ?_⟩
      exact (mem_dependentsOf_write_iff hdata).2 (Or.inl hquery)

theorem exists_dependsOn_of_mem_queries_writeEntities {store : Store} {query : QueryKey}
    {origin : Option QueryKey} {entities : Snapshots}
    (h : query ∈ (store.writeEntities origin entities).1.queries) :
    ∃ entity ∈ (store.writeEntities origin entities).1.changed,
      query ∈ (store.writeEntities origin entities).2.dependentsOf entity :=
  (mem_queries_invalidation_iff.1 h).2

end Store

/-! ### What keeps observers informed -/

namespace Cache

/-- One entry has been written, and nothing else that observers are told of. -/
def Writes (cache : Cache) (entry : Entry) (next : Cache) : Prop :=
  ∃ earlier notes, next.journal = earlier ++ entry :: notes ∧
    earlier.flatMap Entry.events = cache.events ∧ ∀ note ∈ notes, note.isProgress = true

/-- Observers know of all cells, and each time that they were told of a query that has to run
again was one of some moments, at which it was announced. -/
structure Faithful (moments : Cache → Prop) (cache : Cache) : Prop where
  reflected : ∀ key, Event.Reflects key (lastTold key cache.events) (cache.store.state? key)
  announced : ∀ before query cause after,
    cache.events = before ++ .queryInvalidated query cause :: after →
      ∃ moment, moments moment ∧ moment.Announces before query cause

variable {cache next : Cache} {moments : Cache → Prop} {entry : Entry}

theorem Writes.events (h : cache.Writes entry next) :
    next.events = cache.events ++ entry.events := by
  obtain ⟨earlier, notes, hjournal, hearlier, hnotes⟩ := h
  rw [Cache.events, hjournal, List.flatMap_append, List.flatMap_cons, hearlier,
    Entry.flatMap_events_of_isProgress hnotes, List.append_nil]

theorem faithful_empty : Faithful moments empty where
  reflected _ := .unknown
  announced before query cause after h := by simp [Cache.events, empty] at h

theorem Faithful.mono {moments' : Cache → Prop} (h : Faithful moments cache)
    (hmoments : ∀ moment, moments moment → moments' moment) : Faithful moments' cache := by
  refine ⟨h.reflected, fun before query cause after heq => ?_⟩
  obtain ⟨moment, hmoment, hannounces⟩ := h.announced before query cause after heq
  exact ⟨moment, hmoments moment hmoment, hannounces⟩

theorem Faithful.of_silent (h : Faithful moments cache)
    (hstore : next.store = cache.store) (hevents : next.events = cache.events) :
    Faithful moments next :=
  ⟨hstore ▸ hevents ▸ h.reflected, hevents ▸ h.announced⟩

theorem Faithful.note (h : Faithful moments cache) (hentry : entry.events = []) :
    Faithful moments (cache.note entry) := by
  refine h.of_silent rfl ?_
  rw [events_append rfl, List.flatMap_singleton, hentry, List.append_nil]

/-- What has been told before stays announced, and so is what the entry tells. -/
theorem Faithful.announced_of_writes (h : Faithful moments cache)
    (hwrites : cache.Writes entry next)
    (hentry : ∀ before query cause after,
      entry.events = before ++ .queryInvalidated query cause :: after →
        ∃ moment, moments moment ∧ moment.Announces (cache.events ++ before) query cause) :
    ∀ before query cause after,
      next.events = before ++ .queryInvalidated query cause :: after →
        ∃ moment, moments moment ∧ moment.Announces before query cause := by
  intro before query cause after heq
  rw [hwrites.events] at heq
  rcases split_append heq with ⟨rest, hbefore⟩ | ⟨rest, rfl, hrest⟩
  · exact h.announced before query cause rest hbefore
  · exact hentry rest query cause after hrest

/-- The outcome of a query is stored. -/
theorem Faithful.wrote (h : Faithful moments cache) {key : QueryKey}
    {outcome : Except Failure Json} {count : Nat} {invalidation : Invalidation}
    (hwrites : cache.Writes (.wrote key (.ofOutcome outcome) count invalidation) next)
    (hmoment : moments next)
    (hstate : ∀ other, next.store.state? other =
      if other = key then some (.ofOutcome outcome) else cache.store.state? other)
    (hdepends : ∀ query ∈ invalidation.queries, ∃ entity ∈ invalidation.changed,
      query ∈ next.store.dependentsOf entity) : Faithful moments next := by
  refine ⟨fun other => ?_, h.announced_of_writes hwrites ?_⟩
  · rw [hwrites.events, hstate]
    split
    · subst other
      exact reflects_wrote key outcome count invalidation cache.events
    · rw [lastTold_append_of_untold]
      · exact h.reflected other
      · exact fun event hevent htold =>
          ‹¬ other = key› (Entry.eq_of_told?_of_mem_wrote hevent htold)
  · intro before query cause after hsplit
    obtain ⟨earlier, notes, hjournal, hearlier, hnotes⟩ := hwrites
    cases outcome with
    | ok data =>
        have hevents : (Entry.wrote key (.ready data) count invalidation).events =
            (some key).toList.map .queryWritten ++
              Entry.invalidationEvents (some key) invalidation := rfl
        refine ⟨next, hmoment, ?_⟩
        rw [← hearlier]
        exact announces_of_write hjournal hnotes hevents hdepends hsplit
    | error failure =>
        have hmem : .queryInvalidated query cause ∈
            (Entry.wrote key (.failed failure) count invalidation).events :=
          hsplit.symm ▸ List.mem_append_right _ List.mem_cons_self
        simp [Entry.events_wrote_failed] at hmem

/-- Entities are stored that are no result of a query. -/
theorem Faithful.wroteEntities (h : Faithful moments cache) {count : Nat}
    {invalidation : Invalidation}
    (hwrites : cache.Writes (.wroteEntities none count invalidation) next)
    (hmoment : moments next)
    (hstate : ∀ key, next.store.state? key = cache.store.state? key)
    (hdepends : ∀ query ∈ invalidation.queries, ∃ entity ∈ invalidation.changed,
      query ∈ next.store.dependentsOf entity) : Faithful moments next := by
  refine ⟨fun key => ?_, h.announced_of_writes hwrites ?_⟩
  · rw [hwrites.events, hstate, lastTold_append_of_untold]
    · exact h.reflected key
    · intro event hevent
      simp [Entry.told?_of_mem_invalidationEvents hevent]
  · intro before query cause after hsplit
    obtain ⟨earlier, notes, hjournal, hearlier, hnotes⟩ := hwrites
    have hevents : (Entry.wroteEntities none count invalidation).events =
        (none : Option QueryKey).toList.map .queryWritten ++
          Entry.invalidationEvents none invalidation := rfl
    refine ⟨next, hmoment, ?_⟩
    rw [← hearlier]
    exact announces_of_write hjournal hnotes hevents hdepends hsplit

/-- A query is taken out. Observers are told so exactly if it was there. -/
theorem Faithful.evict (h : Faithful moments cache) (key : QueryKey) :
    Faithful moments (cache.evict key).2 := by
  cases hexisted : (cache.store.evict key).1 with
  | false =>
      have hevents : (cache.evict key).2.events = cache.events := by
        simp [Cache.evict, hexisted, Cache.events]
      refine ⟨fun other => ?_, hevents ▸ h.announced⟩
      rw [hevents, store_evict, Store.state?_evict]
      split
      · subst other
        have hmissing : cache.store.state? key = none := by
          rw [Store.state?, Option.map_eq_none_iff]
          exact Option.isNone_iff_eq_none.1 (Option.isSome_eq_false_iff.1 hexisted)
        exact hmissing ▸ h.reflected key
      · exact h.reflected other
  | true =>
      have hwrites : cache.Writes (.evicted key) (cache.evict key).2 := by
        refine ⟨cache.journal, [], ?_, rfl, List.forall_mem_nil _⟩
        simp [Cache.evict, hexisted, Cache.note]
      refine ⟨fun other => ?_, h.announced_of_writes hwrites ?_⟩
      · rw [hwrites.events, store_evict, Store.state?_evict]
        split
        · subst other
          rw [Entry.events, lastTold_concat _ rfl]
          exact .evicted
        · rw [lastTold_append_of_untold]
          · exact h.reflected other
          · intro event hevent htold
            obtain rfl := List.mem_singleton.1 hevent
            exact ‹¬ other = key› (Option.some.inj htold).symm
      · intro before query cause after hsplit
        have hmem : .queryInvalidated query cause ∈ (Entry.evicted key).events :=
          hsplit.symm ▸ List.mem_append_right _ List.mem_cons_self
        simp [Entry.events] at hmem

end Cache

namespace Session

variable {σ : Type} {settings : Settings} {backend : Backend σ} {session next : Session σ}
  {moments : Cache → Prop}

theorem Noted.faithful (h : Noted session next) (hsession : session.cache.Faithful moments) :
    next.cache.Faithful moments :=
  hsession.of_silent h.store h.events

theorem Executed.faithful {prepared : Prepared} {invalidation : Invalidation}
    (h : Executed settings backend prepared session invalidation next)
    (hindexed : session.cache.store.Indexed) (hsession : session.cache.Faithful moments)
    (hmoment : moments next.cache) : next.cache.Faithful moments := by
  obtain ⟨before, after, count, hjournal, hbefore, hafter⟩ := h.journal
  have hearlier : (session.cache.journal ++ .executed prepared.key :: before).flatMap
      Entry.events = session.cache.events := by
    rw [List.flatMap_append, List.flatMap_cons, Entry.flatMap_events_of_isProgress hbefore]
    exact List.append_nil _
  refine hsession.wrote ⟨_, after, hjournal, hearlier, hafter⟩ hmoment ?_ ?_
  · intro other
    rw [h.store, Store.state?_write (hindexed.awaiting prepared)]
    split
    · rfl
    · exact Store.state?_awaiting_of_ne hindexed prepared ‹_›
  · intro query hquery
    rw [h.invalidation_eq] at hquery ⊢
    rw [h.store]
    exact Store.exists_dependsOn_of_mem_queries_write hquery

/-- What a call does first. -/
theorem Opens.faithful {client : Client σ} {call : Call σ} {work : WorkList σ}
    (h : Opens settings backend client call work)
    (hindexed : client.session.cache.store.Indexed)
    (hclient : client.session.cache.Faithful moments) (hmoment : moments work.session.cache) :
    work.session.cache.Faithful moments := by
  cases h with
  | noted hnoted => exact hnoted.faithful hclient
  | @fresh _ prepared start _ _ _ hnoted hdone =>
      have hstart : start.cache.Faithful moments := hnoted.faithful hclient
      have hbegun : (start.note (.executed prepared.key)).cache.Faithful moments :=
        hstart.note rfl
      exact hdone.faithful hbegun
  | @executed _ prepared start next _ _ hnoted hexecuted =>
      have hstart : start.cache.Faithful moments := hnoted.faithful hclient
      have hstore : start.cache.store = client.session.cache.store := hnoted.store
      exact hexecuted.faithful (hstore ▸ hindexed) hstart hmoment
  | @absorbed _ start next entities invalidation _ hnoted hstore hreported _ hjournal =>
      obtain ⟨count, after, hjournal, hafter⟩ := hjournal
      have hstart := hnoted.faithful hclient
      refine hstart.wroteEntities ⟨_, after, hjournal, rfl, hafter⟩ hmoment ?_ ?_
      · intro key
        rw [hstore]
        rfl
      · intro query hquery
        rw [hreported] at hquery ⊢
        rw [hstore]
        exact Store.exists_dependsOn_of_mem_queries_writeEntities hquery
  | @replaced _ held data next invalidation _ _ hstore hreported _ hjournal =>
      obtain ⟨count, hjournal⟩ := hjournal
      have hwrites : client.session.cache.Writes
          (.wrote held.key (.ofOutcome (.ok data)) count invalidation) next.cache :=
        ⟨_, [], hjournal, rfl, List.forall_mem_nil _⟩
      refine hclient.wrote hwrites hmoment ?_ ?_
      · intro other
        rw [hstore, Store.state?_write hindexed]
        rfl
      · intro query hquery
        rw [hreported] at hquery ⊢
        rw [hstore]
        exact Store.exists_dependsOn_of_mem_queries_write hquery

end Session

theorem WorkList.Turns.faithful {σ : Type} {settings : Settings} {backend : Backend σ}
    {work next : WorkList σ} (h : Turns settings backend work next)
    (hbackend : backend.Ordered) (hsound : work.session.Sound) {moments : Cache → Prop}
    (hwork : work.session.cache.Faithful moments)
    (hmoments : ∀ next, Turns settings backend work next → moments next.session.cache) :
    next.session.cache.Faithful moments := by
  induction h with
  | refl => exact hwork
  | @tail middle last hturns hturn ih =>
      have hmiddle := Turns.sound hturns hbackend hsound
      have hmoment := hmoments last (hturns.tail hturn)
      obtain ⟨rerun, rest, -, -, ⟨-, rfl⟩ | ⟨prepared, invalidation, session, -, hexecuted,
        rfl⟩⟩ := turn_cases hturn
      · exact ih.note rfl
      · exact hexecuted.faithful hmiddle.store.indexed ih hmoment

theorem WorkList.Ends.faithful {σ : Type} {settings : Settings} {backend : Backend σ}
    {start : WorkList σ} {out : Except Failure Unit × Session σ}
    (h : Ends settings backend start out) (hbackend : backend.Ordered)
    (hsound : start.session.Sound) {moments : Cache → Prop}
    (hstart : start.session.cache.Faithful moments)
    (hmoments : ∀ next, Turns settings backend start next → moments next.session.cache) :
    out.2.cache.Faithful moments := by
  cases h with
  | finished hturns => exact hturns.faithful hbackend hsound hstart hmoments
  | blocked hturns _ => exact (hturns.faithful hbackend hsound hstart hmoments).note rfl

/-! ### Runs -/

namespace Client

variable {σ : Type} {settings : Settings} {backend : Backend σ} {client : Client σ}
  {call : Call σ}

/-- A call passes through a session: right after the write that it makes itself, or after one
of the re-runs that follow. -/
def Passes (settings : Settings) (backend : Backend σ) (call : Call σ) (client : Client σ)
    (moment : Session σ) : Prop :=
  ∃ work next, client.Begins settings backend call work ∧
    WorkList.Turns settings backend work next ∧ moment = next.session

theorem faithful_perform (hbackend : backend.Ordered) (hcall : call.Ordered)
    (hsound : client.session.Sound) {moments : Cache → Prop}
    (hmoments : ∀ moment, client.Passes settings backend call moment → moments moment.cache)
    (hclient : client.session.cache.Faithful moments) :
    (client.perform settings backend call).2.session.cache.Faithful moments := by
  rcases begins_or_noted settings backend client hcall with ⟨key, rfl⟩ | hnoted | ⟨work, hbegins⟩
  · exact hclient.evict key
  · exact hnoted.faithful hclient
  · have hpassed : ∀ next, WorkList.Turns settings backend work next →
        moments next.session.cache :=
      fun next hturns => hmoments _ ⟨work, next, hbegins, hturns, rfl⟩
    cases hbegins with
    | @mk origin invalidation start outcome hpropagates hends =>
        have hstart := hpropagates.sound hbackend hsound
        obtain ⟨other, hopens⟩ := hpropagates.opens hbackend
        have hopened := hopens.faithful hsound.store.indexed hclient (hpassed _ .refl)
        exact hends.faithful hbackend hstart hopened hpassed

theorem performAll_append (settings : Settings) (backend : Backend σ)
    (calls more : List (Call σ)) (done : List Made × Client σ) :
    performAll settings backend (calls ++ more) done =
      performAll settings backend more (performAll settings backend calls done) := by
  induction calls generalizing done with
  | nil => rfl
  | cons call calls ih => exact ih _

/-- A session that one of the calls passes through. -/
def PassedBy (settings : Settings) (backend : Backend σ) (calls : List (Call σ))
    (client : Client σ) (moment : Cache) : Prop :=
  ∃ done call left session, calls = done ++ call :: left ∧
    (performAll settings backend done ([], client)).2.Passes settings backend call session ∧
    moment = session.cache

/-- After any calls observers know of every cell, and whenever they were told that a query has
to run again, they had been told why. -/
theorem faithful_performAll (hbackend : backend.Ordered) {calls : List (Call σ)}
    (hcalls : ∀ call ∈ calls, call.Ordered) (world : σ) :
    (performAll settings backend calls ([], .start world)).2.session.cache.Faithful
      ((start world).PassedBy settings backend calls) := by
  induction calls using List.reverseRecOn with
  | nil => exact Cache.faithful_empty
  | append_singleton calls call ih =>
      obtain ⟨hcalls, hcall⟩ := List.forall_mem_append.1 hcalls
      have hcall : call.Ordered := hcall call (List.mem_singleton_self _)
      have hrun : Run settings backend _ _ := Run.performAll hcalls (.start world)
      rw [performAll_append]
      refine faithful_perform hbackend hcall (hrun.sound hbackend) ?_ ((ih hcalls).mono ?_)
      · intro session hpasses
        exact ⟨calls, call, [], session, rfl, hpasses, rfl⟩
      · rintro moment ⟨done, earlier, left, session, rfl, hpasses, rfl⟩
        exact ⟨done, earlier, left ++ [call], session, by simp, hpasses, rfl⟩

/-- The events are a replica of the cells. After any calls a query has a cell exactly if there
is an event on its cell and the last one is no eviction. The state in the cell is ready if that
event says that data were written, and failed if it says that the query has failed. An event
that a query has to run again stands behind those of its write: that its cause was written, if
it has one, and that an entity has changed on which the query depends at that moment. -/
theorem events_faithful (hbackend : backend.Ordered) {calls : List (Call σ)}
    (hcalls : ∀ call ∈ calls, call.Ordered) (world : σ) :
    let client := (performAll settings backend calls ([], .start world)).2
    (∀ key, (client.session.cache.store.IsCached key ↔
        ∃ event, lastTold key client.session.cache.events = some event ∧
          event ≠ .queryEvicted key) ∧
      (lastTold key client.session.cache.events = some (.queryWritten key) →
        ∃ data, client.session.cache.store.state? key = some (.ready data)) ∧
      (lastTold key client.session.cache.events = some (.queryFailed key) →
        ∃ failure, client.session.cache.store.state? key = some (.failed failure))) ∧
    ∀ before query cause after,
      client.session.cache.events = before ++ .queryInvalidated query cause :: after →
        ∃ done call left moment, calls = done ++ call :: left ∧
          (performAll settings backend done ([], .start world)).2.Passes settings backend call
            moment ∧
          moment.cache.Announces before query cause := by
  intro client
  have hfaithful : client.session.cache.Faithful ((start world).PassedBy settings backend calls) :=
    faithful_performAll hbackend hcalls world
  constructor
  · intro key
    rw [Store.IsCached, ← Store.state?_isSome_iff]
    have hreflects := hfaithful.reflected key
    generalize lastTold key client.session.cache.events = told at hreflects ⊢
    generalize client.session.cache.store.state? key = state at hreflects ⊢
    cases hreflects <;> simp
  · intro before query cause after heq
    obtain ⟨moment, ⟨done, call, left, session, hcalls, hpasses, rfl⟩, hannounces⟩ :=
      hfaithful.announced before query cause after heq
    exact ⟨done, call, left, session, hcalls, hpasses, hannounces⟩

end Client

/-- Two queries for the name of a user are cached. The user is renamed, the first query is
fetched again, so the second has to run again, and then the first is evicted. -/
theorem events_faithful_of_renamed_user :
    let calls : List (Call (List (String × String))) :=
      [.query (.onUser "name") [], .query (.onUser "nameAgain") [], .elapse [("name", "Bo")],
        .refetch (.onUser "name") [], .evict (.onUser "name")]
    let after := fun calls : List (Call (List (String × String))) =>
      (Client.performAll .standard userServer calls ([], .start [("name", "Al")])).2
    let cache := (after calls).session.cache
    userServer.Ordered ∧ (∀ call ∈ calls, call.Ordered) ∧
      cache.events = [.queryWritten (.onUser "name"), .queryWritten (.onUser "nameAgain"),
        .queryWritten (.onUser "name"), .entityChanged ⟨"User-1"⟩,
        .queryInvalidated (.onUser "nameAgain") (some (.onUser "name")),
        .queryWritten (.onUser "nameAgain"), .queryEvicted (.onUser "name")] ∧
      (∀ key, (cache.store.IsCached key ↔
          ∃ event, lastTold key cache.events = some event ∧ event ≠ .queryEvicted key) ∧
        (lastTold key cache.events = some (.queryWritten key) →
          ∃ data, cache.store.state? key = some (.ready data)) ∧
        (lastTold key cache.events = some (.queryFailed key) →
          ∃ failure, cache.store.state? key = some (.failed failure))) ∧
      ∃ done call left moment, calls = done ++ call :: left ∧
        (after done).Passes .standard userServer call moment ∧
        moment.cache.Announces [.queryWritten (.onUser "name"),
          .queryWritten (.onUser "nameAgain"), .queryWritten (.onUser "name"),
          .entityChanged ⟨"User-1"⟩] (.onUser "nameAgain") (some (.onUser "name")) := by
  intro calls after cache
  have hcalls : ∀ call ∈ calls, call.Ordered := by
    simp [calls, Call.Ordered, Json.Ordered, Json.OrderedMembers, Table.sorted_nil]
  have hevents : cache.events = [.queryWritten (.onUser "name"),
      .queryWritten (.onUser "nameAgain"), .queryWritten (.onUser "name"),
      .entityChanged ⟨"User-1"⟩,
      .queryInvalidated (.onUser "nameAgain") (some (.onUser "name")),
      .queryWritten (.onUser "nameAgain"), .queryEvicted (.onUser "name")] := by
    decide +kernel
  obtain ⟨hcells, hannounced⟩ :=
    Client.events_faithful ordered_userServer hcalls [("name", "Al")]
  exact ⟨ordered_userServer, hcalls, hevents, hcells, hannounced _ _ _ _ hevents⟩

end QueryCache
