import QueryCache.Proofs.Client.GivenUp
import QueryCache.Proofs.Client.Returned
import QueryCache.Proofs.Store.Compatible

/-!
# A server that never contradicts itself

While all data that a client has written are compatible, its snapshots are compatible
with whatever comes next, since each of their fields stems from one of these data. A
call then reports nothing, so no query runs again: `Client.quiet_of_compatible`. What a
call writes is read off the journal, apart from the payload of a mutation, of which the
journal keeps the count alone.
-/

namespace QueryCache

namespace Entry

/-- The data of a result that was stored. -/
def data? : Entry → Option Json
  | wrote _ state _ _ => state.data
  | _ => none

/-- The entries of a call that runs no query again. -/
structure Quiet (own : Option QueryKey) (entries : List Entry) : Prop where
  /-- No write has reported anything. -/
  unreported : ∀ entry ∈ entries, ∀ invalidation, entry.invalidation? = some invalidation →
    invalidation = .none
  /-- No query has had its turn but the call's own. -/
  attempted : entries.filterMap attempted? = own.toList
  /-- One request was sent at most. -/
  asked : (entries.filterMap request?).length ≤ 1
  /-- Observers are told of no change of an entity. -/
  unchanged : ∀ entity, .entityChanged entity ∉ entries.flatMap events
  /-- Observers are told of no query that has to run again. -/
  valid : ∀ query cause, .queryInvalidated query cause ∉ entries.flatMap events

theorem invalidationEvents_none (origin : Option QueryKey) :
    invalidationEvents origin .none = [] := rfl

/-- An entry that reports nothing gives no event on other queries. -/
theorem not_mem_events_of_unreported {entry : Entry}
    (h : ∀ invalidation, entry.invalidation? = some invalidation → invalidation = .none) :
    (∀ entity, .entityChanged entity ∉ entry.events) ∧
      ∀ query cause, .queryInvalidated query cause ∉ entry.events := by
  cases entry with
  | wrote key state count invalidation =>
      obtain rfl := h invalidation rfl
      rw [events, invalidationEvents_none]
      split
      · simp
      · split <;> simp
  | wroteEntities origin count invalidation =>
      obtain rfl := h invalidation rfl
      simp [events, invalidationEvents_none]
  | _ => simp [events]

theorem filterMap_data_of_isProgress {entries : List Entry}
    (h : ∀ entry ∈ entries, entry.isProgress = true) : entries.filterMap data? = [] := by
  refine List.filterMap_eq_nil_iff.2 fun entry hentry => ?_
  have hprogress := h entry hentry
  cases entry <;> simp_all [isProgress, data?]

/-- A single write among other entries, which reports nothing. -/
theorem unreported_of_write {before after : List Entry} {entry : Entry}
    (hbefore : ∀ entry ∈ before, entry.invalidation? = none)
    (hafter : ∀ entry ∈ after, entry.isProgress = true)
    (hentry : entry.invalidation? = some .none) :
    ∀ other ∈ before ++ entry :: after, ∀ invalidation,
      other.invalidation? = some invalidation → invalidation = .none := by
  intro other hother invalidation hinvalidation
  rcases List.mem_append.1 hother with hother | hother
  · cases (hbefore other hother).symm.trans hinvalidation
  · rcases List.mem_cons.1 hother with rfl | hother
    · cases hentry.symm.trans hinvalidation
      rfl
    · cases (invalidation?_of_isProgress hafter other hother).symm.trans hinvalidation

theorem filterMap_data_of_executed {before after : List Entry}
    (hbefore : ∀ entry ∈ before, entry.isProgress = true)
    (hafter : ∀ entry ∈ after, entry.isProgress = true) (key : QueryKey) (state : QueryState)
    (count : Nat) (invalidation : Invalidation) :
    (.executed key :: before ++ .wrote key state count invalidation :: after).filterMap
      data? = state.data.toList := by
  rw [List.filterMap_append, List.filterMap_cons_none rfl,
    filterMap_data_of_isProgress hbefore, List.nil_append]
  cases hdata : state.data <;>
    simp [data?, hdata, filterMap_data_of_isProgress hafter]

theorem Quiet.of_unreported {own : Option QueryKey} {entries : List Entry}
    (hunreported : ∀ entry ∈ entries, ∀ invalidation,
      entry.invalidation? = some invalidation → invalidation = .none)
    (hattempted : entries.filterMap attempted? = own.toList)
    (hasked : (entries.filterMap request?).length ≤ 1) : Quiet own entries := by
  refine ⟨hunreported, hattempted, hasked, fun entity hevent => ?_, fun query cause hevent => ?_⟩
  · obtain ⟨entry, hentry, hevent⟩ := List.mem_flatMap.1 hevent
    exact (not_mem_events_of_unreported (hunreported entry hentry)).1 entity hevent
  · obtain ⟨entry, hentry, hevent⟩ := List.mem_flatMap.1 hevent
    exact (not_mem_events_of_unreported (hunreported entry hentry)).2 query cause hevent

end Entry

namespace Session

variable {σ : Type} {settings : Settings} {backend : Backend σ}

/-! ### What is stored -/

/-- The data of the results that were stored from one session to another. -/
def stored (session next : Session σ) : List Json :=
  (next.cache.journal.drop session.cache.journal.length).filterMap Entry.data?

theorem stored_eq {session next : Session σ} {entries : List Entry}
    (h : next.cache.journal = session.cache.journal ++ entries) :
    session.stored next = entries.filterMap Entry.data? := by
  rw [stored, h, List.drop_left]

theorem mem_stored_of_prefix {session next last : Session σ} {entries : List Entry}
    (hnext : next.cache.journal = session.cache.journal ++ entries)
    (h : next.cache.journal <+: last.cache.journal) {datum : Json}
    (hdatum : datum ∈ entries.filterMap Entry.data?) : datum ∈ session.stored last := by
  obtain ⟨more, hlast⟩ := h
  rw [hnext, List.append_assoc] at hlast
  rw [stored_eq hlast.symm, List.filterMap_append]
  exact List.mem_append_left _ hdatum

end Session

/-! ### One call -/

/-- The query that a call executes itself. -/
def Call.own? {σ : Type} (settings : Settings) : Call σ → Option QueryKey
  | query source vars => (source.prepared? settings vars).map Prepared.key
  | refetch source vars => (source.prepared? settings vars).map Prepared.key
  | _ => none

namespace Session

variable {σ : Type} {settings : Settings} {backend : Backend σ}

/-- From one session to another no query has run again, and the snapshots stem from the
data. -/
structure Calm (identity : Identity) (own : Option QueryKey) (data : List Json)
    (session next : Session σ) : Prop where
  gains : ∃ entries, next.cache.journal = session.cache.journal ++ entries ∧
    Entry.Quiet own entries
  stems : next.cache.store.Stems identity data

variable {identity : Identity} {own : Option QueryKey} {data : List Json}
  {session next : Session σ}

theorem Calm.of_unreported {entries : List Entry}
    (hjournal : next.cache.journal = session.cache.journal ++ entries)
    (hunreported : ∀ entry ∈ entries, ∀ invalidation,
      entry.invalidation? = some invalidation → invalidation = .none)
    (hattempted : entries.filterMap Entry.attempted? = own.toList)
    (hrequests : next.requests.length ≤ session.requests.length + 1)
    (hstems : next.cache.store.Stems identity data) : Calm identity own data session next := by
  refine ⟨⟨entries, hjournal, .of_unreported hunreported hattempted ?_⟩, hstems⟩
  rw [requests_append hjournal, List.length_append] at hrequests
  omega

theorem Noted.calm (h : Noted session next)
    (hrequests : next.requests.length ≤ session.requests.length + 1)
    (hstems : session.cache.store.Stems identity data) :
    Calm identity none data session next := by
  obtain ⟨entries, hjournal, hentries⟩ := h.journal
  refine .of_unreported hjournal ?_ (Entry.filterMap_attempted_of_isProgress hentries)
    hrequests (h.store ▸ hstems)
  intro entry hentry invalidation hinvalidation
  cases (Entry.invalidation?_of_isProgress hentries entry hentry).symm.trans hinvalidation

theorem calm_refl (hstems : session.cache.store.Stems identity data) :
    Calm identity none data session session :=
  (Noted.refl session).calm (Nat.le_succ _) hstems

/-! ### Executions -/

/-- A result that is compatible with all data before it reports nothing, and neither does
a failure. -/
theorem Executed.calm {prepared : Prepared} {invalidation : Invalidation}
    (h : Executed settings backend prepared session invalidation next)
    (hbackend : backend.Ordered) (hprepared : prepared.Ordered) (hsound : session.Sound)
    (hstems : session.cache.store.Stems settings.identity data) {new : List Json}
    (hnew : ∀ datum, (backend.result prepared session.world).1 = .ok datum → datum ∈ new)
    (hdata : ∀ datum ∈ new, ∀ other ∈ data, other.Compatible settings.identity datum) :
    invalidation = .none ∧ next.cache.store.Stems settings.identity (data ++ new) := by
  have hstore := h.store
  have hreported := h.invalidation_eq
  have hawaiting := hsound.store.awaiting prepared
  have hstart : (session.cache.store.awaiting prepared).Stems settings.identity data :=
    hstems.of_snapshots fun entity value hvalue => by
      rwa [Store.snapshot?_awaiting] at hvalue
  cases houtcome : (backend.result prepared session.world).1 with
  | error failure =>
      rw [houtcome] at hstore hreported
      constructor
      · rw [hreported]
        exact congrArg Prod.fst (Store.write_of_none rfl _)
      · rw [hstore]
        exact (hstart.write_of_none rfl _ _).mono fun _ => List.mem_append_left _
  | ok datum =>
      rw [houtcome] at hstore hreported
      have hordered : datum.Ordered := Backend.ordered_result hbackend hprepared houtcome
      have hmem := hnew datum houtcome
      constructor
      · rw [hreported]
        exact hstart.invalidation_write hawaiting hordered (hdata datum hmem) prepared.key
      · rw [hstore]
        refine (hstart.write hawaiting hordered prepared.key).mono ?_
        exact List.forall_mem_append.2 ⟨fun _ => List.mem_append_left _,
          List.forall_mem_singleton.2 (List.mem_append_right _ hmem)⟩

theorem calm_carryOut {prepared : Prepared} (force : Bool)
    (hprepared : prepared.Ordered) (hbackend : backend.Ordered) (hsound : session.Sound)
    (hstems : session.cache.store.Stems settings.identity data) {new : List Json}
    (hnew : ∀ entries, (session.carryOut settings backend prepared force).2.cache.journal =
      session.cache.journal ++ entries → ∀ datum ∈ entries.filterMap Entry.data?, datum ∈ new)
    (hdata : ∀ datum ∈ new, ∀ other ∈ data, other.Compatible settings.identity datum) :
    (session.carryOut settings backend prepared force).1 = .none ∧
      Calm settings.identity (some prepared.key) (data ++ new) session
        (session.carryOut settings backend prepared force).2 := by
  have hrequests := length_requests_carryOut_le settings backend prepared force session
  rcases executed_or_fresh settings backend prepared force session with hexecuted | ⟨-, heq⟩
  · obtain ⟨before, after, count, hjournal, hbefore, hafter⟩ := hexecuted.journal
    rw [List.append_assoc] at hjournal
    have hstored := hnew _ hjournal
    rw [Entry.filterMap_data_of_executed hbefore hafter] at hstored
    have hresult : ∀ datum, (backend.result prepared session.world).1 = .ok datum →
        datum ∈ new := by
      intro datum hdatum
      rw [hdatum] at hstored
      exact hstored datum (List.mem_singleton_self _)
    obtain ⟨hnone, hnext⟩ := hexecuted.calm hbackend hprepared hsound hstems hresult hdata
    rw [hnone] at hjournal
    have hsilent : ∀ entry ∈ .executed prepared.key :: before, entry.invalidation? = none :=
      Entry.invalidation?_of_executed (List.forall_mem_nil _) hbefore
    exact ⟨hnone, .of_unreported hjournal (Entry.unreported_of_write hsilent hafter rfl)
      (Entry.filterMap_attempted_of_executed hbefore hafter _ _ _ _) hrequests hnext⟩
  · have hjournal : (session.carryOut settings backend prepared force).2.cache.journal =
        session.cache.journal ++ [.executed prepared.key,
          .advanced prepared.label .idle .parsing, .advanced prepared.label .parsing .done] := by
      simp [heq, started, advance, note, Cache.note]
    have hstore : (session.carryOut settings backend prepared force).2.cache.store =
        session.cache.store := by
      rw [heq]
      rfl
    refine ⟨congrArg Prod.fst heq, .of_unreported hjournal ?_ rfl hrequests ?_⟩
    · simp [Entry.invalidation?]
    · exact hstore ▸ hstems.mono fun _ => List.mem_append_left _

/-- What is noted before a calm step is calm too. -/
theorem Calm.prepend {start : Session σ} (h : Calm identity own data start next)
    {entry : Entry} (hjournal : start.cache.journal = session.cache.journal ++ [entry])
    (hentry : entry.isProgress = true) (hsent : entry.request? = none) :
    Calm identity own data session next := by
  obtain ⟨⟨entries, hnext, hquiet⟩, hstems⟩ := h
  have hprogress : ∀ other ∈ [entry], other.isProgress = true :=
    List.forall_mem_singleton.2 hentry
  rw [hjournal, List.append_assoc, List.singleton_append] at hnext
  refine .of_unreported hnext ?_ ?_ ?_ hstems
  · refine List.forall_mem_cons.2 ⟨fun invalidation hinvalidation => ?_, hquiet.unreported⟩
    have hnone := Entry.invalidation?_of_isProgress hprogress entry List.mem_cons_self
    cases hnone.symm.trans hinvalidation
  · have hattempted := Entry.filterMap_attempted_of_isProgress hprogress
    rw [← List.singleton_append, List.filterMap_append, hattempted, hquiet.attempted]
    rfl
  · rw [requests_append hnext, List.filterMap_cons_none hsent, List.length_append]
    exact Nat.add_le_add_left hquiet.asked _

/-- A query whose result is compatible with all data before it runs no other query. -/
theorem calm_run {source : QuerySource} {vars : Variables} (force : Bool)
    (hvars : Json.Ordered (.object vars)) (hbackend : backend.Ordered)
    (hsound : session.Sound) (hstems : session.cache.store.Stems settings.identity data)
    (hdata : ∀ datum ∈ session.stored (session.run settings backend source vars force).2,
      ∀ other ∈ data, other.Compatible settings.identity datum) :
    Calm settings.identity ((source.prepared? settings vars).map Prepared.key)
        (data ++ session.stored (session.run settings backend source vars force).2) session
        (session.run settings backend source vars force).2 ∧
      ∀ cycle, (session.run settings backend source vars force).1 ≠ .error (.cyclic cycle) := by
  rcases prepare_cases settings source vars session with
    ⟨fault, hprepare⟩ | ⟨prepared, document, hprepare, hdocument⟩
  · have hrun : session.run settings backend source vars force =
        (.error (.query fault), session) := by
      rw [run, hprepare]
    rw [prepared?_of_refused hprepare, hrun]
    exact ⟨calm_refl (hstems.mono fun _ => List.mem_append_left _), fun cycle => by simp⟩
  · have hordered : prepared.Ordered := Prepared.ordered_ofDocument hvars hdocument
    have hends : WorkList.Ends settings backend _ _ := ends_run force hprepare
    have hprefix := hends.journal_prefix
    rw [prepared?_of_prepare hprepare]
    have hsplit : (session.note (.split prepared.split.foundLocal
        prepared.split.sendToServer)).Sound := hsound.note _
    generalize hstart : session.note (.split prepared.split.foundLocal
      prepared.split.sendToServer) = start at hprepare hends hprefix hsplit
    have hnoted : (start.register prepared).cache.journal = session.cache.journal ++
        [.split prepared.split.foundLocal prepared.split.sendToServer] := by
      rw [← hstart]
      rfl
    have hstore : start.cache.store = session.cache.store := by
      rw [← hstart]
      rfl
    have hbegin : (start.register prepared).cache.store.Stems settings.identity data :=
      hstore ▸ hstems
    have hstored : ∀ entries,
        ((start.register prepared).carryOut settings backend prepared force).2.cache.journal =
          (start.register prepared).cache.journal ++ entries →
        ∀ datum ∈ entries.filterMap Entry.data?, datum ∈ session.stored
          (session.run settings backend source vars force).2 := by
      intro entries hjournal datum hdatum
      rw [hnoted, List.append_assoc] at hjournal
      exact mem_stored_of_prefix hjournal hprefix hdatum
    obtain ⟨hnone, hcalm⟩ := calm_carryOut force hordered hbackend (hsplit.register hordered)
      hbegin hstored hdata
    obtain ⟨handle, hrun, -⟩ := run_of_unreported hprepare hnone
    rw [hrun] at hcalm ⊢
    exact ⟨hcalm.prepend hnoted rfl rfl, fun cycle hcycle => by cases hcycle⟩

/-! ### Mutations and writes -/

/-- The payload of a mutation, if there is one. -/
def payload? (settings : Settings) (backend : Backend σ) (source : QuerySource)
    (vars : Variables) (session : Session σ) : Option Json :=
  (source.prepared? settings vars).bind fun prepared =>
    (backend.result prepared session.world).1.toOption

theorem calm_absorb {start : Session σ} (hnoted : Noted session start)
    (hrequests : start.requests.length ≤ session.requests.length + 1)
    (hsound : session.Sound) (hstems : session.cache.store.Stems settings.identity data)
    (label : String) {answer : Json × Phase} (hanswer : answer.1.Ordered)
    (hdata : ∀ other ∈ data, other.Compatible settings.identity answer.1) :
    (start.absorb settings label answer).1 = .none ∧
      Calm settings.identity none (data ++ [answer.1]) session
        (start.absorb settings label answer).2 := by
  have hstart : start.cache.store.Stems settings.identity data := hnoted.store ▸ hstems
  have hsound' := (hnoted.sound hsound).store
  have hnone : (start.cache.store.writeEntities none
      (flatten answer.1 settings.identity)).1 = .none :=
    hstart.invalidation_writeEntities hsound' hanswer hdata none
  obtain ⟨entries, hjournal, hentries⟩ := hnoted.journal
  have hcaching : ∀ entry ∈ entries ++ [.advanced label answer.2 .caching],
      entry.isProgress = true :=
    List.forall_mem_append.2 ⟨hentries, List.forall_mem_singleton.2 rfl⟩
  have hdone : ∀ entry ∈ [Entry.advanced label .caching .done], entry.isProgress = true :=
    List.forall_mem_singleton.2 rfl
  have hgained : (start.absorb settings label answer).2.cache.journal =
      session.cache.journal ++ ((entries ++ [.advanced label answer.2 .caching]) ++
        .wroteEntities none (flatten answer.1 settings.identity).length .none ::
          [.advanced label .caching .done]) := by
    rw [← hnone, ← List.append_assoc, ← List.append_assoc, ← hjournal]
    simp [absorb, advance, note, Cache.note, Cache.writeEntities]
  refine ⟨hnone, .of_unreported hgained
    (Entry.unreported_of_write (Entry.invalidation?_of_isProgress hcaching) hdone rfl)
    ?_ ?_ (hstart.writeEntities hsound' hanswer none)⟩
  · rw [List.filterMap_append, Entry.filterMap_attempted_of_isProgress hcaching]
    rfl
  · have hsame : (start.absorb settings label answer).2.requests = start.requests :=
      (requests_advance _ _ _ _).trans ((requests_of_entry rfl rfl).trans
        (requests_advance start label answer.2 .caching))
    rw [hsame]
    exact hrequests

/-- A mutation whose payload is compatible with all data before it runs no query. -/
theorem calm_mutate {source : QuerySource} {vars : Variables}
    (hvars : Json.Ordered (.object vars)) (hbackend : backend.Ordered)
    (hsound : session.Sound) (hstems : session.cache.store.Stems settings.identity data)
    (hdata : ∀ datum ∈ session.payload? settings backend source vars,
      ∀ other ∈ data, other.Compatible settings.identity datum) :
    Calm settings.identity none
        (data ++ (session.payload? settings backend source vars).toList) session
        (session.mutate settings backend source vars).2 ∧
      ∀ cycle, (session.mutate settings backend source vars).1 ≠ .error (.cyclic cycle) := by
  have hmore : ∀ new : List Json,
      session.cache.store.Stems settings.identity (data ++ new) :=
    fun _ => hstems.mono fun _ => List.mem_append_left _
  have hbegin := noted_advance session "mutation" .idle .parsing
  have hbeginRequests := requests_advance session "mutation" .idle .parsing
  rcases prepare_cases settings source vars (session.advance "mutation" .idle .parsing) with
    ⟨fault, hprepare⟩ | ⟨prepared, document, hprepare, hdocument⟩
  · rw [mutate_of_refused hprepare]
    refine ⟨hbegin.calm ?_ (hmore _), fun cycle => by simp⟩
    rw [hbeginRequests]
    exact Nat.le_succ _
  · have hordered : prepared.Ordered := Prepared.ordered_ofDocument hvars hdocument
    generalize hstart : (session.advance "mutation" .idle .parsing).note
      (.split prepared.split.foundLocal prepared.split.sendToServer) = start at hprepare
    have hnoted : Noted session start := hstart ▸ hbegin.trans (noted_note _ rfl)
    have hworld : start.world = session.world := by
      rw [← hstart]
      rfl
    have hrequests : start.requests = session.requests := by
      rw [← hstart]
      exact (requests_of_entry rfl rfl).trans hbeginRequests
    have hpayload : session.payload? settings backend source vars =
        (backend.result prepared start.world).1.toOption := by
      rw [payload?, prepared?_of_prepare hprepare, hworld]
      rfl
    rw [hpayload] at hdata ⊢
    have hanswers := answers_fetchAndResolve backend prepared prepared.label start
    have hsent := length_requests_fetchAndResolve_le backend prepared prepared.label start
    rw [hrequests] at hsent
    rcases hfetch : start.fetchAndResolve backend prepared prepared.label with
      ⟨failure | answer, next⟩
    · rw [hfetch] at hanswers hsent
      rw [mutate_of_failed hprepare hfetch]
      exact ⟨(hnoted.trans hanswers.noted).calm hsent (hmore _), fun cycle => by simp⟩
    · rw [hfetch] at hanswers hsent
      rw [mutate_of_answered hprepare hfetch]
      have hresult : (backend.result prepared start.world).1 = .ok answer.1 :=
        hanswers.outcome.symm
      have hanswer : answer.1.Ordered := Backend.ordered_result hbackend hordered hresult
      rw [hresult] at hdata ⊢
      obtain ⟨hnone, hcalm⟩ := calm_absorb (hnoted.trans hanswers.noted) hsent hsound hstems
        prepared.label hanswer (hdata answer.1 rfl)
      rw [hnone, propagate_none]
      exact ⟨hcalm, fun cycle hcycle => by cases hcycle⟩

/-- A result that is compatible with all data before it and replaces another runs no
query. -/
theorem calm_writeQuery {key : QueryKey} {datum : Json} (hsound : session.Sound)
    (hstems : session.cache.store.Stems settings.identity data) (hdatum : datum.Ordered)
    (hdata : ∀ other ∈ session.stored (session.writeQuery settings backend key datum).2,
      ∀ earlier ∈ data, earlier.Compatible settings.identity other) :
    Calm settings.identity none
        (data ++ session.stored (session.writeQuery settings backend key datum).2) session
        (session.writeQuery settings backend key datum).2 ∧
      ∀ cycle, (session.writeQuery settings backend key datum).1 ≠ .error (.cyclic cycle) := by
  let reported := (session.cache.store.write key (.ready datum)
    (flatten datum settings.identity)).1
  let next : Session σ := { session with
    cache := (session.cache.write key (.ready datum) (flatten datum settings.identity)).2 }
  have hwrite : session.writeQuery settings backend key datum =
      next.propagate settings backend (some key) reported := rfl
  have hgained : next.cache.journal = session.cache.journal ++
      [.wrote key (.ready datum) (flatten datum settings.identity).length reported] := rfl
  have hmem : datum ∈ session.stored (session.writeQuery settings backend key datum).2 := by
    have hends := WorkList.ends_propagate settings backend (some key) reported next
    exact mem_stored_of_prefix hgained hends.journal_prefix (List.mem_singleton_self _)
  have hnone : reported = .none :=
    hstems.invalidation_write hsound.store hdatum (hdata datum hmem) key
  have hstored : next.cache.store.Stems settings.identity (data ++ [datum]) :=
    hstems.write hsound.store hdatum key
  rw [hnone] at hgained hwrite
  rw [hwrite, propagate_none] at hmem ⊢
  refine ⟨.of_unreported hgained ?_ rfl ?_ (hstored.mono ?_), fun cycle hcycle => by
    cases hcycle⟩
  · simp [Entry.invalidation?]
  · rw [requests_of_entry hgained rfl]
    exact Nat.le_succ _
  · exact List.forall_mem_append.2 ⟨fun _ => List.mem_append_left _,
      List.forall_mem_singleton.2 (List.mem_append_right _ hmem)⟩

/-- An eviction takes snapshots out, and no query runs again. -/
theorem calm_evict (hsound : session.Sound) (hstems : session.cache.store.Stems identity data)
    (key : QueryKey) : Calm identity none data session (session.evict key).2 := by
  have hnext : (session.evict key).2.cache.store.Stems identity data :=
    store_evict session key ▸ hstems.evict hsound.store key
  cases hexisted : (session.cache.store.evict key).1 with
  | true =>
      have hgained : (session.evict key).2.cache.journal =
          session.cache.journal ++ [.evicted key] := by
        simp [evict, Cache.evict, hexisted, Cache.note]
      refine .of_unreported hgained ?_ rfl ?_ hnext
      · simp [Entry.invalidation?]
      · rw [requests_of_entry hgained rfl]
        exact Nat.le_succ _
  | false =>
      have hgained : (session.evict key).2.cache.journal = session.cache.journal ++ [] := by
        simp [evict, Cache.evict, hexisted]
      refine .of_unreported hgained (List.forall_mem_nil _) rfl ?_ hnext
      rw [requests_append hgained, List.filterMap_nil, List.append_nil]
      exact Nat.le_succ _

end Session

/-! ### Runs -/

namespace Client

variable {σ : Type} {settings : Settings} {backend : Backend σ}

/-- The payload that a call writes. -/
def payload? (settings : Settings) (backend : Backend σ) (call : Call σ)
    (client : Client σ) : Option Json :=
  match call with
  | .mutate source vars => client.session.payload? settings backend source vars
  | _ => none

/-- The data that a call writes: the payload of a mutation, and the results that the
journal tells of. -/
def written (settings : Settings) (backend : Backend σ) (call : Call σ)
    (client : Client σ) : List Json :=
  (client.payload? settings backend call).toList ++
    client.session.stored (client.perform settings backend call).2.session

/-- The data that some calls write, one after the other. -/
def writtenBy (settings : Settings) (backend : Backend σ) :
    List (Call σ) → Client σ → List Json
  | [], _ => []
  | call :: calls, client =>
    client.written settings backend call ++
      writtenBy settings backend calls (client.perform settings backend call).2

/-- A call runs no query again, and comes to no cycle. What it adds to the journal accounts for
all that it asks the server. -/
structure Quiet (settings : Settings) (backend : Backend σ) (call : Call σ)
    (client : Client σ) : Prop where
  gains : ∃ entries, (client.perform settings backend call).2.session.cache.journal =
      client.session.cache.journal ++ entries ∧
    Entry.Quiet (call.own? settings) entries ∧
    backend.Accounts (call.world client.session.world) entries
      (client.perform settings backend call).2.session.world
  acyclic : ∀ cycle, (client.perform settings backend call).1 ≠ some (.cyclic cycle)

theorem acyclic_resume {α : Type} {client : Client σ} {out : Except Failure α × Session σ}
    (h : ∀ cycle, out.1 ≠ .error (.cyclic cycle)) (cycle : List String) :
    (client.resume out).1 ≠ some (.cyclic cycle) := by
  intro hcycle
  have hout := eq_of_resume (Prod.ext hcycle rfl : client.resume out = (_, _))
  exact h cycle (congrArg Prod.fst hout)

/-- A call whose data are compatible with all data before it is quiet. -/
theorem quiet_perform (hbackend : backend.Ordered) {client : Client σ} {call : Call σ}
    (hcall : call.Ordered) (hsound : client.session.Sound) {data : List Json}
    (hstems : client.session.cache.store.Stems settings.identity data)
    (hdata : ∀ datum ∈ client.written settings backend call,
      ∀ other ∈ data, other.Compatible settings.identity datum) :
    client.Quiet settings backend call ∧
      (client.perform settings backend call).2.session.cache.store.Stems settings.identity
        (data ++ client.written settings backend call) := by
  suffices hcalm : Session.Calm settings.identity (call.own? settings)
      (data ++ client.written settings backend call) client.session
      (client.perform settings backend call).2.session ∧
        ∀ cycle, (client.perform settings backend call).1 ≠ some (.cyclic cycle) by
    obtain ⟨⟨⟨entries, hjournal, hquiet⟩, hstems⟩, hacyclic⟩ := hcalm
    exact ⟨⟨⟨entries, hjournal, hquiet, accounts_perform hjournal⟩, hacyclic⟩, hstems⟩
  have hmore : ∀ new : List Json,
      client.session.cache.store.Stems settings.identity (data ++ new) :=
    fun _ => hstems.mono fun _ => List.mem_append_left _
  cases call with
  | query source vars =>
      have hnext : (client.perform settings backend (.query source vars)).2.session =
          (client.session.run settings backend source vars false).2 := session_resume _ _
      have hwritten : client.written settings backend (.query source vars) = _ :=
        congrArg client.session.stored hnext
      rw [hwritten] at hdata ⊢
      rw [hnext]
      obtain ⟨hcalm, hacyclic⟩ := Session.calm_run false hcall hbackend hsound hstems hdata
      exact ⟨hcalm, acyclic_resume hacyclic⟩
  | refetch source vars =>
      have hnext : (client.perform settings backend (.refetch source vars)).2.session =
          (client.session.run settings backend source vars true).2 := session_resume _ _
      have hwritten : client.written settings backend (.refetch source vars) = _ :=
        congrArg client.session.stored hnext
      rw [hwritten] at hdata ⊢
      rw [hnext]
      obtain ⟨hcalm, hacyclic⟩ := Session.calm_run true hcall hbackend hsound hstems hdata
      exact ⟨hcalm, acyclic_resume hacyclic⟩
  | mutate source vars =>
      have hnext : (client.perform settings backend (.mutate source vars)).2.session =
          (client.session.mutate settings backend source vars).2 := session_resume _ _
      obtain ⟨hcalm, hacyclic⟩ := Session.calm_mutate hcall hbackend hsound hstems
        fun datum hdatum => hdata datum (List.mem_append_left _ (Option.mem_toList.2 hdatum))
      rw [hnext]
      refine ⟨⟨hcalm.gains, hcalm.stems.mono ?_⟩, acyclic_resume hacyclic⟩
      rw [written, ← List.append_assoc]
      exact fun _ => List.mem_append_left _
  | evict key =>
      obtain ⟨hgains, hnext⟩ := Session.calm_evict hsound hstems key
      exact ⟨⟨hgains, hnext.mono fun _ => List.mem_append_left _⟩, fun cycle hcycle => by
        cases hcycle⟩
  | read source vars =>
      have hnext : (client.perform settings backend (.read source vars)).2.session =
          client.session := by
        rw [perform]
        split <;> rfl
      rw [hnext]
      refine ⟨Session.calm_refl (hmore _), fun cycle hcycle => ?_⟩
      have hfail := canFail_of_perform hbackend hcall hcycle
      cases hfail
  | write handle datum =>
      cases hheld : client.handles[handle]? with
      | none =>
          have hnext : client.perform settings backend (.write handle datum) = (none, client) := by
            rw [perform, hheld]
          rw [hnext]
          exact ⟨Session.calm_refl (hmore _), fun cycle hcycle => by cases hcycle⟩
      | some held =>
          have hperform : client.perform settings backend (.write handle datum) =
              client.resume (client.session.writeQuery settings backend held.key datum) := by
            rw [perform, hheld]
          have hnext : (client.perform settings backend (.write handle datum)).2.session =
              (client.session.writeQuery settings backend held.key datum).2 := by
            rw [hperform, session_resume]
          have hwritten : client.written settings backend (.write handle datum) = _ :=
            congrArg client.session.stored hnext
          rw [hwritten] at hdata ⊢
          rw [hnext, hperform]
          obtain ⟨hcalm, hacyclic⟩ := Session.calm_writeQuery hsound hstems hcall hdata
          exact ⟨hcalm, acyclic_resume hacyclic⟩
  | elapse world =>
      have hnoted := Session.noted_world client.session world
      exact ⟨hnoted.calm (Nat.le_succ _) (hmore _), fun cycle hcycle => by cases hcycle⟩

/-- Calls after a run whose data, together with those of the run, are compatible. -/
theorem quiet_of_run (hbackend : backend.Ordered) {calls : List (Call σ)}
    (hcalls : ∀ call ∈ calls, call.Ordered) {log : List Made} {client : Client σ}
    (hrun : Run settings backend log client) {data : List Json}
    (hstems : client.session.cache.store.Stems settings.identity data)
    (hdata : (data ++ client.writtenBy settings backend calls).Pairwise
      (Json.Compatible settings.identity)) {before after : List (Call σ)} {call : Call σ}
    (hcall : calls = before ++ call :: after) :
    (performAll settings backend before (log, client)).2.Quiet settings backend call := by
  induction before generalizing calls log client data with
  | nil =>
      subst hcall
      rw [List.nil_append, writtenBy, ← List.append_assoc] at hdata
      have hnew := (List.pairwise_append.1 (List.pairwise_append.1 hdata).1).2.2
      exact (quiet_perform hbackend (hcalls call List.mem_cons_self) (hrun.sound hbackend)
        hstems fun datum hdatum other hother => hnew other hother datum hdatum).1
  | cons first before ih =>
      subst hcall
      rw [List.cons_append, writtenBy, ← List.append_assoc] at hdata
      have hnew := (List.pairwise_append.1 (List.pairwise_append.1 hdata).1).2.2
      have hfirst := hcalls first List.mem_cons_self
      obtain ⟨-, hnext⟩ := quiet_perform hbackend hfirst (hrun.sound hbackend)
        hstems fun datum hdatum other hother => hnew other hother datum hdatum
      exact ih (fun other hother => hcalls other (List.mem_cons_of_mem _ hother))
        (hrun.call first hfirst) hnext hdata rfl

/-- If all data that a run writes are compatible, one after the other, then every call of
the run is quiet: no write reports anything, no query has its turn but the one that was
asked for, at most one request is sent, observers are told of no change of an entity and
of no query that has to run again, and no call comes to a cycle. -/
theorem quiet_of_compatible (hbackend : backend.Ordered) {calls : List (Call σ)}
    (hcalls : ∀ call ∈ calls, call.Ordered) {world : σ}
    (hdata : ((start world).writtenBy settings backend calls).Pairwise
      (Json.Compatible settings.identity)) :
    ∀ before call after, calls = before ++ call :: after →
      (performAll settings backend before ([], .start world)).2.Quiet settings backend call :=
  fun _ _ _ => quiet_of_run hbackend hcalls (.start world) Store.stems_empty hdata

end Client

/-- A user whom nobody changes. Two queries select different fields of the user, a mutation
brings one of the fields, and a query is evicted and comes back. -/
theorem quiet_of_unchanged_user :
    let calls : List (Call (List (String × String))) :=
      [.query (.onUser "name") [], .query (.onUser "age") [],
        .mutate (.tree (.onUser .mutation "nameSet")) [], .refetch (.onUser "age") [],
        .evict (.onUser "name"), .query (.onUser "name") []]
    let client : Client (List (String × String)) := .start [("age", "40"), ("name", "Al")]
    userServer.Ordered ∧ (∀ call ∈ calls, call.Ordered) ∧
      (client.writtenBy .standard userServer calls).length = 5 ∧
      (client.writtenBy .standard userServer calls).Pairwise
        (Json.Compatible Settings.standard.identity) ∧
      ∀ before call after, calls = before ++ call :: after →
        (Client.performAll .standard userServer before ([], client)).2.Quiet
          .standard userServer call := by
  intro calls client
  have hcalls : ∀ call ∈ calls, call.Ordered := by
    simp [calls, Call.Ordered, Json.Ordered, Json.OrderedMembers, Table.sorted_nil]
  have hdata : (client.writtenBy .standard userServer calls).Pairwise
      (Json.Compatible Settings.standard.identity) := by
    decide +kernel
  exact ⟨ordered_userServer, hcalls, by decide +kernel, hdata,
    Client.quiet_of_compatible ordered_userServer hcalls hdata⟩

end QueryCache
