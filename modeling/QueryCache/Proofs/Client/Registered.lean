import QueryCache.Proofs.Client.Sound

/-!
# Cached queries that can run again

A re-run needs the query to be in the registry. As long as a run writes only
through handles whose queries have not been evicted since, every cached query is
there (`Run.registered`), and with it every query that an invalidation can name.
-/

namespace QueryCache

namespace Store

variable {store : Store}

theorem isCached_evict_iff {key other : QueryKey} :
    (store.evict key).2.IsCached other ↔ other ≠ key ∧ store.IsCached other := by
  rw [IsCached, cell?_evict]
  by_cases h : other = key
  · simp [h]
  · simp [h, IsCached]

/-- A write names cached queries only. -/
theorem isCached_of_mem_queries_write (h : store.Sound) {key query : QueryKey}
    {state : QueryState} {entities : Snapshots}
    (hquery : query ∈ (store.write key state entities).1.queries) :
    query ≠ key ∧ store.IsCached query := by
  cases hdata : state.data with
  | none =>
      rw [write_of_none hdata] at hquery
      simp [Invalidation.none] at hquery
  | some data =>
      obtain ⟨hne, entity, -, hentity⟩ := (mem_queries_write_iff hdata).1 hquery
      exact ⟨hne, h.cached hentity⟩

theorem isCached_of_mem_queries_writeEntities (h : store.Sound) {query : QueryKey}
    {origin : Option QueryKey} {entities : Snapshots}
    (hquery : query ∈ (store.writeEntities origin entities).1.queries) :
    store.IsCached query := by
  obtain ⟨-, entity, -, hentity⟩ := mem_queries_invalidation_iff.1 hquery
  exact h.cached hentity

end Store

namespace Session

variable {σ : Type} {settings : Settings} {backend : Backend σ}

/-- The query can run again. -/
def IsRegistered (session : Session σ) (key : QueryKey) : Prop :=
  ∃ prepared, Table.get? session.registry key = some prepared

/-- Every cached query can run again. -/
def AllRegistered (session : Session σ) : Prop :=
  ∀ key, session.cache.store.IsCached key → session.IsRegistered key

variable {session next : Session σ}

theorem allRegistered_start (world : σ) : (start world).AllRegistered := by
  intro key hkey
  obtain ⟨id, hid⟩ := hkey
  simp [start, Cache.empty, Store.empty, Store.cell?] at hid

theorem Noted.allRegistered (h : Noted session next) (hsession : session.AllRegistered) :
    next.AllRegistered := by
  intro key hkey
  rw [IsRegistered, h.registry]
  exact hsession key (h.store ▸ hkey)

theorem isRegistered_register_self (session : Session σ) (prepared : Prepared) :
    (session.register prepared).IsRegistered prepared.key := by
  rw [IsRegistered, register, Table.get?_insert_self]
  exact ⟨_, rfl⟩

theorem AllRegistered.register (h : session.AllRegistered) (prepared : Prepared) :
    (session.register prepared).AllRegistered := by
  intro key hkey
  by_cases heq : key = prepared.key
  · rw [heq]
    exact isRegistered_register_self session prepared
  · rw [IsRegistered, Session.register, Table.get?_insert_of_ne _ _ heq]
    exact h key hkey

/-- An execution names cached queries only. -/
theorem Executed.isCached_of_mem_queries {prepared : Prepared}
    {session next : Session σ} {invalidation : Invalidation}
    (h : Executed settings backend prepared session invalidation next)
    (hsound : session.Sound) {query : QueryKey} (hquery : query ∈ invalidation.queries) :
    next.cache.store.IsCached query := by
  rw [h.invalidation_eq] at hquery
  obtain ⟨hne, hcached⟩ :=
    Store.isCached_of_mem_queries_write (hsound.store.awaiting prepared) hquery
  exact h.isCached ((Store.isCached_awaiting_of_ne hne).1 hcached)

theorem Executed.allRegistered {prepared : Prepared} {invalidation : Invalidation}
    (h : Executed settings backend prepared session invalidation next)
    (hprepared : session.IsRegistered prepared.key) (hsession : session.AllRegistered) :
    next.AllRegistered := by
  intro key hkey
  rw [IsRegistered, h.registry]
  by_cases heq : key = prepared.key
  · rw [heq]
    exact hprepared
  · exact hsession key ((h.isCached_of_ne heq).1 hkey)

end Session

theorem WorkList.Turns.allRegistered {σ : Type} {settings : Settings} {backend : Backend σ}
    {work next : WorkList σ} (h : Turns settings backend work next)
    (hbackend : backend.Ordered) (hsound : work.session.Sound)
    (hwork : work.session.AllRegistered) : next.session.AllRegistered := by
  have hkeep := h.keep
    (fun next => next.session.Sound ∧ next.session.AllRegistered) ⟨hsound, hwork⟩
  refine (hkeep ?_).2
  intro work' next' hturn hwork'
  refine ⟨Turns.sound (.single hturn) hbackend hwork'.1, ?_⟩
  obtain ⟨rerun, rest, -, -, ⟨-, rfl⟩ | ⟨prepared, invalidation, session, hprepared,
    hexecuted, rfl⟩⟩ := turn_cases hturn
  · exact hwork'.2
  · have hkey := (hwork'.1.registered hprepared).1
    exact hexecuted.allRegistered ⟨prepared, hkey ▸ hprepared⟩ hwork'.2

namespace Client

variable {σ : Type} {settings : Settings} {backend : Backend σ}

/-- Every cached query can run again, and the queries of handles that are current
are cached. -/
structure Registered (client : Client σ) : Prop where
  session : client.session.AllRegistered
  handles : ∀ held ∈ client.handles, held.current = true →
    client.session.cache.store.IsCached held.key

/-- The session has changed, and no query has lost its cell. -/
theorem Registered.resume {client : Client σ} (h : client.Registered) {next : Session σ}
    (hregistered : next.AllRegistered)
    (hcached : ∀ {key}, client.session.cache.store.IsCached key →
      next.cache.store.IsCached key) :
    Registered { client with session := next } :=
  ⟨hregistered, fun held hheld hcurrent => hcached (h.handles held hheld hcurrent)⟩

theorem Registered.evict {client : Client σ} (h : client.Registered) (key : QueryKey) :
    Registered ⟨(client.session.evict key).2, client.handles.map (Held.afterEvict key)⟩ := by
  constructor
  · intro other hother
    rw [Session.store_evict, Store.isCached_evict_iff] at hother
    rw [Session.IsRegistered, Session.registry_evict, Table.get?_erase_of_ne _ hother.1]
    exact h.session other hother.2
  · intro held hheld hcurrent
    obtain ⟨before, hbefore, rfl⟩ := List.mem_map.1 hheld
    rw [Session.store_evict, Store.isCached_evict_iff]
    simp only [Held.afterEvict, Bool.and_eq_true, bne_iff_ne, ne_eq] at hcurrent ⊢
    exact ⟨hcurrent.2, h.handles before hbefore hcurrent.1⟩

end Client

namespace Session

variable {σ : Type} {settings : Settings} {backend : Backend σ} {client : Client σ}
  {call : Call σ} {work : WorkList σ}

theorem Opens.isCached (h : Opens settings backend client call work) {key : QueryKey}
    (hkey : client.session.cache.store.IsCached key) :
    work.session.cache.store.IsCached key := by
  cases h with
  | @noted _ next hnoted =>
      change next.cache.store.IsCached key
      rwa [hnoted.store]
  | @fresh _ _ start next _ _ hnoted hdone =>
      change next.cache.store.IsCached key
      rw [hdone.store]
      change start.cache.store.IsCached key
      rwa [hnoted.store]
  | @executed _ _ start _ _ _ hnoted hexecuted =>
      refine hexecuted.isCached ?_
      rwa [hnoted.store]
  | @absorbed _ start next _ _ _ hnoted hstore _ _ _ =>
      change next.cache.store.IsCached key
      rw [hstore]
      change start.cache.store.IsCached key
      rwa [hnoted.store]
  | @replaced _ _ _ next _ _ _ hstore _ _ _ =>
      change next.cache.store.IsCached key
      rw [hstore]
      exact Store.isCached_write hkey _ _ _

/-- The first part of a call keeps every cached query in the registry, unless it
writes through a handle that is not current. -/
theorem Opens.allRegistered (h : Opens settings backend client call work)
    (hclient : client.Registered) (hcurrent : client.isCurrent call = true) :
    work.session.AllRegistered := by
  cases h with
  | noted hnoted => exact hnoted.allRegistered hclient.session
  | fresh _ _ hnoted hdone =>
      exact hdone.allRegistered (hnoted.allRegistered (hclient.session.register _))
  | executed _ hnoted hexecuted =>
      have hstart := hnoted.allRegistered (hclient.session.register _)
      refine hexecuted.allRegistered ?_ hstart
      rw [IsRegistered, hnoted.registry]
      exact isRegistered_register_self _ _
  | @absorbed _ start next _ _ _ hnoted hstore _ hregistry _ =>
      have hstart := hnoted.allRegistered hclient.session
      intro key hkey
      change next.cache.store.IsCached key at hkey
      change next.IsRegistered key
      rw [IsRegistered, hregistry]
      rw [hstore] at hkey
      exact hstart key hkey
  | @replaced _ held data next _ hgiven _ hstore _ hregistry _ =>
      intro key hkey
      change next.cache.store.IsCached key at hkey
      change next.IsRegistered key
      rw [IsRegistered, hregistry]
      refine hclient.session key ?_
      by_cases heq : key = held.key
      · rw [Client.isCurrent, hgiven] at hcurrent
        rw [heq]
        exact hclient.handles held (List.mem_of_getElem? hgiven) hcurrent
      · rw [hstore] at hkey
        exact (Store.isCached_write_of_ne heq _ _).1 hkey

end Session

/-- In a run that writes through current handles only, every cached query can run
again. -/
theorem Run.registered {σ : Type} {settings : Settings} {backend : Backend σ}
    {log : List Made} {client : Client σ} (h : Run settings backend log client)
    (hbackend : backend.Ordered) (hlog : ∀ made ∈ log, made.current = true) :
    client.Registered := by
  have hkeep := h.keep hbackend
    fun log client => (∀ made ∈ log, made.current = true) → client.Registered
  refine hkeep ?_ ?_ hlog
  · intro world _
    exact ⟨Session.allRegistered_start world, by simp [Client.start]⟩
  · intro log client call failure next hrun hclient hperforms hlog
    have hsound := hrun.sound hbackend
    have hclient := hclient fun made hmade => hlog made (List.mem_append_left _ hmade)
    have hcurrent : client.isCurrent call = true :=
      hlog ⟨client.isCurrent call, failure⟩ (by simp)
    cases hperforms with
    | evicted key => exact hclient.evict key
    | elapsed world => exact hclient.resume hclient.session id
    | @read _ key hcached =>
        refine ⟨hclient.session, ?_⟩
        intro held hheld hheldCurrent
        rcases List.mem_append.1 hheld with hheld | hheld
        · exact hclient.handles held hheld hheldCurrent
        · cases List.mem_singleton.1 hheld
          exact hcached
    | refused hnoted =>
        refine hclient.resume (hnoted.allRegistered hclient.session) fun hkey => ?_
        rwa [hnoted.store]
    | finished hopens hturns =>
        have hwork := hopens.allRegistered hclient hcurrent
        exact hclient.resume (hturns.allRegistered hbackend (hopens.sound hbackend hsound) hwork)
          fun hkey => WorkList.isCached_of_turns hturns (hopens.isCached hkey)
    | blocked hopens hturns _ =>
        have hwork := hopens.allRegistered hclient hcurrent
        exact hclient.resume (hturns.allRegistered hbackend (hopens.sound hbackend hsound) hwork)
          fun hkey => WorkList.isCached_of_turns hturns (hopens.isCached hkey)

end QueryCache
