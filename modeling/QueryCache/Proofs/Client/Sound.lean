import QueryCache.Proofs.Client.Opening
import QueryCache.Proofs.Store.Evict

/-!
# Sound sessions

A session is sound when its store is, and when the registry holds every query
under its own key. Every session that a run comes to is sound (`Run.sound`).
-/

namespace QueryCache

theorem Store.Sound.write {store : Store} (h : store.Sound) {entities : Snapshots}
    (hflat : entities.Flat) (key : QueryKey) (state : QueryState) :
    (store.write key state entities).2.Sound := by
  cases hdata : state.data with
  | none => exact h.write_of_none hdata key entities
  | some data => exact h.write_of_some hdata hflat key

namespace Session

variable {σ : Type} {settings : Settings} {backend : Backend σ}

structure Sound (session : Session σ) : Prop where
  store : session.cache.store.Sound
  registered : ∀ {key prepared}, Table.get? session.registry key = some prepared →
    prepared.key = key ∧ prepared.Ordered

theorem sound_start (world : σ) : (start world).Sound :=
  ⟨Store.sound_empty, fun h => by simp [start] at h⟩

variable {session next : Session σ}

theorem Noted.sound (h : Noted session next) (hsound : session.Sound) : next.Sound := by
  refine ⟨h.store ▸ hsound.store, ?_⟩
  intro key prepared hprepared
  rw [h.registry] at hprepared
  exact hsound.registered hprepared

theorem Sound.note (h : session.Sound) (entry : Entry) : (session.note entry).Sound :=
  ⟨h.store, h.registered⟩

theorem Sound.register (h : session.Sound) {prepared : Prepared}
    (hprepared : prepared.Ordered) : (session.register prepared).Sound := by
  refine ⟨h.store, ?_⟩
  intro key other hother
  rw [Session.register, Table.get?_insert] at hother
  split at hother
  · cases hother
    exact ⟨‹key = prepared.key›.symm, hprepared⟩
  · exact h.registered hother

theorem store_evict (session : Session σ) (key : QueryKey) :
    (session.evict key).2.cache.store = (session.cache.store.evict key).2 := by
  rw [evict, Cache.evict]
  dsimp only
  split <;> rfl

theorem registry_evict (session : Session σ) (key : QueryKey) :
    (session.evict key).2.registry = Table.erase session.registry key := rfl

theorem Sound.evict (h : session.Sound) (key : QueryKey) : (session.evict key).2.Sound := by
  refine ⟨store_evict session key ▸ h.store.evict key, ?_⟩
  intro other prepared hprepared
  rw [registry_evict] at hprepared
  by_cases hother : other = key
  · subst hother
    rw [Table.get?_erase_self] at hprepared
    simp at hprepared
  · rw [Table.get?_erase_of_ne _ hother] at hprepared
    exact h.registered hprepared

theorem Executed.sound {prepared : Prepared} {invalidation : Invalidation}
    (h : Executed settings backend prepared session invalidation next)
    (hbackend : backend.Ordered) (hprepared : prepared.Ordered) (hsound : session.Sound) :
    next.Sound := by
  constructor
  · rw [h.store]
    exact (hsound.store.awaiting prepared).write
      (Backend.flat_result hbackend hprepared settings.identity session.world) _ _
  · intro key other hother
    rw [h.registry] at hother
    exact hsound.registered hother

theorem Opens.sound {client : Client σ} {call : Call σ} {work : WorkList σ}
    (h : Opens settings backend client call work) (hbackend : backend.Ordered)
    (hsound : client.session.Sound) : work.session.Sound := by
  cases h with
  | noted hnoted => exact hnoted.sound hsound
  | fresh hprepared _ hnoted hdone =>
      exact hdone.sound ((hnoted.sound (hsound.register hprepared)).note _)
  | executed hprepared hnoted hexecuted =>
      exact hexecuted.sound hbackend hprepared (hnoted.sound (hsound.register hprepared))
  | @absorbed _ start next entities _ hflat hnoted hstore _ hregistry _ =>
      have hstart := hnoted.sound hsound
      have hwritten : next.cache.store.Sound := by
        rw [hstore]
        exact hstart.store.writeEntities hflat none
      refine ⟨hwritten, ?_⟩
      intro key other hother
      rw [hregistry] at hother
      exact hstart.registered hother
  | @replaced _ held data next _ _ hordered hstore _ hregistry _ =>
      have hwritten : next.cache.store.Sound := by
        rw [hstore]
        exact hsound.store.write (flat_flatten hordered settings.identity) _ _
      refine ⟨hwritten, ?_⟩
      intro key other hother
      rw [hregistry] at hother
      exact hsound.registered hother

end Session

theorem WorkList.Turns.sound {σ : Type} {settings : Settings} {backend : Backend σ}
    {work next : WorkList σ} (h : Turns settings backend work next)
    (hbackend : backend.Ordered) (hsound : work.session.Sound) : next.session.Sound := by
  refine h.keep (fun next => next.session.Sound) hsound ?_
  intro work' next' hturn hsound'
  obtain ⟨rerun, rest, -, -, ⟨-, rfl⟩ | ⟨prepared, invalidation, session, hprepared,
    hexecuted, rfl⟩⟩ := turn_cases hturn
  · exact hsound'.note _
  · exact hexecuted.sound hbackend (hsound'.registered hprepared).2 hsound'

/-- Every session that a run comes to is sound. -/
theorem Run.sound {σ : Type} {settings : Settings} {backend : Backend σ} {log : List Made}
    {client : Client σ} (h : Run settings backend log client) (hbackend : backend.Ordered) :
    client.session.Sound := by
  refine h.keep hbackend (fun _ client => client.session.Sound)
    (fun world => Session.sound_start world) ?_
  intro log client call failure next _ hsound hperforms
  cases hperforms with
  | evicted key => exact hsound.evict key
  | elapsed world => exact ⟨hsound.store, hsound.registered⟩
  | read _ => exact hsound
  | refused hnoted => exact hnoted.sound hsound
  | finished hopens hturns => exact hturns.sound hbackend (hopens.sound hbackend hsound)
  | blocked hopens hturns _ =>
      exact (hturns.sound hbackend (hopens.sound hbackend hsound)).note _

end QueryCache
