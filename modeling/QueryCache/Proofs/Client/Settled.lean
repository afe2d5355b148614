import QueryCache.Proofs.Client.Sound
import QueryCache.Proofs.Store.Rest

/-!
# Cells settle

An execution ends with a write of its outcome, and an outcome is a result or a failure
that is recorded (`Backend.isSettled_result`). The cell of a query is therefore loading
only while it is executed, and every cell is settled between two calls of a run
(`Run.rests`), whether the calls have failed or not.
-/

namespace QueryCache

namespace Backend

variable {σ : Type} {backend : Backend σ} {prepared : Prepared} {world : σ}

theorem isSettled_result (backend : Backend σ) (prepared : Prepared) (world : σ) :
    (QueryState.ofOutcome (backend.result prepared world).1).IsSettled := by
  cases houtcome : (backend.result prepared world).1 with
  | ok data => exact QueryState.isSettled_ready data
  | error failure => exact QueryState.isSettled_failed (isRecordable_of_result houtcome)

end Backend

namespace Store

variable {store : Store}

/-- While a query is under way it is the only one that may be loading. -/
theorem Rests.awaiting (h : store.Rests none) (hindexed : store.Indexed)
    (prepared : Prepared) : (store.awaiting prepared).Rests (some prepared.key) := by
  constructor
  · rw [Store.awaiting]
    dsimp only
    split
    · exact sorted_index_cell h.sorted prepared.key
    · exact sorted_index_cell h.sorted prepared.key
  · intro key state hne hstate
    rw [state?_awaiting_of_ne hindexed prepared (by simpa using hne)] at hstate
    exact h.settled (by simp) hstate

theorem state?_awaiting_self (hindexed : store.Indexed) {prepared : Prepared}
    (hsend : prepared.split.sendToServer = true) :
    (store.awaiting prepared).state? prepared.key =
      some { (store.state? prepared.key).getD .initial with loading := true } := by
  have hself : (store.cell prepared.key).2.cell? prepared.key =
      some (store.cell prepared.key).1 := by
    rw [cell?_cell, if_pos rfl]
  simp only [awaiting, hsend, if_true]
  rw [state?_updateCell (hindexed.cell prepared.key) hself, if_pos rfl, state?_cell hindexed,
    if_pos rfl]
  rfl

/-- When the server is asked for a query, just that query is loading. -/
theorem Rests.loadingKeys_awaiting (h : store.Rests none) (hindexed : store.Indexed)
    {prepared : Prepared} (hsend : prepared.split.sendToServer = true) :
    (store.awaiting prepared).loadingKeys = [prepared.key] :=
  (h.awaiting hindexed prepared).loadingKeys_eq_singleton
    (state?_awaiting_self hindexed hsend) rfl

end Store

namespace Session

variable {σ : Type} {settings : Settings} {backend : Backend σ} {session next : Session σ}

theorem Noted.rests (h : Noted session next) (hrests : session.cache.store.Rests none) :
    next.cache.store.Rests none :=
  h.store ▸ hrests

theorem Executed.rests {prepared : Prepared} {invalidation : Invalidation}
    (h : Executed settings backend prepared session invalidation next)
    (hsound : session.Sound) (hrests : session.cache.store.Rests none) :
    next.cache.store.Rests none := by
  rw [h.store]
  have hawaiting := hrests.awaiting hsound.store.indexed prepared
  exact hawaiting.write (hsound.store.awaiting prepared).indexed
    (backend.isSettled_result prepared session.world) _

theorem Opens.rests {client : Client σ} {call : Call σ} {work : WorkList σ}
    (h : Opens settings backend client call work) (hsound : client.session.Sound)
    (hrests : client.session.cache.store.Rests none) :
    work.session.cache.store.Rests none := by
  cases h with
  | noted hnoted => exact hnoted.rests hrests
  | fresh _ _ hnoted hdone =>
      have hstart : Store.Rests _ none := hnoted.rests hrests
      exact hdone.rests hstart
  | executed hprepared hnoted hexecuted =>
      have hstart : Store.Rests _ none := hnoted.rests hrests
      exact hexecuted.rests (hnoted.sound (hsound.register hprepared)) hstart
  | @absorbed _ start next entities _ _ hnoted hstore _ _ _ =>
      change next.cache.store.Rests none
      rw [hstore]
      exact (hnoted.rests hrests).writeEntities none entities
  | @replaced _ held data next _ _ _ hstore _ _ _ =>
      change next.cache.store.Rests none
      rw [hstore]
      exact (hrests.busy held.key).write hsound.store.indexed
        (QueryState.isSettled_ready data) _

end Session

theorem WorkList.Turns.rests {σ : Type} {settings : Settings} {backend : Backend σ}
    {work next : WorkList σ} (h : Turns settings backend work next)
    (hbackend : backend.Ordered) (hsound : work.session.Sound)
    (hrests : work.session.cache.store.Rests none) :
    next.session.cache.store.Rests none := by
  have hkeep := h.keep
    (fun next => next.session.Sound ∧ next.session.cache.store.Rests none) ⟨hsound, hrests⟩
  refine (hkeep ?_).2
  intro work' next' hturn ⟨hsound', hrests'⟩
  refine ⟨Turns.sound (.single hturn) hbackend hsound', ?_⟩
  obtain ⟨rerun, rest, -, -, ⟨-, rfl⟩ | ⟨prepared, invalidation, session, -, hexecuted, rfl⟩⟩ :=
    turn_cases hturn
  · exact hrests'
  · exact hexecuted.rests hsound' hrests'

/-- Whatever the calls of a run came to, every cell is settled after them. -/
theorem Run.rests {σ : Type} {settings : Settings} {backend : Backend σ} {log : List Made}
    {client : Client σ} (h : Run settings backend log client) (hbackend : backend.Ordered) :
    client.session.cache.store.Rests none := by
  refine h.keep hbackend (fun _ client => client.session.cache.store.Rests none)
    (fun world => Store.rests_empty) ?_
  intro log client call failure next hrun hrests hperforms
  have hsound := hrun.sound hbackend
  cases hperforms with
  | evicted key => exact Session.store_evict client.session key ▸ hrests.evict key
  | elapsed world => exact hrests
  | read _ => exact hrests
  | refused hnoted => exact hnoted.rests hrests
  | finished hopens hturns =>
      exact hturns.rests hbackend (hopens.sound hbackend hsound) (hopens.rests hsound hrests)
  | blocked hopens hturns _ =>
      exact hturns.rests hbackend (hopens.sound hbackend hsound) (hopens.rests hsound hrests)

end QueryCache
