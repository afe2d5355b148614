import QueryCache.Proofs.Client.Registered
import QueryCache.Proofs.Client.Simple
import QueryCache.Proofs.Store.Agreement

/-!
# Fresh queries agree with each other

While re-runs are worked off, a fresh query disagrees with a snapshot only if it
is still in the work list (`WorkList.Agrees`). When the list is empty all fresh
queries agree with the snapshots, and therefore with each other
(`Run.fresh_agree`).
-/

namespace QueryCache

open Session (Executed Noted Opens rerunsOf mem_rerunsOf)

variable {σ : Type} {settings : Settings} {backend : Backend σ}

/-- Every query that is not in the list agrees with the snapshots. -/
def WorkList.Agrees (settings : Settings) (work : WorkList σ) : Prop :=
  ∀ key, work.session.cache.store.Agrees settings.identity
    (∃ rerun ∈ work.reruns, rerun.key = key) key

/-- Every query agrees with the snapshots. -/
def Session.Agrees (settings : Settings) (session : Session σ) : Prop :=
  ∀ key, session.cache.store.Agrees settings.identity False key

theorem Session.agrees_start (world : σ) : (Session.start world).Agrees settings := by
  intro key
  exact Store.agrees_of_not_fresh fun state hstate => by
    simp [start, Cache.empty, Store.empty, Store.state?, Store.cell?] at hstate

theorem Session.Noted.agrees {session next : Session σ} (h : Noted session next)
    (hagrees : session.Agrees settings) : next.Agrees settings := by
  intro key
  rw [h.store]
  exact hagrees key

/-- A list that starts with what a write has named. -/
theorem WorkList.agrees_rerunsOf {chain : List QueryKey} {invalidation : Invalidation}
    {session : Session σ}
    (h : ∀ key, session.cache.store.Agrees settings.identity
      (key ∈ invalidation.queries) key) :
    WorkList.Agrees settings ⟨rerunsOf chain invalidation, session⟩ := by
  intro key
  refine (h key).mono fun hkey => ?_
  exact ⟨⟨key, chain⟩, mem_rerunsOf.2 ⟨hkey, rfl⟩, rfl⟩

/-- After an execution the query itself agrees, and another one that was not to run
again still agrees unless it is named now. -/
theorem Session.Executed.agrees {prepared : Prepared} {session next : Session σ}
    {invalidation : Invalidation}
    (h : Executed settings backend prepared session invalidation next)
    (hbackend : backend.Ordered) (hprepared : prepared.Ordered) (hsound : session.Sound)
    {pending : Prop} {key : QueryKey}
    (hkey : session.cache.store.Agrees settings.identity pending key) :
    next.cache.store.Agrees settings.identity
      (key ≠ prepared.key ∧ pending ∨ key ∈ invalidation.queries) key := by
  have hawaiting := hsound.store.awaiting prepared
  by_cases hne : key = prepared.key
  · subst hne
    rw [h.store]
    refine Store.Agrees.mono ?_ False.elim
    cases houtcome : (backend.result prepared session.world).1 with
    | ok data =>
        exact Store.agrees_write_self hawaiting
          (Backend.ordered_result hbackend hprepared houtcome)
    | error failure => exact Store.agrees_write_failed hawaiting failure _
  · have hflat := Backend.flat_result hbackend hprepared settings.identity session.world
    have hbefore := hkey.of_eq
      (Store.state?_awaiting_of_ne hsound.store.indexed prepared hne)
      (Store.dependents_awaiting _ prepared) (Store.snapshots_awaiting _ prepared)
    have hafter := hbefore.write_of_ne hawaiting hflat hne
      (.ofOutcome (backend.result prepared session.world).1)
    rw [h.store, h.invalidation_eq]
    exact hafter.mono (Or.imp_left fun hpending => ⟨hne, hpending⟩)

/-- One turn: the query that was first in the list agrees, and the queries that have
ceased to agree stand at its end. -/
theorem WorkList.Turn.agrees {work next : WorkList σ}
    (h : Turn settings backend work next) (hbackend : backend.Ordered)
    (hsound : work.session.Sound) (hregistered : work.session.AllRegistered)
    (hagrees : work.Agrees settings) : next.Agrees settings := by
  obtain ⟨rerun, rest, hreruns, -, ⟨hnone, rfl⟩ | ⟨prepared, invalidation, session,
    hprepared, hexecuted, rfl⟩⟩ := turn_cases h
  · intro key
    have hkey := hagrees key
    rw [hreruns] at hkey
    by_cases heq : key = rerun.key
    · -- a query that is not registered is not cached, hence not fresh
      refine Store.agrees_of_not_fresh fun state hstate => ?_
      obtain ⟨prepared, hprepared⟩ :=
        hregistered key (Store.state?_isSome_iff.1 ⟨state, hstate⟩)
      rw [heq, hnone] at hprepared
      simp at hprepared
    · refine hkey.mono fun hpending => ?_
      obtain ⟨other, hother, hotherKey⟩ := hpending
      rcases List.mem_cons.1 hother with rfl | hother
      · exact absurd hotherKey.symm heq
      · exact ⟨other, hother, hotherKey⟩
  · obtain ⟨hself, hordered⟩ := hsound.registered hprepared
    intro key
    have hkey := hagrees key
    rw [hreruns] at hkey
    refine (hexecuted.agrees hbackend hordered hsound hkey).mono ?_
    rintro (⟨hne, other, hother, hotherKey⟩ | hinvalidated)
    · rcases List.mem_cons.1 hother with rfl | hother
      · exact absurd (hotherKey.symm.trans hself.symm) hne
      · exact ⟨other, List.mem_append_left _ hother, hotherKey⟩
    · exact ⟨⟨key, rerun.chain ++ [rerun.key]⟩,
        List.mem_append_right _ (mem_rerunsOf.2 ⟨hinvalidated, rfl⟩), rfl⟩

theorem WorkList.Turns.agrees {work next : WorkList σ}
    (h : Turns settings backend work next) (hbackend : backend.Ordered)
    (hsound : work.session.Sound) (hregistered : work.session.AllRegistered)
    (hagrees : work.Agrees settings) : next.Agrees settings := by
  have hkeep := h.keep (fun next => next.session.Sound ∧ next.session.AllRegistered ∧
    next.Agrees settings) ⟨hsound, hregistered, hagrees⟩
  refine (hkeep ?_).2.2
  intro work' next' hturn ⟨hsound', hregistered', hagrees'⟩
  exact ⟨Turns.sound (.single hturn) hbackend hsound',
    Turns.allRegistered (.single hturn) hbackend hsound' hregistered',
    hturn.agrees hbackend hsound' hregistered' hagrees'⟩

theorem Session.Opens.agrees {client : Client σ} {call : Call σ} {work : WorkList σ}
    (h : Opens settings backend client call work) (hbackend : backend.Ordered)
    (hsound : client.session.Sound) (hagrees : client.session.Agrees settings) :
    work.Agrees settings := by
  cases h with
  | noted hnoted =>
      intro key
      exact (hnoted.agrees hagrees key).mono False.elim
  | @fresh _ prepared start next _ _ hnoted hdone =>
      have hstart : (start.note (.executed prepared.key)).Agrees settings := by
        intro key
        rw [Session.note, Cache.note, hnoted.store]
        exact hagrees key
      intro key
      exact (hdone.agrees hstart key).mono False.elim
  | @executed _ prepared start _ _ hordered hnoted hexecuted =>
      refine WorkList.agrees_rerunsOf fun key => ?_
      have hstart := hnoted.sound (hsound.register hordered)
      have hkey : start.cache.store.Agrees settings.identity False key := by
        rw [hnoted.store]
        exact hagrees key
      refine (hexecuted.agrees hbackend hordered hstart hkey).mono ?_
      rintro (⟨-, hfalse⟩ | hinvalidated)
      · exact hfalse.elim
      · exact hinvalidated
  | @absorbed _ start next entities _ hflat hnoted hstore hreported _ _ =>
      refine WorkList.agrees_rerunsOf fun key => ?_
      have hkey := (hnoted.agrees hagrees key).writeEntities
        (hnoted.sound hsound).store hflat
      rw [hstore, hreported]
      exact hkey.mono (Or.resolve_left · id)
  | @replaced _ held data next _ _ hordered hstore hreported _ _ =>
      refine WorkList.agrees_rerunsOf fun key => ?_
      rw [hstore, hreported]
      by_cases hne : key = held.key
      · rw [hne]
        exact (Store.agrees_write_self hsound.store hordered).mono False.elim
      · have hkey := (hagrees key).write_of_ne hsound.store
          (flat_flatten hordered settings.identity) hne (.ready data)
        exact hkey.mono (Or.resolve_left · id)

theorem Session.Agrees.evict {session : Session σ} (h : session.Agrees settings)
    (hsound : session.Sound) (key : QueryKey) : (session.evict key).2.Agrees settings := by
  intro other
  rw [store_evict]
  exact (h other).evict hsound.store key

/-- The call neither wrote through a handle whose query had been evicted nor returned
a cycle of re-runs. -/
def Made.IsOrderly (made : Made) : Prop :=
  made.current = true ∧ ∀ chain, made.failure ≠ some (.cyclic chain)

/-- After every call of an orderly run all queries agree with the snapshots. -/
theorem Run.agrees {log : List Made} {client : Client σ}
    (h : Run settings backend log client) (hbackend : backend.Ordered)
    (hlog : ∀ made ∈ log, made.IsOrderly) : client.session.Agrees settings := by
  have hkeep := h.keep hbackend
    fun log client => (∀ made ∈ log, made.IsOrderly) → client.session.Agrees settings
  refine hkeep ?_ ?_ hlog
  · intro world _
    exact Session.agrees_start world
  · intro log client call failure next hrun hclient hperforms hlog
    have hbefore : ∀ made ∈ log, made.IsOrderly :=
      fun made hmade => hlog made (List.mem_append_left _ hmade)
    have hlast : Made.IsOrderly ⟨client.isCurrent call, failure⟩ := hlog _ (by simp)
    have hsound := hrun.sound hbackend
    have hregistered := hrun.registered hbackend fun made hmade => (hbefore made hmade).1
    have hagrees := hclient hbefore
    cases hperforms with
    | evicted key => exact hagrees.evict hsound key
    | elapsed world => exact hagrees
    | read _ => exact hagrees
    | refused hnoted => exact hnoted.agrees hagrees
    | finished hopens hturns =>
        intro key
        have hend := hturns.agrees hbackend (hopens.sound hbackend hsound)
          (hopens.allRegistered hregistered hlast.1) (hopens.agrees hbackend hsound hagrees)
        refine (hend key).mono ?_
        simp
    | blocked _ _ _ => exact absurd rfl (hlast.2 _)

/-- After every call of an orderly run, two fresh results that hold one entity give
its scalar fields the values that its snapshot has. -/
theorem Run.fresh_agree {log : List Made} {client : Client σ}
    (h : Run settings backend log client) (hbackend : backend.Ordered)
    (hlog : ∀ made ∈ log, made.IsOrderly) {key other : QueryKey} {entity : EntityKey}
    {value value' : Json}
    (hkey : client.session.cache.store.Shows settings.identity key entity value)
    (hother : client.session.cache.store.Shows settings.identity other entity value')
    {field : String} {x y : Json} (hx : value.member? field = some x)
    (hy : value'.member? field = some y) (hxscalar : x.isScalar = true)
    (hyscalar : y.isScalar = true) :
    x.same y = true ∧ ∃ snapshot z,
      client.session.cache.store.snapshot? entity = some snapshot ∧
        snapshot.member? field = some z ∧ x.same z = true := by
  have hagrees := h.agrees hbackend hlog
  obtain ⟨-, snapshot, hsnapshot, hreflects⟩ := hagrees key entity value hkey
  obtain ⟨-, snapshot', hsnapshot', hreflects'⟩ := hagrees other entity value' hother
  cases hsnapshot.symm.trans hsnapshot'
  obtain ⟨z, hz, hxz⟩ := hreflects.resolve_left id field x hx hxscalar
  obtain ⟨z', hz', hyz⟩ := hreflects'.resolve_left id field y hy hyscalar
  cases hz.symm.trans hz'
  have hzy : z.same y = true := by
    rw [Json.same_comm]
    exact hyz
  exact ⟨Json.same_trans x z y hxz hzy, snapshot, z, hsnapshot, hz, hxz⟩

/-- Two queries ask for the name of a user. The user is renamed, and the first of
them is fetched again. -/
def renamedUser : List (Call (List (String × String))) :=
  [.query (.onUser "name") [], .query (.onUser "nameAgain") [], .elapse [("name", "Bo")],
    .refetch (.onUser "name") []]

theorem fresh_agree_of_renamed_user :
    let done := Client.performAll .standard userServer renamedUser ([], .start [("name", "Al")])
    let store := done.2.session.cache.store
    let user := Json.object
      [("__typename", .string "User"), ("id", .string "1"), ("name", .string "Bo")]
    Run .standard userServer done.1 done.2 ∧ userServer.Ordered ∧
      (∀ made ∈ done.1, made.IsOrderly) ∧
      store.Shows (Settings.standard).identity (.onUser "name") ⟨"User-1"⟩ user ∧
      store.Shows (Settings.standard).identity (.onUser "nameAgain") ⟨"User-1"⟩ user ∧
      (Json.string "Bo").same (.string "Bo") = true ∧ ∃ snapshot z,
        store.snapshot? ⟨"User-1"⟩ = some snapshot ∧ snapshot.member? "name" = some z ∧
          (Json.string "Bo").same z = true := by
  intro done store user
  have hrun : Run .standard userServer done.1 done.2 := by
    refine Run.performAll ?_ (.start _)
    simp [renamedUser, Call.Ordered, Json.Ordered, Json.OrderedMembers, Table.sorted_nil]
  have horderly : ∀ made ∈ done.1, made.IsOrderly := by
    have hnone : ∀ made ∈ done.1, made = ⟨true, none⟩ := by decide +kernel
    intro made hmade
    rw [hnone made hmade]
    exact ⟨rfl, by simp⟩
  have hname : store.Shows (Settings.standard).identity (.onUser "name") ⟨"User-1"⟩ user :=
    ⟨.ready (.ofUser "1" [("name", "Bo")]), .ofUser "1" [("name", "Bo")],
      by decide +kernel, rfl, rfl, by decide +kernel⟩
  have hagain : store.Shows (Settings.standard).identity (.onUser "nameAgain") ⟨"User-1"⟩ user :=
    ⟨.ready (.ofUser "1" [("name", "Bo")]), .ofUser "1" [("name", "Bo")],
      by decide +kernel, rfl, rfl, by decide +kernel⟩
  have hfield : user.member? "name" = some (.string "Bo") := by decide +kernel
  exact ⟨hrun, ordered_userServer, horderly, hname, hagain,
    Run.fresh_agree hrun ordered_userServer horderly hname hagain hfield hfield rfl rfl⟩

end QueryCache
