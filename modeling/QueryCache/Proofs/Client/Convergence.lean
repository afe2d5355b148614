import QueryCache.Proofs.Client.Registered
import QueryCache.Proofs.Client.Simple
import QueryCache.Proofs.Client.Still

/-!
# Re-runs in a world that stands still

While nothing changes outside and all results agree, re-runs come to an end unless
one of them disturbs its own chain: its result brings a new value for a field that no
query of the chain has, in an entity that one of them depends on. Dependents are kept
by entity, not by field, so that query is named although its result is up to date, and
the chain closes (`Session.run_ok_iff`).
-/

namespace QueryCache

open Session (Executed Rerun rerunsOf mem_rerunsOf)

variable {σ : Type} {settings : Settings} {backend : Backend σ} {stands : σ → Prop}
  {still : Backend Unit}

/-- What an execution asks for: the queries of the longer chains are cached and
different, and the snapshots have their results. -/
theorem Session.Executed.tracked_rerunsOf {prepared : Prepared} {session next : Session σ}
    {invalidation : Invalidation}
    (h : Executed settings backend prepared session invalidation next)
    (hbackend : backend.Ordered) (hprepared : prepared.Ordered) (hsound : session.Sound)
    (hstill : backend.IsStill stands still) (hworld : stands session.world)
    (hregistered : Table.get? session.registry prepared.key = some prepared)
    (hconcordant : still.Concordant settings.identity session.registry)
    {chain : List QueryKey} (hnodup : chain.Nodup) (hfree : prepared.key ∉ chain)
    (hchain : ∀ key ∈ chain,
      session.cache.store.IsCached key ∧ session.IsShown settings still key) :
    ∀ rerun ∈ rerunsOf (chain ++ [prepared.key]) invalidation,
      next.cache.store.IsCached rerun.key ∧ rerun.chain.Nodup ∧
        ∀ key ∈ rerun.chain,
          next.cache.store.IsCached key ∧ next.IsShown settings still key := by
  intro rerun hrerun
  obtain ⟨hnamed, heq⟩ := mem_rerunsOf.1 hrerun
  rw [heq]
  refine ⟨h.isCached_of_mem_queries hsound hnamed, ?_, ?_⟩
  · refine List.nodup_append.2 ⟨hnodup, List.pairwise_singleton _ _, ?_⟩
    intro key hkey other hother hsame
    cases List.mem_singleton.1 hother
    exact hfree (hsame ▸ hkey)
  · intro key hkey
    rcases List.mem_append.1 hkey with hkey | hkey
    · obtain ⟨hcached, hshown⟩ := hchain key hkey
      exact ⟨h.isCached hcached, h.isShown hbackend hprepared hsound hstill hworld hregistered
        hconcordant hshown⟩
    · cases List.mem_singleton.1 hkey
      exact ⟨h.isCached_self, h.isShown_self hbackend hprepared hstill hworld hregistered⟩

namespace WorkList

/-- The result of the first re-run changes a field of an entity that a query of its
chain depends on, while no query of the chain has this field. -/
def Disturbs (settings : Settings) (still : Backend Unit) (work : WorkList σ) : Prop :=
  ∃ rerun rest prepared entity value field query,
    work.reruns = rerun :: rest ∧
    Table.get? work.session.registry rerun.key = some prepared ∧
    still.Gives settings.identity prepared entity value ∧
    work.session.cache.store.IsStale entity value field ∧
    query ∈ rerun.chain ∧ query ∈ work.session.cache.store.dependentsOf entity ∧
    ∀ earlier ∈ rerun.chain, ∀ prepared' value',
      Table.get? work.session.registry earlier = some prepared' →
        still.Gives settings.identity prepared' entity value' →
          value'.member? field = none

/-- What holds of the list all along: the queries of every chain are cached and
different, and the snapshots have their results. -/
structure Tracked (settings : Settings) (stands : σ → Prop) (still : Backend Unit)
    (registry : Table QueryKey Prepared) (known : List QueryKey) (work : WorkList σ) :
    Prop where
  sound : work.session.Sound
  stands : stands work.session.world
  registry : work.session.registry = registry
  cached : ∀ {key}, work.session.cache.store.IsCached key → key ∈ known
  listed : ∀ rerun ∈ work.reruns, work.session.cache.store.IsCached rerun.key
  nodup : ∀ rerun ∈ work.reruns, rerun.chain.Nodup
  chain : ∀ rerun ∈ work.reruns, ∀ key ∈ rerun.chain,
    work.session.cache.store.IsCached key ∧ work.session.IsShown settings still key

variable {registry : Table QueryKey Prepared} {known : List QueryKey}
  {work next : WorkList σ}

theorem Turn.tracked (h : Turn settings backend work next) (hbackend : backend.Ordered)
    (hstill : backend.IsStill stands still)
    (hconcordant : still.Concordant settings.identity registry)
    (hwork : work.Tracked settings stands still registry known) :
    next.Tracked settings stands still registry known := by
  obtain ⟨hsound, hstands, hregistry, hcached, hlisted, hnodup, hchain⟩ := hwork
  obtain ⟨rerun, rest, hreruns, hfree, ⟨hnone, rfl⟩ | ⟨prepared, invalidation, session,
    hprepared, hexecuted, rfl⟩⟩ := turn_cases h
  all_goals
    rw [hreruns] at hlisted hnodup hchain
    obtain ⟨hfirst, hlisted⟩ := List.forall_mem_cons.1 hlisted
    obtain ⟨hfirstNodup, hnodup⟩ := List.forall_mem_cons.1 hnodup
    obtain ⟨hfirstChain, hchain⟩ := List.forall_mem_cons.1 hchain
  · exact ⟨hsound.note _, hstands, hregistry, hcached, hlisted, hnodup, hchain⟩
  · obtain ⟨hkey, hordered⟩ := hsound.registered hprepared
    have hself : Table.get? work.session.registry prepared.key = some prepared :=
      hkey ▸ hprepared
    have hagree : still.Concordant settings.identity work.session.registry :=
      hregistry ▸ hconcordant
    -- the query that runs is not in its own chain, or it would be blocked
    have hnew : ∀ rerun' ∈ rerunsOf (rerun.chain ++ [rerun.key]) invalidation,
        session.cache.store.IsCached rerun'.key ∧ rerun'.chain.Nodup ∧
          ∀ key ∈ rerun'.chain,
            session.cache.store.IsCached key ∧ session.IsShown settings still key := by
      rw [← hkey]
      exact hexecuted.tracked_rerunsOf hbackend hordered hsound hstill hstands hself hagree
        hfirstNodup (fun hmem => hfree (Or.inl (hkey ▸ hmem))) hfirstChain
    refine ⟨hexecuted.sound hbackend hordered hsound, ?_, hexecuted.registry.trans hregistry,
      ?_, ?_, ?_, ?_⟩
    · change stands session.world
      rw [hexecuted.world]
      exact (hstill.result prepared hstands).2
    · intro key hcachedKey
      by_cases heq : key = prepared.key
      · exact hcached (heq ▸ hkey ▸ hfirst)
      · exact hcached ((hexecuted.isCached_of_ne heq).1 hcachedKey)
    · intro rerun' hmem
      rcases List.mem_append.1 hmem with hmem | hmem
      · exact hexecuted.isCached (hlisted rerun' hmem)
      · exact (hnew rerun' hmem).1
    · intro rerun' hmem
      rcases List.mem_append.1 hmem with hmem | hmem
      · exact hnodup rerun' hmem
      · exact (hnew rerun' hmem).2.1
    · intro rerun' hmem key hkeyMem
      rcases List.mem_append.1 hmem with hmem | hmem
      · obtain ⟨hkeyCached, hkeyShown⟩ := hchain rerun' hmem key hkeyMem
        exact ⟨hexecuted.isCached hkeyCached, hexecuted.isShown hbackend hordered hsound hstill
          hstands hself hagree hkeyShown⟩
      · exact (hnew rerun' hmem).2.2 key hkeyMem

/-- A field that a turn changes is one that no query of the chain has. -/
theorem Tracked.field_eq_none {entity : EntityKey} {value : Json} {field : String}
    (hwork : work.Tracked settings stands still registry known)
    (hconcordant : still.Concordant settings.identity registry) {rerun : Rerun}
    (hrerun : rerun ∈ work.reruns) {prepared : Prepared}
    (hprepared : Table.get? work.session.registry rerun.key = some prepared)
    (hgives : still.Gives settings.identity prepared entity value)
    (hstale : work.session.cache.store.IsStale entity value field) {earlier : QueryKey}
    (hearlier : earlier ∈ rerun.chain) {prepared' : Prepared} {value' : Json}
    (hprepared' : Table.get? work.session.registry earlier = some prepared')
    (hgives' : still.Gives settings.identity prepared' entity value') :
    value'.member? field = none := by
  refine Option.eq_none_iff_forall_ne_some.2 fun x' hx' => ?_
  obtain ⟨snapshot, x, y, hsnapshot, hx, hy, hdiffers⟩ := hstale
  obtain ⟨shown, hshown, hcontains⟩ :=
    (hwork.chain rerun hrerun earlier hearlier).2 hprepared' hgives'
  cases hsnapshot.symm.trans hshown
  obtain ⟨y', hy', hsame⟩ := hcontains field x' hx'
  cases hy.symm.trans hy'
  -- the stored field is that of the earlier result, which agrees with the new one
  obtain ⟨members, rfl, hordered⟩ := hwork.sound.store.objects hsnapshot
  have hxx : x'.same x = true :=
    hconcordant (hwork.registry ▸ hprepared') (hwork.registry ▸ hprepared) hgives' hgives hx' hx
  have hyx : y.same x = true := by
    rw [Json.same_comm] at hsame
    exact Json.same_trans y x' x hsame hxx
  rw [Json.differs_eq_false_of_same (Json.ordered_of_get? hordered hy) hyx] at hdiffers
  simp at hdiffers

/-- A chain closes in a turn only if the turn disturbs it. -/
theorem Turn.disturbs (h : Turn settings backend work next) (hbackend : backend.Ordered)
    (hstill : backend.IsStill stands still)
    (hconcordant : still.Concordant settings.identity registry)
    (hwork : work.Tracked settings stands still registry known)
    (hopen : ∀ rerun ∈ work.reruns, rerun.key ∉ rerun.chain) {closed : Rerun}
    (hclosed : closed ∈ next.reruns) (hcycle : closed.key ∈ closed.chain) :
    work.Disturbs settings still := by
  obtain ⟨rerun, rest, hreruns, hfree, ⟨hnone, rfl⟩ | ⟨prepared, invalidation, session,
    hprepared, hexecuted, rfl⟩⟩ := turn_cases h
  · exact absurd hcycle (hopen closed (hreruns ▸ List.mem_cons_of_mem _ hclosed))
  · have hfirst : rerun ∈ work.reruns := hreruns ▸ List.mem_cons_self
    obtain ⟨hkey, hordered⟩ := hwork.sound.registered hprepared
    rcases List.mem_append.1 hclosed with hclosed | hclosed
    · exact absurd hcycle (hopen closed (hreruns ▸ List.mem_cons_of_mem _ hclosed))
    · obtain ⟨hnamed, hchain⟩ := mem_rerunsOf.1 hclosed
      obtain ⟨hne, entity, value, field, hgives, hstale, hdependent⟩ :=
        (hexecuted.mem_queries_iff hbackend hordered hwork.sound hstill hwork.stands).1 hnamed
      have hmem : closed.key ∈ rerun.chain := by
        rw [hchain] at hcycle
        rcases List.mem_append.1 hcycle with hmem | hmem
        · exact hmem
        · exact absurd ((List.mem_singleton.1 hmem).trans hkey.symm) hne
      refine ⟨rerun, rest, prepared, entity, value, field, closed.key, hreruns, hprepared,
        hgives, hstale, hmem, hdependent, ?_⟩
      intro earlier hearlier prepared' value' hprepared' hgives'
      exact hwork.field_eq_none hconcordant hfirst hprepared hgives hstale hearlier
        hprepared' hgives'

/-- A turn that disturbs its chain closes it. -/
theorem Turn.closes (h : Turn settings backend work next) (hbackend : backend.Ordered)
    (hstill : backend.IsStill stands still)
    (hwork : work.Tracked settings stands still registry known)
    (hdisturbs : work.Disturbs settings still) :
    ∃ closed ∈ next.reruns, closed.key ∈ closed.chain := by
  obtain ⟨first, others, prepared, entity, value, field, query, hfirst, hprepared, hgives,
    hstale, hquery, hdependent, -⟩ := hdisturbs
  obtain ⟨rerun, rest, hreruns, hfree, hcases⟩ := turn_cases h
  obtain ⟨rfl, rfl⟩ := List.cons.inj (hfirst.symm.trans hreruns)
  rcases hcases with ⟨hnone, -⟩ | ⟨prepared', invalidation, session, hprepared', hexecuted, rfl⟩
  · rw [hnone] at hprepared
    simp at hprepared
  · cases hprepared.symm.trans hprepared'
    obtain ⟨hkey, hordered⟩ := hwork.sound.registered hprepared
    have hne : query ≠ prepared.key := by
      intro heq
      exact hfree (Or.inl (hkey ▸ heq ▸ hquery))
    have hnamed : query ∈ invalidation.queries :=
      (hexecuted.mem_queries_iff hbackend hordered hwork.sound hstill hwork.stands).2
        ⟨hne, entity, value, field, hgives, hstale, hdependent⟩
    exact ⟨⟨query, first.chain ++ [first.key]⟩,
      List.mem_append_right _ (mem_rerunsOf.2 ⟨hnamed, rfl⟩), List.mem_append_left _ hquery⟩

/-- A chain that is not closed is shorter than the list of known queries. -/
theorem Tracked.length_chain_lt (hwork : work.Tracked settings stands still registry known)
    {rerun : Rerun} (hrerun : rerun ∈ work.reruns) (hopen : rerun.key ∉ rerun.chain) :
    rerun.chain.length < known.length := by
  have hnodup : (rerun.key :: rerun.chain).Nodup :=
    List.nodup_cons.2 ⟨hopen, hwork.nodup rerun hrerun⟩
  have hsubset : rerun.key :: rerun.chain ⊆ known := by
    intro key hkey
    rcases List.mem_cons.1 hkey with rfl | hkey
    · exact hwork.cached (hwork.listed rerun hrerun)
    · exact hwork.cached (hwork.chain rerun hrerun key hkey).1
  exact List.Nodup.length_le_of_subset hnodup hsubset

end WorkList

/-- The list of an operation is tracked, and no chain in it is closed. -/
theorem Session.tracked_opening {start : Session σ} (hsound : start.Sound)
    (hbackend : backend.Ordered) (hstill : backend.IsStill stands still)
    (hstands : stands start.world) {prepared : Prepared} (hprepared : prepared.Ordered)
    (hconcordant : still.Concordant settings.identity (start.register prepared).registry)
    (force : Bool) :
    (start.opening settings backend prepared force).Tracked settings stands still
        (start.register prepared).registry (prepared.key :: start.cache.store.queryKeys) ∧
      ∀ rerun ∈ (start.opening settings backend prepared force).reruns,
        rerun.key ∉ rerun.chain := by
  have hregister := hsound.register hprepared
  have hself : Table.get? (start.register prepared).registry prepared.key = some prepared :=
    Table.get?_insert_self _ _ _
  have hknown : ∀ {key}, start.cache.store.IsCached key → key ∈ start.cache.store.queryKeys :=
    Table.mem_keys_iff.2
  rw [opening]
  rcases executed_or_fresh settings backend prepared force (start.register prepared) with
    hexecuted | ⟨-, heq⟩
  · have hnamed : ∀ {query}, query ∈ ((start.register prepared).carryOut settings backend
        prepared force).1.queries → query ≠ prepared.key := fun hquery =>
      ((hexecuted.mem_queries_iff hbackend hprepared hregister hstill hstands).1 hquery).1
    have hnew := hexecuted.tracked_rerunsOf hbackend hprepared hregister hstill hstands hself
      hconcordant List.nodup_nil List.not_mem_nil (List.forall_mem_nil _)
    refine ⟨⟨hexecuted.sound hbackend hprepared hregister, ?_, hexecuted.registry, ?_,
      fun rerun hrerun => (hnew rerun hrerun).1, fun rerun hrerun => (hnew rerun hrerun).2.1,
      fun rerun hrerun => (hnew rerun hrerun).2.2⟩, ?_⟩
    · rw [hexecuted.world]
      exact (hstill.result prepared hstands).2
    · intro key hkey
      by_cases heq : key = prepared.key
      · exact heq ▸ List.mem_cons_self
      · exact List.mem_cons_of_mem _ (hknown ((hexecuted.isCached_of_ne heq).1 hkey))
    · intro rerun hrerun hcycle
      rw [(mem_rerunsOf.1 hrerun).2] at hcycle
      exact hnamed (mem_rerunsOf.1 hrerun).1 (List.mem_singleton.1 hcycle)
  · rw [heq]
    have hempty : rerunsOf [prepared.key] Invalidation.none = [] := rfl
    refine ⟨⟨⟨hregister.store, hregister.registered⟩, hstands, rfl, ?_, ?_, ?_, ?_⟩, ?_⟩
    · exact fun hkey => List.mem_cons_of_mem _ (hknown hkey)
    all_goals simp [hempty]

theorem WorkList.Turns.tracked {registry : Table QueryKey Prepared} {known : List QueryKey}
    {work next : WorkList σ} (h : Turns settings backend work next)
    (hbackend : backend.Ordered) (hstill : backend.IsStill stands still)
    (hconcordant : still.Concordant settings.identity registry)
    (hwork : work.Tracked settings stands still registry known) :
    next.Tracked settings stands still registry known :=
  h.keep (fun next => next.Tracked settings stands still registry known) hwork
    fun hturn htracked => hturn.tracked hbackend hstill hconcordant htracked

/-- As long as no turn disturbs its chain, no chain is closed. -/
theorem WorkList.Turns.open_of_undisturbed {registry : Table QueryKey Prepared}
    {known : List QueryKey} {work next : WorkList σ} (h : Turns settings backend work next)
    (hbackend : backend.Ordered) (hstill : backend.IsStill stands still)
    (hconcordant : still.Concordant settings.identity registry)
    (hwork : work.Tracked settings stands still registry known)
    (hopen : ∀ rerun ∈ work.reruns, rerun.key ∉ rerun.chain)
    (hcalm : ∀ reached, Turns settings backend work reached →
      ¬ reached.Disturbs settings still) :
    ∀ rerun ∈ next.reruns, rerun.key ∉ rerun.chain := by
  induction h with
  | refl => exact hopen
  | @tail reached next hturns hturn ih =>
      intro rerun hrerun hcycle
      have htracked := Turns.tracked hturns hbackend hstill hconcordant hwork
      exact hcalm reached hturns
        (hturn.disturbs hbackend hstill hconcordant htracked ih hrerun hcycle)

/-- A list that is worked off has never been disturbed. -/
theorem WorkList.Turns.undisturbed {registry : Table QueryKey Prepared}
    {known : List QueryKey} {work : WorkList σ} {session : Session σ}
    (h : Turns settings backend work ⟨[], session⟩) (hbackend : backend.Ordered)
    (hstill : backend.IsStill stands still)
    (hconcordant : still.Concordant settings.identity registry)
    (hwork : work.Tracked settings stands still registry known) {reached : WorkList σ}
    (hreached : Turns settings backend work reached) : ¬ reached.Disturbs settings still := by
  intro hdisturbs
  have htracked := hreached.tracked hbackend hstill hconcordant hwork
  -- the turn that is disturbed closes a chain, and a closed chain is never worked off
  rcases (turns_of_finished h hreached).cases_head with rfl | ⟨next, hturn, hrest⟩
  · obtain ⟨rerun, rest, _, _, _, _, _, hreruns, -⟩ := hdisturbs
    simp at hreruns
  · obtain ⟨closed, hclosed, hcycle⟩ :=
      hturn.closes hbackend hstill htracked hdisturbs
    exact not_blocked_of_turns hrest closed hclosed (Or.inl hcycle)

/-- A list that has come to a blocked re-run has been disturbed, unless its chains may
not be as long as the list of known queries. -/
theorem WorkList.Turns.disturbed {registry : Table QueryKey Prepared}
    {known : List QueryKey} {work : WorkList σ} {rerun : Rerun} {rest : List Rerun}
    {session : Session σ} (h : Turns settings backend work ⟨rerun :: rest, session⟩)
    (hblocked : rerun.Blocked settings) (hbackend : backend.Ordered)
    (hstill : backend.IsStill stands still)
    (hconcordant : still.Concordant settings.identity registry)
    (hwork : work.Tracked settings stands still registry known)
    (hopen : ∀ rerun ∈ work.reruns, rerun.key ∉ rerun.chain)
    (hdepth : known.length ≤ settings.maxInvalidationDepth) :
    ∃ reached, Turns settings backend work reached ∧ reached.Disturbs settings still := by
  by_contra hcalm
  have hfirst : rerun.key ∉ rerun.chain :=
    h.open_of_undisturbed hbackend hstill hconcordant hwork hopen
      (fun reached hreached hdisturbs => hcalm ⟨reached, hreached, hdisturbs⟩) rerun
      List.mem_cons_self
  have htracked := h.tracked hbackend hstill hconcordant hwork
  have hlength := htracked.length_chain_lt List.mem_cons_self hfirst
  rcases hblocked with hcycle | hlong
  · exact hfirst hcycle
  · omega

/-- As long as no time elapses, a server that answers by the world stands still. -/
theorem Backend.isStill_ofAnswers (answer : Request → σ → Json) (world : σ) :
    (ofAnswers answer).IsStill (· = world) (ofAnswers fun request _ => answer request world) := by
  constructor
  · rintro request world' rfl
    exact ⟨rfl, rfl⟩
  · rintro tree data vars world' rfl
    exact ⟨rfl, rfl⟩

/-- In a world that stands still a query that is well-formed returns a handle exactly
if no turn of its re-runs disturbs its chain. Otherwise it returns a cycle. -/
theorem Run.run_ok_iff {log : List Made} {client : Client σ}
    (h : Run settings backend log client) (hbackend : backend.Ordered)
    (hstill : backend.IsStill stands still) (hstands : stands client.session.world)
    {source : QuerySource} {vars : Variables} (hvars : Json.Ordered (.object vars))
    {prepared : Prepared} {start : Session σ}
    (hprepare : client.session.prepare settings source vars = (.ok prepared, start))
    (hconcordant : still.Concordant settings.identity (start.register prepared).registry)
    (hdepth : client.session.cache.store.size < settings.maxInvalidationDepth)
    (force : Bool) :
    ((∃ handle, (client.session.run settings backend source vars force).1 = .ok handle) ↔
      ∀ work, WorkList.Turns settings backend
        (start.opening settings backend prepared force) work →
          ¬ work.Disturbs settings still) ∧
    ((∃ chain, (client.session.run settings backend source vars force).1 =
        .error (.cyclic chain)) ↔
      ∃ work, WorkList.Turns settings backend
        (start.opening settings backend prepared force) work ∧
          work.Disturbs settings still) := by
  have hsound := h.sound hbackend
  rcases Session.prepare_cases settings source vars client.session with
    ⟨failure, hrefused⟩ | ⟨prepared', document, hprepared, hdocument⟩
  · rw [hprepare] at hrefused
    simp at hrefused
  · obtain ⟨hprepared, rfl⟩ := Prod.mk.inj (hprepare.symm.trans hprepared)
    cases hprepared
    have hordered := Prepared.ordered_ofDocument hvars hdocument
    obtain ⟨htracked, hopen⟩ :=
      Session.tracked_opening (hsound.note _) hbackend hstill hstands hordered hconcordant force
    have hlength : (prepared.key :: client.session.cache.store.queryKeys).length ≤
        settings.maxInvalidationDepth := by
      rw [List.length_cons, Store.queryKeys, Table.keys, List.length_map]
      exact hdepth
    have hends : WorkList.Ends settings backend _
        (Except.map (fun _ => ()) (client.session.run settings backend source vars force).1,
          (client.session.run settings backend source vars force).2) :=
      Session.ends_run force hprepare
    generalize client.session.run settings backend source vars force = out at hends ⊢
    obtain ⟨outcome, final⟩ := out
    cases outcome with
    | ok handle =>
        change WorkList.Ends settings backend _ (.ok (), final) at hends
        cases hends with
        | finished turns =>
            have hcalm : ∀ work, WorkList.Turns settings backend _ work →
                ¬ work.Disturbs settings still := fun work hwork =>
              turns.undisturbed hbackend hstill hconcordant htracked hwork
            refine ⟨⟨fun _ => hcalm, fun _ => ⟨handle, rfl⟩⟩, ⟨?_, ?_⟩⟩
            · rintro ⟨chain, hchain⟩
              simp at hchain
            · rintro ⟨work, hwork, hdisturbs⟩
              exact absurd hdisturbs (hcalm work hwork)
    | error failure =>
        change WorkList.Ends settings backend _ (.error failure, final) at hends
        cases hends with
        | blocked turns hblocked =>
            obtain ⟨work, hwork, hdisturbs⟩ :=
              turns.disturbed hblocked hbackend hstill hconcordant htracked hopen hlength
            refine ⟨⟨?_, fun hcalm => absurd hdisturbs (hcalm work hwork)⟩,
              ⟨fun _ => ⟨work, hwork, hdisturbs⟩, fun _ => ⟨_, rfl⟩⟩⟩
            rintro ⟨handle, hhandle⟩
            simp at hhandle

/-- Whether a query is accepted, and the results agree with each other when it is
registered. -/
def Session.isConcordantWith (settings : Settings) (still : Backend Unit)
    (source : QuerySource) (vars : Variables) (session : Session σ) : Bool :=
  match session.prepare settings source vars with
  | (.ok prepared, start) =>
    still.isConcordant settings.identity (start.register prepared).registry
  | (.error _, _) => false

theorem Session.exists_prepared {source : QuerySource} {vars : Variables}
    {session : Session σ} (h : session.isConcordantWith settings still source vars = true) :
    ∃ prepared start, session.prepare settings source vars = (.ok prepared, start) ∧
      still.Concordant settings.identity (start.register prepared).registry := by
  rw [isConcordantWith] at h
  rcases hprepare : session.prepare settings source vars with ⟨failure | prepared, start⟩
  · rw [hprepare] at h
    simp at h
  · rw [hprepare] at h
    exact ⟨prepared, start, rfl, Backend.concordant_of_isConcordant h⟩

/-- The server of a user whose fields stay what they are. -/
def stillServer (user : List (String × String)) : Backend Unit :=
  .ofAnswers fun request _ => userAnswer request user

/-- A user is renamed while two queries for the name are cached. Fetching the first
again runs the second again, and no chain is disturbed. -/
theorem run_ok_iff_of_renamed_user :
    let calls : List (Call (List (String × String))) :=
      [.query (.onUser "name") [], .query (.onUser "nameAgain") [], .elapse [("name", "Bo")]]
    let done := Client.performAll .standard userServer calls ([], .start [("name", "Al")])
    let still := stillServer [("name", "Bo")]
    let source := QuerySource.onUser "name"
    Run .standard userServer done.1 done.2 ∧ userServer.Ordered ∧
      userServer.IsStill (· = [("name", "Bo")]) still ∧
      done.2.session.world = [("name", "Bo")] ∧ Json.Ordered (.object []) ∧
      done.2.session.cache.store.size < (Settings.standard).maxInvalidationDepth ∧
      ∃ prepared start, done.2.session.prepare .standard source [] = (.ok prepared, start) ∧
        still.Concordant (Settings.standard).identity (start.register prepared).registry ∧
        ((∃ handle, (done.2.session.run .standard userServer source [] true).1 = .ok handle) ↔
          ∀ work, WorkList.Turns .standard userServer
            (start.opening .standard userServer prepared true) work →
              ¬ work.Disturbs .standard still) ∧
        ((∃ chain, (done.2.session.run .standard userServer source [] true).1 =
            .error (.cyclic chain)) ↔
          ∃ work, WorkList.Turns .standard userServer
            (start.opening .standard userServer prepared true) work ∧
              work.Disturbs .standard still) := by
  intro calls done still source
  have hrun : Run .standard userServer done.1 done.2 := by
    refine Run.performAll ?_ (.start _)
    simp [calls, Call.Ordered, Json.Ordered, Json.OrderedMembers, Table.sorted_nil]
  have hstill : userServer.IsStill (· = [("name", "Bo")]) still :=
    Backend.isStill_ofAnswers _ _
  have hworld : done.2.session.world = [("name", "Bo")] := by decide +kernel
  have hsize : done.2.session.cache.store.size < (Settings.standard).maxInvalidationDepth := by
    decide +kernel
  have hwith : done.2.session.isConcordantWith .standard still source [] = true := by
    decide +kernel
  obtain ⟨prepared, start, hprepare, hconcordant⟩ := Session.exists_prepared hwith
  exact ⟨hrun, ordered_userServer, hstill, hworld, Json.ordered_emptyObject, hsize,
    prepared, start, hprepare, hconcordant, Run.run_ok_iff hrun ordered_userServer hstill
      hworld Json.ordered_emptyObject hprepare hconcordant hsize true⟩

/-- Two queries have different fields of a user, and both fields change. Fetching the
first again runs the second, whose new field names the first again. -/
theorem cyclic_after_two_fields_changed :
    ¬ ∀ (log : List Made) (client : Client (List (String × String))),
      Run .standard userServer log client → (∀ made ∈ log, made.failure = none) →
        ∀ stands still, userServer.IsStill stands still → stands client.session.world →
          ∀ source vars prepared start, Json.Ordered (.object vars) →
            client.session.prepare .standard source vars = (.ok prepared, start) →
              still.Concordant (Settings.standard).identity
                (start.register prepared).registry →
              client.session.cache.store.size < (Settings.standard).maxInvalidationDepth →
                ∀ force, ∃ handle,
                  (client.session.run .standard userServer source vars force).1 =
                    .ok handle := by
  intro hclaim
  let calls : List (Call (List (String × String))) :=
    [.query (.onUser "name") [], .query (.onUser "age") [],
      .elapse [("name", "Bo"), ("age", "41")]]
  let done := Client.performAll .standard userServer calls
    ([], .start [("name", "Al"), ("age", "40")])
  let still := stillServer [("name", "Bo"), ("age", "41")]
  let source := QuerySource.onUser "name"
  have hrun : Run .standard userServer done.1 done.2 := by
    refine Run.performAll ?_ (.start _)
    simp [calls, Call.Ordered, Json.Ordered, Json.OrderedMembers, Table.sorted_nil]
  have hstill : userServer.IsStill (· = [("name", "Bo"), ("age", "41")]) still :=
    Backend.isStill_ofAnswers _ _
  have hwith : done.2.session.isConcordantWith .standard still source [] = true := by
    decide +kernel
  obtain ⟨prepared, start, hprepare, hconcordant⟩ := Session.exists_prepared hwith
  obtain ⟨handle, hhandle⟩ := hclaim done.1 done.2 hrun (by decide +kernel) _ still hstill
    (by decide +kernel) source [] prepared start Json.ordered_emptyObject hprepare
    hconcordant (by decide +kernel) true
  have hcycle : (done.2.session.run .standard userServer source [] true).1.toBool = false := by
    decide +kernel
  rw [hhandle] at hcycle
  simp [Except.toBool] at hcycle

end QueryCache
