import Mathlib.Algebra.BigOperators.Intervals
import Mathlib.Algebra.Order.BigOperators.Group.Finset
import Mathlib.Algebra.Ring.GeomSum
import QueryCache.Proofs.Client.GivenUp
import QueryCache.Proofs.Client.Propagation
import QueryCache.Proofs.Store.Rest

/-!
# Propagation ends

The work list of re-runs grows while it is worked off, and what is put on it depends on
what the world outside answers. It becomes empty or blocked all the same, because chains
hold different queries, all of them cached, and are at most as long as the settings allow.
`Client.Propagates.ends_within` bounds the number of re-runs by that of the chains that
there can be.

The bound is carried by `WorkList.reach`: each re-run in the list is worth as many
re-runs as its chain can still grow into. A turn takes one re-run off the list, and puts
less than its worth on it (`WorkList.Turn.reach_lt`).
-/

namespace QueryCache

open Session (Executed Rerun rerunsOf mem_rerunsOf)

variable {σ : Type} {settings : Settings} {backend : Backend σ}

namespace WorkList

/-- Any number of turns, and the re-runs that were done in them. -/
inductive Works (settings : Settings) (backend : Backend σ) :
    WorkList σ → List Rerun → WorkList σ → Prop
  | none (work : WorkList σ) : Works settings backend work [] work
  | turn {rerun : Rerun} {rest : List Rerun} {session : Session σ} {next last : WorkList σ}
      {done : List Rerun} (turn : Turn settings backend ⟨rerun :: rest, session⟩ next)
      (works : Works settings backend next done last) :
      Works settings backend ⟨rerun :: rest, session⟩ (rerun :: done) last

theorem exists_works {work last : WorkList σ} (h : Turns settings backend work last) :
    ∃ done, Works settings backend work done last := by
  induction h using Relation.ReflTransGen.head_induction_on with
  | refl => exact ⟨[], .none last⟩
  | head hturn _ ih =>
      obtain ⟨done, hworks⟩ := ih
      obtain @⟨rerun, rest, session, hfree⟩ := hturn
      exact ⟨rerun :: done, .turn (.turn hfree) hworks⟩

/-! ### What is in the list -/

/-- All cached queries are known, the list holds known queries only, and its chains hold
no query twice. -/
structure Within (known : List QueryKey) (work : WorkList σ) : Prop where
  sound : work.session.Sound
  cached : ∀ {key}, work.session.cache.store.IsCached key → key ∈ known
  listed : ∀ rerun ∈ work.reruns, rerun.key ∈ known
  distinct : ∀ rerun ∈ work.reruns, rerun.chain.Nodup

variable {known : List QueryKey} {work next : WorkList σ}

theorem nodup_of_free {rerun : Rerun} (h : ¬ rerun.Blocked settings)
    (hchain : rerun.chain.Nodup) : (rerun.chain ++ [rerun.key]).Nodup := by
  have hnew : rerun.key ∉ rerun.chain := fun hmem => h (Or.inl hmem)
  exact List.nodup_append.2 ⟨hchain, List.nodup_singleton _,
    fun key hkey other hother heq => hnew (List.mem_singleton.1 hother ▸ heq ▸ hkey)⟩

/-- What an execution reports is cached, and the execution itself caches no query but its
own. -/
theorem Turn.within (h : Turn settings backend work next) (hbackend : backend.Ordered)
    (hwork : work.Within known) : next.Within known := by
  have hsound := Turns.sound (.single h) hbackend hwork.sound
  obtain ⟨rerun, rest, hreruns, hfree, hturn⟩ := turn_cases h
  have hrest : ∀ other ∈ rest, other ∈ work.reruns :=
    fun other hother => hreruns ▸ List.mem_cons_of_mem _ hother
  rcases hturn with ⟨-, rfl⟩ | ⟨prepared, invalidation, session, hprepared, hexecuted, rfl⟩
  · exact ⟨hsound, hwork.cached, fun other hother => hwork.listed other (hrest other hother),
      fun other hother => hwork.distinct other (hrest other hother)⟩
  · have hmem : rerun ∈ work.reruns := hreruns ▸ List.mem_cons_self
    have hcached : ∀ {key}, session.cache.store.IsCached key → key ∈ known := by
      intro key hkey
      by_cases heq : key = prepared.key
      · rw [heq, (hwork.sound.registered hprepared).1]
        exact hwork.listed rerun hmem
      · exact hwork.cached ((hexecuted.isCached_of_ne heq).1 hkey)
    refine ⟨hsound, hcached, fun other hother => ?_, fun other hother => ?_⟩
    · rcases List.mem_append.1 hother with hother | hother
      · exact hwork.listed other (hrest other hother)
      · exact hcached
          (hexecuted.isCached_of_mem_queries hwork.sound (mem_rerunsOf.1 hother).1)
    · rcases List.mem_append.1 hother with hother | hother
      · exact hwork.distinct other (hrest other hother)
      · rw [(mem_rerunsOf.1 hother).2]
        exact nodup_of_free hfree (hwork.distinct rerun hmem)

/-! ### How far re-runs reach -/

end WorkList

/-- The number of re-runs that one can come to, itself included, when each execution
reports at most `count` queries. -/
def Session.Rerun.reach (settings : Settings) (count : Nat) (rerun : Rerun) : Nat :=
  ∑ i ∈ Finset.range (settings.maxInvalidationDepth - rerun.chain.length), count ^ i

namespace WorkList

/-- The number of re-runs that a list can come to. -/
def reach (settings : Settings) (count : Nat) (work : WorkList σ) : Nat :=
  (work.reruns.map (Rerun.reach settings count)).sum

/-- Re-runs with one chain in common reach equally far. -/
theorem sum_reach_rerunsOf (settings : Settings) (count : Nat) (chain : List QueryKey)
    (invalidation : Invalidation) :
    ((rerunsOf chain invalidation).map (Rerun.reach settings count)).sum =
      invalidation.queries.length *
        ∑ i ∈ Finset.range (settings.maxInvalidationDepth - chain.length), count ^ i := by
  have hreach : (rerunsOf chain invalidation).map (Rerun.reach settings count) =
      invalidation.queries.map fun _ =>
        ∑ i ∈ Finset.range (settings.maxInvalidationDepth - chain.length), count ^ i := by
    rw [rerunsOf, List.map_map]
    rfl
  rw [hreach, List.map_const', List.sum_replicate_nat]

/-- A re-run is worth itself, and one step less for each of the queries that it may
report. -/
theorem reach_of_free {rerun : Rerun} (h : ¬ rerun.Blocked settings) (count : Nat) :
    rerun.reach settings count =
      count * (∑ i ∈ Finset.range
        (settings.maxInvalidationDepth - (rerun.chain ++ [rerun.key]).length), count ^ i) + 1 := by
  have hlength : rerun.chain.length < settings.maxInvalidationDepth :=
    Nat.lt_of_not_le fun hle => h (Or.inr hle)
  have hdepth : settings.maxInvalidationDepth - rerun.chain.length =
      settings.maxInvalidationDepth - (rerun.chain ++ [rerun.key]).length + 1 := by
    rw [List.length_append, List.length_singleton]
    omega
  rw [Rerun.reach, hdepth, geom_sum_succ]

theorem Turn.reach_lt (h : Turn settings backend work next) (hnext : next.Within known) :
    next.reach settings known.length < work.reach settings known.length := by
  obtain ⟨rerun, rest, hreruns, hfree, ⟨-, rfl⟩ | ⟨prepared, invalidation, session, hprepared,
    hexecuted, rfl⟩⟩ := turn_cases h
  · rw [reach, reach, hreruns, List.map_cons, List.sum_cons, reach_of_free hfree]
    exact Nat.lt_add_of_pos_left (Nat.succ_pos _)
  · have hqueries : invalidation.queries.length ≤ known.length := by
      refine (hexecuted.nodup_queries.subperm fun query hquery => ?_).length_le
      exact hnext.listed ⟨query, rerun.chain ++ [rerun.key]⟩
        (List.mem_append_right _ (mem_rerunsOf.2 ⟨hquery, rfl⟩))
    rw [reach, reach, hreruns, List.map_cons, List.sum_cons, List.map_append, List.sum_append,
      sum_reach_rerunsOf, reach_of_free hfree]
    have := Nat.mul_le_mul_right (∑ i ∈ Finset.range (settings.maxInvalidationDepth -
      (rerun.chain ++ [rerun.key]).length), known.length ^ i) hqueries
    omega

/-! ### A whole run -/

/-- A re-run that is done extends its chain by a query that is not in it, to a chain that
is not too long. -/
theorem Works.free {done : List Rerun} {last : WorkList σ}
    (h : Works settings backend work done last) (hbackend : backend.Ordered)
    (hwork : work.Within known) :
    ∀ rerun ∈ done, rerun.key ∈ known ∧ (rerun.chain ++ [rerun.key]).Nodup ∧
      (rerun.chain ++ [rerun.key]).length ≤ settings.maxInvalidationDepth := by
  induction h with
  | none => exact List.forall_mem_nil _
  | @turn rerun rest session next last done hturn _ ih =>
      refine List.forall_mem_cons.2 ⟨?_, ih (hturn.within hbackend hwork)⟩
      obtain ⟨_, _, hreruns, hfree, -⟩ := turn_cases hturn
      obtain ⟨rfl, rfl⟩ := List.cons.inj hreruns
      refine ⟨hwork.listed rerun List.mem_cons_self,
        nodup_of_free hfree (hwork.distinct rerun List.mem_cons_self), ?_⟩
      rw [List.length_append, List.length_singleton]
      exact Nat.lt_of_not_le fun hle => hfree (Or.inr hle)

/-- There are at most as many turns as the list can come to. -/
theorem Works.length_le {done : List Rerun} {last : WorkList σ}
    (h : Works settings backend work done last) (hbackend : backend.Ordered)
    (hwork : work.Within known) : done.length ≤ work.reach settings known.length := by
  induction h with
  | none => exact Nat.zero_le _
  | turn hturn _ ih =>
      have hnext := hturn.within hbackend hwork
      calc
        _ ≤ _ + 1 := Nat.succ_le_succ (ih hnext)
        _ ≤ _ := hturn.reach_lt hnext

/-- A turn executes or skips the query of its re-run, and no other. -/
theorem Turn.gains {rerun : Rerun} {rest : List Rerun} {session : Session σ}
    (h : Turn settings backend ⟨rerun :: rest, session⟩ next) (hsound : session.Sound) :
    ∃ entries, session.Gains entries next.session ∧
      entries.filterMap Entry.attempted? = [rerun.key] := by
  obtain ⟨_, _, hreruns, -, ⟨-, rfl⟩ | ⟨prepared, invalidation, session', hprepared,
    hexecuted, rfl⟩⟩ := turn_cases h
  · obtain ⟨rfl, rfl⟩ := List.cons.inj hreruns
    exact ⟨_, Session.gains_note _ _, rfl⟩
  · obtain ⟨rfl, rfl⟩ := List.cons.inj hreruns
    obtain ⟨entries, hgains, hattempted, -⟩ := hexecuted.gains hsound
    rw [(hsound.registered hprepared).1] at hattempted
    exact ⟨entries, hgains, hattempted⟩

/-- The journal tells which re-runs were done, and in which order. -/
theorem Works.gains {done : List Rerun} {last : WorkList σ}
    (h : Works settings backend work done last) (hbackend : backend.Ordered)
    (hsound : work.session.Sound) :
    ∃ entries, work.session.Gains entries last.session ∧
      entries.filterMap Entry.attempted? = done.map Rerun.key := by
  induction h with
  | none work => exact ⟨[], ⟨(List.append_nil _).symm, fun _ _ => rfl⟩, rfl⟩
  | turn hturn _ ih =>
      obtain ⟨first, hfirst, hattempted⟩ := hturn.gains hsound
      obtain ⟨others, hothers, hattempted'⟩ := ih (Turns.sound (.single hturn) hbackend hsound)
      refine ⟨first ++ others, hfirst.trans hothers, ?_⟩
      rw [List.filterMap_append, hattempted, hattempted']
      rfl

end WorkList

theorem Store.length_queryKeys (store : Store) : store.queryKeys.length = store.size :=
  List.length_map _

/-- The chains that can be formed of `count` queries, by their lengths. -/
theorem sum_Icc_pow (count depth : Nat) :
    ∑ i ∈ Finset.Icc 1 depth, count ^ i = count * ∑ i ∈ Finset.range depth, count ^ i := by
  rw [Finset.mul_sum, ← Finset.Ico_add_one_right_eq_Icc, Finset.sum_Ico_eq_sum_range]
  refine Finset.sum_congr rfl fun i _ => ?_
  rw [Nat.add_comm, pow_succ']

/-- Propagation comes to an end, and it does not run more queries again than there are chains of
cached queries. -/
structure Session.EndsWithin (settings : Settings) (backend : Backend σ) (origin : Option QueryKey)
    (invalidation : Invalidation) (session : Session σ) : Prop where
  /-- It ends with an empty list, or at a blocked re-run. -/
  ends : ∃ done last,
    WorkList.Works settings backend ⟨rerunsOf origin.toList invalidation, session⟩ done last ∧
      (last.reruns = [] ∧
          session.propagate settings backend origin invalidation = (.ok (), last.session) ∨
        ∃ rerun rest, last.reruns = rerun :: rest ∧ rerun.Blocked settings ∧
          session.propagate settings backend origin invalidation =
            (.error (last.session.abort rerun).1, (last.session.abort rerun).2))
  /-- However far the work has come, its re-runs are of queries that were cached when it started,
  and each of them extends its chain to different queries, no more than the settings allow. -/
  within : ∀ done last,
    WorkList.Works settings backend ⟨rerunsOf origin.toList invalidation, session⟩ done last →
      (∀ rerun ∈ done, session.cache.store.IsCached rerun.key ∧
        (rerun.chain ++ [rerun.key]).Nodup ∧
        (rerun.chain ++ [rerun.key]).length ≤ settings.maxInvalidationDepth) ∧
      (∃ entries, last.session.cache.journal = session.cache.journal ++ entries ∧
        entries.filterMap Entry.attempted? = done.map Rerun.key) ∧
      done.length ≤
        ∑ i ∈ Finset.Icc 1 settings.maxInvalidationDepth, session.cache.store.size ^ i

namespace Client.Propagates

variable {client : Client σ} {origin : Option QueryKey} {invalidation : Invalidation}
  {session : Session σ}

/-- When propagation starts, the cached queries are the only ones that it will know. -/
theorem within (h : client.Propagates settings backend origin invalidation session)
    (hbackend : backend.Ordered) (hsound : client.session.Sound) :
    WorkList.Within session.cache.store.queryKeys
      ⟨rerunsOf origin.toList invalidation, session⟩ where
  sound := h.sound hbackend hsound
  cached hkey := Store.mem_queryKeys_iff.2 hkey
  listed _ hrerun :=
    Store.mem_queryKeys_iff.2 (h.isCached hsound (mem_rerunsOf.1 hrerun).1)
  distinct rerun hrerun := by
    rw [(mem_rerunsOf.1 hrerun).2]
    cases origin with
    | none => exact List.nodup_nil
    | some key => exact List.nodup_singleton key

/-- What a write has reported can come to one re-run for each chain of cached queries. -/
theorem reach_le (h : client.Propagates settings backend origin invalidation session)
    (hsound : client.session.Sound) :
    WorkList.reach settings session.cache.store.size
        ⟨rerunsOf origin.toList invalidation, session⟩ ≤
      ∑ i ∈ Finset.Icc 1 settings.maxInvalidationDepth, session.cache.store.size ^ i := by
  have hqueries : invalidation.queries.length ≤ session.cache.store.size := by
    rw [← Store.length_queryKeys]
    refine (h.nodup.subperm fun query hquery => ?_).length_le
    exact Store.mem_queryKeys_iff.2 (h.isCached hsound hquery)
  rw [WorkList.reach, WorkList.sum_reach_rerunsOf, sum_Icc_pow]
  refine Nat.mul_le_mul hqueries (Finset.sum_le_sum_of_subset ?_)
  exact Finset.range_subset_range.2 (Nat.sub_le _ _)

/-- Propagation ends, with an empty list or at a blocked re-run, whatever the world
outside answers. Its re-runs are of queries that were cached when it started; each of them
extends its chain to different queries, no more than the settings allow; and there are at
most as many as there are such chains. -/
theorem ends_within {log : List Made} (h : client.Propagates settings backend origin
      invalidation session)
    (hrun : Run settings backend log client) (hbackend : backend.Ordered) :
    session.EndsWithin settings backend origin invalidation := by
  have hsound := hrun.sound hbackend
  have hwithin := h.within hbackend hsound
  constructor
  · have hends := WorkList.ends_propagate settings backend origin invalidation session
    generalize session.propagate settings backend origin invalidation = out at hends
    cases hends with
    | finished hturns =>
        obtain ⟨done, hworks⟩ := WorkList.exists_works hturns
        exact ⟨done, _, hworks, Or.inl ⟨rfl, rfl⟩⟩
    | blocked hturns hblocked =>
        obtain ⟨done, hworks⟩ := WorkList.exists_works hturns
        exact ⟨done, _, hworks, Or.inr ⟨_, _, rfl, hblocked, rfl⟩⟩
  · intro done last hworks
    obtain ⟨entries, hgains, hattempted⟩ := hworks.gains hbackend hwithin.sound
    refine ⟨fun rerun hrerun => ?_, ⟨entries, hgains.journal, hattempted⟩, ?_⟩
    · obtain ⟨hknown, hchain⟩ := hworks.free hbackend hwithin rerun hrerun
      exact ⟨Store.mem_queryKeys_iff.1 hknown, hchain⟩
    · have hlength := hworks.length_le hbackend hwithin
      rw [Store.length_queryKeys] at hlength
      exact hlength.trans (h.reach_le hsound)

end Client.Propagates

/-- Two queries for the name of a user are cached, and a new name is written through a
handle of the first. The second is executed again. -/
theorem ends_within_of_renamed_user :
    let calls : List (Call (List (String × String))) :=
      [.query (.onUser "name") [], .query (.onUser "nameAgain") [], .read (.onUser "name") []]
    let made := Client.performAll .standard userServer calls ([], .start [("name", "Al")])
    let data := Json.ofUser "1" [("name", "Bo")]
    let written := made.2.session.cache.write (.onUser "name") (.ready data)
      (flatten data (Settings.standard).identity)
    let session := { made.2.session with cache := written.2 }
    made.2.Propagates .standard userServer (some (.onUser "name")) written.1 session ∧
      Run .standard userServer made.1 made.2 ∧ userServer.Ordered ∧
      written.1.queries = [.onUser "nameAgain"] ∧
      session.EndsWithin .standard userServer (some (.onUser "name")) written.1 := by
  intro calls made data written session
  have hrun : Run .standard userServer made.1 made.2 := by
    refine Run.performAll ?_ (.start _)
    simp [calls, Call.Ordered, Json.Ordered, Json.OrderedMembers, Table.sorted_nil]
  have hgiven : made.2.handles[0]? = some ⟨.onUser "name", true⟩ := by decide +kernel
  have hpropagates : made.2.Propagates .standard userServer (some (.onUser "name"))
      written.1 session := .write hgiven (Json.ordered_ofUser _ _)
  exact ⟨hpropagates, hrun, ordered_userServer, by decide +kernel,
    hpropagates.ends_within hrun ordered_userServer⟩

end QueryCache
