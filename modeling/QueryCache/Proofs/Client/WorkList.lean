import Mathlib.Logic.Relation
import QueryCache.Proofs.Client.Execution

/-!
# The work list of re-runs

Running invalidated queries again is working off a list of re-runs: the first
one is taken from the front, and what its write invalidates is put at the end.
`WorkList.Turn` is one step of this, and `WorkList.ends_propagate` says that
`Session.propagate` is the run of these steps: it ends with an empty list, or
with a re-run at the front that is blocked. What is to be shown of all re-runs
is therefore shown of one turn.
-/

namespace QueryCache

namespace Session

/-- The re-run leads back to a query that it came from, or its chain is as long as
chains may be. -/
def Rerun.Blocked (settings : Settings) (rerun : Rerun) : Prop :=
  rerun.key ∈ rerun.chain ∨ settings.maxInvalidationDepth ≤ rerun.chain.length

theorem mem_rerunsOf {chain : List QueryKey} {invalidation : Invalidation}
    {rerun : Rerun} :
    rerun ∈ rerunsOf chain invalidation ↔
      rerun.key ∈ invalidation.queries ∧ rerun.chain = chain := by
  obtain ⟨key, chain'⟩ := rerun
  simp only [rerunsOf, List.mem_map, Rerun.mk.injEq]
  constructor
  · rintro ⟨query, hquery, rfl, rfl⟩
    exact ⟨hquery, rfl⟩
  · rintro ⟨hquery, rfl⟩
    exact ⟨key, hquery, rfl, rfl⟩

@[simp] theorem rerunsOf_none (chain : List QueryKey) : rerunsOf chain .none = [] := rfl

variable {σ : Type}

/-- Does one re-run, and lists what it asks for. A query that was never prepared
is skipped. -/
def rerun (settings : Settings) (backend : Backend σ) (rerun : Rerun)
    (session : Session σ) : List Rerun × Session σ :=
  match Table.get? session.registry rerun.key with
  | none => ([], session.note (.skipped rerun.key))
  | some prepared =>
    let (invalidation, session) := session.carryOut settings backend prepared true
    (rerunsOf (rerun.chain ++ [rerun.key]) invalidation, session)

end Session

open Session (Rerun)

/-- The re-runs that are still to be done, and the session in which this is. -/
structure WorkList (σ : Type) where
  reruns : List Rerun
  session : Session σ

namespace WorkList

variable {σ : Type}

/-- One turn: the first re-run is done, and what it asks for comes last. -/
inductive Turn (settings : Settings) (backend : Backend σ) :
    WorkList σ → WorkList σ → Prop
  | turn {rerun : Rerun} {rest : List Rerun} {session : Session σ}
      (free : ¬ rerun.Blocked settings) :
      Turn settings backend ⟨rerun :: rest, session⟩
        ⟨rest ++ (session.rerun settings backend rerun).1,
          (session.rerun settings backend rerun).2⟩

/-- Any number of turns. -/
abbrev Turns (settings : Settings) (backend : Backend σ) :
    WorkList σ → WorkList σ → Prop :=
  Relation.ReflTransGen (Turn settings backend)

variable {settings : Settings} {backend : Backend σ}

theorem turn_unique : Relator.RightUnique (Turn settings backend) := by
  intro work next next' h h'
  cases h
  cases h'
  rfl

theorem not_turn_nil {session : Session σ} {next : WorkList σ} :
    ¬ Turn settings backend ⟨[], session⟩ next := by
  intro h
  cases h

/-- How the work on a list ends: with nothing left, or at a blocked re-run. -/
inductive Ends (settings : Settings) (backend : Backend σ) (start : WorkList σ) :
    Except Failure Unit × Session σ → Prop
  | finished {session : Session σ}
      (turns : Turns settings backend start ⟨[], session⟩) :
      Ends settings backend start (.ok (), session)
  | blocked {rerun : Rerun} {rest : List Rerun} {session : Session σ}
      (turns : Turns settings backend start ⟨rerun :: rest, session⟩)
      (blocked : rerun.Blocked settings) :
      Ends settings backend start
        (.error (session.abort rerun).1, (session.abort rerun).2)

theorem Ends.of_turns {start next : WorkList σ} {out : Except Failure Unit × Session σ}
    (h : Turns settings backend start next) (hnext : Ends settings backend next out) :
    Ends settings backend start out := by
  cases hnext with
  | finished turns => exact .finished (h.trans turns)
  | blocked turns hblocked => exact .blocked (h.trans turns) hblocked

/-- There is one end to an empty list. -/
theorem Ends.eq_of_nil {session : Session σ} {out : Except Failure Unit × Session σ}
    (h : Ends settings backend ⟨[], session⟩ out) : out = (.ok (), session) := by
  have hstuck : ∀ {next : WorkList σ}, Turns settings backend ⟨[], session⟩ next →
      next = ⟨[], session⟩ := by
    intro next hturns
    cases hturns using Relation.ReflTransGen.head_induction_on with
    | refl => rfl
    | head hturn _ => exact absurd hturn not_turn_nil
  cases h with
  | finished turns =>
      cases hstuck turns
      rfl
  | blocked turns _ => cases hstuck turns

/-- What an operation returns that has a value for its end. -/
def returning {α : Type} (value : Session σ → α) :
    Except Failure Unit × Session σ → Except Failure α × Session σ
  | (.error failure, session) => (.error failure, session)
  | (.ok (), session) => (.ok (value session), session)

theorem snd_returning {α : Type} (value : Session σ → α)
    (out : Except Failure Unit × Session σ) : (returning value out).2 = out.2 := by
  obtain ⟨failure | ⟨⟩, session⟩ := out <;> rfl

theorem eq_of_returning {α : Type} {value : Session σ → α}
    {out : Except Failure Unit × Session σ} {failure : Failure} {next : Session σ}
    (h : returning value out = (.error failure, next)) : out = (.error failure, next) := by
  obtain ⟨found | ⟨⟩, session⟩ := out
  · cases h
    rfl
  · cases h

theorem eq_of_returning_ok {α : Type} {value : Session σ → α} {found : α}
    {out : Except Failure Unit × Session σ} {next : Session σ}
    (h : returning value out = (.ok found, next)) : out = (.ok (), next) ∧ found = value next := by
  obtain ⟨failure | ⟨⟩, session⟩ := out
  · cases h
  · cases h
    exact ⟨rfl, rfl⟩

theorem Ends.returning {α : Type} {start : WorkList σ} {out : Except Failure Unit × Session σ}
    (h : Ends settings backend start out) (value : Session σ → α) :
    Ends settings backend start
      ((returning value out).1.map fun _ => (), (returning value out).2) := by
  cases h with
  | finished turns => exact .finished turns
  | blocked turns hblocked => exact .blocked turns hblocked

/-! ### The turns of one generation -/

theorem rerunAll_cons (settings : Settings) (backend : Backend σ) (mayRun : Bool)
    (rerun : Rerun) (rest : List Rerun) (session : Session σ) :
    Session.rerunAll settings backend mayRun (rerun :: rest) session =
      if rerun.chain.contains rerun.key || !mayRun then
        (.error (session.abort rerun).1, (session.abort rerun).2)
      else
        match Session.rerunAll settings backend mayRun rest
          (session.rerun settings backend rerun).2 with
        | (.ok others, session') =>
          (.ok ((session.rerun settings backend rerun).1 ++ others), session')
        | (.error failure, session') => (.error failure, session') := by
  rw [Session.rerunAll, Session.rerun]
  split
  · rfl
  · cases Table.get? session.registry rerun.key with
    | none => rfl
    | some prepared =>
        dsimp only
        rewrite [Session.execute_eq]
        rfl

theorem blocked_iff {rerun : Rerun} {mayRun : Bool}
    (hrun : mayRun = true ↔ rerun.chain.length < settings.maxInvalidationDepth) :
    (rerun.chain.contains rerun.key || !mayRun) = true ↔ rerun.Blocked settings := by
  rw [Bool.or_eq_true, List.contains_iff_mem, Rerun.Blocked]
  refine or_congr Iff.rfl ?_
  cases mayRun with
  | true => simpa using hrun
  | false => simpa using hrun

/-- One generation is worked off by turns, while the next one gathers behind what
stands behind it. -/
theorem turns_rerunAll {length : Nat} {mayRun : Bool}
    (hrun : mayRun = true ↔ length < settings.maxInvalidationDepth)
    (reruns behind : List Rerun) (session : Session σ)
    (hlength : ∀ rerun ∈ reruns, rerun.chain.length = length) :
    (∃ next session', Session.rerunAll settings backend mayRun reruns session =
        (.ok next, session') ∧
      Turns settings backend ⟨reruns ++ behind, session⟩ ⟨behind ++ next, session'⟩ ∧
      ∀ rerun ∈ next, rerun.chain.length = length + 1) ∨
    ∃ rerun rest session', Session.rerunAll settings backend mayRun reruns session =
        (.error (session'.abort rerun).1, (session'.abort rerun).2) ∧
      Turns settings backend ⟨reruns ++ behind, session⟩ ⟨rerun :: rest, session'⟩ ∧
      rerun.Blocked settings := by
  induction reruns generalizing behind session with
  | nil =>
      left
      exact ⟨[], session, rfl, by simpa using Relation.ReflTransGen.refl, by simp⟩
  | cons rerun rest ih =>
      have hfirst := hlength rerun List.mem_cons_self
      have hblocked : (rerun.chain.contains rerun.key || !mayRun) = true ↔
          rerun.Blocked settings := blocked_iff (hfirst ▸ hrun)
      rw [rerunAll_cons]
      by_cases h : rerun.Blocked settings
      · rw [if_pos (hblocked.2 h)]
        right
        exact ⟨rerun, rest ++ behind, session, rfl, .refl, h⟩
      · rw [if_neg fun hb => h (hblocked.1 hb)]
        have hturn : Turn settings backend ⟨rerun :: rest ++ behind, session⟩
            ⟨rest ++ (behind ++ (session.rerun settings backend rerun).1),
              (session.rerun settings backend rerun).2⟩ := by
          rw [← List.append_assoc]
          exact .turn h
        have hnew : ∀ new ∈ (session.rerun settings backend rerun).1,
            new.chain.length = length + 1 := by
          intro new hmem
          rw [Session.rerun] at hmem
          split at hmem
          · simp at hmem
          · rw [(Session.mem_rerunsOf.1 hmem).2, List.length_append, hfirst]
            rfl
        rcases ih (behind ++ (session.rerun settings backend rerun).1)
            (session.rerun settings backend rerun).2
            fun other hmem => hlength other (List.mem_cons_of_mem _ hmem) with
          ⟨next, session', hall, hturns, hnext⟩ | ⟨stopped, later, session', hall, hturns, hstop⟩
        · left
          rw [hall]
          refine ⟨_, session', rfl, ?_, ?_⟩
          · rw [List.append_assoc] at hturns
            exact .head hturn hturns
          · intro other hmem
            rcases List.mem_append.1 hmem with hmem | hmem
            · exact hnew other hmem
            · exact hnext other hmem
        · right
          rw [hall]
          exact ⟨stopped, later, session', rfl, .head hturn hturns, hstop⟩

/-- Chains that are equally long, and may grow by `depth` queries, are worked off
generation by generation. -/
theorem ends_rerunFrom (depth : Nat) {length : Nat}
    (hdepth : depth = settings.maxInvalidationDepth - length)
    (reruns : List Rerun) (session : Session σ)
    (hlength : ∀ rerun ∈ reruns, rerun.chain.length = length) :
    Ends settings backend ⟨reruns, session⟩
      (session.rerunFrom settings backend depth reruns) := by
  induction depth generalizing length reruns session with
  | zero =>
      cases reruns with
      | nil => exact .finished .refl
      | cons rerun rest =>
          have hblocked : rerun.Blocked settings := by
            have := hlength rerun List.mem_cons_self
            exact Or.inr (by omega)
          have habort : session.rerunFrom settings backend 0 (rerun :: rest) =
              (.error (session.abort rerun).1, (session.abort rerun).2) := by
            simp [Session.rerunFrom, rerunAll_cons]
          rw [habort]
          exact .blocked .refl hblocked
  | succ depth ih =>
      cases reruns with
      | nil => exact .finished .refl
      | cons rerun rest =>
          have hrun : true = true ↔ length < settings.maxInvalidationDepth := by
            simp only [true_iff]
            omega
          simp only [Session.rerunFrom]
          rcases turns_rerunAll hrun (rerun :: rest) [] session hlength with
            ⟨next, session', hall, hturns, hnext⟩ | ⟨stopped, later, session', hall, hturns, hstop⟩
          · rw [hall]
            rw [List.append_nil, List.nil_append] at hturns
            exact Ends.of_turns hturns (ih (by omega) next session' hnext)
          · rw [hall]
            rw [List.append_nil] at hturns
            exact .blocked hturns hstop

/-- What propagation returns is what the turns of its work list lead to. -/
theorem ends_propagate (settings : Settings) (backend : Backend σ)
    (origin : Option QueryKey) (invalidation : Invalidation) (session : Session σ) :
    Ends settings backend ⟨Session.rerunsOf origin.toList invalidation, session⟩
      (session.propagate settings backend origin invalidation) :=
  ends_rerunFrom _ rfl _ session fun _ hmem => congrArg List.length (Session.mem_rerunsOf.1 hmem).2

/-! ### What turns keep -/

/-- Whatever holds at the start and is kept by every turn holds all along. -/
theorem Turns.keep {start next : WorkList σ} (h : Turns settings backend start next)
    (P : WorkList σ → Prop) (hstart : P start)
    (hturn : ∀ {work work'}, Turn settings backend work work' → P work → P work') :
    P next := by
  induction h with
  | refl => exact hstart
  | tail _ hlast ih => exact hturn hlast ih

/-- In a list that is worked off no re-run is blocked. -/
theorem not_blocked_of_turns {work : WorkList σ} {session : Session σ}
    (h : Turns settings backend work ⟨[], session⟩) :
    ∀ rerun ∈ work.reruns, ¬ rerun.Blocked settings := by
  induction h using Relation.ReflTransGen.head_induction_on with
  | refl => simp
  | head hturn _ ih =>
      cases hturn with
      | turn hfree =>
          intro rerun hmem
          rcases List.mem_cons.1 hmem with rfl | hmem
          · exact hfree
          · exact ih rerun (List.mem_append_left _ hmem)

/-- Two lists that come from one and of which the first is worked off: the second
comes to the same end. -/
theorem turns_of_finished {start work : WorkList σ} {session : Session σ}
    (hend : Turns settings backend start ⟨[], session⟩)
    (h : Turns settings backend start work) :
    Turns settings backend work ⟨[], session⟩ := by
  rcases Relation.ReflTransGen.total_of_right_unique turn_unique h hend with h | h
  · exact h
  · cases h using Relation.ReflTransGen.head_induction_on with
    | refl => exact .refl
    | head hturn _ => exact absurd hturn not_turn_nil

end WorkList

end QueryCache
