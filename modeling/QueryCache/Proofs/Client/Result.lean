import QueryCache.Client.Basic
import QueryCache.Proofs.Entity.Flatten
import QueryCache.Proofs.Local.Ordered

/-!
# What a prepared query comes to

`Backend.result` is the outcome of a prepared query as a function of the world
outside alone: the answer of the server with the local values in it, or the
failure of either. A `Backend.Ordered` world answers ordered requests with
ordered values, and then every outcome is ordered (`Backend.ordered_result`).
-/

namespace QueryCache

namespace Backend

variable {σ : Type}

/-- The answer of the server to a prepared query, absent when it is not asked. -/
def answer (backend : Backend σ) (prepared : Prepared) (world : σ) :
    Except Failure (Option Json) × σ :=
  if prepared.split.sendToServer then
    match backend.fetch prepared.request world with
    | (.ok data, world) => (.ok (some data), world)
    | (.error failure, world) => (.error failure.asTransport, world)
  else (.ok none, world)

/-- What a prepared query comes to: the answer of the server with the local
values in it. -/
def result (backend : Backend σ) (prepared : Prepared) (world : σ) :
    Except Failure Json × σ :=
  match backend.answer prepared world with
  | (.error failure, world) => (.error failure, world)
  | (.ok answer, world) =>
    if PathTree.hasPending prepared.split.pathTree then
      match backend.resolve prepared.split.pathTree answer prepared.request.vars world with
      | (.ok resolved, world) => (.ok (merge (answer.getD .emptyObject) resolved), world)
      | (.error failure, world) => (.error failure.asResolver, world)
    else (.ok (answer.getD .emptyObject), world)

variable {backend : Backend σ} {prepared : Prepared} {world : σ} {failure : Failure}

/-- There is no answer exactly if the server is asked and fails. -/
theorem answer_eq_error_iff :
    (backend.answer prepared world).1 = .error failure ↔
      prepared.split.sendToServer = true ∧
        ∃ error, (backend.fetch prepared.request world).1 = .error error ∧
          error.asTransport = failure := by
  rw [answer]
  split
  · rcases backend.fetch prepared.request world with ⟨error | data, next⟩ <;> simp_all
  · simp_all

/-- There is no result exactly if there is no answer, or a resolver fails. -/
theorem result_eq_error_iff :
    (backend.result prepared world).1 = .error failure ↔
      (backend.answer prepared world).1 = .error failure ∨
        ∃ answer next, backend.answer prepared world = (.ok answer, next) ∧
          PathTree.hasPending prepared.split.pathTree = true ∧
          ∃ error, (backend.resolve prepared.split.pathTree answer prepared.request.vars
              next).1 = .error error ∧ error.asResolver = failure := by
  rw [result]
  rcases backend.answer prepared world with ⟨error | answer, next⟩
  · simp
  · dsimp only
    split
    · rcases hresolve : backend.resolve prepared.split.pathTree answer prepared.request.vars
        next with ⟨error | resolved, last⟩ <;> simp_all
    · simp_all

/-- The failure that a query comes to is one of the transport or of a resolver. -/
theorem isRecordable_of_result
    (h : (backend.result prepared world).1 = .error failure) :
    failure.isRecordable = true := by
  rcases result_eq_error_iff.1 h with hanswer | ⟨answer, next, -, -, error, -, rfl⟩
  · obtain ⟨-, error, -, rfl⟩ := answer_eq_error_iff.1 hanswer
    exact error.isRecordable_asTransport
  · exact error.isRecordable_asResolver

end Backend

namespace QueryState

/-- The state that records an outcome. -/
def ofOutcome : Except Failure Json → QueryState
  | .ok data => .ready data
  | .error failure => .failed failure

end QueryState

namespace Snapshots

/-- The entities of an outcome. A failure has none. -/
def ofOutcome (identity : Identity) : Except Failure Json → Snapshots
  | .ok data => flatten data identity
  | .error _ => []

end Snapshots

namespace Prepared

/-- The values that a prepared query carries have their members in order. -/
structure Ordered (prepared : Prepared) : Prop where
  vars : Json.Ordered (.object prepared.request.vars)
  tree : PathTree.Ordered prepared.split.pathTree

theorem ordered_ofDocument {settings : Settings} {document : Document} {vars : Variables}
    (hvars : Json.Ordered (.object vars)) {prepared : Prepared}
    (h : ofDocument settings document vars = .ok prepared) : prepared.Ordered := by
  rw [ofDocument] at h
  cases hinlined : document.inlineFragments.mapError Failure.query with
  | error failure => simp [hinlined, bind, Except.bind] at h
  | ok inlined =>
      simp only [hinlined, bind, Except.bind, pure, Except.pure, Except.ok.injEq] at h
      subst h
      exact ⟨hvars, Document.ordered_split settings.localDirective inlined⟩

end Prepared

namespace Backend

variable {σ : Type}

/-- Asked with values in order, the world outside answers with values in order. -/
structure Ordered (backend : Backend σ) : Prop where
  fetch : ∀ request world data, Json.Ordered (.object request.vars) →
    (backend.fetch request world).1 = .ok data → data.Ordered
  resolve : ∀ tree answer vars world resolved, PathTree.Ordered tree →
    (∀ data, answer = some data → data.Ordered) → Json.Ordered (.object vars) →
      (backend.resolve tree answer vars world).1 = .ok resolved → PathTree.Ordered resolved

theorem ordered_answer {backend : Backend σ} (h : backend.Ordered) {prepared : Prepared}
    (hprepared : prepared.Ordered) {world : σ} {answer : Option Json}
    (hanswer : (backend.answer prepared world).1 = .ok answer) :
    ∀ data, answer = some data → data.Ordered := by
  intro data hdata
  subst hdata
  rw [Backend.answer] at hanswer
  split at hanswer
  · apply h.fetch prepared.request world data hprepared.vars
    rcases hfetch : backend.fetch prepared.request world with ⟨failure | fetched, world'⟩
    · simp [hfetch] at hanswer
    · simp only [hfetch, Except.ok.injEq, Option.some.injEq] at hanswer
      rw [hanswer]
  · simp at hanswer

theorem ordered_result {backend : Backend σ} (h : backend.Ordered) {prepared : Prepared}
    (hprepared : prepared.Ordered) {world : σ} {data : Json}
    (hdata : (backend.result prepared world).1 = .ok data) : data.Ordered := by
  rw [result] at hdata
  rcases hanswer : backend.answer prepared world with ⟨failure | answer, world'⟩
  · simp [hanswer] at hdata
  · rw [hanswer] at hdata
    dsimp only at hdata
    have hordered : ∀ data, answer = some data → data.Ordered :=
      ordered_answer h hprepared (congrArg Prod.fst hanswer)
    have hserver : (answer.getD .emptyObject).Ordered := by
      cases answer with
      | none => exact Json.ordered_emptyObject
      | some data => exact hordered data rfl
    split at hdata
    · rcases hresolve : backend.resolve prepared.split.pathTree answer
        prepared.request.vars world' with ⟨failure | resolved, world''⟩
      · simp [hresolve] at hdata
      · simp only [hresolve, Except.ok.injEq] at hdata
        have htree := h.resolve _ _ _ _ resolved hprepared.tree hordered hprepared.vars
          (congrArg Prod.fst hresolve)
        exact hdata ▸ merge_ordered hserver htree
    · simp only [Except.ok.injEq] at hdata
      exact hdata ▸ hserver

/-- The entities of an outcome are a sorted table of ordered objects. -/
theorem flat_result {backend : Backend σ} (h : backend.Ordered) {prepared : Prepared}
    (hprepared : prepared.Ordered) (identity : Identity) (world : σ) :
    (Snapshots.ofOutcome identity (backend.result prepared world).1).Flat := by
  cases houtcome : (backend.result prepared world).1 with
  | ok data => exact flat_flatten (ordered_result h hprepared houtcome) identity
  | error failure => exact Snapshots.flat_nil

end Backend

end QueryCache
