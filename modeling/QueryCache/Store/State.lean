import QueryCache.Failure

/-!
# The state of a query

What a subscriber of a query sees. A state is settled when it is not loading:
then it is ready, with data, or failed, with a failure. A fresh state is ready
and free of failures.
-/

namespace QueryCache

/-- The state of a query. -/
structure QueryState where
  loading : Bool
  data : Option Json
  hasError : Bool
  error : Option Failure

namespace QueryState

/-- Nothing is known yet. -/
def initial : QueryState := ⟨true, none, false, none⟩

/-- A result is there. -/
def ready (data : Json) : QueryState := ⟨false, some data, false, none⟩

/-- An execution has failed. -/
def failed (failure : Failure) : QueryState := ⟨false, none, true, some failure⟩

/-- A result is there, nothing is under way and nothing has failed. -/
def isFresh (state : QueryState) : Bool :=
  !state.loading && !state.hasError && state.data.isSome

/-- Equality of states, with results compared by `Json.same`. -/
def same (a b : QueryState) : Bool :=
  let sameData := match a.data, b.data with
    | none, none => true
    | some x, some y => x.same y
    | _, _ => false
  a.loading == b.loading && sameData && a.hasError == b.hasError && a.error == b.error

theorem isFresh_initial : initial.isFresh = false := rfl

theorem isFresh_ready (data : Json) : (ready data).isFresh = true := rfl

theorem isFresh_failed (failure : Failure) : (failed failure).isFresh = false := rfl

end QueryState

end QueryCache
