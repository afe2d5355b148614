import QueryCache.Query.Parser

/-!
# Failures

Everything that can go wrong between a query text and its result. A failure is
of one of nine kinds; `Failure.message` is its wording.

Whatever goes wrong while a request is on its way counts as a failure of the
transport, and whatever goes wrong while local fields are resolved as a failure
of a resolver: `Failure.asTransport` and `Failure.asResolver`. These two kinds
are recorded with the query that they belong to, the others are returned.
-/

namespace QueryCache

/-- Something that went wrong. -/
inductive Failure where
  /-- A query is refused. -/
  | query (fault : QueryFault)
  /-- A request did not get an answer with data. -/
  | transport (message : String)
  /-- No result is stored under this key. -/
  | notCached (key : String)
  /-- Re-runs lead back to a query that they came from. -/
  | cyclic (chain : List String)
  /-- A local field did not get a value. -/
  | resolver (message : String)
  /-- Settings are refused. -/
  | settings (message : String)
  /-- A value has no written form, or a text no value. -/
  | encoding (message : String)
  /-- A file could not be read or written, or an event not be delivered. -/
  | fileSystem (message : String)
  /-- Something does not exist. -/
  | notFound (message : String)
deriving DecidableEq

namespace Failure

/-- The wording of a failure. -/
def message : Failure → String
  | query fault => "Query syntax error: " ++ fault.message
  | transport text => "Transport error: " ++ text
  | notCached key => "Query is not cached: " ++ key
  | cyclic chain =>
    "Cyclic invalidation through queries: " ++ " -> ".intercalate chain
  | resolver text => "Local resolver error: " ++ text
  | settings text => "Configuration error: " ++ text
  | encoding text => "(De)Serialization error: " ++ text
  | fileSystem text => "File System error: " ++ text
  | notFound text => "Item Not Found: " ++ text

/-- The failure is recorded with its query instead of being returned. -/
def isRecordable : Failure → Bool
  | transport _ => true
  | resolver _ => true
  | _ => false

/-- A failure as a failure of the transport. -/
def asTransport : Failure → Failure
  | transport text => transport text
  | other => transport other.message

/-- A failure as a failure of a resolver. -/
def asResolver : Failure → Failure
  | resolver text => resolver text
  | other => resolver other.message

theorem isRecordable_asTransport (f : Failure) : f.asTransport.isRecordable = true := by
  cases f <;> rfl

theorem isRecordable_asResolver (f : Failure) : f.asResolver.isRecordable = true := by
  cases f <;> rfl

end Failure

theorem exists_of_isOk {ε α : Type} {found : Except ε α} (h : found.isOk = true) :
    ∃ value, found = .ok value := by
  cases found with
  | error fault => cases h
  | ok value => exact ⟨value, rfl⟩

/-- Steps that succeed together succeed one by one. -/
theorem exists_of_bind_eq_ok {ε α β : Type} {first : Except ε α} {next : α → Except ε β}
    {value : β} (h : first >>= next = .ok value) :
    ∃ found, first = .ok found ∧ next found = .ok value := by
  cases first with
  | error fault => cases h
  | ok found => exact ⟨found, rfl, h⟩

/-- Of steps that fail together the first one fails, or it succeeds and the others fail. -/
theorem of_bind_eq_error {ε α β : Type} {first : Except ε α} {next : α → Except ε β}
    {fault : ε} (h : first >>= next = .error fault) :
    first = .error fault ∨ ∃ found, first = .ok found ∧ next found = .error fault := by
  cases first with
  | error _ =>
      cases h
      exact Or.inl rfl
  | ok found => exact Or.inr ⟨found, rfl, h⟩

end QueryCache
