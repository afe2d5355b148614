import QueryCache.Entity
import QueryCache.Query.Key
import QueryCache.Text.Outline

/-!
# Events

What a store tells its observers. An event is sent after the change that it
tells of has been made.
-/

namespace QueryCache

/-- A change of a store. -/
inductive Event where
  /-- A query received data. -/
  | queryWritten (key : QueryKey)
  /-- An execution of a query failed. -/
  | queryFailed (key : QueryKey)
  /-- A field that the snapshot of an entity held was written with another
  value. -/
  | entityChanged (key : EntityKey)
  /-- A query has to run again, since a write of `cause` changed one of its
  entities. The writes of mutations have no cause. -/
  | queryInvalidated (query : QueryKey) (cause : Option QueryKey)
  /-- A query was taken out of the store. -/
  | queryEvicted (key : QueryKey)
deriving DecidableEq

namespace Event

/-- The query that an event is about. -/
def query? : Event → Option QueryKey
  | queryWritten key => some key
  | queryFailed key => some key
  | entityChanged _ => none
  | queryInvalidated query _ => some query
  | queryEvicted key => some key

/-- The title of an event. -/
def title : Event → String
  | queryWritten _ => "QueryWritten"
  | queryFailed _ => "QueryFailed"
  | entityChanged key => "EntityChanged(" ++ key.text ++ ")"
  | queryInvalidated _ _ => "QueryInvalidated"
  | queryEvicted _ => "QueryEvicted"

end Event

/-- The outline of a query key. -/
def QueryKey.outline (key : QueryKey) : String :=
  Text.outlineWrapped "QueryKey" (Text.outlineString key.text)

/-- The outline of an entity key. -/
def EntityKey.outline (key : EntityKey) : String :=
  Text.outlineWrapped "EntityKey" (Text.outlineString key.text)

/-- The outline of an event. -/
def Event.outline : Event → String
  | queryWritten key => Text.outlineWrapped "QueryWritten" key.outline
  | queryFailed key => Text.outlineWrapped "QueryFailed" key.outline
  | entityChanged key => Text.outlineWrapped "EntityChanged" key.outline
  | queryInvalidated query cause =>
    Text.outlineRecord "QueryInvalidated"
      [("query", query.outline),
        ("by", Text.outlineOption (cause.map QueryKey.outline))]
  | queryEvicted key => Text.outlineWrapped "QueryEvicted" key.outline

end QueryCache
