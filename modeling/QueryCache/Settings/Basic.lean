import QueryCache.Entity

/-!
# Settings

The settings that all queries of a client share.
-/

namespace QueryCache

/-- The settings of a client. -/
structure Settings where
  /-- Where requests are sent to. -/
  endpoint : Option String
  /-- The directive that makes a field local, without its at sign. -/
  localDirective : String
  typenameField : String
  idField : String
  /-- Bare fields that are added to every selection set that is sent. -/
  injectFields : List String
  /-- How many queries a chain of re-runs may pass through. -/
  maxInvalidationDepth : Nat
  /-- Headers that are sent along with every request. -/
  headers : Table String String
deriving DecidableEq

namespace Settings

/-- The settings that hold where nothing else is said. -/
def standard : Settings where
  endpoint := none
  localDirective := "local"
  typenameField := "__typename"
  idField := "id"
  injectFields := ["__typename"]
  maxInvalidationDepth := 16
  headers := []

/-- The settings with another endpoint, which is not checked. -/
def withEndpoint (settings : Settings) (endpoint : String) : Settings :=
  { settings with endpoint := some endpoint }

/-- The fields that make an object an entity. -/
def identity (settings : Settings) : Identity :=
  ⟨settings.typenameField, settings.idField⟩

end Settings

end QueryCache
