import QueryCache.Settings.Toml
import QueryCache.Url.Parser

/-!
# Checked settings

Settings hold together when the directive is a bare name, the two fields of an
identity have names, chains of re-runs have some length, and the endpoint, if
there is one, is a URL. `Settings.check` looks at these in order and reports the
first that fails. `Settings.parse` reads a text and checks what it states.
-/

namespace QueryCache

namespace Settings

/-- The URL that a text stands for. -/
def urlOf (text : String) : Except Failure Url :=
  (Url.ofText? text).mapError fun fault => .settings ("Invalid URL: " ++ fault.message)

/-- The URL of the endpoint. -/
def endpointUrl (settings : Settings) : Except Failure Url :=
  match settings.endpoint with
  | some endpoint => urlOf endpoint
  | none => .error (.settings "no endpoint configured")

/-- The directive is a name without an at sign. -/
def hasBareDirective (settings : Settings) : Bool :=
  match settings.localDirective.toList with
  | [] => false
  | c :: _ => c != '@'

/-- Reports the first thing that is wrong with settings. -/
def check (settings : Settings) : Except Failure Unit :=
  if !settings.hasBareDirective then
    .error (.settings ("local_directive must be a bare directive name, got '" ++
      settings.localDirective ++ "'"))
  else if settings.typenameField = "" ∨ settings.idField = "" then
    .error (.settings "typename_field and id_field must not be empty")
  else if settings.maxInvalidationDepth = 0 then
    .error (.settings "max_invalidation_depth must be at least 1")
  else
    match settings.endpoint with
    | some endpoint => (urlOf endpoint).map fun _ => ()
    | none => .ok ()

/-- The checked settings that a text states. -/
def parse (text : String) : Except Failure Settings := do
  let settings ← ofToml? text
  settings.check
  return settings

end Settings

end QueryCache
