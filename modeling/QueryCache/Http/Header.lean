import QueryCache.Table

/-!
# Headers of requests

The name of a header is a token in any case and is sent in lower case. Its value
has no control characters but the tab.
-/

namespace QueryCache

/-- A header as it is sent. -/
structure Header where
  name : String
  value : String
deriving DecidableEq

/-- Why a header cannot be sent. -/
inductive HeaderFault where
  | invalidName
  | invalidValue
deriving DecidableEq

namespace HeaderFault

/-- The wording of a fault. -/
def message : HeaderFault → String
  | invalidName => "invalid HTTP header name"
  | invalidValue => "failed to parse header value"

end HeaderFault

namespace Header

/-- The length of the longest name. -/
def maxNameLength : Nat := 65535

/-- A character of a token. -/
def isTokenChar (c : Char) : Bool :=
  c.isAlphanum || "!#$%&'*+-.^_`|~".toList.contains c

/-- A character of a value. -/
def isValueChar (c : Char) : Bool := c == '\t' || (' ' ≤ c && c != '\x7f')

/-- The header with a name and a value. -/
def of? (name value : String) : Except HeaderFault Header :=
  if name.isEmpty || maxNameLength < name.length || !name.toList.all isTokenChar then
    .error .invalidName
  else if !value.toList.all isValueChar then .error .invalidValue
  else .ok ⟨String.ofList (name.toList.map Char.toLower), value⟩

end Header

end QueryCache
