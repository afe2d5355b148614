import QueryCache.Url.Address
import QueryCache.Url.HostLabel

/-!
# Names of hosts

A host name consists of labels with points between them. It is spelled in
characters that stand for themselves, and then every label is read by itself:
`Domain.canonical?` is the form in which a name is compared and sent.
-/

namespace QueryCache

namespace Domain

/-- Labels with points between them, if they can stand in one name. -/
def ofLabels? (labels : List HostLabel) : Option (List Char) :=
  if labels.any (·.text.any HostLabel.runsLeft) && !labels.all HostLabel.runsOneWay then
    none
  else
    some (['.'].intercalate (labels.map HostLabel.written))

/-- The form of a name in which every letter is in lower case and every character
in ASCII. -/
def canonical? (name : List Char) : Option (List Char) := do
  ofLabels? (← (Text.split (· == '.') (← spelled? name)).mapM HostLabel.ofText?)

end Domain

end QueryCache
