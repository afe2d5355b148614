import QueryCache.FileSystem
import QueryCache.Settings.Check

/-!
# Settings in files

`Settings.save` writes settings to a file without checking them, and
`Settings.load` reads and checks what a file states. Where there is no file the
standard settings hold.
-/

namespace QueryCache

namespace Settings

/-- Writes settings to a place. -/
def save (settings : Settings) (place : FilePlace) : Except Failure FilePlace := do
  place.write (← settings.toml?)

/-- Reads the settings at a place. -/
def load (place : FilePlace) : Except Failure Settings :=
  match place.content with
  | some text => parse text
  | none => .ok standard

end Settings

end QueryCache
