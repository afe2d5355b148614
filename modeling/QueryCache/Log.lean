/-!
# Logs

What a program says of its work while it is doing it.
-/

namespace QueryCache

/-- How urgent a line of a log is. -/
inductive LogLevel where
  | debug
  | warn
deriving DecidableEq

/-- A line of a log. -/
structure LogLine where
  level : LogLevel
  message : String
deriving DecidableEq

namespace LogLine

/-- The level and the message. -/
def text (line : LogLine) : String :=
  (match line.level with
    | .debug => "DEBUG "
    | .warn => "WARN ") ++ line.message

end LogLine

end QueryCache
