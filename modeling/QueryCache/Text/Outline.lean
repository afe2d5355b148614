import QueryCache.Text.Hexadecimal
import QueryCache.Unicode.Invisible
import QueryCache.Unicode.Mark

/-!
# Outlines

The outline of a value shows its structure to a reader: strings in quotes with
everything escaped that cannot be seen by itself, lists in brackets, tables in
braces, and the parts of a record under their names.
-/

namespace QueryCache

namespace Text

/-- A character inside an outlined string. -/
def outlineChar (c : Char) : List Char :=
  if c = '\x00' then ['\\', '0']
  else if c = '\t' then ['\\', 't']
  else if c = '\r' then ['\\', 'r']
  else if c = '\n' then ['\\', 'n']
  else if c = '"' then ['\\', '"']
  else if c = '\\' then ['\\', '\\']
  else if ' ' ≤ c && c ≤ '~' then [c]
  else if Unicode.isExtending c || Unicode.isInvisible c then
    ['\\', 'u', '\x7b'] ++ hexText c.toNat ++ ['\x7d']
  else [c]

/-- A string in quotes. -/
def outlineString (s : String) : String :=
  String.ofList ('"' :: s.toList.flatMap outlineChar ++ ['"'])

/-- Items with a comma and a blank between them. -/
def commas (items : List String) : String := ", ".intercalate items

/-- The outline of a list. -/
def outlineList (items : List String) : String := "[" ++ commas items ++ "]"

/-- The outline of a table, from outlines of keys and values. -/
def outlineTable (entries : List (String × String)) : String :=
  "\x7b" ++ commas (entries.map fun entry => entry.1 ++ ": " ++ entry.2) ++ "\x7d"

/-- The outline of a set. -/
def outlineSet (items : List String) : String := "\x7b" ++ commas items ++ "\x7d"

/-- The outline of a value in a named wrapper. -/
def outlineWrapped (name content : String) : String := name ++ "(" ++ content ++ ")"

/-- The outline of a record with named parts. -/
def outlineRecord (name : String) (parts : List (String × String)) : String :=
  name ++ " \x7b " ++
    commas (parts.map fun part => part.1 ++ ": " ++ part.2) ++ " \x7d"

/-- The outline of a value that can be absent. -/
def outlineOption : Option String → String
  | some content => outlineWrapped "Some" content
  | none => "None"

/-- The outline of a truth value. -/
def outlineBool : Bool → String
  | true => "true"
  | false => "false"

end Text

end QueryCache
