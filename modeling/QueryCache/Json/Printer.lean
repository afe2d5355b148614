import QueryCache.Json.Basic
import QueryCache.Text.Hexadecimal

/-!
# JSON text

`Json.text` is the compact written form of a value: no blanks, members in the
order of their keys, and of the characters only the quote, the backslash and
those below the blank escaped. Five control characters have a short escape, the
others are written with four lower case hexadecimal digits.
-/

namespace QueryCache

namespace Json

/-- A character inside a quoted string. -/
def escaped (c : Char) : List Char :=
  if c = '"' then ['\\', '"']
  else if c = '\\' then ['\\', '\\']
  else if c = '\x08' then ['\\', 'b']
  else if c = '\x0c' then ['\\', 'f']
  else if c = '\n' then ['\\', 'n']
  else if c = '\r' then ['\\', 'r']
  else if c = '\t' then ['\\', 't']
  else if c < ' ' then
    '\\' :: 'u' :: Text.hexPadded .lower 4 c.toNat
  else [c]

/-- A quoted string. -/
def quoted (s : String) : List Char :=
  '"' :: s.toList.flatMap escaped ++ ['"']

mutual

/-- The characters of the written form. -/
def chars : Json → List Char
  | null => ['n', 'u', 'l', 'l']
  | bool true => ['t', 'r', 'u', 'e']
  | bool false => ['f', 'a', 'l', 's', 'e']
  | number value => value.text
  | string value => quoted value
  | array items => '[' :: itemChars items ++ [']']
  | object members => '\x7b' :: memberChars members ++ ['\x7d']
termination_by structural x => x

/-- The items of an array, separated by commas. -/
def itemChars : List Json → List Char
  | [] => []
  | [x] => chars x
  | x :: rest => chars x ++ ',' :: itemChars rest
termination_by structural xs => xs

/-- The members of an object, separated by commas. -/
def memberChars : List (String × Json) → List Char
  | [] => []
  | [(k, x)] => quoted k ++ ':' :: chars x
  | (k, x) :: rest => quoted k ++ ':' :: chars x ++ ',' :: memberChars rest
termination_by structural xs => xs

end

/-- The written form. -/
def text (value : Json) : String := String.ofList value.chars

end Json

end QueryCache
