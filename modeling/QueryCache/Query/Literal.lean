import QueryCache.Number.Numeral
import QueryCache.Query.Printer
import QueryCache.Text.Escape
import QueryCache.Text.Hexadecimal

/-!
# Literals in query texts

`Literal` is the value of an argument or a default: a variable, a number, a
string, a truth value, `null`, an enumeration value, a list or an object.
`Literal.chars?` is its printed form, the form in which a document keeps it. A
number prints as `Number.text`, so a literal with a numeral beyond the largest
double has no printed form. Strings of either spelling print in double quotes,
with the control characters other than CR, LF and tab written as `\u` and their
decimal code.
-/

namespace QueryCache

/-- A literal as it is written in a query text. -/
inductive Literal where
  | reference (name : String)
  | numeral (value : Numeral)
  | string (value : List Char)
  | bool (value : Bool)
  | null
  | enum (name : String)
  | list (items : List Literal)
  | object (fields : List (String × Literal))

namespace Literal

/-! ### Printing -/

/-- The control characters: those below the blank, and those from U+007F to
U+009F. -/
def isControl (c : Char) : Bool :=
  c.toNat < 0x20 || (0x7F ≤ c.toNat && c.toNat < 0xA0)

/-- At least four decimal digits. -/
def fourDigits (n : Nat) : List Char :=
  let digits := Decimal.digitsOf n
  List.replicate (4 - digits.length) '0' ++ digits

/-- A character inside a printed string. -/
def escaped (c : Char) : List Char :=
  if c = '\r' then ['\\', 'r']
  else if c = '\n' then ['\\', 'n']
  else if c = '\t' then ['\\', 't']
  else if c = '"' then ['\\', '"']
  else if c = '\\' then ['\\', '\\']
  else if isControl c then '\\' :: 'u' :: fourDigits c.toNat
  else [c]

/-- A printed string. -/
def quoted (value : List Char) : List Char :=
  '"' :: value.flatMap escaped ++ ['"']

/-- Puts a field into an object literal. A name that stands there already
keeps its place and takes the new value. -/
def setField {α : Type} : List (String × α) → String → α → List (String × α)
  | [], name, value => [(name, value)]
  | (other, old) :: rest, name, value =>
    if other = name then (name, value) :: rest
    else (other, old) :: setField rest name value

/-- A field of an object literal. -/
def fieldChars (field : String × List Char) : List Char :=
  field.1.toList ++ ':' :: ' ' :: field.2

mutual

/-- The printed form of a literal, unless a number in it is too large. -/
def chars? : Literal → Option (List Char)
  | reference name => some ('$' :: name.toList)
  | numeral value => value.value?.map Number.text
  | string value => some (quoted value)
  | bool true => some "true".toList
  | bool false => some "false".toList
  | null => some "null".toList
  | enum name => some name.toList
  | list items => do
    let printed ← itemChars? items
    return '[' :: commaSeparated printed ++ [']']
  | object fields => do
    let printed ← fieldChars? fields
    let merged := printed.foldl (fun acc field => setField acc field.1 field.2) []
    return '\x7b' :: commaSeparated (merged.map fieldChars) ++ ['\x7d']
termination_by structural value => value

/-- The printed forms of the items of a list. -/
def itemChars? : List Literal → Option (List (List Char))
  | [] => some []
  | item :: rest => do
    let printed ← chars? item
    let others ← itemChars? rest
    return printed :: others
termination_by structural items => items

/-- The names and printed values of the fields of an object. -/
def fieldChars? : List (String × Literal) → Option (List (String × List Char))
  | [] => some []
  | (name, value) :: rest => do
    let printed ← chars? value
    let others ← fieldChars? rest
    return (name, printed) :: others
termination_by structural fields => fields

end

/-! ### Quoted strings -/

/-- The character that four hexadecimal digits name. Half of a surrogate pair
is no character. -/
def hexChar? (a b c d : Char) : Option Char := do
  let point ← Text.hexNumber? [a, b, c, d]
  if 0xD800 ≤ point ∧ point < 0xE000 then none else some (Char.ofNat point)

/-- The content of a string up to its closing quote, and the text after it.
`fuel` bounds the number of characters. -/
def content? : Nat → List Char → Option (List Char × List Char)
  | _, '"' :: rest => some ([], rest)
  | 0, _ => none
  | fuel + 1, '\\' :: 'u' :: a :: b :: c :: d :: rest => do
    let first ← hexChar? a b c d
    let (others, rest) ← content? fuel rest
    return (first :: others, rest)
  | fuel + 1, '\\' :: c :: rest => do
    let first ← Text.shortEscape? c
    let (others, rest) ← content? fuel rest
    return (first :: others, rest)
  | fuel + 1, c :: rest =>
    if c = '\\' ∨ c = '\r' ∨ c = '\n' then none
    else do
      let (others, rest) ← content? fuel rest
      return (c :: others, rest)
  | _ + 1, [] => none

/-! ### Block strings -/

/-- The raw content of a block string up to its closing quotes, and the text
after them. An escaped triple quote belongs to the content. -/
def blockContent? : Nat → List Char → Option (List Char × List Char)
  | _, '"' :: '"' :: '"' :: rest => some ([], rest)
  | 0, _ => none
  | fuel + 1, '\\' :: '"' :: '"' :: '"' :: rest => do
    let (others, rest) ← blockContent? fuel rest
    return ('\\' :: '"' :: '"' :: '"' :: others, rest)
  | fuel + 1, c :: rest => do
    let (others, rest) ← blockContent? fuel rest
    return (c :: others, rest)
  | _ + 1, [] => none

/-- Adds a character in front of the first line. -/
def consFirst (c : Char) : List (List Char) → List (List Char)
  | [] => [[c]]
  | line :: rest => (c :: line) :: rest

/-- The lines of a text, which end at CRLF, CR or LF. -/
def textLines : List Char → List (List Char)
  | [] => [[]]
  | '\r' :: '\n' :: rest => [] :: textLines rest
  | '\r' :: rest => [] :: textLines rest
  | '\n' :: rest => [] :: textLines rest
  | c :: rest => consFirst c (textLines rest)

/-- The blanks that indentation is made of. -/
def isIndent (c : Char) : Bool := c == ' ' || c == '\t'

/-- The line holds something but indentation. -/
def hasContent (line : List Char) : Bool := line.any fun c => !isIndent c

/-- The smallest indentation of the lines that hold something. -/
def commonIndent (lines : List (List Char)) : Nat :=
  let indents := (lines.filter hasContent).map fun line =>
    (line.takeWhile isIndent).length
  indents.min?.getD 0

/-- Takes `n` characters off a line that has as many. -/
def outdent (n : Nat) (line : List Char) : List Char :=
  if n ≤ line.length then line.drop n else line

/-- Lines joined by LF. -/
def joinLines : List (List Char) → List Char
  | [] => []
  | [line] => line
  | line :: rest => line ++ '\n' :: joinLines rest

/-- The list without the items at its end that satisfy `p`. -/
def dropLastWhile {α : Type} (p : α → Bool) (items : List α) : List α :=
  (items.reverse.dropWhile p).reverse

/-- The value of a block string. The lines after the first lose their common
indentation, and the lines without content at both ends are dropped. -/
def blockValue (raw : List Char) : List Char :=
  match textLines raw with
  | [] => []
  | first :: others =>
    let lines := first :: others.map (outdent (commonIndent others))
    let isBlank := fun line => !hasContent line
    joinLines (dropLastWhile isBlank (lines.dropWhile isBlank))

/-! ### Reading -/

/-- A string in either spelling. Text that opens like a block string but does
not end like one is read as an empty string followed by a quote. -/
def readString? (text : List Char) : Option (List Char × List Char) :=
  let block := match text with
    | '"' :: '"' :: '"' :: rest =>
      (blockContent? rest.length rest).map fun (raw, rest) => (blockValue raw, rest)
    | _ => none
  match block, text with
  | some found, _ => some found
  | none, '"' :: rest => content? rest.length rest
  | none, _ => none

end Literal

end QueryCache
