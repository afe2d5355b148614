import QueryCache.Json.Basic
import QueryCache.Number.Numeral
import QueryCache.Text.Escape
import QueryCache.Text.Hexadecimal
import QueryCache.Text.Utf8

/-!
# Reading JSON text

Text is read in two steps. `JsonText.read?` checks the grammar and gives a
syntax tree whose strings and numbers may still lack a value: a string with an
unpaired surrogate escape and a numeral beyond the largest double are grammatical.
`JsonText.value?` then gives the value of the tree, if every part has one and
containers do not nest too deeply. Of members with equal names the last one
counts. A reader that skips some parts of a text uses the tree alone for them.

Text from elsewhere comes as bytes, and is read by `JsonText.ofBytes?`. Bytes that are not UTF-8
can only stand in strings, and leave these without a value.
-/

namespace QueryCache

/-- The syntax tree of a JSON text. A string is missing when an escape in it
names half of a surrogate pair. -/
inductive JsonText where
  | null
  | bool (value : Bool)
  | numeral (numeral : Numeral)
  | string (value : Option String)
  | array (items : List JsonText)
  | object (members : List (Option String × JsonText))

namespace JsonText

/-- How many containers may stand inside each other. -/
def nestingLimit : Nat := 127

/-! ### Values -/

mutual

/-- The value of a tree in which at most `depth` containers nest. -/
def valueWithin? : Nat → JsonText → Option Json
  | _, null => some .null
  | _, bool value => some (.bool value)
  | _, numeral n => n.value?.map .number
  | _, string value => value.map .string
  | 0, array _ => none
  | depth + 1, array items => (itemsWithin? depth items).map .array
  | 0, object _ => none
  | depth + 1, object members =>
    (membersWithin? depth members).map fun entries => .object (Table.ofList entries)
termination_by structural _ tree => tree

/-- The values of the items of an array. -/
def itemsWithin? : Nat → List JsonText → Option (List Json)
  | _, [] => some []
  | depth, tree :: rest => do
    let value ← valueWithin? depth tree
    let values ← itemsWithin? depth rest
    return value :: values
termination_by structural _ trees => trees

/-- The names and values of the members of an object, in the order of the
text. -/
def membersWithin? :
    Nat → List (Option String × JsonText) → Option (List (String × Json))
  | _, [] => some []
  | depth, (name, tree) :: rest => do
    let name ← name
    let value ← valueWithin? depth tree
    let entries ← membersWithin? depth rest
    return (name, value) :: entries
termination_by structural _ trees => trees

end

/-- The value of a tree that nests no deeper than `nestingLimit`. -/
def value? (tree : JsonText) : Option Json := valueWithin? nestingLimit tree

/-! ### Strings -/

/-- Four hexadecimal digits. -/
def hexQuad? : List Char → Option (Nat × List Char)
  | a :: b :: c :: d :: rest => (Text.hexNumber? [a, b, c, d]).map (·, rest)
  | _ => none

/-- The code units of a string up to its closing quote, and the text after it.
A character that stands for itself is its code point. `fuel` bounds the number
of units. -/
def units? : Nat → List Char → Option (List Nat × List Char)
  | _, '"' :: rest => some ([], rest)
  | 0, _ => none
  | fuel + 1, '\\' :: 'u' :: rest => do
    let (unit, rest) ← hexQuad? rest
    let (units, rest) ← units? fuel rest
    return (unit :: units, rest)
  | fuel + 1, '\\' :: c :: rest => do
    let c ← Text.shortEscape? c
    let (units, rest) ← units? fuel rest
    return (c.toNat :: units, rest)
  | fuel + 1, c :: rest =>
    if c < ' ' ∨ c = '\\' then none
    else do
      let (units, rest) ← units? fuel rest
      return (c.toNat :: units, rest)
  | _ + 1, [] => none

/-- The first half of a surrogate pair. -/
def isHighSurrogate (unit : Nat) : Bool := 0xD800 ≤ unit && unit < 0xDC00

/-- The second half of a surrogate pair. -/
def isLowSurrogate (unit : Nat) : Bool := 0xDC00 ≤ unit && unit < 0xE000

/-- Joins surrogate pairs. Half a pair has no character. -/
def joined? : List Nat → Option (List Char)
  | [] => some []
  | unit :: rest =>
    if isHighSurrogate unit then
      match rest with
      | [] => none
      | next :: rest =>
        if isLowSurrogate next then do
          let chars ← joined? rest
          let point := 0x10000 + (unit - 0xD800) * 0x400 + (next - 0xDC00)
          return Char.ofNat point :: chars
        else none
    else if isLowSurrogate unit then none
    else do
      let chars ← joined? rest
      return Char.ofNat unit :: chars

/-- A string after its opening quote. -/
def quoted? (text : List Char) : Option (Option String × List Char) := do
  let (units, rest) ← units? text.length text
  return ((joined? units).map String.ofList, rest)

/-! ### The grammar -/

/-- A blank between the tokens of a text. -/
def isBlank (c : Char) : Bool := c == ' ' || c == '\t' || c == '\n' || c == '\r'

/-- The text without leading blanks. -/
def skipBlank (text : List Char) : List Char := text.dropWhile isBlank

mutual

/-- A value and the text after it. `fuel` bounds the number of steps. -/
def tree? : Nat → List Char → Option (JsonText × List Char)
  | 0, _ => none
  | fuel + 1, text =>
    match skipBlank text with
    | 'n' :: 'u' :: 'l' :: 'l' :: rest => some (null, rest)
    | 't' :: 'r' :: 'u' :: 'e' :: rest => some (bool true, rest)
    | 'f' :: 'a' :: 'l' :: 's' :: 'e' :: rest => some (bool false, rest)
    | '"' :: rest => do
      let (value, rest) ← quoted? rest
      return (string value, rest)
    | '[' :: rest =>
      match skipBlank rest with
      | ']' :: rest => some (array [], rest)
      | rest => do
        let (items, rest) ← items? fuel rest
        return (array items, rest)
    | '\x7b' :: rest =>
      match skipBlank rest with
      | '\x7d' :: rest => some (object [], rest)
      | rest => do
        let (members, rest) ← members? fuel rest
        return (object members, rest)
    | rest => do
      let (n, rest) ← Numeral.read? rest
      return (numeral n, rest)

/-- The items of an array up to its closing bracket. -/
def items? : Nat → List Char → Option (List JsonText × List Char)
  | 0, _ => none
  | fuel + 1, text => do
    let (item, rest) ← tree? fuel text
    match skipBlank rest with
    | ',' :: rest =>
      let (items, rest) ← items? fuel rest
      return (item :: items, rest)
    | ']' :: rest => return ([item], rest)
    | _ => none

/-- The members of an object up to its closing brace. -/
def members? :
    Nat → List Char → Option (List (Option String × JsonText) × List Char)
  | 0, _ => none
  | fuel + 1, text =>
    match skipBlank text with
    | '"' :: rest => do
      let (name, rest) ← quoted? rest
      match skipBlank rest with
      | ':' :: rest =>
        let (value, rest) ← tree? fuel rest
        match skipBlank rest with
        | ',' :: rest =>
          let (members, rest) ← members? fuel rest
          return ((name, value) :: members, rest)
        | '\x7d' :: rest => return ([(name, value)], rest)
        | _ => none
      | _ => none
    | _ => none

end

/-- The syntax tree of a text that holds one value and blanks only. -/
def read? (text : String) : Option JsonText := do
  let (tree, rest) ← tree? (text.length + 1) text.toList
  if (skipBlank rest).isEmpty then some tree else none

/-- What a byte that belongs to no character is read as. In a string this is half of a surrogate
pair between letters, and the letters are refused outside of strings and after a backslash. -/
def strayByte : List Char := ['x', '\\', 'u', 'd', '8', '0', '0', 'x']

/-- The syntax tree of a text that is given by its bytes. -/
def ofBytes? (bytes : ByteArray) : Option JsonText :=
  read? (String.ofList (Utf8.chars strayByte bytes))

theorem ofBytes?_toUTF8 (text : String) : ofBytes? text.toUTF8 = read? text := by
  rw [ofBytes?, Utf8.chars_toUTF8, String.ofList_toList]

end JsonText

namespace Json

/-- The value of a JSON text. -/
def ofText? (text : String) : Option Json := do
  (← JsonText.read? text).value?

end Json

end QueryCache
