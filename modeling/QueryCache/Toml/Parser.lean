import QueryCache.Toml.Quoted
import QueryCache.Toml.Table

/-!
# Reading TOML

A document is read line by line into `TomlLine`s, whose tables are then put
together: `TomlTable.ofText?`. Arrays and tables written as values may stand
inside each other up to `TomlScanner.nestingLimit`, and a key has at most as many
names. Integers have 64 bits. Of a number with a fraction or an exponent only
its size is looked at: one above the largest double is refused, unless it is
negative.
-/

namespace QueryCache

namespace TomlScanner

/-- How many values may stand inside each other, and how many names a key may
have. -/
def nestingLimit : Nat := 79

/-! ### Blanks and comments -/

/-- A comment, without the end of its line. -/
def comment : Scanner Unit := do
  Scanner.word "#"
  let _ ← Scanner.span Quoted.isCommentChar

/-- The rest of a line that says nothing more. -/
def lineEnd : Scanner Unit := do
  Quoted.blanks
  let _ ← Scanner.optional comment
  Scanner.orElse Quoted.newline Scanner.atEnd

/-- Blanks, line ends and comments between the items of an array. -/
def gap : Scanner Unit := do
  let blank : Scanner Unit := do
    let _ ← Scanner.satisfy Quoted.isBlank
  let remark : Scanner Unit := do
    comment
    Quoted.newline
  let _ ← Scanner.many (Scanner.firstOf [blank, Quoted.newline, remark])

/-! ### Numbers -/

/-- Digits to a base, with single underscores between some of them. -/
def digits (base : Nat) : Scanner (List Nat) := do
  let one : Scanner Nat := fun text =>
    match text with
    | c :: rest =>
      match Text.hexValue? c with
      | some d => if d < base then some (d, rest) else none
      | none => none
    | [] => none
  let further : Scanner Nat := do
    Scanner.word "_"
    one
  let first ← one
  let others ← Scanner.many (Scanner.orElse one further)
  return first :: others

/-- A sign; true for a minus. -/
def sign : Scanner Bool := do
  let found ← Scanner.optional (Scanner.satisfy fun c => c == '+' || c == '-')
  return found == some '-'

/-- A sign and decimal digits. No digit follows a leading zero. -/
def wholePart : Scanner (Bool × List Nat) := do
  let negative ← sign
  let ds ← Scanner.orElse
    (do
      Scanner.word "0"
      return [0])
    (digits 10)
  return (negative, ds)

/-- The number of integers of 64 bits on either side of zero. -/
def integerBound : Nat := 9223372036854775808

/-- An integer of 64 bits. -/
def checkedInteger (value : Int) : Scanner TomlTree :=
  if -integerBound ≤ value ∧ value < integerBound then pure (.integer value) else Scanner.fail

/-- An integer to a base that a word in front names. -/
def basedInteger (name : String) (base : Nat) : Scanner TomlTree := do
  Scanner.word name
  checkedInteger (Scanner.ofDigits base (← digits base))

/-- An integer. -/
def integer : Scanner TomlTree :=
  let decimal : Scanner TomlTree := do
    let (negative, ds) ← wholePart
    let magnitude : Int := Scanner.ofDigits 10 ds
    checkedInteger (if negative then -magnitude else magnitude)
  Scanner.firstOf
    [basedInteger "0x" 16, basedInteger "0o" 8, basedInteger "0b" 2, decimal]

/-- The digits after a point. -/
def fraction : Scanner (List Nat) := do
  Scanner.word "."
  digits 10

/-- An exponent. -/
def exponent : Scanner Int := do
  let _ ← Scanner.satisfy fun c => c == 'e' || c == 'E'
  let negative ← sign
  let magnitude : Int := Scanner.ofDigits 10 (← digits 10)
  return if negative then -magnitude else magnitude

/-- The magnitude from which on numbers round to infinity. -/
def infinityBound : Nat := Nat.pow 2 1024 - Nat.pow 2 970

/-- A number times a power of ten rounds to infinity. -/
def roundsToInfinity (significand : Nat) (power : Int) : Bool :=
  if significand = 0 then false
  else if 0 ≤ power then
    310 ≤ power || infinityBound ≤ significand * Nat.pow 10 power.toNat
  else if (Nat.toDigits 10 significand).length ≤ power.natAbs then false
  else infinityBound * Nat.pow 10 power.natAbs ≤ significand

/-- A number with a fraction or an exponent. -/
def float : Scanner TomlTree := do
  let (negative, whole) ← wholePart
  let decimals ← Scanner.optional fraction
  let power ← Scanner.optional exponent
  if decimals.isNone && power.isNone then Scanner.fail
  else
    let decimals := decimals.getD []
    let significand := Scanner.ofDigits 10 (whole ++ decimals)
    let power := power.getD 0 - decimals.length
    if !negative && roundsToInfinity significand power then Scanner.fail
    else pure .float

/-- Infinity, or what is no number. -/
def specialFloat : Scanner TomlTree := do
  let _ ← sign
  Scanner.orElse (Scanner.word "inf") (Scanner.word "nan")
  return .float

/-! ### Values -/

/-- A truth value. -/
def truthValue : Scanner TomlTree :=
  let keyword (text : String) (value : Bool) : Scanner TomlTree := do
    Scanner.word text
    return .bool value
  Scanner.orElse (keyword "true" true) (keyword "false" false)

/-- A value that holds no other values. -/
def scalar : Scanner TomlTree :=
  Scanner.firstOf
    [TomlTree.string <$> Quoted.read, TomlTree.moment <$> Moment.read, float,
      specialFloat, integer, truthValue]

/-- A key: names with points between them. -/
def key : Scanner TomlKey := do
  let part : Scanner String := do
    Quoted.blanks
    let name ← Quoted.readName
    Quoted.blanks
    return name
  let names ← Scanner.separated part (Scanner.word ".")
  match names.reverse with
  | name :: path =>
    if names.length ≤ nestingLimit then return ⟨path.reverse, name⟩ else Scanner.fail
  | [] => Scanner.fail

/-- An array, from a reader of its items. -/
def array (item : Scanner TomlTree) : Scanner TomlTree := do
  let spaced : Scanner TomlTree := do
    gap
    let value ← item
    gap
    return value
  let filled : Scanner (List TomlTree) := do
    let items ← Scanner.separated spaced (Scanner.word ",")
    let _ ← Scanner.optional (Scanner.word ",")
    return items
  Scanner.word "["
  let items ← Scanner.optional filled
  gap
  Scanner.word "]"
  return .array (items.getD [])

/-- A table that is written as a value, from a reader of its values. -/
def table (item : Scanner TomlTree) : Scanner TomlTree := do
  let entry : Scanner (TomlKey × TomlTree) := do
    let name ← key
    Scanner.word "="
    Quoted.blanks
    let value ← item
    Quoted.blanks
    return (name, value)
  Scanner.word "\x7b"
  let entries ← Scanner.optional (Scanner.separated entry (Scanner.word ","))
  Quoted.blanks
  Scanner.word "\x7d"
  return .table (entries.getD [])

/-- A value in which at most so many values stand inside each other. -/
def value : Nat → Scanner TomlTree
  | 0 => scalar
  | depth + 1 =>
    Scanner.firstOf [scalar, array (value depth), table (value depth)]

/-! ### Lines -/

/-- A line with an entry. -/
def entryLine : Scanner TomlLine := do
  let name ← key
  Scanner.word "="
  Quoted.blanks
  let tree ← value nestingLimit
  lineEnd
  return .entry name tree

/-- A line with the header of a table. -/
def headerLine : Scanner TomlLine := do
  Scanner.word "["
  let name ← key
  Scanner.word "]"
  lineEnd
  return .header name

/-- A line with the header of a table in a list. -/
def itemLine : Scanner TomlLine := do
  Scanner.word "[["
  let name ← key
  Scanner.word "]]"
  lineEnd
  return .item name

/-- A line that says nothing. -/
def emptyLine : Scanner (Option TomlLine) := do
  Scanner.orElse Quoted.newline do
    comment
    Scanner.orElse Quoted.newline Scanner.atEnd
  return none

/-- A line after its leading blanks. -/
def line : Scanner (Option TomlLine) :=
  Scanner.firstOf [emptyLine, some <$> itemLine, some <$> headerLine, some <$> entryLine]

/-- The lines of a document. A byte order mark may stand in front. -/
def document : Scanner (List TomlLine) := do
  let _ ← Scanner.optional (Scanner.satisfy (· == '\ufeff'))
  let lines ← Scanner.many do
    Quoted.blanks
    line
  Quoted.blanks
  return lines.filterMap id

end TomlScanner

namespace TomlTable

/-- The table that a text stands for. -/
def ofText? (text : String) : Option TomlTable := do
  ofLines? (← Scanner.all? TomlScanner.document text.toList)

end TomlTable

end QueryCache
