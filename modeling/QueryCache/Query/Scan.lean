import QueryCache.Query.Literal

/-!
# Reading query texts, token by token

A `Parser` moves a cursor over a text and gives a value, or does not match.
Choice is ordered, and a repetition takes as much as it can and never gives
anything back. A token is read after the blanks, commas and comments before it.

A construct can match and still be refused, because a number is too large or
selections nest too deeply. The first such `Fault` is kept in the cursor, so
that it is reported only when the whole text has matched.
-/

namespace QueryCache

/-- Why a text that matches the grammar is refused. -/
inductive Fault where
  | invalidNumber
  | recursionLimit
deriving DecidableEq

/-- The text that is left, and the first fault so far. -/
structure Cursor where
  rest : List Char
  fault : Option Fault
deriving DecidableEq

/-- A reader of a construct. -/
abbrev Parser (α : Type) := StateT Cursor Option α

namespace Parser

variable {α β : Type}

/-- Tries `p`, and `q` where `p` does not match. -/
def orElse (p q : Parser α) : Parser α := fun cursor =>
  match p cursor with
  | some result => some result
  | none => q cursor

/-- `p`, or nothing. -/
def optional (p : Parser α) : Parser (Option α) := fun cursor =>
  match p cursor with
  | some (value, cursor) => some (some value, cursor)
  | none => some (none, cursor)

/-- At most `fuel` times `p`, as often as it matches. -/
def manyWithin (p : Parser α) : Nat → Cursor → List α × Cursor
  | 0, cursor => ([], cursor)
  | fuel + 1, cursor =>
    match p cursor with
    | none => ([], cursor)
    | some (value, cursor) =>
      let (values, cursor) := manyWithin p fuel cursor
      (value :: values, cursor)

/-- `p` as often as it matches. Each match of a construct takes a character, so
the length of the text bounds their number. -/
def many (p : Parser α) : Parser (List α) := fun cursor =>
  some (manyWithin p cursor.rest.length cursor)

/-- `p` at least once. -/
def many1 (p : Parser α) : Parser (List α) := do
  let first ← p
  let others ← many p
  return first :: others

/-- Keeps a fault, unless there was one before. -/
def raise (fault : Fault) : Parser Unit := fun cursor =>
  some ((), { cursor with fault := cursor.fault.or (some fault) })

/-- Never matches. -/
def fail : Parser α := fun _ => none

/-! ### Tokens -/

/-- The characters between tokens: blank, comma, tab, byte order mark, CR and
LF. -/
def isBlank (c : Char) : Bool :=
  c == ' ' || c == ',' || c == '\t' || c == '\ufeff' || c == '\r' || c == '\n'

/-- The text without the blanks and comments at its start. A comment runs from
`#` to the end of the line; `inComment` says that it has begun. -/
def skipFrom : Bool → List Char → List Char
  | _, [] => []
  | false, c :: rest =>
    if isBlank c then skipFrom false rest
    else if c = '#' then skipFrom true rest
    else c :: rest
  | true, c :: rest => skipFrom (!(c == '\r' || c == '\n')) rest

/-- The text from its first token on. -/
def skip (text : List Char) : List Char := skipFrom false text

/-- The text after `expected`, if it starts with that. -/
def dropToken? : List Char → List Char → Option (List Char)
  | [], text => some text
  | e :: expected, c :: text => if e = c then dropToken? expected text else none
  | _ :: _, [] => none

/-- Reads a token with a function on the text. -/
def scan (read : List Char → Option (α × List Char)) : Parser α := fun cursor =>
  (read (skip cursor.rest)).map fun (value, rest) => (value, { cursor with rest })

/-- A fixed token. A keyword need not end where a name would. -/
def token (expected : String) : Parser Unit :=
  scan fun text => (dropToken? expected.toList text).map ((), ·)

/-- A letter or an underscore. -/
def isNameStart (c : Char) : Bool :=
  ('a' ≤ c && c ≤ 'z') || ('A' ≤ c && c ≤ 'Z') || c == '_'

/-- A letter, an underscore or a digit. -/
def isNameChar (c : Char) : Bool := isNameStart c || ('0' ≤ c && c ≤ '9')

/-- A name at the start of a text. -/
def readName? (text : List Char) : Option (String × List Char) :=
  match text with
  | c :: rest =>
    if isNameStart c then
      some (String.ofList (c :: rest.takeWhile isNameChar), rest.dropWhile isNameChar)
    else
      none
  | [] => none

/-- A name. -/
def name : Parser String := scan readName?

/-- A numeral that no name follows directly. -/
def readNumeral? (text : List Char) : Option (Numeral × List Char) :=
  match Numeral.read? text with
  | some (numeral, rest) =>
    match rest with
    | c :: _ => if isNameStart c then none else some (numeral, rest)
    | [] => some (numeral, rest)
  | none => none

/-- A type without blanks in it. `fuel` bounds the number of brackets. -/
def readType? : Nat → List Char → Option (List Char × List Char)
  | 0, _ => none
  | fuel + 1, text => do
    let (base, rest) ← match text with
      | '[' :: rest => do
        let (inner, rest) ← readType? fuel rest
        match rest with
        | ']' :: rest => some ('[' :: inner ++ [']'], rest)
        | _ => none
      | _ => (readName? text).map fun (name, rest) => (name.toList, rest)
    match rest with
    | '!' :: rest => return (base ++ ['!'], rest)
    | _ => return (base, rest)

/-- A type. -/
def type : Parser String :=
  scan fun text => (readType? text.length text).map fun (chars, rest) =>
    (String.ofList chars, rest)

/-- A type condition at the start of a text: `on`, at least one blank, and a
name. No comment may stand between them. -/
def readCondition? : List Char → Option (String × List Char)
  | 'o' :: 'n' :: c :: rest =>
    if isBlank c then readName? (rest.dropWhile isBlank) else none
  | _ => none

/-- A type condition. -/
def condition : Parser String := scan readCondition?

/-- Matches where no type condition stands. -/
def noCondition : Parser Unit := fun cursor =>
  match condition cursor with
  | some _ => none
  | none => some ((), cursor)

/-! ### Literals -/

/-- A literal, with or without variables in it. `fuel` bounds the nesting. -/
def literal (withVariables : Bool) : Nat → Parser Literal
  | 0 => fail
  | fuel + 1 =>
    let reference : Parser Literal := do
      token "$"
      return .reference (← name)
    let list : Parser Literal := do
      token "["
      let items ← many (literal withVariables fuel)
      token "]"
      return .list items
    let field : Parser (String × Literal) := do
      let fieldName ← name
      token ":"
      let value ← literal withVariables fuel
      return (fieldName, value)
    let object : Parser Literal := do
      token "\x7b"
      let fields ← many field
      token "\x7d"
      return .object fields
    let keyword (text : String) (value : Literal) : Parser Literal := do
      token text
      return value
    orElse (if withVariables then reference else fail) <|
    orElse (Literal.numeral <$> scan readNumeral?) <|
    orElse (Literal.string <$> scan Literal.readString?) <|
    orElse (keyword "true" (.bool true)) <|
    orElse (keyword "false" (.bool false)) <|
    orElse (keyword "null" .null) <|
    orElse (Literal.enum <$> name) <|
    orElse list object

/-- The printed form of a literal. A literal without one is a fault, and the
text that stands for it is never seen. -/
def printed (literal : Literal) : Parser String :=
  match literal.chars? with
  | some chars => return String.ofList chars
  | none => do
    raise .invalidNumber
    return ""

/-- The printed form of the literal that is read next. -/
def value (withVariables : Bool) : Parser String := fun cursor =>
  (do printed (← literal withVariables cursor.rest.length) : Parser String) cursor

end Parser

end QueryCache
