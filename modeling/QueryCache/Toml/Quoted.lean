import QueryCache.Text.Hexadecimal
import QueryCache.Text.Scanner

/-!
# Strings and names in TOML

A string stands in one of four spellings: between single or triple quotes of
either kind. Double quotes take escapes, single ones do not, and a string in
triple quotes may go over several lines. `Quoted.read` reads all of them, with
every line end as a line feed. `Quoted.text` picks the first spelling in which
nothing but a tab has to be escaped, trying double, single, triple double and
triple single quotes, and otherwise escapes what has to be escaped.

A name stands bare if it can, and otherwise in single or double quotes.
-/

namespace QueryCache

namespace Quoted

/-! ### Characters -/

/-- A control character. The tab is not counted. -/
def isControl (c : Char) : Bool := (c < ' ' && c != '\t') || c == '\x7f'

/-- A character that can stand in a comment. -/
def isCommentChar (c : Char) : Bool := !isControl c

/-- A character of a bare name. -/
def isBare (c : Char) : Bool :=
  ('a' ≤ c && c ≤ 'z') || ('A' ≤ c && c ≤ 'Z') || ('0' ≤ c && c ≤ '9') ||
    c == '_' || c == '-'

/-- A blank within a line. -/
def isBlank (c : Char) : Bool := c == ' ' || c == '\t'

/-! ### Reading -/

/-- Any number of blanks. -/
def blanks : Scanner Unit := do
  let _ ← Scanner.span isBlank

/-- The end of a line. -/
def newline : Scanner Unit :=
  Scanner.orElse (Scanner.word "\n") (Scanner.word "\r\n")

/-- A character that stands for itself between quotes of a kind. -/
def plain (quote : Char) : Scanner Char :=
  Scanner.satisfy fun c => !isControl c && c != quote

/-- A character that stands for itself between double quotes. -/
def plainDouble : Scanner Char :=
  Scanner.satisfy fun c => !isControl c && c != '"' && c != '\\'

/-- The character with the code that so many hexadecimal digits state. -/
def codePoint (width : Nat) : Scanner Char := fun text => do
  let (digits, rest) ← Scanner.times (Scanner.satisfy fun _ => true) width text
  let code ← Text.hexNumber? digits
  if code.isValidChar then some (Char.ofNat code, rest) else none

/-- What stands after a backslash. -/
def escape : Scanner Char := do
  match ← Scanner.satisfy fun _ => true with
  | 'b' => return '\x08'
  | 't' => return '\t'
  | 'n' => return '\n'
  | 'f' => return '\x0c'
  | 'r' => return '\r'
  | '"' => return '"'
  | '\\' => return '\\'
  | 'u' => codePoint 4
  | 'U' => codePoint 8
  | _ => Scanner.fail

/-- An escaped character. -/
def escaped : Scanner Char := do
  Scanner.word "\\"
  escape

/-- A string in double quotes. -/
def readDouble : Scanner String := do
  Scanner.word "\""
  let content ← Scanner.many (Scanner.orElse plainDouble escaped)
  Scanner.word "\""
  return String.ofList content

/-- A string in single quotes. -/
def readSingle : Scanner String := do
  Scanner.word "'"
  let content ← Scanner.many (plain '\'')
  Scanner.word "'"
  return String.ofList content

/-- A quote that does not begin a run of three. -/
def loneQuote (quote : Char) : Scanner Char := fun text =>
  match text with
  | a :: b :: c :: rest =>
    if a = quote ∧ ¬(b = quote ∧ c = quote) then some (a, b :: c :: rest) else none
  | a :: rest => if a = quote then some (a, rest) else none
  | [] => none

/-- A line end as a line feed. -/
def lineFeed : Scanner Char := do
  newline
  return '\n'

/-- A backslash at the end of a line, with all blanks and line ends after it. -/
def escapedLine : Scanner Unit := do
  Scanner.word "\\"
  blanks
  newline
  let _ ← Scanner.many (Scanner.orElse newline do let _ ← Scanner.satisfy isBlank)

/-- A string in triple quotes, from pieces between them. A line end right after
the opening quotes does not count, and up to two quotes may stand right before
the closing ones. -/
def readTriple (quote : Char) (piece : Scanner (List Char)) : Scanner String := do
  Scanner.exactly [quote, quote, quote]
  let _ ← Scanner.optional newline
  let pieces ← Scanner.many piece
  Scanner.exactly [quote, quote, quote]
  let before ← Scanner.optional (Scanner.satisfy (· == quote))
  let last ← Scanner.optional (Scanner.satisfy (· == quote))
  return String.ofList (pieces.flatten ++ before.toList ++ last.toList)

/-- A string in triple double quotes. -/
def readTripleDouble : Scanner String :=
  let one (p : Scanner Char) : Scanner (List Char) := do return [← p]
  let joined : Scanner (List Char) := do
    escapedLine
    return []
  readTriple '"' (Scanner.firstOf
    [one plainDouble, one (loneQuote '"'), joined, one escaped, one lineFeed])

/-- A string in triple single quotes. -/
def readTripleSingle : Scanner String :=
  let one (p : Scanner Char) : Scanner (List Char) := do return [← p]
  readTriple '\'' (Scanner.firstOf
    [one (plain '\''), one (loneQuote '\''), one lineFeed])

/-- A string in any spelling. -/
def read : Scanner String :=
  Scanner.firstOf [readTripleDouble, readDouble, readTripleSingle, readSingle]

/-- A name in any spelling. -/
def readName : Scanner String :=
  let bare : Scanner String := do return String.ofList (← Scanner.span1 isBare)
  Scanner.firstOf [readDouble, readSingle, bare]

/-! ### Writing -/

/-- The longest run of a character in a text, where `run` of them have just
gone by. -/
def longestRun (quote : Char) : Nat → List Char → Nat
  | run, [] => run
  | run, c :: rest =>
    if c = quote then longestRun quote (run + 1) rest
    else max run (longestRun quote 0 rest)

/-- What decides about the spelling of a string. -/
structure Shape where
  /-- A control character that is no line feed occurs. -/
  control : Bool
  backslash : Bool
  newline : Bool
  /-- The longest runs of the two quotes. -/
  double : Nat
  single : Nat

/-- The shape of a string. -/
def shape (content : List Char) : Shape where
  control := content.any fun c => isControl c && c != '\n'
  backslash := content.contains '\\'
  newline := content.contains '\n'
  double := longestRun '"' 0 content
  single := longestRun '\'' 0 content

/-- A character that is no quote between double quotes. The line feed is `kept`
where a string may go over several lines. -/
def escapeText (kept : Bool) (c : Char) : List Char :=
  if c = '\x08' then ['\\', 'b']
  else if c = '\t' then ['\\', 't']
  else if c = '\n' then if kept then [c] else ['\\', 'n']
  else if c = '\x0c' then ['\\', 'f']
  else if c = '\r' then ['\\', 'r']
  else if c = '\\' then ['\\', '\\']
  else if isControl c then '\\' :: 'u' :: Text.hexPadded .upper 4 c.toNat
  else [c]

/-- A string in double quotes. -/
def double (content : List Char) : List Char :=
  '"' :: content.flatMap (fun c => if c = '"' then ['\\', '"'] else escapeText false c) ++
    ['"']

/-- A string in single quotes. -/
def single (content : List Char) : List Char := '\'' :: content ++ ['\'']

/-- The content of a string in triple double quotes, where `run` quotes have
just gone by. Every third quote in a row is escaped. -/
def tripleContent : Nat → List Char → List Char
  | _, [] => []
  | run, c :: rest =>
    if c = '"' then
      if run = 2 then '\\' :: '"' :: tripleContent 0 rest
      else '"' :: tripleContent (run + 1) rest
    else escapeText true c ++ tripleContent 0 rest

/-- What stands between triple quotes. A line end is put in front where a string
goes over several lines. -/
def triple (quote : Char) (lines : Bool) (content : List Char) : List Char :=
  [quote, quote, quote] ++ (if lines then ['\n'] else []) ++ content ++
    [quote, quote, quote]

/-- A string in triple double quotes. -/
def tripleDouble (lines : Bool) (content : List Char) : List Char :=
  triple '"' lines (tripleContent 0 content)

/-- The written form of a string. -/
def text (s : String) : List Char :=
  let content := s.toList
  let found := shape content
  if !found.control && !found.backslash && !found.newline && found.double = 0 then
    double content
  else if !found.control && !found.newline && found.single = 0 then
    single content
  else if !found.control && !found.backslash && found.double ≤ 2 then
    tripleDouble found.newline content
  else if !found.control && found.single ≤ 2 then
    triple '\'' found.newline content
  else if found.newline then
    tripleDouble true content
  else
    double content

/-- The written form of a name. -/
def nameText (name : String) : List Char :=
  let content := name.toList
  let found := shape content
  if !content.isEmpty && content.all isBare then content
  else if !found.control && !found.newline && !found.backslash && found.double = 0 then
    double content
  else if !found.control && !found.newline && found.single = 0 then
    single content
  else
    double content

end Quoted

end QueryCache
