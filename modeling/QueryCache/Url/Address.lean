import QueryCache.Text.Hexadecimal
import QueryCache.Text.Scanner
import QueryCache.Text.Split

/-!
# Network addresses

An IPv4 address is a number of 32 bits. It is read from up to four numbers with
points between them, each decimal, octal or hexadecimal, of which the last one
fills all the bytes that are left. An IPv6 address is eight numbers of 16 bits.
It is read from hexadecimal pieces with colons between them, where one double
colon stands for at least one piece of zeros, and an IPv4 address may stand for
the last two pieces.
-/

namespace QueryCache

/-- An address of 32 bits. -/
structure Ipv4 where
  bits : Nat
deriving DecidableEq

/-- An address of eight pieces of 16 bits each. -/
structure Ipv6 where
  pieces : List Nat
deriving DecidableEq

namespace Ipv4

/-- The digits of a number to a base. Not even one digit makes zero. -/
def digits? (base : Nat) (text : List Char) : Option Nat := do
  let ds ← text.mapM Text.hexValue?
  if ds.all (· < base) then some (Scanner.ofDigits base ds) else none

/-- A number whose leading characters name its base. -/
def number? : List Char → Option Nat
  | [] => none
  | '0' :: 'x' :: rest => digits? 16 rest
  | '0' :: 'X' :: rest => digits? 16 rest
  | ['0'] => some 0
  | '0' :: rest => digits? 8 rest
  | text => digits? 10 text

/-- The parts of a host between points. A last point ends the host. -/
def parts (host : List Char) : List (List Char) :=
  match (Text.split (· == '.') host).reverse with
  | [] :: last :: before => (last :: before).reverse
  | reversed => reversed.reverse

/-- The host is an address, and not a name: its last part is a number. -/
def isMeant (host : List Char) : Bool :=
  match (parts host).getLast? with
  | none => false
  | some last =>
    (!last.isEmpty && last.all fun c => '0' ≤ c && c ≤ '9') || (number? last).isSome

/-- Puts the leading numbers before the last one, the first at a byte and the
others at those after it. -/
def combine : Nat → List Nat → Nat → Nat
  | _, [], last => last
  | place, n :: leading, last =>
    n * Nat.pow 256 place + combine (place - 1) leading last

/-- The address that a host names. -/
def ofText? (host : List Char) : Option Ipv4 := do
  let parts := parts host
  if 4 < parts.length then none
  else
    let numbers ← parts.mapM number?
    let last ← numbers.getLast?
    let leading := numbers.dropLast
    if leading.any (255 < ·) || Nat.pow 256 (4 - leading.length) ≤ last then none
    else some ⟨combine 3 leading last⟩

/-- The four bytes of an address with points between them. -/
def text (address : Ipv4) : String :=
  ".".intercalate ([3, 2, 1, 0].map fun place =>
    toString (address.bits / Nat.pow 256 place % 256))

end Ipv4

namespace Ipv6

/-- A piece of one to four hexadecimal digits. -/
def piece? (text : List Char) : Option Nat :=
  if text.isEmpty || 4 < text.length then none else Text.hexNumber? text

/-- A byte in decimal digits without a leading zero. -/
def byte? (text : List Char) : Option Nat := do
  if text.isEmpty || (1 < text.length && text.head? == some '0') || 3 < text.length then
    none
  else
    let n ← Ipv4.digits? 10 text
    if n ≤ 255 then some n else none

/-- The two pieces that an IPv4 address stands for. -/
def embedded? (text : List Char) : Option (List Nat) := do
  match ← (Text.split (· == '.') text).mapM byte? with
  | [a, b, c, d] => some [a * 256 + b, c * 256 + d]
  | _ => none

/-- The pieces of a run without a double colon. Only the end of the address may
have points in it. -/
def run? (isEnd : Bool) : List (List Char) → Option (List Nat)
  | [] => some []
  | [last] =>
    if isEnd && last.contains '.' then embedded? last else (piece? last).map ([·])
  | part :: rest => do
    let first ← piece? part
    let others ← run? isEnd rest
    return first :: others

/-- The pieces of a run that may be empty. -/
def pieces? (isEnd : Bool) (text : List Char) : Option (List Nat) :=
  if text.isEmpty then some [] else run? isEnd (Text.split (· == ':') text)

/-- The texts before and after the first double colon. -/
def atDoubleColon? : List Char → Option (List Char × List Char)
  | ':' :: ':' :: rest => some ([], rest)
  | c :: rest => (atDoubleColon? rest).map fun (before, after) => (c :: before, after)
  | [] => none

/-- The address that a text between brackets names. -/
def ofText? (text : List Char) : Option Ipv6 :=
  match atDoubleColon? text with
  | some (before, after) => do
    let front ← pieces? false before
    let back ← pieces? true after
    let found := front.length + back.length
    if 7 < found then none
    else some ⟨front ++ List.replicate (8 - found) 0 ++ back⟩
  | none => do
    let pieces ← run? true (Text.split (· == ':') text)
    if pieces.length = 8 then some ⟨pieces⟩ else none

/-- The place and length of the first longest run of zeros, where `at` is the
place of the first piece. -/
def longestZeros (place : Nat) : List Nat → Nat × Nat
  | [] => (place, 0)
  | piece :: rest =>
    let (found, length) := longestZeros (place + 1) rest
    let here := ((piece :: rest).takeWhile (· == 0)).length
    if length ≤ here then (place, here) else (found, length)

/-- Pieces with colons between them. -/
def piecesText (pieces : List Nat) : String :=
  ":".intercalate (pieces.map fun piece => String.ofList (Text.hexText piece))

/-- The address between brackets. The first longest run of at least two zeros is
a double colon. -/
def text (address : Ipv6) : String :=
  let (place, length) := longestZeros 0 address.pieces
  let content :=
    if length < 2 then piecesText address.pieces
    else piecesText (address.pieces.take place) ++ "::" ++
      piecesText (address.pieces.drop (place + length))
  "[" ++ content ++ "]"

end Ipv6

end QueryCache
