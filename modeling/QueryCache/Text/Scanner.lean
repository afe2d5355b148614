/-!
# Scanners

A `Scanner` reads something from the start of a text and leaves the rest, or
does not match. Choice is ordered: `orElse` tries its second reader only where
the first one does not match, and from the same place. `many` takes as much as
it can and gives nothing back. Each reading that a `many` repeats has to take
at least one character, so the length of the text bounds the repetitions.
-/

namespace QueryCache

/-- A reader from the start of a text. -/
abbrev Scanner (α : Type) := StateT (List Char) Option α

namespace Scanner

variable {α β : Type}

/-- Never matches. -/
def fail : Scanner α := fun _ => none

/-- Tries `p`, and `q` where `p` does not match. -/
def orElse (p q : Scanner α) : Scanner α := fun text =>
  match p text with
  | some result => some result
  | none => q text

/-- The first of several readers that matches. -/
def firstOf : List (Scanner α) → Scanner α
  | [] => fail
  | p :: rest => orElse p (firstOf rest)

/-- `p`, or nothing. -/
def optional (p : Scanner α) : Scanner (Option α) := fun text =>
  match p text with
  | some (value, rest) => some (some value, rest)
  | none => some (none, text)

/-- At most `fuel` times `p`, as often as it matches. -/
def manyWithin (p : Scanner α) : Nat → List Char → List α × List Char
  | 0, text => ([], text)
  | fuel + 1, text =>
    match p text with
    | none => ([], text)
    | some (value, rest) =>
      let (values, rest) := manyWithin p fuel rest
      (value :: values, rest)

/-- `p` as often as it matches. -/
def many (p : Scanner α) : Scanner (List α) := fun text =>
  some (manyWithin p text.length text)

/-- `p` at least once. -/
def many1 (p : Scanner α) : Scanner (List α) := do
  let first ← p
  let others ← many p
  return first :: others

/-- `p` at least once, with `separator` between two of them. -/
def separated (p : Scanner α) (separator : Scanner β) : Scanner (List α) := do
  let first ← p
  let others ← many do
    let _ ← separator
    p
  return first :: others

/-- The next character, if it passes a test. -/
def satisfy (test : Char → Bool) : Scanner Char := fun text =>
  match text with
  | c :: rest => if test c then some (c, rest) else none
  | [] => none

/-- The longest run of characters that pass a test. -/
def span (test : Char → Bool) : Scanner (List Char) := fun text =>
  some (text.takeWhile test, text.dropWhile test)

/-- The longest run of at least one character that pass a test. -/
def span1 (test : Char → Bool) : Scanner (List Char) := do
  let first ← satisfy test
  let others ← span test
  return first :: others

/-- Exactly these characters. -/
def exactly : List Char → Scanner Unit
  | [] => pure ()
  | expected :: others => do
    let _ ← satisfy (· == expected)
    exactly others

/-- Exactly this text. -/
def word (expected : String) : Scanner Unit := exactly expected.toList

/-- A fixed number of times `p`. -/
def times (p : Scanner α) : Nat → Scanner (List α)
  | 0 => pure []
  | count + 1 => do
    let first ← p
    let others ← times p count
    return first :: others

/-- Nothing is left. -/
def atEnd : Scanner Unit := fun text =>
  match text with
  | [] => some ((), [])
  | _ :: _ => none

/-- Reads a whole text. -/
def all? (p : Scanner α) (text : List Char) : Option α :=
  match p text with
  | some (value, []) => some value
  | _ => none

/-- The value of a decimal digit. -/
def digit : Scanner Nat := do
  let c ← satisfy fun c => '0' ≤ c && c ≤ '9'
  return c.toNat - '0'.toNat

/-- The number that digits to a base stand for. -/
def ofDigits (base : Nat) (digits : List Nat) : Nat :=
  digits.foldl (fun acc d => acc * base + d) 0

/-- A number of exactly so many decimal digits. -/
def number (width : Nat) : Scanner Nat := do
  return ofDigits 10 (← times digit width)

end Scanner

end QueryCache
