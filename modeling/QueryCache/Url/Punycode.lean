/-!
# Punycode

Punycode writes any characters with letters, digits and hyphens. The ASCII
characters come first. The others follow in the order of their codes, each as
the distance from the one before, counted in places where it could stand. A
distance is written in digits whose weights depend on a bias, and the bias
follows the sizes of the distances.
-/

namespace QueryCache

namespace Punycode

/-- The number of digits. -/
def base : Nat := 36

/-- The bias before the first distance. -/
def initialBias : Nat := 72

/-- The first code outside of ASCII. -/
def firstCode : Nat := 0x80

/-- The digit that a distance has to reach at a place to go on. -/
def threshold (place bias : Nat) : Nat := min 26 (max 1 (place - bias))

theorem threshold_pos (place bias : Nat) : 0 < threshold place bias := by
  rw [threshold]
  omega

theorem threshold_le (place bias : Nat) : threshold place bias ≤ 26 := by
  rw [threshold]
  omega

/-- Divides a large distance until it is small, and counts the places that it
loses. -/
def shrink (delta : Nat) : Nat × Nat :=
  if 455 < delta then
    let (small, places) := shrink (delta / (base - 1))
    (small, places + base)
  else
    (delta, 0)
termination_by delta
decreasing_by exact Nat.div_lt_self (by omega) (by decide)

/-- The bias after a distance, where `count` characters now have their place. -/
def adapted (delta count : Nat) (isFirst : Bool) : Nat :=
  let halved := if isFirst then delta / 700 else delta / 2
  let (small, places) := shrink (halved + halved / count)
  places + base * small / (small + 38)

/-! ### Writing -/

/-- The character of a digit. -/
def digitChar (digit : Nat) : Char :=
  if digit < 26 then Char.ofNat ('a'.toNat + digit)
  else Char.ofNat ('0'.toNat + (digit - 26))

/-- The digits of a distance from a place on. -/
def digits (bias place delta : Nat) : List Char :=
  let limit := threshold place bias
  if delta < limit then [digitChar delta]
  else
    digitChar (limit + (delta - limit) % (base - limit)) ::
      digits bias (place + base) ((delta - limit) / (base - limit))
termination_by delta
decreasing_by
  have := threshold_pos place bias
  have := threshold_le place bias
  exact Nat.lt_of_le_of_lt (Nat.div_le_self _ _) (by omega)

/-- What has been written so far. -/
structure Draft where
  output : List Char
  /-- The distance since the last character that was written. -/
  delta : Nat
  bias : Nat
  /-- How many characters have been written. -/
  count : Nat

/-- Goes on by one character of a text whose first `plain` characters are the
ASCII ones: it is passed, or written where it has the code that is due. -/
def Draft.pass (plain code : Nat) (draft : Draft) (c : Char) : Draft :=
  if c.toNat < code then { draft with delta := draft.delta + 1 }
  else if c.toNat = code then
    { output := draft.output ++ digits draft.bias base draft.delta
      delta := 0
      bias := adapted draft.delta (draft.count + 1) (draft.count == plain)
      count := draft.count + 1 }
  else draft

/-- Writes the characters of the codes that are left, where `next` is the first
code that could have come. -/
def writeFrom (text : List Char) (plain : Nat) : List Nat → Nat → Draft → Draft
  | [], _, draft => draft
  | code :: codes, next, draft =>
    let start := { draft with delta := draft.delta + (code - next) * (draft.count + 1) }
    let passed := text.foldl (Draft.pass plain code) start
    writeFrom text plain codes (code + 1) { passed with delta := passed.delta + 1 }

/-- The written form of a text. -/
def encode (text : List Char) : List Char :=
  let plain := text.filter (·.toNat < firstCode)
  let codes := ((text.map Char.toNat).filter (firstCode ≤ ·)).mergeSort.eraseDups
  let output := if plain.isEmpty then [] else plain ++ ['-']
  (writeFrom text plain.length codes firstCode
    ⟨output, 0, initialBias, plain.length⟩).output

/-! ### Reading -/

/-- The value of a digit. -/
def digit? (c : Char) : Option Nat :=
  if 'a' ≤ c ∧ c ≤ 'z' then some (c.toNat - 'a'.toNat)
  else if 'A' ≤ c ∧ c ≤ 'Z' then some (c.toNat - 'A'.toNat)
  else if '0' ≤ c ∧ c ≤ '9' then some (c.toNat - '0'.toNat + 26)
  else none

/-- The distance at the start of a text, from a place on. -/
def distance? (bias : Nat) : Nat → Nat → List Char → Option (Nat × List Char)
  | _, _, [] => none
  | place, weight, c :: rest => do
    let digit ← digit? c
    let limit := threshold place bias
    if digit < limit then return (digit * weight, rest)
    else
      let (others, rest) ← distance? bias (place + base) (weight * (base - limit)) rest
      return (digit * weight + others, rest)

/-- What has been read so far. -/
structure Reading where
  output : List Char
  /-- The code of the last character, and the place after it. -/
  code : Nat
  place : Nat
  bias : Nat
  /-- No distance has been read. -/
  isFirst : Bool

/-- Puts in the characters of the distances that are left. `fuel` bounds their
number. -/
def readFrom : Nat → Reading → List Char → Option (List Char)
  | _, reading, [] => some reading.output
  | 0, _, _ :: _ => none
  | fuel + 1, reading, text => do
    let (delta, rest) ← distance? reading.bias base 1 text
    let count := reading.output.length + 1
    let position := reading.place + delta
    let code := reading.code + position / count
    let place := position % count
    if code.isValidChar then
      readFrom fuel
        { output := reading.output.insertIdx place (Char.ofNat code)
          code
          place := place + 1
          bias := adapted delta count reading.isFirst
          isFirst := false }
        rest
    else none

/-- The text that has a written form. What stands before the last hyphen are its
ASCII characters. There is no such hyphen where none are before it. -/
def decode? (text : List Char) : Option (List Char) :=
  let plain := ((text.reverse.dropWhile (· != '-')).drop 1).reverse
  let distances :=
    if plain.isEmpty then text else (text.reverse.takeWhile (· != '-')).reverse
  readFrom text.length ⟨plain, firstCode, 0, initialBias, true⟩ distances

end Punycode

end QueryCache
