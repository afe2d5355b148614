import QueryCache.Number.Basic

/-!
# Reading numerals

A `Numeral` is the text of a number taken apart: a sign, the digits before the
point, the digits after it, and an exponent. `Numeral.value?` gives its number.

A numeral without point and exponent that fits 64 bits is an integer; `-0` is
the double `-0.0`. Any other numeral is a double. Its digits are gathered into
a significand of at most 64 bits, further digits only move the point, and the
significand is then scaled by one power of ten, with a rounding at each of
these two steps. The result can differ in its last bit from the double nearest
to the numeral. A magnitude beyond the largest double has no number.
-/

namespace QueryCache

/-- The exponent part of a numeral. -/
structure Exponent where
  negative : Bool
  digits : List Nat
deriving DecidableEq

/-- The parts of the text of a number. Digits are the numbers `0` to `9`. -/
structure Numeral where
  negative : Bool
  whole : List Nat
  fraction : Option (List Nat)
  exponent : Option Exponent
deriving DecidableEq

namespace Numeral

/-- The largest significand. -/
def maxSignificand : Nat := 18446744073709551615

/-- The largest magnitude of a negative integer. -/
def maxNegative : Nat := 9223372036854775808

/-- The largest exponent of ten that a numeral may state. -/
def maxExponent : Nat := 2147483647

/-- The largest exponent of the powers of ten that are scaled by at once. -/
def maxPower : Nat := 308

/-- Appends digits to a significand up to the first one that does not fit.
The second component counts the digits left over. -/
def gather : Nat → List Nat → Nat × Nat
  | significand, [] => (significand, 0)
  | significand, d :: ds =>
    if significand * 10 + d ≤ maxSignificand then
      gather (significand * 10 + d) ds
    else
      (significand, (d :: ds).length)

/-- The natural number that a list of digits stands for. -/
def natValue (digits : List Nat) : Nat :=
  digits.foldl (fun acc d => acc * 10 + d) 0

/-- Divides by the largest power `steps` times, stopping at zero. -/
def divideByLargest : Nat → Double → Option Double
  | 0, x => some x
  | steps + 1, x =>
    if x.units = 0 then some x
    else do divideByLargest steps (← x.div? (← Double.powerOfTen? maxPower))

/-- The double that a significand times a power of ten rounds to, step by step. -/
def scaled? (significand : Nat) (exponent : Int) : Option Double := do
  let x ← Double.ofNat? significand
  if significand = 0 then
    return x
  if 0 ≤ exponent then
    if exponent.toNat ≤ maxPower then
      x.mul? (← Double.powerOfTen? exponent.toNat)
    else
      none
  else
    let power := (-exponent).toNat
    let steps := (power - 1) / maxPower
    let y ← divideByLargest steps x
    y.div? (← Double.powerOfTen? (power - steps * maxPower))

/-- The magnitude of a numeral that is no integer. -/
def magnitude? (significand : Nat) (shift : Int) : Option Exponent → Option Double
  | none => scaled? significand shift
  | some e =>
    let stated := natValue e.digits
    if stated ≤ maxExponent then
      scaled? significand (if e.negative then shift - stated else shift + stated)
    else if significand = 0 || e.negative then
      some (Double.zero false)
    else
      none

/-- The number that a numeral stands for; none when it is too large. -/
def value? (n : Numeral) : Option Number :=
  let (significand, dropped) := gather 0 n.whole
  let asDouble (magnitude : Option Double) : Option Number :=
    magnitude.map fun x => .double (x.withSign n.negative)
  match n.fraction with
  | some fraction =>
    let (extended, skipped) := gather significand fraction
    let shift : Int := dropped - (fraction.length - skipped : Nat)
    asDouble (magnitude? extended shift n.exponent)
  | none =>
    if n.exponent.isSome || dropped != 0 then
      asDouble (magnitude? significand dropped n.exponent)
    else if !n.negative then
      some (.int significand)
    else if significand = 0 || maxNegative < significand then
      asDouble (Double.ofNat? significand)
    else
      some (.int (-significand))

/-! ### Reading the parts -/

/-- The value of a decimal digit. -/
def digit? (c : Char) : Option Nat :=
  if '0' ≤ c ∧ c ≤ '9' then some (c.toNat - '0'.toNat) else none

/-- The longest run of digits at the start of a text, and the rest. -/
def digits : List Char → List Nat × List Char
  | [] => ([], [])
  | c :: rest =>
    match digit? c with
    | none => ([], c :: rest)
    | some d =>
      let (ds, rest) := digits rest
      (d :: ds, rest)

/-- A fraction: a point and at least one digit. Otherwise nothing is read. -/
def fractionPart (text : List Char) : Option (List Nat) × List Char :=
  match text with
  | '.' :: rest =>
    match digits rest with
    | ([], _) => (none, text)
    | (ds, rest) => (some ds, rest)
  | _ => (none, text)

/-- An exponent: `e` or `E`, an optional sign, and at least one digit.
Otherwise nothing is read. -/
def exponentPart (text : List Char) : Option Exponent × List Char :=
  match text with
  | c :: rest =>
    if c = 'e' ∨ c = 'E' then
      let (negative, rest) := match rest with
        | '-' :: rest => (true, rest)
        | '+' :: rest => (false, rest)
        | _ => (false, rest)
      match digits rest with
      | ([], _) => (none, text)
      | (ds, rest) => (some ⟨negative, ds⟩, rest)
    else
      (none, text)
  | [] => (none, text)

/-- The longest numeral at the start of a text, and the rest. No digit follows
a leading zero of the whole part. -/
def read? (text : List Char) : Option (Numeral × List Char) :=
  let (negative, afterSign) := match text with
    | '-' :: rest => (true, rest)
    | _ => (false, text)
  let whole : Option (List Nat × List Char) := match afterSign with
    | '0' :: rest => some ([0], rest)
    | _ =>
      match digits afterSign with
      | ([], _) => none
      | found => some found
  whole.map fun (whole, rest) =>
    let (fraction, rest) := fractionPart rest
    let (exponent, rest) := exponentPart rest
    (⟨negative, whole, fraction, exponent⟩, rest)

end Numeral

end QueryCache
