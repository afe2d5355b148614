import QueryCache.Number.Double

/-!
# Shortest decimal text

A double is written with the fewest decimal digits that read back to the same
double, and with the nearest of those. `Decimal.shortest` looks at the grids of
one, two, up to seventeen significant digits; on each grid only the two
neighbours of the value can be nearest. `Decimal.layout` then places the point:
positional text for scientific exponents from `-5` to `15`, with at least one
digit after the point, and scientific text beyond.
-/

namespace QueryCache

/-- The number `digits * 10 ^ exponent`. -/
structure Decimal where
  digits : Nat
  exponent : Int
deriving DecidableEq

namespace Decimal

/-- The decimal digits of a natural number, most significant first. -/
def digitsOf (n : Nat) : List Char := Nat.toDigits 10 n

/-- The numerator of `units / 10 ^ p` over the denominator `scaleDown p`. -/
def scaleUp (units : Nat) (p : Int) : Nat := units * Nat.pow 10 (-p).toNat

/-- The denominator that belongs to `scaleUp`, in units. -/
def scaleDown (p : Int) : Nat := Double.unitsPerOne * Nat.pow 10 p.toNat

/-- The magnitude, in units, of the double nearest to a decimal. -/
def nearestUnits (d : Decimal) : Nat :=
  Double.nearestUnits (d.digits * Nat.pow 10 d.exponent.toNat * Double.unitsPerOne)
    (Nat.pow 10 (-d.exponent).toNat)

/-- The decimal reads back to the magnitude `units`. -/
def readsBack (units : Nat) (d : Decimal) : Bool := d.nearestUnits == units

/-- The exponent of the first significant digit of a magnitude: the value lies
between `10 ^ e` and `10 ^ (e + 1)`. -/
def leadingExponent (units : Nat) : Int :=
  if Double.unitsPerOne ≤ units then
    ((digitsOf (units / Double.unitsPerOne)).length : Int) - 1
  else
    -((digitsOf ((Double.unitsPerOne - 1) / units)).length : Int)

/-- The better of the two neighbours of `units` among the multiples of
`10 ^ p`, of those that read back. At an exact tie the even one is taken. -/
def onGrid? (units : Nat) (p : Int) : Option Decimal :=
  let num := scaleUp units p
  let den := scaleDown p
  let low : Decimal := ⟨num / den, p⟩
  let high : Decimal := ⟨num / den + 1, p⟩
  let twice := 2 * (num % den)
  let lowFirst := twice < den || (twice == den && num / den % 2 == 0)
  let (first, second) := if lowFirst then (low, high) else (high, low)
  if readsBack units first then some first
  else if readsBack units second then some second
  else none

/-- Moves trailing zeros of the digits into the exponent, at most `fuel` of
them. -/
def dropTrailingZeros : Nat → Decimal → Decimal
  | 0, d => d
  | fuel + 1, d =>
    if d.digits % 10 = 0 then
      dropTrailingZeros fuel ⟨d.digits / 10, d.exponent + 1⟩
    else d

/-- The magnitude written out without any rounding. -/
def exact (units : Nat) : Decimal := ⟨units * Nat.pow 5 1074, -1074⟩

/-- The shortest decimal that reads back to a positive magnitude. -/
def shortest (units : Nat) : Decimal :=
  let e := leadingExponent units
  let found := (List.range 17).findSome? fun (n : Nat) => onGrid? units (e - n)
  dropTrailingZeros 17 (found.getD (exact units))

/-- The text of a decimal: positional while the exponent of its first digit is
between `-5` and `15`, scientific otherwise. -/
def layout (d : Decimal) : List Char :=
  let ds := digitsOf d.digits
  let e : Int := d.exponent + ds.length - 1
  if -5 ≤ e ∧ e ≤ 15 then
    if 0 ≤ d.exponent then
      ds ++ List.replicate d.exponent.toNat '0' ++ ['.', '0']
    else if 0 ≤ e then
      ds.take (e.toNat + 1) ++ '.' :: ds.drop (e.toNat + 1)
    else
      '0' :: '.' :: List.replicate (-e - 1).toNat '0' ++ ds
  else
    let mantissa := match ds with
      | [] => []
      | [c] => [c]
      | c :: rest => c :: '.' :: rest
    mantissa ++ 'e' :: (if e < 0 then '-' else '+') :: digitsOf e.natAbs

end Decimal

namespace Double

/-- The text of a double. -/
def text (x : Double) : List Char :=
  let magnitude :=
    if x.units = 0 then ['0', '.', '0']
    else (Decimal.shortest x.units).layout
  if x.negative then '-' :: magnitude else magnitude

end Double

end QueryCache
