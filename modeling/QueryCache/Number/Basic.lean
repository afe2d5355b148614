import QueryCache.Number.Shortest

/-!
# Numbers

A number is an integer or a double, and the two never compare equal: `1` and
`1.0` are different numbers. `Number.text` is the one written form of a number;
it serves JSON text, query literals and entity keys alike.
-/

namespace QueryCache

/-- An integer or a double. -/
inductive Number where
  | int (value : Int)
  | double (value : Double)
deriving DecidableEq

namespace Number

/-- Numeric equality within one kind of number. -/
def same : Number → Number → Bool
  | int a, int b => a == b
  | double x, double y => x.same y
  | _, _ => false

/-- The decimal digits of an integer, with a minus sign before a negative one. -/
def intText (value : Int) : List Char :=
  if value < 0 then '-' :: Decimal.digitsOf value.natAbs
  else Decimal.digitsOf value.natAbs

/-- The written form of a number. -/
def text : Number → List Char
  | int value => intText value
  | double value => value.text

theorem same_refl (a : Number) : same a a = true := by
  cases a with
  | int value => simp [same]
  | double value => exact Double.same_refl value

theorem same_comm (a b : Number) : same a b = same b a := by
  cases a <;> cases b <;> simp [same, Double.same_comm, BEq.comm]

end Number

end QueryCache
