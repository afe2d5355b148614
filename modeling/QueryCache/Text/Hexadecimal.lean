/-!
# Hexadecimal digits

The sixteen digits and their values. Both cases of a letter have the same
value, and a digit is written in the case that is asked for:
`hexValue?_hexDigit` and `hexNumber?_hexPadded` say that what is written reads back.
-/

namespace QueryCache

namespace Text

/-- The case that the digits above nine are written in. -/
inductive LetterCase where
  | lower
  | upper
deriving DecidableEq

/-- The value of a hexadecimal digit in either case. -/
def hexValue? (c : Char) : Option Nat :=
  if '0' ≤ c ∧ c ≤ '9' then some (c.toNat - '0'.toNat)
  else if 'a' ≤ c ∧ c ≤ 'f' then some (c.toNat - 'a'.toNat + 10)
  else if 'A' ≤ c ∧ c ≤ 'F' then some (c.toNat - 'A'.toNat + 10)
  else none

/-- The digit of a value below sixteen. -/
def hexDigit (letters : LetterCase) (n : Nat) : Char :=
  if n < 10 then Char.ofNat ('0'.toNat + n)
  else
    match letters with
    | .lower => Char.ofNat ('a'.toNat + (n - 10))
    | .upper => Char.ofNat ('A'.toNat + (n - 10))

theorem hexValue?_hexDigit (letters : LetterCase) {n : Nat} (h : n < 16) :
    hexValue? (hexDigit letters n) = some n := by
  revert n
  cases letters <;> decide

/-- The value of a run of hexadecimal digits, the most significant one first. -/
def hexNumber? (digits : List Char) : Option Nat :=
  digits.foldlM (fun acc c => (hexValue? c).map (acc * 16 + ·)) 0

/-- The lower case digits of a number, without leading zeros. -/
def hexText (n : Nat) : List Char := Nat.toDigits 16 n

/-- The last `width` digits of a number. -/
def hexPadded (letters : LetterCase) : Nat → Nat → List Char
  | 0, _ => []
  | width + 1, n => hexPadded letters width (n / 16) ++ [hexDigit letters (n % 16)]

theorem length_hexPadded (letters : LetterCase) (width n : Nat) :
    (hexPadded letters width n).length = width := by
  induction width generalizing n with
  | zero => rfl
  | succ width ih => simp [hexPadded, ih]

/-- A number is read back from its last digits if it has no others. -/
theorem hexNumber?_hexPadded (letters : LetterCase) {width n : Nat}
    (h : n < Nat.pow 16 width) : hexNumber? (hexPadded letters width n) = some n := by
  induction width generalizing n with
  | zero =>
      rw [Nat.lt_one_iff.1 h]
      rfl
  | succ width ih =>
      have hhigh := ih ((Nat.div_lt_iff_lt_mul (by decide : 0 < 16)).2 h)
      have hlow := hexValue?_hexDigit letters (Nat.mod_lt n (by decide : 0 < 16))
      rw [hexNumber?] at hhigh ⊢
      rw [hexPadded, List.foldlM_append, hhigh]
      simp [hlow, Nat.div_add_mod']

end Text

end QueryCache
