/-!
# Binary floating point numbers

A finite double is a sign together with a magnitude that is counted in units
of `2 ^ (-1074)`, the smallest positive double. A count is representable when
it stays below the overflow bound and keeps at most 53 significant bits. In
this form the order of magnitudes is the order of `Nat`, no exponent has to be
normalised, and every operation is exact integer arithmetic followed by one
rounding step, `nearestUnits`, which goes to the nearest representable count
and to the even one at a tie. `nearestUnits_eq_self` says that rounding leaves
a representable count as it is.
-/

namespace QueryCache

namespace Double

/-- The number of units in one. -/
def unitsPerOne : Nat := Nat.pow 2 1074

/-- The first count that is too large for a finite double. -/
def overflowBound : Nat := Nat.pow 2 2098

theorem overflowBound_pos : 0 < overflowBound := by
  unfold overflowBound
  generalize 2098 = bits
  exact Nat.two_pow_pos bits

/-- The weight of the last bit that a double of this magnitude can hold. -/
def lastBit (units : Nat) : Nat := Nat.pow 2 (units.log2 - 52)

/-- A count that a finite double can hold. -/
def Representable (units : Nat) : Prop :=
  units < overflowBound ∧ lastBit units ∣ units

instance (units : Nat) : Decidable (Representable units) :=
  inferInstanceAs (Decidable (_ ∧ _))

/-- The integer nearest to `num / den`. A tie goes to the even neighbour. -/
def nearestInteger (num den : Nat) : Nat :=
  let low := num / den
  let twice := 2 * (num % den)
  if twice < den then low
  else if den < twice then low + 1
  else low + low % 2

/-- The magnitude nearest to `num / den` units with at most 53 significant
bits. -/
def nearestUnits (num den : Nat) : Nat :=
  let step := lastBit (num / den)
  nearestInteger num (den * step) * step

theorem nearestInteger_le (num den : Nat) :
    nearestInteger num den ≤ num / den + 1 := by
  simp only [nearestInteger]
  split
  · omega
  · split <;> omega

theorem nearestInteger_of_dvd {num den : Nat} (hden : 0 < den)
    (h : den ∣ num) : nearestInteger num den = num / den := by
  simp [nearestInteger, Nat.mod_eq_zero_of_dvd h, hden]

/-- Dividing by the weight of the last bit leaves at most 53 bits. -/
theorem div_lastBit_lt (n : Nat) : n / lastBit n < Nat.pow 2 53 := by
  simp only [lastBit, Nat.pow_eq]
  rw [Nat.div_lt_iff_lt_mul (Nat.two_pow_pos _), ← Nat.pow_add]
  by_cases hn : n = 0
  · subst hn
    exact Nat.two_pow_pos _
  · exact Nat.lt_of_lt_of_le Nat.lt_log2_self
      (Nat.pow_le_pow_right (by decide) (by omega))

theorem nearestInteger_lastBit_le (num den : Nat) :
    nearestInteger num (den * lastBit (num / den)) ≤ Nat.pow 2 53 := by
  refine Nat.le_trans (nearestInteger_le _ _) ?_
  rw [← Nat.div_div_eq_div_mul]
  exact div_lastBit_lt _

/-- A product of a 53-bit number, or of `2 ^ 53` itself, with a power of two
keeps its last bit at that power. -/
theorem lastBit_mul_two_pow_dvd {m : Nat} (hm : m ≤ Nat.pow 2 53) (k : Nat) :
    lastBit (m * Nat.pow 2 k) ∣ m * Nat.pow 2 k := by
  simp only [lastBit, Nat.pow_eq] at hm ⊢
  by_cases hzero : m = 0
  · simp [hzero]
  rcases Nat.lt_or_eq_of_le hm with hlt | heq
  · refine Nat.dvd_trans (Nat.pow_dvd_pow 2 ?_) (Nat.dvd_mul_left _ _)
    have hlog : (m * Nat.pow 2 k).log2 < 53 + k := by
      rw [Nat.pow_eq, Nat.log2_lt (Nat.mul_ne_zero hzero (Nat.ne_of_gt (Nat.two_pow_pos k))),
        Nat.pow_add]
      exact Nat.mul_lt_mul_of_pos_right hlt (Nat.two_pow_pos k)
    rw [Nat.pow_eq] at hlog
    omega
  · rw [heq, ← Nat.pow_add, Nat.log2_two_pow]
    exact Nat.pow_dvd_pow 2 (by omega)

theorem lastBit_dvd_nearestUnits (num den : Nat) :
    lastBit (nearestUnits num den) ∣ nearestUnits num den :=
  lastBit_mul_two_pow_dvd (nearestInteger_lastBit_le num den) _

/-- Rounding keeps a count that is representable already. -/
theorem nearestUnits_eq_self {units den : Nat} (hden : 0 < den)
    (h : lastBit units ∣ units) : nearestUnits (units * den) den = units := by
  have hdiv : units * den / den = units := Nat.mul_div_cancel _ hden
  have hpos : 0 < lastBit units := Nat.two_pow_pos _
  rw [nearestUnits, hdiv]
  rw [nearestInteger_of_dvd (Nat.mul_pos hden hpos)
    (Nat.mul_comm units den ▸ Nat.mul_dvd_mul_left den h)]
  rw [← Nat.div_div_eq_div_mul, hdiv]
  exact Nat.div_mul_cancel h

end Double

/-- A finite double: a sign and a magnitude in units of `2 ^ (-1074)`. -/
structure Double where
  negative : Bool
  units : Nat
  representable : Double.Representable units
deriving DecidableEq

namespace Double

/-- The double nearest to `num / den` units, or nothing when it overflows. -/
def nearest? (negative : Bool) (num den : Nat) : Option Double :=
  let units := nearestUnits num den
  if h : units < overflowBound then
    some ⟨negative, units, h, lastBit_dvd_nearestUnits num den⟩
  else
    none

/-- Zero with a sign. -/
def zero (negative : Bool) : Double :=
  ⟨negative, 0, overflowBound_pos, Nat.dvd_zero _⟩

/-- The double nearest to a natural number. -/
def ofNat? (n : Nat) : Option Double := nearest? false (n * unitsPerOne) 1

/-- The rounded product of the magnitudes, without a sign. -/
def mul? (x y : Double) : Option Double :=
  nearest? false (x.units * y.units) unitsPerOne

/-- The rounded quotient of the magnitudes, without a sign. -/
def div? (x y : Double) : Option Double :=
  nearest? false (x.units * unitsPerOne) y.units

/-- The double nearest to a power of ten. -/
def powerOfTen? (k : Nat) : Option Double := ofNat? (Nat.pow 10 k)

/-- The same magnitude under another sign. -/
def withSign (x : Double) (negative : Bool) : Double := { x with negative }

/-- Numeric equality: the two zeros are equal, other doubles are equal when
they are the same. -/
def same (x y : Double) : Bool :=
  x.units == y.units && (x.negative == y.negative || x.units == 0)

theorem same_refl (x : Double) : same x x = true := by simp [same]

theorem same_comm (x y : Double) : same x y = same y x := by
  by_cases h : x.units = y.units
  · simp only [same, h, BEq.comm (a := x.negative)]
  · rw [same, same, beq_eq_false_iff_ne.2 h, beq_eq_false_iff_ne.2 (Ne.symm h),
      Bool.false_and, Bool.false_and]

end Double

end QueryCache
