import QueryCache.Proofs.Number.Digits

/-!
# The written form of a number determines it

The text of a number is the text of a numeral, `Number.numeral`. A numeral in turn
is a decimal, and the decimal of a double rounds to its magnitude. So different
numbers have different texts: `Number.text_injective`.
-/

namespace QueryCache

namespace Double

theorem nearestInteger_mul_right (num den : Nat) {k : Nat} (hk : 0 < k) :
    nearestInteger (num * k) (den * k) = nearestInteger num den := by
  have hlt : ∀ a b : Nat, a * k < b * k ↔ a < b := fun a b => Nat.mul_lt_mul_right hk
  simp only [nearestInteger, Nat.mul_div_mul_right _ _ hk, Nat.mul_mod_mul_right,
    ← Nat.mul_assoc, hlt]

/-- Rounding looks at the value of a fraction alone. -/
theorem nearestUnits_mul_right (num den : Nat) {k : Nat} (hk : 0 < k) :
    nearestUnits (num * k) (den * k) = nearestUnits num den := by
  simp only [nearestUnits, Nat.mul_div_mul_right _ _ hk]
  rw [Nat.mul_right_comm, nearestInteger_mul_right _ _ hk]

theorem nearestUnits_zero {den : Nat} (hden : 0 < den) : nearestUnits 0 den = 0 := by
  have h := @nearestUnits_eq_self 0 den hden (Nat.dvd_zero _)
  rwa [Nat.zero_mul] at h

end Double

namespace Decimal

/-- Ten times as many digits at the next lower exponent are the same number. -/
theorem nearestUnits_shift (digits : Nat) (exponent : Int) :
    nearestUnits ⟨digits * 10, exponent⟩ = nearestUnits ⟨digits, exponent + 1⟩ := by
  simp only [nearestUnits, Nat.pow_eq]
  generalize Double.unitsPerOne = one
  rcases lt_or_ge exponent 0 with h | h
  · obtain ⟨n, rfl⟩ : ∃ n : Nat, exponent = -(n + 1 : Nat) := ⟨(-exponent - 1).toNat, by omega⟩
    have hup : (-((n + 1 : Nat) : Int)).toNat = 0 := by omega
    have hup' : (-((n + 1 : Nat) : Int) + 1).toNat = 0 := by omega
    have hdown : (- -((n + 1 : Nat) : Int)).toNat = n + 1 := by omega
    have hdown' : (-(-((n + 1 : Nat) : Int) + 1)).toNat = n := by omega
    rw [hup, hup', hdown, hdown', Nat.pow_succ]
    rw [← Double.nearestUnits_mul_right (digits * 10 ^ 0 * one) (10 ^ n) (by decide : 0 < 10)]
    congr 1
    ring
  · obtain ⟨n, rfl⟩ := Int.eq_ofNat_of_zero_le h
    have hup : ((n : Int)).toNat = n := by omega
    have hup' : ((n : Int) + 1).toNat = n + 1 := by omega
    have hdown : (-(n : Int)).toNat = 0 := by omega
    have hdown' : (-((n : Int) + 1)).toNat = 0 := by omega
    rw [hup, hup', hdown, hdown']
    congr 1
    ring

theorem nearestUnits_of_digits_eq_zero (exponent : Int) :
    nearestUnits ⟨0, exponent⟩ = 0 := by
  simp only [nearestUnits, Nat.zero_mul]
  exact Double.nearestUnits_zero (Nat.pow_pos (by decide))

theorem nearestUnits_mul_ten_pow (digits count : Nat) (exponent : Int) :
    nearestUnits ⟨digits * 10 ^ count, exponent⟩ =
      nearestUnits ⟨digits, exponent + count⟩ := by
  induction count generalizing exponent with
  | zero => simp
  | succ count ih =>
      rw [Nat.pow_succ, ← Nat.mul_assoc, nearestUnits_shift, ih]
      congr 2
      push_cast
      ring

/-! ### The shortest decimal -/

/-- The decimal has digits, and rounds to the magnitude. -/
structure Denotes (d : Decimal) (units : Nat) : Prop where
  positive : d.digits ≠ 0
  units : d.nearestUnits = units

variable {units : Nat} {d : Decimal}

theorem denotes_of_readsBack (hunits : units ≠ 0) (h : readsBack units d = true) :
    d.Denotes units := by
  have hnearest : d.nearestUnits = units := by simpa [readsBack] using h
  refine ⟨fun hdigits => hunits ?_, hnearest⟩
  obtain ⟨digits, exponent⟩ := d
  rw [← hnearest, show digits = 0 from hdigits, nearestUnits_of_digits_eq_zero]

theorem denotes_of_onGrid? (hunits : units ≠ 0) {p : Int} (h : onGrid? units p = some d) :
    d.Denotes units := by
  unfold onGrid? at h
  extract_lets num den low high twice lowFirst at h
  generalize (if lowFirst then (low, high) else (high, low)) = neighbours at h
  obtain ⟨first, second⟩ := neighbours
  dsimp only at h
  split at h
  · rename_i hfirst
    cases h
    exact denotes_of_readsBack hunits hfirst
  · split at h
    · rename_i hsecond
      cases h
      exact denotes_of_readsBack hunits hsecond
    · cases h

/-- A count of units of `2 ^ (-bits)` is a decimal with that exponent. -/
theorem nearestUnits_mul_pow (h : Double.lastBit units ∣ units) (bits : Nat) :
    Double.nearestUnits (units * Nat.pow 5 bits * Nat.pow 10 0 * Nat.pow 2 bits)
      (Nat.pow 10 bits) = units := by
  have hten : units * Nat.pow 5 bits * Nat.pow 10 0 * Nat.pow 2 bits =
      units * Nat.pow 10 bits := by
    simp only [Nat.pow_eq, Nat.pow_zero, Nat.mul_one, Nat.mul_assoc, ← Nat.mul_pow]
  rw [hten]
  exact Double.nearestUnits_eq_self (Nat.pow_pos (by decide)) h

theorem denotes_exact (hunits : units ≠ 0) (h : Double.lastBit units ∣ units) :
    (exact units).Denotes units := by
  have hdigits : ∀ bits, units * Nat.pow 5 bits ≠ 0 := fun bits =>
    Nat.mul_ne_zero hunits (Nat.pow_pos (by decide)).ne'
  constructor
  · exact hdigits 1074
  · have hup : (-1074 : Int).toNat = 0 := rfl
    have hdown : (- -1074 : Int).toNat = 1074 := rfl
    unfold nearestUnits exact Double.unitsPerOne
    dsimp only
    rw [hup, hdown]
    generalize 1074 = bits
    exact nearestUnits_mul_pow h bits

theorem Denotes.dropTrailingZeros (h : d.Denotes units) (fuel : Nat) :
    (dropTrailingZeros fuel d).Denotes units := by
  induction fuel generalizing d with
  | zero => exact h
  | succ fuel ih =>
      rw [Decimal.dropTrailingZeros]
      split
      · rename_i hzero
        obtain ⟨digits, exponent⟩ := d
        dsimp only at hzero ⊢
        have hten : digits / 10 * 10 = digits := Nat.div_mul_cancel (Nat.dvd_of_mod_eq_zero hzero)
        refine ih ⟨fun hdigits => h.positive ?_, ?_⟩
        · rw [← hten, show digits / 10 = 0 from hdigits]
        · rw [← nearestUnits_shift, hten]
          exact h.units
      · exact h

/-- The shortest decimal of a magnitude rounds to it. -/
theorem denotes_shortest (hunits : units ≠ 0) (h : Double.lastBit units ∣ units) :
    (shortest units).Denotes units := by
  rw [shortest]
  refine Denotes.dropTrailingZeros ?_ 17
  cases hfound : (List.range 17).findSome? fun (n : Nat) =>
      onGrid? units (leadingExponent units - n) with
  | none => exact denotes_exact hunits h
  | some d =>
      obtain ⟨n, -, hn⟩ := List.exists_of_findSome?_eq_some hfound
      exact denotes_of_onGrid? hunits hn

/-! ### The numeral of a decimal -/

/-- The numeral that a decimal is laid out as. -/
def numeral (negative : Bool) (d : Decimal) : Numeral :=
  let ds := digitValues d.digits
  let e : Int := d.exponent + ds.length - 1
  if -5 ≤ e ∧ e ≤ 15 then
    if 0 ≤ d.exponent then
      ⟨negative, ds ++ List.replicate d.exponent.toNat 0, some [0], none⟩
    else if 0 ≤ e then
      ⟨negative, ds.take (e.toNat + 1), some (ds.drop (e.toNat + 1)), none⟩
    else
      ⟨negative, [0], some (List.replicate (-e - 1).toNat 0 ++ ds), none⟩
  else
    ⟨negative, ds.take 1, if ds.length ≤ 1 then none else some (ds.drop 1),
      some ⟨e < 0, digitValues e.natAbs⟩⟩

theorem layout_eq (d : Decimal) : d.layout = (d.numeral false).chars := by
  obtain ⟨digits, exponent⟩ := d
  have hlength : (digitsOf digits).length = (digitValues digits).length := by
    rw [← map_digitChar_digitValues, List.length_map]
  simp only [layout, numeral, hlength]
  rw [← map_digitChar_digitValues, ← map_digitChar_digitValues]
  generalize digitValues digits = ds
  generalize exponent + ds.length - 1 = e
  have hzero : Nat.digitChar 0 = '0' := rfl
  split
  · split
    · simp [Numeral.chars, Numeral.fractionChars, Numeral.exponentChars, hzero]
    · split <;> simp [Numeral.chars, Numeral.fractionChars, Numeral.exponentChars]
  · rcases ds with _ | ⟨d, _ | ⟨d', ds⟩⟩
    · simp [Numeral.chars, Numeral.fractionChars, Numeral.exponentChars]
    · simp [Numeral.chars, Numeral.fractionChars, Numeral.exponentChars]
    · simp [Numeral.chars, Numeral.fractionChars, Numeral.exponentChars]

theorem chars_numeral (negative : Bool) (d : Decimal) :
    (d.numeral negative).chars =
      (if negative then ['-'] else []) ++ (d.numeral false).chars := by
  simp only [numeral]
  split
  · split
    · simp [Numeral.chars]
    · split <;> simp [Numeral.chars]
  · simp [Numeral.chars]

theorem wellFormed_numeral {d : Decimal} (h : d.digits ≠ 0) (negative : Bool) :
    (d.numeral negative).WellFormed := by
  obtain ⟨digits, exponent⟩ := d
  have hhead := head?_digitValues_ne h
  have hlt : ∀ d ∈ digitValues digits, d < 10 := fun d => lt_of_mem_digitValues
  have hstated : ∀ e, ∀ d ∈ digitValues e, d < 10 := fun e d => lt_of_mem_digitValues
  obtain ⟨first, others, hdigits⟩ := List.exists_cons_of_ne_nil (digitValues_ne_nil digits)
  simp only [numeral, hdigits] at hhead hlt ⊢
  have hfirst : first ≠ 0 := by simpa using hhead
  split
  · split
    · refine ⟨?_, Or.inr ⟨by simp, by simpa using hfirst⟩, by simp, by simp⟩
      intro d hd
      simp only [Option.getD_some, Option.map_none, Option.getD_none, List.append_nil,
        List.mem_append, List.mem_replicate, List.mem_singleton] at hd
      rcases hd with (hd | ⟨-, rfl⟩) | rfl
      · exact hlt d hd
      · decide
      · decide
    · split
      · refine ⟨?_, Or.inr ⟨by simp, by simpa using hfirst⟩, ?_, by simp⟩
        · intro d hd
          simp only [Option.getD_some, Option.map_none, Option.getD_none, List.append_nil,
            List.take_append_drop] at hd
          exact hlt d hd
        · -- A decimal with a negative exponent has digits behind the point.
          simp only [ne_eq, Option.some.injEq, List.drop_eq_nil_iff]
          omega
      · refine ⟨?_, Or.inl rfl, by simp, by simp⟩
        intro d hd
        simp only [Option.getD_some, Option.map_none, Option.getD_none, List.append_nil,
          List.mem_append, List.mem_replicate, List.mem_singleton] at hd
        rcases hd with rfl | ⟨-, rfl⟩ | hd
        · decide
        · decide
        · exact hlt d hd
  · refine ⟨?_, Or.inr ⟨by simp, by simpa using hfirst⟩, ?_, ?_⟩
    · intro d hd
      rcases List.mem_append.1 hd with hd | hd
      · refine hlt d ?_
        split at hd
        · simp_all
        · simpa using hd
      · exact hstated _ d hd
    · split
      · simp
      · rename_i hlong
        simpa using hlong
    · rintro e ⟨rfl⟩
      exact digitValues_ne_nil _

end Decimal

/-- The decimal that a numeral stands for, without its sign. -/
def Numeral.decimal (n : Numeral) : Decimal :=
  let stated : Int := match n.exponent with
    | none => 0
    | some e => if e.negative then -natValue e.digits else natValue e.digits
  ⟨natValue (n.whole ++ n.fraction.getD []), stated - (n.fraction.getD []).length⟩

namespace Decimal

/-- The numeral of a decimal is the same number. -/
theorem nearestUnits_decimal_numeral (negative : Bool) (d : Decimal) :
    (d.numeral negative).decimal.nearestUnits = d.nearestUnits := by
  obtain ⟨digits, exponent⟩ := d
  have hvalue := Numeral.natValue_digitValues digits
  have hpositive := List.length_pos_iff.2 (digitValues_ne_nil digits)
  simp only [numeral]
  generalize digitValues digits = ds at hvalue hpositive
  subst hvalue
  split
  · split
    · have hlift : Numeral.natValue (ds ++ List.replicate exponent.toNat 0 ++ [0]) =
          Numeral.natValue ds * 10 ^ (exponent.toNat + 1) := by
        simp [Numeral.natValue_append, Nat.pow_succ]
      simp only [Numeral.decimal, Option.getD_some, hlift, nearestUnits_mul_ten_pow]
      congr 2
      simp
      omega
    · split
      · simp only [Numeral.decimal, Option.getD_some, List.take_append_drop]
        congr 2
        simp
        omega
      · have hzeros : ∀ count, Numeral.natValue ([0] ++ (List.replicate count 0 ++ ds)) =
            Numeral.natValue ds := by
          simp [Numeral.natValue_append]
        simp only [Numeral.decimal, Option.getD_some, hzeros]
        congr 2
        simp
        omega
  · have hstated : ∀ e : Int, (if decide (e < 0) = true then
          -(Numeral.natValue (digitValues e.natAbs) : Int)
        else Numeral.natValue (digitValues e.natAbs)) = e := by
      intro e
      simp only [Numeral.natValue_digitValues, decide_eq_true_eq]
      omega
    simp only [Numeral.decimal, hstated]
    split
    · rw [Option.getD_none, List.append_nil, List.take_of_length_le (by assumption)]
      congr 2
      simp
      omega
    · rw [Option.getD_some, List.take_append_drop]
      congr 2
      simp
      omega

end Decimal

namespace Number

/-- The numeral that a number is written as. -/
def numeral : Number → Numeral
  | int value => ⟨value < 0, Decimal.digitValues value.natAbs, none, none⟩
  | double x =>
    if x.units = 0 then ⟨x.negative, [0], some [0], none⟩
    else (Decimal.shortest x.units).numeral x.negative

theorem wellFormed_numeral (value : Number) : value.numeral.WellFormed := by
  cases value with
  | int value =>
      refine ⟨?_, ?_, by simp [numeral], by simp [numeral]⟩
      · intro d hd
        exact Decimal.lt_of_mem_digitValues (by simpa [numeral] using hd)
      · rcases eq_or_ne value.natAbs 0 with hzero | hzero
        · left
          rw [numeral, hzero]
          rfl
        · exact Or.inr ⟨Decimal.digitValues_ne_nil _, Decimal.head?_digitValues_ne hzero⟩
  | double x =>
      rw [numeral]
      split
      · exact ⟨by simp, Or.inl rfl, by simp, by simp⟩
      · rename_i hunits
        have hdenotes := Decimal.denotes_shortest hunits x.representable.2
        exact Decimal.wellFormed_numeral hdenotes.positive x.negative

theorem text_eq (value : Number) : value.text = value.numeral.chars := by
  cases value with
  | int value =>
      rw [text, intText, numeral, ← Decimal.map_digitChar_digitValues]
      by_cases h : value < 0 <;>
        simp [h, Numeral.chars, Numeral.fractionChars, Numeral.exponentChars]
  | double x =>
      simp only [text, Double.text, numeral]
      generalize Decimal.shortest x.units = d
      rw [Decimal.layout_eq]
      split_ifs with hnegative
      · rw [hnegative]
        rfl
      · rw [Decimal.chars_numeral x.negative, hnegative]
        rfl
      · rw [Bool.eq_false_of_not_eq_true hnegative]
        rfl
      · rw [Bool.eq_false_of_not_eq_true hnegative]

/-- A number is read back as its numeral. -/
theorem read?_text (value : Number) {rest : List Char} (hrest : Numeral.Ends rest) :
    Numeral.read? (value.text ++ rest) = some (value.numeral, rest) := by
  rw [text_eq]
  exact Numeral.read?_chars (wellFormed_numeral value) hrest

/-- An integer has neither point nor exponent, a double has one of them. -/
theorem isSome_numeral_iff (value : Number) :
    (value.numeral.fraction.isSome || value.numeral.exponent.isSome) = true ↔
      ∃ x, value = double x := by
  cases value with
  | int value => simp [numeral]
  | double x =>
      simp only [numeral, Decimal.numeral, double.injEq, exists_eq', iff_true]
      split
      · rfl
      · split
        · split
          · rfl
          · split <;> rfl
        · simp

theorem nearestUnits_decimal_numeral (x : Double) :
    (double x).numeral.decimal.nearestUnits = x.units := by
  rw [numeral]
  split
  · rename_i hunits
    rw [hunits]
    exact Decimal.nearestUnits_of_digits_eq_zero _
  · rename_i hunits
    rw [Decimal.nearestUnits_decimal_numeral]
    exact (Decimal.denotes_shortest hunits x.representable.2).units

theorem negative_numeral_double (x : Double) : (double x).numeral.negative = x.negative := by
  simp only [numeral, Decimal.numeral]
  split
  · rfl
  · split
    · split
      · rfl
      · split <;> rfl
    · rfl

theorem numeral_injective : Function.Injective numeral := by
  intro a b h
  cases a with
  | int a =>
      cases b with
      | int b =>
          simp only [numeral, Numeral.mk.injEq, decide_eq_decide, and_true] at h
          have hmagnitude := congrArg Numeral.natValue h.2
          rw [Numeral.natValue_digitValues, Numeral.natValue_digitValues] at hmagnitude
          have hsign := h.1
          rw [show a = b by omega]
      | double y =>
          have hy := (isSome_numeral_iff (double y)).2 ⟨y, rfl⟩
          rw [← h, isSome_numeral_iff] at hy
          simp at hy
  | double x =>
      cases b with
      | int b =>
          have hx := (isSome_numeral_iff (double x)).2 ⟨x, rfl⟩
          rw [h, isSome_numeral_iff] at hx
          simp at hx
      | double y =>
          have hsign := congrArg Numeral.negative h
          have hunits := congrArg (fun n => n.decimal.nearestUnits) h
          simp only [negative_numeral_double, nearestUnits_decimal_numeral] at hsign hunits
          obtain ⟨negative, units, representable⟩ := x
          obtain ⟨negative', units', representable'⟩ := y
          cases hsign
          cases hunits
          rfl

/-- The written form determines a number, and ends where the number does. -/
theorem text_append_inj {a b : Number} {rest rest' : List Char} (hrest : Numeral.Ends rest)
    (hrest' : Numeral.Ends rest') (h : a.text ++ rest = b.text ++ rest') :
    a = b ∧ rest = rest' := by
  have hread := read?_text a hrest
  rw [h, read?_text b hrest'] at hread
  obtain ⟨hnumeral, hrest⟩ := Prod.mk.inj (Option.some.inj hread)
  exact ⟨numeral_injective hnumeral.symm, hrest.symm⟩

end Number

end QueryCache
