import Mathlib.Data.List.Induction
import Mathlib.Tactic.IntervalCases
import Mathlib.Tactic.Ring
import QueryCache.Number.Numeral

/-!
# Numerals and their texts

`Numeral.chars` puts a numeral together again from its parts, and
`Numeral.read?_chars` says that it is read back from there, whatever follows that
cannot go on with it. So two numerals with one text are the same.
-/

namespace QueryCache

namespace Decimal

/-- The digits of a natural number as numbers. -/
def digitValues (n : Nat) : List Nat := (digitsOf n).map fun c => c.toNat - '0'.toNat

theorem digitValues_of_lt {n : Nat} (h : n < 10) : digitValues n = [n] := by
  rw [digitValues, digitsOf, Nat.toDigits_of_lt_base h]
  exact congrArg ([·]) (Nat.toNat_digitChar_sub_48_of_lt_ten h)

theorem digitValues_of_le {n : Nat} (h : 10 ≤ n) :
    digitValues n = digitValues (n / 10) ++ [n % 10] := by
  rw [digitValues, digitsOf, Nat.toDigits_of_base_le (by decide) h, List.map_append]
  exact congrArg (_ ++ [·])
    (Nat.toNat_digitChar_sub_48_of_lt_ten (Nat.mod_lt n (by decide)))

/-- The digits of a number are those of its tenth, and one more. -/
theorem digitValues_induction {motive : Nat → Prop} (low : ∀ n < 10, motive n)
    (high : ∀ n, 10 ≤ n → motive (n / 10) → motive n) (n : Nat) : motive n := by
  induction n using Nat.strong_induction_on with
  | _ n ih =>
      rcases Nat.lt_or_ge n 10 with h | h
      · exact low n h
      · exact high n h (ih (n / 10) (by omega))

theorem lt_of_mem_digitValues {n d : Nat} (h : d ∈ digitValues n) : d < 10 := by
  induction n using digitValues_induction with
  | low n hn =>
      rw [digitValues_of_lt hn, List.mem_singleton] at h
      exact h ▸ hn
  | high n hn ih =>
      rw [digitValues_of_le hn, List.mem_append, List.mem_singleton] at h
      rcases h with h | rfl
      · exact ih h
      · exact Nat.mod_lt n (by decide)

theorem map_digitChar_digitValues (n : Nat) :
    (digitValues n).map Nat.digitChar = digitsOf n := by
  induction n using digitValues_induction with
  | low n hn => rw [digitValues_of_lt hn, digitsOf, Nat.toDigits_of_lt_base hn]; rfl
  | high n hn ih =>
      rw [digitValues_of_le hn, List.map_append, ih, digitsOf, digitsOf,
        Nat.toDigits_of_base_le (by decide) hn]
      rfl

theorem digitValues_ne_nil (n : Nat) : digitValues n ≠ [] := by
  simp [digitValues, digitsOf, Nat.toDigits_ne_nil]

/-- A positive number does not begin with a zero. -/
theorem head?_digitValues_ne {n : Nat} (h : n ≠ 0) : (digitValues n).head? ≠ some 0 := by
  induction n using digitValues_induction with
  | low n hn => simpa [digitValues_of_lt hn] using h
  | high n hn ih =>
      have htenth := ih (by omega)
      obtain ⟨d, ds, hdigits⟩ := List.exists_cons_of_ne_nil (digitValues_ne_nil (n / 10))
      rw [hdigits] at htenth
      rw [digitValues_of_le hn, hdigits]
      exact htenth

end Decimal

namespace Numeral

open Decimal (digitValues)

@[simp] theorem natValue_nil : natValue [] = 0 := rfl

theorem natValue_append (ds es : List Nat) :
    natValue (ds ++ es) = natValue ds * 10 ^ es.length + natValue es := by
  induction es using List.reverseRecOn with
  | nil => simp
  | append_singleton es e ih =>
      have hlast : ∀ fs : List Nat, natValue (fs ++ [e]) = natValue fs * 10 + e := by
        intro fs
        simp [natValue]
      rw [← List.append_assoc, hlast, ih, hlast, List.length_append, List.length_singleton]
      ring

@[simp] theorem natValue_singleton (d : Nat) : natValue [d] = d := by simp [natValue]

@[simp] theorem natValue_zero_cons (ds : List Nat) : natValue (0 :: ds) = natValue ds := by
  simp [natValue]

@[simp] theorem natValue_replicate (count : Nat) :
    natValue (List.replicate count 0) = 0 := by
  induction count with
  | zero => rfl
  | succ count ih => rw [List.replicate_succ', natValue_append, ih]; rfl

@[simp] theorem natValue_digitValues (n : Nat) : natValue (digitValues n) = n := by
  induction n using Decimal.digitValues_induction with
  | low n hn => rw [Decimal.digitValues_of_lt hn, natValue_singleton]
  | high n hn ih =>
      rw [Decimal.digitValues_of_le hn, natValue_append, ih, natValue_singleton]
      simpa [Nat.mul_comm] using Nat.div_add_mod n 10

/-! ### The text of a numeral -/

/-- A point and digits. -/
def fractionChars : Option (List Nat) → List Char
  | none => []
  | some ds => '.' :: ds.map Nat.digitChar

/-- An exponent, always with its sign. -/
def exponentChars : Option Exponent → List Char
  | none => []
  | some e => 'e' :: (if e.negative then '-' else '+') :: e.digits.map Nat.digitChar

/-- The text of a numeral. -/
def chars (n : Numeral) : List Char :=
  (if n.negative then ['-'] else []) ++ n.whole.map Nat.digitChar ++
    fractionChars n.fraction ++ exponentChars n.exponent

/-- Each part has digits, and the whole part no zero too many. -/
structure WellFormed (n : Numeral) : Prop where
  digits : ∀ d ∈ n.whole ++ n.fraction.getD [] ++ (n.exponent.map Exponent.digits).getD [],
    d < 10
  whole : n.whole = [0] ∨ n.whole ≠ [] ∧ n.whole.head? ≠ some 0
  fraction : n.fraction ≠ some []
  exponent : ∀ e, n.exponent = some e → e.digits ≠ []

/-- A numeral begins with a minus sign or a digit. -/
theorem WellFormed.chars_eq_cons {n : Numeral} (h : n.WellFormed) :
    ∃ c cs, n.chars = c :: cs ∧ (c = '-' ∨ ∃ d < 10, c = Nat.digitChar d) := by
  obtain ⟨d, ds, hwhole⟩ : ∃ d ds, n.whole = d :: ds := by
    rcases h.whole with hzero | ⟨hne, -⟩
    · exact ⟨0, [], hzero⟩
    · exact List.exists_cons_of_ne_nil hne
  have hd : d < 10 := h.digits d (by simp [hwhole])
  cases hnegative : n.negative with
  | true => exact ⟨'-', _, by rw [chars, hnegative]; rfl, Or.inl rfl⟩
  | false => exact ⟨Nat.digitChar d, _, by rw [chars, hnegative, hwhole]; rfl, Or.inr ⟨d, hd, rfl⟩⟩

/-- No numeral goes on with this text. -/
def Ends (rest : List Char) : Prop :=
  ∀ c ∈ rest.head?, digit? c = none ∧ c ≠ '.' ∧ c ≠ 'e' ∧ c ≠ 'E'

theorem digit?_digitChar {d : Nat} (h : d < 10) : digit? (Nat.digitChar d) = some d := by
  interval_cases d <;> decide

theorem digits_append {ds : List Nat} (hds : ∀ d ∈ ds, d < 10) {rest : List Char}
    (hrest : ∀ c ∈ rest.head?, digit? c = none) :
    Numeral.digits (ds.map Nat.digitChar ++ rest) = (ds, rest) := by
  induction ds with
  | nil =>
      cases rest with
      | nil => rfl
      | cons c rest => simp [Numeral.digits, hrest c rfl]
  | cons d ds ih =>
      rw [List.map_cons, List.cons_append, Numeral.digits,
        digit?_digitChar (hds d List.mem_cons_self)]
      simp [ih fun e he => hds e (List.mem_cons_of_mem _ he)]

theorem fractionPart_append {fraction : Option (List Nat)} (hfraction : fraction ≠ some [])
    (hdigits : ∀ d ∈ fraction.getD [], d < 10) {rest : List Char}
    (hrest : ∀ c ∈ rest.head?, digit? c = none ∧ c ≠ '.') :
    fractionPart (fractionChars fraction ++ rest) = (fraction, rest) := by
  match fraction with
  | none =>
      cases rest with
      | nil => rfl
      | cons c rest =>
          have hpoint := (hrest c rfl).2
          rw [fractionChars, List.nil_append, fractionPart]
          rintro rest' heq
          exact hpoint (List.cons.inj heq).1
  | some [] => exact absurd rfl hfraction
  | some (d :: ds) =>
      have hread := @digits_append (d :: ds) hdigits rest fun c hc => (hrest c hc).1
      rw [fractionChars, List.cons_append, fractionPart, hread]

theorem exponentPart_append {exponent : Option Exponent}
    (hexponent : ∀ e, exponent = some e → e.digits ≠ [])
    (hdigits : ∀ d ∈ (exponent.map Exponent.digits).getD [], d < 10) {rest : List Char}
    (hrest : ∀ c ∈ rest.head?, digit? c = none ∧ c ≠ 'e' ∧ c ≠ 'E') :
    exponentPart (exponentChars exponent ++ rest) = (exponent, rest) := by
  match exponent with
  | none =>
      cases rest with
      | nil => rfl
      | cons c rest => simp [exponentChars, exponentPart, (hrest c rfl).2.1, (hrest c rfl).2.2]
  | some ⟨negative, []⟩ => exact absurd rfl (hexponent _ rfl)
  | some ⟨negative, d :: ds⟩ =>
      have hread := digits_append hdigits fun c hc => (hrest c hc).1
      rw [Option.map_some, Option.getD_some, List.map_cons, List.cons_append] at hread
      cases negative <;> simp [exponentChars, exponentPart, hread]

theorem digit?_head?_exponentChars (exponent : Option Exponent) {rest : List Char}
    (hrest : Ends rest) :
    ∀ c ∈ (exponentChars exponent ++ rest).head?, digit? c = none ∧ c ≠ '.' := by
  cases exponent with
  | none => exact fun c hc => ⟨(hrest c hc).1, (hrest c hc).2.1⟩
  | some e =>
      intro c hc
      cases hc
      decide

theorem digit?_head?_fractionChars {fraction : Option (List Nat)}
    {exponent : Option Exponent} {rest : List Char} (hrest : Ends rest) :
    ∀ c ∈ (fractionChars fraction ++ (exponentChars exponent ++ rest)).head?,
      digit? c = none := by
  cases fraction with
  | none => exact fun c hc => (digit?_head?_exponentChars exponent hrest c hc).1
  | some ds =>
      intro c hc
      cases hc
      decide

/-- A numeral is read back from its text. -/
theorem read?_chars {n : Numeral} (h : n.WellFormed) {rest : List Char} (hrest : Ends rest) :
    read? (n.chars ++ rest) = some (n, rest) := by
  obtain ⟨negative, whole, fraction, exponent⟩ := n
  obtain ⟨hdigits, hwhole, hfraction, hexponent⟩ := h
  simp only [List.mem_append] at hdigits hwhole hfraction hexponent
  have hfractionPart := fractionPart_append hfraction
    (fun d hd => hdigits d (Or.inl (Or.inr hd)))
    (digit?_head?_exponentChars exponent hrest)
  have hexponentPart := exponentPart_append hexponent (fun d hd => hdigits d (Or.inr hd))
    fun c hc => ⟨(hrest c hc).1, (hrest c hc).2.2⟩
  -- What follows the whole part.
  generalize hafter : fractionChars fraction ++ (exponentChars exponent ++ rest) = after
    at hfractionPart
  have hends : ∀ c ∈ after.head?, digit? c = none :=
    hafter ▸ digit?_head?_fractionChars hrest
  have htext : chars ⟨negative, whole, fraction, exponent⟩ ++ rest =
      (if negative then ['-'] else []) ++ (whole.map Nat.digitChar ++ after) := by
    simp [chars, ← hafter]
  rw [htext]
  rcases hwhole with rfl | ⟨hne, hhead⟩
  · have hzero : [0].map Nat.digitChar = ['0'] := rfl
    rw [hzero]
    cases negative <;> simp [read?, hfractionPart, hexponentPart]
  · obtain ⟨d, ds, rfl⟩ := List.exists_cons_of_ne_nil hne
    have hread := digits_append (fun e he => hdigits e (Or.inl (Or.inl he))) hends
    have hzero : Nat.digitChar d ≠ '0' := fun h => hhead (by
      rw [List.head?_cons, Nat.digitChar_eq_zero.1 h])
    have hminus : Nat.digitChar d ≠ '-' := Nat.digitChar_ne '-' rfl
    rw [List.map_cons, List.cons_append] at hread ⊢
    cases negative with
    | false =>
        rw [if_neg Bool.false_ne_true, List.nil_append]
        simp [read?, hread, hzero, hminus, hfractionPart, hexponentPart]
    | true =>
        rw [if_pos rfl, List.singleton_append]
        simp [read?, hread, hzero, hfractionPart, hexponentPart]

end Numeral

end QueryCache
