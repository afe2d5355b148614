import Mathlib.Data.List.Basic
import QueryCache.Json.Parser
import QueryCache.Json.Printer
import QueryCache.Proofs.Number.Text

/-!
# The written form of a value determines it

JSON text needs no separator behind it but the one that stands there anyway: where
the text of a value ends can be seen from the text itself. So no two values have
one text (`Json.text_injective`).
-/

namespace QueryCache

namespace JsonText

theorem hexQuad?_hexPadded {n : Nat} (h : n < 32) (rest : List Char) :
    hexQuad? (Text.hexPadded .lower 4 n ++ rest) = some (n, rest) := by
  have hread := Text.hexNumber?_hexPadded .lower
    (Nat.lt_of_lt_of_le h (by decide : 32 ≤ Nat.pow 16 4))
  simp only [Text.hexPadded, List.nil_append, List.cons_append] at hread ⊢
  rw [hexQuad?, hread]
  rfl

/-- A written character is read back. -/
theorem units?_escaped (fuel : Nat) (c : Char) (rest : List Char) :
    units? (fuel + 1) (Json.escaped c ++ rest) =
      (units? fuel rest).map fun (units, rest) => (c.toNat :: units, rest) := by
  have hletter : ∀ {letter c : Char}, letter ≠ 'u' → Text.shortEscape? letter = some c →
      units? (fuel + 1) (['\\', letter] ++ rest) =
        (units? fuel rest).map fun (units, rest) => (c.toNat :: units, rest) := by
    intro letter c hu hc
    cases h : units? fuel rest <;> simp [units?, hc, h]
  rw [Json.escaped]
  split_ifs with h₁ h₂ h₃ h₄ h₅ h₆ h₇ hcontrol
  iterate 7
    · subst c
      exact hletter (by decide) rfl
  · have hlt : c.toNat < 32 := hcontrol
    cases h : units? fuel rest <;> simp [units?, hexQuad?_hexPadded hlt, h]
  · cases h : units? fuel rest <;> simp [units?, h₂, hcontrol, h]

/-- A written string is read back up to its closing quote. -/
theorem units?_flatMap_escaped {fuel : Nat} {cs : List Char} (h : cs.length ≤ fuel)
    (rest : List Char) :
    units? fuel (cs.flatMap Json.escaped ++ '"' :: rest) =
      some (cs.map Char.toNat, rest) := by
  induction cs generalizing fuel with
  | nil => cases fuel <;> rfl
  | cons c cs ih =>
      obtain ⟨fuel, rfl⟩ : ∃ n, fuel = n + 1 := ⟨fuel - 1, by simp at h; omega⟩
      rw [List.flatMap_cons, List.append_assoc, units?_escaped, ih (by simpa using h)]
      rfl

end JsonText

namespace Json

/-- What follows a value: nothing, a comma, or the end of an array or object. -/
def Ends (rest : List Char) : Prop := ∀ c ∈ rest.head?, c = ',' ∨ c = ']' ∨ c = '\x7d'

theorem Ends.numeral {rest : List Char} (h : Ends rest) : Numeral.Ends rest := by
  intro c hc
  rcases h c hc with rfl | rfl | rfl <;> decide

theorem quoted_append_inj {s t : String} {rest rest' : List Char}
    (h : quoted s ++ rest = quoted t ++ rest') : s = t ∧ rest = rest' := by
  have hs := JsonText.units?_flatMap_escaped
    (Nat.le_max_left s.toList.length t.toList.length) rest
  have ht := JsonText.units?_flatMap_escaped
    (Nat.le_max_right s.toList.length t.toList.length) rest'
  have htext : s.toList.flatMap escaped ++ '"' :: rest =
      t.toList.flatMap escaped ++ '"' :: rest' := by
    simpa [quoted] using h
  rw [htext, ht, Option.some.injEq, Prod.mk.injEq] at hs
  have hchars : s.toList = t.toList :=
    List.map_injective_iff.2 (fun _ _ => Char.toNat_inj.1) hs.1.symm
  exact ⟨String.toList_inj.1 hchars, hs.2.symm⟩

/-- A numeral is read at a number only. -/
theorem chars_append_ne_number {x : Json} (hx : ∀ n, x ≠ number n) (value : Number)
    {rest rest' : List Char} (hrest' : Ends rest') :
    x.chars ++ rest ≠ (number value).chars ++ rest' := by
  intro h
  have hread : Numeral.read? (x.chars ++ rest) = none := by
    cases x with
    | null => rfl
    | bool value => cases value <;> rfl
    | number value => exact absurd rfl (hx value)
    | string value => rfl
    | array items => rfl
    | object members => rfl
  rw [h] at hread
  exact absurd (hread.symm.trans (Number.read?_text value hrest'.numeral)) (by simp)

/-- No written form begins with a blank or a closing bracket. -/
theorem chars_eq_cons (x : Json) :
    ∃ c cs, x.chars = c :: cs ∧ JsonText.isBlank c = false ∧ c ≠ ']' := by
  cases x with
  | null => exact ⟨_, _, rfl, by decide⟩
  | bool value => cases value <;> exact ⟨_, _, rfl, by decide⟩
  | number value =>
      obtain ⟨c, cs, hchars, hc⟩ := (Number.wellFormed_numeral value).chars_eq_cons
      refine ⟨c, cs, (Number.text_eq value).trans hchars, ?_⟩
      rcases hc with rfl | ⟨d, hd, rfl⟩
      · decide
      · interval_cases d <;> decide
  | string value => exact ⟨_, _, rfl, by decide⟩
  | array items => exact ⟨_, _, rfl, by decide⟩
  | object members => exact ⟨_, _, rfl, by decide⟩

theorem chars_append_ne_bracket (x : Json) (rest rest' : List Char) :
    x.chars ++ rest ≠ ']' :: rest' := by
  obtain ⟨c, cs, hchars, -, hc⟩ := x.chars_eq_cons
  rw [hchars, List.cons_append]
  exact fun h => hc (List.cons.inj h).1

/-- What follows the first item of an array. -/
def afterItem (items : List Json) (rest : List Char) : List Char :=
  match items with
  | [] => ']' :: rest
  | _ => ',' :: itemChars items ++ ']' :: rest

/-- What follows the first member of an object. -/
def afterMember (members : List (String × Json)) (rest : List Char) : List Char :=
  match members with
  | [] => '\x7d' :: rest
  | _ => ',' :: memberChars members ++ '\x7d' :: rest

theorem itemChars_cons (x : Json) (items : List Json) (rest : List Char) :
    itemChars (x :: items) ++ ']' :: rest = x.chars ++ afterItem items rest := by
  cases items <;> simp [itemChars, afterItem]

theorem memberChars_cons (name : String) (x : Json) (members : List (String × Json))
    (rest : List Char) :
    memberChars ((name, x) :: members) ++ '\x7d' :: rest =
      quoted name ++ ':' :: (x.chars ++ afterMember members rest) := by
  cases members <;> simp [memberChars, afterMember]

theorem ends_afterItem (items : List Json) (rest : List Char) : Ends (afterItem items rest) := by
  cases items <;> simp [Ends, afterItem]

theorem ends_afterMember (members : List (String × Json)) (rest : List Char) :
    Ends (afterMember members rest) := by
  cases members <;> simp [Ends, afterMember]

mutual

/-- The written form determines a value, and ends where the value does. -/
theorem chars_append_inj : ∀ (x y : Json) {rest rest' : List Char}, Ends rest →
    Ends rest' → x.chars ++ rest = y.chars ++ rest' → x = y ∧ rest = rest'
  | null, y, rest, rest', hrest, hrest', h => by
      cases y with
      | null => exact ⟨rfl, List.append_cancel_left h⟩
      | number b => exact absurd h (chars_append_ne_number (by simp) b hrest')
      | bool b => cases b <;> simp [chars] at h
      | _ => simp [chars, quoted] at h
  | bool a, y, rest, rest', hrest, hrest', h => by
      cases y with
      | bool b => cases a <;> cases b <;> simp_all [chars]
      | number b => exact absurd h (chars_append_ne_number (by simp) b hrest')
      | _ => cases a <;> simp [chars, quoted] at h
  | number a, y, rest, rest', hrest, hrest', h => by
      cases y with
      | number b =>
          obtain ⟨rfl, hrests⟩ := Number.text_append_inj hrest.numeral hrest'.numeral h
          exact ⟨rfl, hrests⟩
      | _ => exact absurd h.symm (chars_append_ne_number (by simp) a hrest)
  | string a, y, rest, rest', hrest, hrest', h => by
      cases y with
      | string b =>
          obtain ⟨rfl, hrests⟩ := quoted_append_inj h
          exact ⟨rfl, hrests⟩
      | number b => exact absurd h (chars_append_ne_number (by simp) b hrest')
      | bool b => cases b <;> simp [chars, quoted] at h
      | _ => simp [chars, quoted] at h
  | array xs, y, rest, rest', hrest, hrest', h => by
      cases y with
      | array ys =>
          obtain ⟨rfl, hrests⟩ := itemChars_append_inj xs ys (by simpa [chars] using h)
          exact ⟨rfl, hrests⟩
      | number b => exact absurd h (chars_append_ne_number (by simp) b hrest')
      | bool b => cases b <;> simp [chars] at h
      | _ => simp [chars, quoted] at h
  | object xs, y, rest, rest', hrest, hrest', h => by
      cases y with
      | object ys =>
          obtain ⟨rfl, hrests⟩ := memberChars_append_inj xs ys (by simpa [chars] using h)
          exact ⟨rfl, hrests⟩
      | number b => exact absurd h (chars_append_ne_number (by simp) b hrest')
      | bool b => cases b <;> simp [chars] at h
      | _ => simp [chars, quoted] at h
termination_by structural x => x

theorem itemChars_append_inj : ∀ (xs ys : List Json) {rest rest' : List Char},
    itemChars xs ++ ']' :: rest = itemChars ys ++ ']' :: rest' → xs = ys ∧ rest = rest'
  | [], [], rest, rest', h => ⟨rfl, (List.cons.inj h).2⟩
  | [], y :: ys, rest, rest', h => by
      rw [itemChars_cons] at h
      exact absurd h.symm (chars_append_ne_bracket y _ rest)
  | x :: xs, [], rest, rest', h => by
      rw [itemChars_cons] at h
      exact absurd h (chars_append_ne_bracket x _ rest')
  | x :: xs, y :: ys, rest, rest', h => by
      rw [itemChars_cons, itemChars_cons] at h
      obtain ⟨rfl, hafter⟩ :=
        chars_append_inj x y (ends_afterItem xs rest) (ends_afterItem ys rest') h
      match xs, ys with
      | [], [] => exact ⟨rfl, (List.cons.inj hafter).2⟩
      | [], _ :: _ => simp [afterItem] at hafter
      | _ :: _, [] => simp [afterItem] at hafter
      | x' :: xs, y' :: ys =>
          obtain ⟨heq, hrests⟩ :=
            itemChars_append_inj (x' :: xs) (y' :: ys) (List.cons.inj hafter).2
          exact ⟨congrArg (x :: ·) heq, hrests⟩
termination_by structural xs => xs

theorem memberChars_append_inj : ∀ (xs ys : List (String × Json)) {rest rest' : List Char},
    memberChars xs ++ '\x7d' :: rest = memberChars ys ++ '\x7d' :: rest' →
      xs = ys ∧ rest = rest'
  | [], [], rest, rest', h => ⟨rfl, (List.cons.inj h).2⟩
  | [], (l, y) :: ys, rest, rest', h => by
      rw [memberChars_cons] at h
      simp [memberChars, quoted] at h
  | (k, x) :: xs, [], rest, rest', h => by
      rw [memberChars_cons] at h
      simp [memberChars, quoted] at h
  | (k, x) :: xs, (l, y) :: ys, rest, rest', h => by
      rw [memberChars_cons, memberChars_cons] at h
      obtain ⟨rfl, hvalue⟩ := quoted_append_inj h
      obtain ⟨rfl, hafter⟩ := chars_append_inj x y (ends_afterMember xs rest)
        (ends_afterMember ys rest') (List.cons.inj hvalue).2
      match xs, ys with
      | [], [] => exact ⟨rfl, (List.cons.inj hafter).2⟩
      | [], _ :: _ => simp [afterMember] at hafter
      | _ :: _, [] => simp [afterMember] at hafter
      | x' :: xs, y' :: ys =>
          obtain ⟨heq, hrests⟩ :=
            memberChars_append_inj (x' :: xs) (y' :: ys) (List.cons.inj hafter).2
          exact ⟨congrArg ((k, x) :: ·) heq, hrests⟩
termination_by structural xs => xs

end

/-- Different values have different texts. -/
theorem text_injective : Function.Injective text := by
  intro x y h
  have hchars : x.chars ++ [] = y.chars ++ [] := by
    simpa using String.ofList_injective h
  exact (chars_append_inj x y (by simp [Ends]) (by simp [Ends]) hchars).1

end Json

end QueryCache
