import QueryCache.Proofs.Json.Ordered
import QueryCache.Proofs.Json.Text

/-!
# The written form of a value is read back

`Json.tree` is the syntax tree of the written form of a value. Reading the written form gives this
tree (`Json.read?_text`), whatever the value: the fuel that the reader gets by the length of
the text is enough. The tree has the value again, as long as its containers do not nest deeper than
the reader allows, every object lists its members in order, and the numbers are read back
(`Json.valueWithin?_tree`). The digits of a double need not lead back to it, hence the last
condition; those of an integer of 64 bits do.
-/

namespace QueryCache

namespace Numeral

theorem le_foldl_digits (digits : List Nat) (significand : Nat) :
    significand ≤ digits.foldl (fun acc d => acc * 10 + d) significand := by
  induction digits generalizing significand with
  | nil => exact Nat.le_refl _
  | cons d ds ih =>
      have hnext := ih (significand * 10 + d)
      rw [List.foldl_cons]
      omega

/-- All digits are gathered if the number that they make up is not too large. -/
theorem gather_of_foldl_le {digits : List Nat} {significand : Nat}
    (h : digits.foldl (fun acc d => acc * 10 + d) significand ≤ maxSignificand) :
    gather significand digits =
      (digits.foldl (fun acc d => acc * 10 + d) significand, 0) := by
  induction digits generalizing significand with
  | nil => rfl
  | cons d ds ih =>
      rw [List.foldl_cons] at h ⊢
      rw [gather, if_pos ((le_foldl_digits ds _).trans h), ih h]

theorem gather_digitValues {n : Nat} (h : n ≤ maxSignificand) :
    gather 0 (Decimal.digitValues n) = (n, 0) := by
  have hvalue : (Decimal.digitValues n).foldl (fun acc d => acc * 10 + d) 0 = n :=
    natValue_digitValues n
  rw [gather_of_foldl_le (hvalue.symm ▸ h), hvalue]

end Numeral

namespace Number

/-- The written form of a number is read as this number. -/
def ReadsBack (value : Number) : Prop := value.numeral.value? = some value

/-- An integer of 64 bits, with or without sign, is read back. -/
theorem readsBack_int {value : Int} (hmin : -Numeral.maxNegative ≤ value)
    (hmax : value ≤ Numeral.maxSignificand) : (int value).ReadsBack := by
  have hfits : value.natAbs ≤ Numeral.maxSignificand := by
    rw [Numeral.maxNegative] at hmin
    rw [Numeral.maxSignificand] at hmax ⊢
    omega
  rw [ReadsBack, numeral, Numeral.value?, Numeral.gather_digitValues hfits]
  rcases Int.lt_or_le value 0 with hneg | hneg
  · have hsmall : ¬ Numeral.maxNegative < value.natAbs := by omega
    have habs : (value.natAbs : Int) = -value := by omega
    simp [hneg, hneg.ne, hsmall, habs]
  · have habs : (value.natAbs : Int) = value := by omega
    simp [hneg.not_gt, habs]

end Number

namespace Json

mutual

/-- The syntax tree of the written form. -/
def tree : Json → JsonText
  | null => .null
  | bool value => .bool value
  | number value => .numeral value.numeral
  | string value => .string (some value)
  | array items => .array (itemTrees items)
  | object members => .object (memberTrees members)
termination_by structural x => x

/-- The syntax trees of items. -/
def itemTrees : List Json → List JsonText
  | [] => []
  | x :: rest => tree x :: itemTrees rest
termination_by structural xs => xs

/-- The syntax trees of members. -/
def memberTrees : List (String × Json) → List (Option String × JsonText)
  | [] => []
  | (name, x) :: rest => (some name, tree x) :: memberTrees rest
termination_by structural xs => xs

end

mutual

/-- How many containers stand inside each other. -/
def nesting : Json → Nat
  | array items => itemsNesting items + 1
  | object members => membersNesting members + 1
  | _ => 0
termination_by structural x => x

/-- How many containers stand inside each other in some items. -/
def itemsNesting : List Json → Nat
  | [] => 0
  | x :: rest => max (nesting x) (itemsNesting rest)
termination_by structural xs => xs

/-- How many containers stand inside each other in some members. -/
def membersNesting : List (String × Json) → Nat
  | [] => 0
  | (_, x) :: rest => max (nesting x) (membersNesting rest)
termination_by structural xs => xs

end

mutual

/-- Every number in the value is read back. -/
def NumbersReadBack : Json → Prop
  | number value => value.ReadsBack
  | array items => ItemsReadBack items
  | object members => MembersReadBack members
  | _ => True
termination_by structural x => x

/-- Every number in some items is read back. -/
def ItemsReadBack : List Json → Prop
  | [] => True
  | x :: rest => NumbersReadBack x ∧ ItemsReadBack rest
termination_by structural xs => xs

/-- Every number in some members is read back. -/
def MembersReadBack : List (String × Json) → Prop
  | [] => True
  | (_, x) :: rest => NumbersReadBack x ∧ MembersReadBack rest
termination_by structural xs => xs

end

end Json

namespace JsonText

/-! ### Strings -/

/-- No character is half of a surrogate pair. -/
theorem isSurrogate_toNat (c : Char) :
    isHighSurrogate c.toNat = false ∧ isLowSurrogate c.toNat = false := by
  have hvalid : c.toNat < 0xD800 ∨ 0xDFFF < c.toNat ∧ c.toNat < 0x110000 := c.valid
  constructor
  · simp only [isHighSurrogate, Bool.and_eq_false_iff, decide_eq_false_iff_not]
    omega
  · simp only [isLowSurrogate, Bool.and_eq_false_iff, decide_eq_false_iff_not]
    omega

theorem joined?_map_toNat (cs : List Char) : joined? (cs.map Char.toNat) = some cs := by
  induction cs with
  | nil => rfl
  | cons c cs ih =>
      obtain ⟨hhigh, hlow⟩ := isSurrogate_toNat c
      rw [List.map_cons, joined?.eq_def]
      simp [hhigh, hlow, ih]

theorem length_le_flatMap_escaped (cs : List Char) :
    cs.length ≤ (cs.flatMap Json.escaped).length := by
  have hpos : ∀ c, 0 < (Json.escaped c).length := by
    intro c
    rw [Json.escaped]
    split_ifs <;> simp
  induction cs with
  | nil => simp
  | cons c cs ih =>
      have hc := hpos c
      rw [List.flatMap_cons, List.length_append, List.length_cons]
      omega

/-- A written string is read back. -/
theorem quoted?_flatMap_escaped (s : String) (rest : List Char) :
    quoted? (s.toList.flatMap Json.escaped ++ '"' :: rest) = some (some s, rest) := by
  have hfuel : s.toList.length ≤ (s.toList.flatMap Json.escaped ++ '"' :: rest).length := by
    have := length_le_flatMap_escaped s.toList
    simp only [List.length_append]
    omega
  rw [quoted?, units?_flatMap_escaped hfuel]
  simp [joined?_map_toNat]

/-! ### One step of the reader -/

theorem skipBlank_cons {c : Char} (h : isBlank c = false) (cs : List Char) :
    skipBlank (c :: cs) = c :: cs :=
  List.dropWhile_cons_of_neg (by simp [h])

theorem quoted_append (s : String) (rest : List Char) :
    Json.quoted s ++ rest = '"' :: (s.toList.flatMap Json.escaped ++ '"' :: rest) := by
  simp [Json.quoted]

section Steps

variable {fuel : Nat} {text rest : List Char} {x : JsonText}

theorem tree?_string (s : String) :
    tree? (fuel + 1) (Json.quoted s ++ rest) = some (string (some s), rest) := by
  rw [quoted_append]
  simp [tree?, skipBlank_cons (by decide : isBlank '"' = false), quoted?_flatMap_escaped]

theorem tree?_numeral {c : Char} {cs : List Char} (h : c = '-' ∨ ∃ d < 10, c = Nat.digitChar d) :
    tree? (fuel + 1) (c :: cs) =
      (Numeral.read? (c :: cs)).bind fun found => some (numeral found.1, found.2) := by
  rcases h with rfl | ⟨d, hd, rfl⟩
  · rfl
  · interval_cases d <;> rfl

theorem tree?_array {c : Char} {cs : List Char} (hblank : isBlank c = false) (hc : c ≠ ']') :
    tree? (fuel + 1) ('[' :: c :: cs) =
      (items? fuel (c :: cs)).bind fun found => some (array found.1, found.2) := by
  simp [tree?, skipBlank_cons (by decide : isBlank '[' = false), skipBlank_cons hblank, hc]

theorem tree?_object {c : Char} {cs : List Char} (hblank : isBlank c = false)
    (hc : c ≠ '\x7d') :
    tree? (fuel + 1) ('\x7b' :: c :: cs) =
      (members? fuel (c :: cs)).bind fun found => some (object found.1, found.2) := by
  simp [tree?, skipBlank_cons (by decide : isBlank '\x7b' = false), skipBlank_cons hblank, hc]

theorem items?_last (h : tree? fuel text = some (x, ']' :: rest)) :
    items? (fuel + 1) text = some ([x], rest) := by
  simp [items?, h, skipBlank_cons (by decide : isBlank ']' = false)]

theorem items?_more (h : tree? fuel text = some (x, ',' :: rest)) :
    items? (fuel + 1) text =
      (items? fuel rest).bind fun found => some (x :: found.1, found.2) := by
  simp [items?, h, skipBlank_cons (by decide : isBlank ',' = false)]

variable (name : String)

theorem members?_last (h : tree? fuel text = some (x, '\x7d' :: rest)) :
    members? (fuel + 1) (Json.quoted name ++ ':' :: text) = some ([(some name, x)], rest) := by
  rw [quoted_append]
  simp [members?, h, quoted?_flatMap_escaped, skipBlank_cons (by decide : isBlank '"' = false),
    skipBlank_cons (by decide : isBlank ':' = false),
    skipBlank_cons (by decide : isBlank '\x7d' = false)]

theorem members?_more (h : tree? fuel text = some (x, ',' :: rest)) :
    members? (fuel + 1) (Json.quoted name ++ ':' :: text) =
      (members? fuel rest).bind fun found => some ((some name, x) :: found.1, found.2) := by
  rw [quoted_append]
  simp [members?, h, quoted?_flatMap_escaped, skipBlank_cons (by decide : isBlank '"' = false),
    skipBlank_cons (by decide : isBlank ':' = false),
    skipBlank_cons (by decide : isBlank ',' = false)]

end Steps

end JsonText

namespace Json

open JsonText (tree? items? members?)

/-! ### Whole values -/

theorem exists_fuel {x : Json} {fuel : Nat} (h : x.chars.length ≤ fuel) :
    ∃ n, fuel = n + 1 := by
  obtain ⟨c, cs, hchars, -⟩ := x.chars_eq_cons
  rw [hchars, List.length_cons] at h
  exact ⟨fuel - 1, by omega⟩

theorem tree?_number (value : Number) (fuel : Nat) {rest : List Char} (hrest : Ends rest) :
    tree? (fuel + 1) (value.text ++ rest) = some (.numeral value.numeral, rest) := by
  have hread := Number.read?_text value hrest.numeral
  obtain ⟨c, cs, hchars, hc⟩ := (Number.wellFormed_numeral value).chars_eq_cons
  rw [Number.text_eq, hchars, List.cons_append] at hread ⊢
  rw [JsonText.tree?_numeral hc, hread]
  rfl

mutual

/-- The written form of a value is read up to its end, and as its tree. -/
theorem tree?_chars : ∀ (x : Json) {fuel : Nat} {rest : List Char}, x.chars.length ≤ fuel →
    Ends rest → tree? fuel (x.chars ++ rest) = some (x.tree, rest)
  | null, fuel, rest, hfuel, _ => by
      obtain ⟨fuel, rfl⟩ := exists_fuel hfuel
      rfl
  | bool value, fuel, rest, hfuel, _ => by
      obtain ⟨fuel, rfl⟩ := exists_fuel hfuel
      cases value <;> rfl
  | number value, fuel, rest, hfuel, hrest => by
      obtain ⟨fuel, rfl⟩ := exists_fuel hfuel
      exact tree?_number value fuel hrest
  | string value, fuel, rest, hfuel, _ => by
      obtain ⟨fuel, rfl⟩ := exists_fuel hfuel
      exact JsonText.tree?_string value
  | array items, fuel, rest, hfuel, _ => by
      obtain ⟨fuel, rfl⟩ := exists_fuel hfuel
      have htext : (array items).chars ++ rest = '[' :: (itemChars items ++ ']' :: rest) := by
        simp [chars]
      rw [htext]
      match items with
      | [] => rfl
      | x :: xs =>
          have hread : items? fuel (itemChars (x :: xs) ++ ']' :: rest) =
              some (itemTrees (x :: xs), rest) :=
            items?_itemChars (x :: xs) (List.cons_ne_nil x xs) (by simp [chars] at hfuel; omega)
          obtain ⟨c, cs, hchars, hblank, hc⟩ := x.chars_eq_cons
          rw [itemChars_cons, hchars, List.cons_append] at hread ⊢
          rw [JsonText.tree?_array hblank hc, hread]
          rfl
  | object members, fuel, rest, hfuel, _ => by
      obtain ⟨fuel, rfl⟩ := exists_fuel hfuel
      have htext : (object members).chars ++ rest =
          '\x7b' :: (memberChars members ++ '\x7d' :: rest) := by
        simp [chars]
      rw [htext]
      match members with
      | [] => rfl
      | (name, x) :: ms =>
          have hread : members? fuel (memberChars ((name, x) :: ms) ++ '\x7d' :: rest) =
              some (memberTrees ((name, x) :: ms), rest) :=
            members?_memberChars ((name, x) :: ms) (List.cons_ne_nil _ ms)
              (by simp [chars] at hfuel; omega)
          rw [memberChars_cons, JsonText.quoted_append] at hread ⊢
          rw [JsonText.tree?_object (by decide) (by decide), hread]
          rfl
termination_by structural x => x

/-- The items of an array are read up to its closing bracket. -/
theorem items?_itemChars : ∀ (xs : List Json), xs ≠ [] → ∀ {fuel : Nat} {rest : List Char},
    (itemChars xs).length < fuel →
      items? fuel (itemChars xs ++ ']' :: rest) = some (itemTrees xs, rest)
  | [], hne, _, _, _ => absurd rfl hne
  | x :: xs, _, fuel, rest, hfuel => by
      obtain ⟨fuel, rfl⟩ : ∃ n, fuel = n + 1 := ⟨fuel - 1, by omega⟩
      have hlength : x.chars.length ≤ fuel := by
        cases xs <;> simp [itemChars] at hfuel <;> omega
      have hread := tree?_chars x hlength (ends_afterItem xs rest)
      rw [itemChars_cons]
      match xs with
      | [] => exact JsonText.items?_last hread
      | y :: ys =>
          have hlengths : (itemChars (y :: ys)).length < fuel := by
            simp [itemChars] at hfuel
            omega
          calc items? (fuel + 1) (x.chars ++ afterItem (y :: ys) rest)
              = (items? fuel (itemChars (y :: ys) ++ ']' :: rest)).bind fun found =>
                  some (x.tree :: found.1, found.2) := JsonText.items?_more hread
            _ = some (itemTrees (x :: y :: ys), rest) := by
                rw [items?_itemChars (y :: ys) (List.cons_ne_nil y ys) hlengths]
                rfl
termination_by structural xs => xs

/-- The members of an object are read up to its closing brace. -/
theorem members?_memberChars : ∀ (ms : List (String × Json)), ms ≠ [] →
    ∀ {fuel : Nat} {rest : List Char}, (memberChars ms).length < fuel →
      members? fuel (memberChars ms ++ '\x7d' :: rest) = some (memberTrees ms, rest)
  | [], hne, _, _, _ => absurd rfl hne
  | (name, x) :: ms, _, fuel, rest, hfuel => by
      obtain ⟨fuel, rfl⟩ : ∃ n, fuel = n + 1 := ⟨fuel - 1, by omega⟩
      have hlength : x.chars.length ≤ fuel := by
        cases ms <;> simp [memberChars] at hfuel <;> omega
      have hread := tree?_chars x hlength (ends_afterMember ms rest)
      rw [memberChars_cons]
      match ms with
      | [] => exact JsonText.members?_last name hread
      | m :: ms =>
          have hlengths : (memberChars (m :: ms)).length < fuel := by
            simp [memberChars] at hfuel
            omega
          calc members? (fuel + 1) (quoted name ++ ':' :: (x.chars ++ afterMember (m :: ms) rest))
              = (members? fuel (memberChars (m :: ms) ++ '\x7d' :: rest)).bind fun found =>
                  some ((some name, x.tree) :: found.1, found.2) :=
                JsonText.members?_more name hread
            _ = some (memberTrees ((name, x) :: m :: ms), rest) := by
                rw [members?_memberChars (m :: ms) (List.cons_ne_nil m ms) hlengths]
                rfl
termination_by structural ms => ms

end

/-- The written form of a value is read as its tree. -/
theorem read?_text (x : Json) : JsonText.read? x.text = some x.tree := by
  have hends : Ends [] := by simp [Ends]
  have hread := tree?_chars x (Nat.le_add_right x.chars.length 1) hends
  rw [List.append_nil] at hread
  rw [JsonText.read?, text, String.length_ofList, String.toList_ofList, hread]
  rfl

theorem ofBytes?_text (x : Json) : JsonText.ofBytes? x.text.toUTF8 = some x.tree :=
  (JsonText.ofBytes?_toUTF8 x.text).trans x.read?_text

theorem memberTrees_eq_map (members : List (String × Json)) :
    memberTrees members = members.map fun member => (some member.1, member.2.tree) := by
  induction members with
  | nil => rfl
  | cons member rest ih => rw [memberTrees, ih, List.map_cons]

mutual

/-- The tree of a value has this value, unless its containers nest too deeply. -/
theorem valueWithin?_tree : ∀ (x : Json) (depth : Nat), x.Ordered → x.NumbersReadBack →
    x.tree.valueWithin? depth = if x.nesting ≤ depth then some x else none
  | null, _, _, _ => rfl
  | bool _, _, _, _ => rfl
  | number value, _, _, h => by
      rw [NumbersReadBack, Number.ReadsBack] at h
      simp [tree, JsonText.valueWithin?, nesting, h]
  | string _, _, _, _ => rfl
  | array items, 0, _, _ => by simp [tree, JsonText.valueWithin?, nesting]
  | array items, depth + 1, hordered, h => by
      rw [tree, JsonText.valueWithin?, itemsWithin?_itemTrees items depth hordered h, nesting]
      simp only [Nat.add_le_add_iff_right]
      split <;> rfl
  | object members, 0, _, _ => by simp [tree, JsonText.valueWithin?, nesting]
  | object members, depth + 1, hordered, h => by
      have hsorted : Table.ofList members = members := Table.insertAll_of_sorted hordered.1
      rw [tree, JsonText.valueWithin?, membersWithin?_memberTrees members depth hordered.2 h,
        nesting]
      simp only [Nat.add_le_add_iff_right]
      split
      · rw [Option.map_some, hsorted]
      · rfl
termination_by structural x => x

theorem itemsWithin?_itemTrees : ∀ (xs : List Json) (depth : Nat), OrderedItems xs →
    ItemsReadBack xs →
      JsonText.itemsWithin? depth (itemTrees xs) = if itemsNesting xs ≤ depth then some xs else none
  | [], _, _, _ => rfl
  | x :: xs, depth, hordered, h => by
      rw [itemTrees, JsonText.itemsWithin?, valueWithin?_tree x depth hordered.1 h.1,
        itemsWithin?_itemTrees xs depth hordered.2 h.2, itemsNesting]
      by_cases hx : x.nesting ≤ depth <;> by_cases hxs : itemsNesting xs ≤ depth <;> simp [hx, hxs]
termination_by structural xs => xs

theorem membersWithin?_memberTrees : ∀ (ms : List (String × Json)) (depth : Nat),
    OrderedMembers ms → MembersReadBack ms →
      JsonText.membersWithin? depth (memberTrees ms) =
        if membersNesting ms ≤ depth then some ms else none
  | [], _, _, _ => rfl
  | (name, x) :: ms, depth, hordered, h => by
      rw [memberTrees, JsonText.membersWithin?, valueWithin?_tree x depth hordered.1 h.1,
        membersWithin?_memberTrees ms depth hordered.2 h.2, membersNesting]
      by_cases hx : x.nesting ≤ depth <;> by_cases hms : membersNesting ms ≤ depth <;>
        simp [hx, hms]
termination_by structural ms => ms

end

/-- A value is read back from its written form, unless its containers nest too deeply. -/
theorem ofText?_text {x : Json} (hordered : x.Ordered) (h : x.NumbersReadBack) :
    ofText? x.text = if x.nesting ≤ JsonText.nestingLimit then some x else none := by
  rw [ofText?, read?_text]
  exact valueWithin?_tree x JsonText.nestingLimit hordered h

end Json

end QueryCache
