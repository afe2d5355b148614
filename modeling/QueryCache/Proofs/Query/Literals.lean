import QueryCache.Proofs.Number.Text
import QueryCache.Proofs.Query.Tokens

/-!
# Reading printed literals

A printed literal is read as far as it goes, and no further: `SpellsLiteral`. What is
read need not be the literal that was printed. A control character is written by its
decimal code and read by a hexadecimal one, and the digits of a double need not round
back to it.
-/

namespace QueryCache

namespace Literal

/-! ### Strings -/

/-- The character is written by its code. -/
def isCoded (c : Char) : Bool := isControl c && c != '\r' && c != '\n' && c != '\t'

/-- The code that is read where a code is written: its decimal digits are taken for
hexadecimal ones. -/
def rereadCode (n : Nat) : Nat := n / 100 * 256 + n / 10 % 10 * 16 + n % 10

/-- The character that is read where a character is written. -/
def reread (c : Char) : Char := if isCoded c then Char.ofNat (rereadCode c.toNat) else c

theorem hexChar?_fourDigits {n : Nat} (h : n < 160) :
    ∃ a b c d, fourDigits n = [a, b, c, d] ∧
      hexChar? a b c d = some (Char.ofNat (rereadCode n)) := by
  have hall : ∀ n < 160, fourDigits n =
      ['0', Nat.digitChar (n / 100), Nat.digitChar (n / 10 % 10), Nat.digitChar (n % 10)] ∧
        hexChar? '0' (Nat.digitChar (n / 100)) (Nat.digitChar (n / 10 % 10))
          (Nat.digitChar (n % 10)) = some (Char.ofNat (rereadCode n)) := by
    decide +kernel
  exact ⟨_, _, _, _, hall n h⟩

theorem toNat_lt_of_isControl {c : Char} (h : isControl c = true) : c.toNat < 160 := by
  simp only [isControl, Bool.or_eq_true, Bool.and_eq_true, decide_eq_true_eq] at h
  omega

/-- A written character is read. -/
theorem content?_escaped (fuel : Nat) (c : Char) (rest : List Char) :
    content? (fuel + 1) (escaped c ++ rest) =
      (content? fuel rest).map fun found => (reread c :: found.1, found.2) := by
  have hletter : ∀ {letter d : Char}, letter ≠ 'u' → Text.shortEscape? letter = some d →
      content? (fuel + 1) (['\\', letter] ++ rest) =
        (content? fuel rest).map fun found => (d :: found.1, found.2) := by
    intro letter d hu hd
    cases h : content? fuel rest <;> simp [content?, hu, hd, h]
  rw [escaped]
  split_ifs with h₁ h₂ h₃ h₄ h₅ hcontrol
  iterate 5
    · subst c
      exact hletter (by decide) rfl
  · obtain ⟨a, b, d, e, hdigits, hread⟩ := hexChar?_fourDigits (toNat_lt_of_isControl hcontrol)
    have hcoded : isCoded c = true := by simp [isCoded, hcontrol, h₁, h₂, h₃]
    rw [reread, if_pos hcoded, hdigits]
    cases h : content? fuel rest <;> simp [content?, hread, h]
  · have hcoded : isCoded c = false := by simp [isCoded, hcontrol]
    rw [reread, hcoded]
    cases h : content? fuel rest <;> simp [content?, h₁, h₂, h₅, h]

/-- A written string is read up to its closing quote. -/
theorem content?_flatMap_escaped {fuel : Nat} {cs : List Char} (h : cs.length ≤ fuel)
    (rest : List Char) :
    content? fuel (cs.flatMap escaped ++ '"' :: rest) = some (cs.map reread, rest) := by
  induction cs generalizing fuel with
  | nil => cases fuel <;> rfl
  | cons c cs ih =>
      obtain ⟨fuel, rfl⟩ : ∃ n, fuel = n + 1 := ⟨fuel - 1, by simp at h; omega⟩
      rw [List.flatMap_cons, List.append_assoc, content?_escaped, ih (by simpa using h)]
      rfl

theorem escaped_eq_cons (c : Char) : ∃ d ds, escaped c = d :: ds ∧ d ≠ '"' := by
  rw [escaped]
  split_ifs with h₁ h₂ h₃ h₄ h₅ hcontrol
  iterate 6
    · exact ⟨'\\', _, rfl, by decide⟩
  · exact ⟨c, _, rfl, h₄⟩

theorem length_le_flatMap_escaped (cs : List Char) :
    cs.length ≤ (cs.flatMap escaped).length := by
  induction cs with
  | nil => rfl
  | cons c cs ih =>
      obtain ⟨d, ds, heq, -⟩ := escaped_eq_cons c
      simp only [List.flatMap_cons, heq, List.length_append, List.length_cons]
      omega

/-- A written string is no block string. Only the empty one begins with two quotes, and
no third one follows. -/
theorem readString?_quoted (cs : List Char) {rest : List Char} (h : rest.head? ≠ some '"') :
    readString? (quoted cs ++ rest) = some (cs.map reread, rest) := by
  have hcontent : content? (cs.flatMap escaped ++ '"' :: rest).length
      (cs.flatMap escaped ++ '"' :: rest) = some (cs.map reread, rest) := by
    refine content?_flatMap_escaped ?_ rest
    have := length_le_flatMap_escaped cs
    simp only [List.length_append]
    omega
  have htext : quoted cs ++ rest = '"' :: (cs.flatMap escaped ++ '"' :: rest) := by
    simp [quoted]
  have hblock : ∀ others, quoted cs ++ rest ≠ '"' :: '"' :: '"' :: others := by
    intro others heq
    rw [htext] at heq
    cases cs with
    | nil => exact h (by rw [(List.cons.inj (List.cons.inj heq).2).2]; rfl)
    | cons c cs =>
        obtain ⟨d, ds, hescaped, hd⟩ := escaped_eq_cons c
        rw [List.flatMap_cons, hescaped] at heq
        exact hd (List.cons.inj (List.cons.inj heq).2).1
  unfold readString?
  dsimp only
  split
  · rename_i hfound
    split at hfound
    · rename_i heq
      exact absurd heq (hblock _)
    · cases hfound
  · rename_i heq
    rw [htext] at heq
    cases heq
    exact hcontent
  · rename_i hquote
    exact absurd htext (hquote _)

end Literal

namespace Parser

variable {text rest : List Char}

theorem digit?_of_not_isNameChar {c : Char} (h : isNameChar c = false) :
    Numeral.digit? c = none := by
  have hdigit : ¬ ('0' ≤ c ∧ c ≤ '9') := by
    rintro ⟨hlow, hhigh⟩
    simp [isNameChar, hlow, hhigh] at h
  rw [Numeral.digit?, if_neg hdigit]

theorem digit?_of_isNameStart {c : Char} (h : isNameStart c = true) :
    Numeral.digit? c = none := by
  have hdigit : ¬ ('0' ≤ c ∧ c ≤ '9') := by
    rintro ⟨-, hhigh⟩
    simp only [isNameStart, Bool.or_eq_true, Bool.and_eq_true, decide_eq_true_eq,
      beq_iff_eq] at h
    rcases h with (⟨hlow, -⟩ | ⟨hlow, -⟩) | rfl
    · exact absurd (Char.le_trans hlow hhigh) (by decide)
    · exact absurd (Char.le_trans hlow hhigh) (by decide)
    · revert hhigh
      decide
  rw [Numeral.digit?, if_neg hdigit]

/-- No literal goes on with this text. -/
def EndsLiteral (rest : List Char) : Prop :=
  ∀ c ∈ rest.head?, isNameChar c = false ∧ c ≠ '.' ∧ c ≠ '"'

theorem EndsLiteral.name (h : EndsLiteral rest) : EndsName rest := fun c hc => (h c hc).1

theorem EndsLiteral.numeral (h : EndsLiteral rest) : Numeral.Ends rest := by
  intro c hc
  obtain ⟨hname, hpoint, -⟩ := h c hc
  refine ⟨digit?_of_not_isNameChar hname, hpoint, ?_, ?_⟩
  · rintro rfl
    cases hname
  · rintro rfl
    cases hname

/-! ### The alternatives -/

/-- A variable. -/
def referenceLiteral : Parser Literal := do
  token "$"
  return .reference (← name)

/-- A literal that is one word. -/
def keywordLiteral (text : String) (value : Literal) : Parser Literal := do
  token text
  return value

/-- A list with these items. -/
def listLiteral (item : Parser Literal) : Parser Literal := do
  token "["
  let items ← many item
  token "]"
  return .list items

/-- A name with a value. -/
def literalField (value : Parser Literal) : Parser (String × Literal) := do
  let fieldName ← name
  token ":"
  let value ← value
  return (fieldName, value)

/-- An object with these values. -/
def objectLiteral (value : Parser Literal) : Parser Literal := do
  token "\x7b"
  let fields ← many (literalField value)
  token "\x7d"
  return .object fields

/-- A truth value, `null` or an enumeration value. -/
def wordLiteral : Parser Literal :=
  orElse (keywordLiteral "true" (.bool true)) <|
  orElse (keywordLiteral "false" (.bool false)) <|
  orElse (keywordLiteral "null" .null) (Literal.enum <$> name)

theorem orElse_assoc {α : Type} (p q r : Parser α) :
    orElse (orElse p q) r = orElse p (orElse q r) := by
  funext cursor
  rw [orElse, orElse, orElse, orElse]
  cases p cursor <;> rfl

theorem literal_succ (withVariables : Bool) (fuel : Nat) :
    literal withVariables (fuel + 1) =
      orElse (if withVariables then referenceLiteral else fail)
        (orElse (Literal.numeral <$> scan readNumeral?)
          (orElse (Literal.string <$> scan Literal.readString?)
            (orElse wordLiteral
              (orElse (listLiteral (literal withVariables fuel))
                (objectLiteral (literal withVariables fuel)))))) := by
  simp only [wordLiteral, orElse_assoc]
  rfl

/-! ### What an alternative does not begin with -/

theorem refuses_referenceLiteral (h : (skip text).head? ≠ some '$') :
    Refuses referenceLiteral text :=
  (refuses_token_of_head rfl h).bind _

theorem refuses_reference (withVariables : Bool) (h : (skip text).head? ≠ some '$') :
    Refuses (if withVariables then referenceLiteral else fail) text := by
  cases withVariables with
  | true => exact refuses_referenceLiteral h
  | false => exact refuses_fail text

theorem refuses_numeral (h : Numeral.read? (skip text) = none) :
    Refuses (Literal.numeral <$> scan readNumeral?) text := by
  refine (refuses_scan ?_).map _
  rw [readNumeral?, h]

theorem read?_eq_none {c : Char} {cs : List Char} (hminus : c ≠ '-')
    (hdigit : Numeral.digit? c = none) : Numeral.read? (c :: cs) = none := by
  have hzero : c ≠ '0' := by
    rintro rfl
    cases hdigit
  simp [Numeral.read?, Numeral.digits, hminus, hzero, hdigit]

theorem refuses_string (h : (skip text).head? ≠ some '"') :
    Refuses (Literal.string <$> scan Literal.readString?) text := by
  refine (refuses_scan ?_).map _
  unfold Literal.readString?
  dsimp only
  split
  · rename_i hfound
    split at hfound
    · rename_i heq
      exact absurd (by rw [heq]; rfl) h
    · cases hfound
  · rename_i heq
    exact absurd (by rw [heq]; rfl) h
  · rfl

theorem refuses_wordLiteral (h : ∀ c ∈ (skip text).head?, isNameStart c = false) :
    Refuses wordLiteral text := by
  have hkeyword : ∀ {expected : String} {c : Char} {cs : List Char} (value : Literal),
      expected.toList = c :: cs → isNameStart c = true →
        Refuses (keywordLiteral expected value) text := by
    intro expected c cs value hexpected hc
    refine (refuses_token_of_head hexpected fun hhead => ?_).bind _
    rw [h c hhead] at hc
    cases hc
  exact (hkeyword _ rfl rfl).orElse_refuses <| (hkeyword _ rfl rfl).orElse_refuses <|
    (hkeyword _ rfl rfl).orElse_refuses ((refuses_name h).map _)

theorem refuses_listLiteral (item : Parser Literal) (h : (skip text).head? ≠ some '[') :
    Refuses (listLiteral item) text :=
  (refuses_token_of_head rfl h).bind _

theorem refuses_objectLiteral (value : Parser Literal) (h : (skip text).head? ≠ some '\x7b') :
    Refuses (objectLiteral value) text :=
  (refuses_token_of_head rfl h).bind _

/-- Nothing is read where a list ends. -/
theorem refuses_literal (withVariables : Bool) (fuel : Nat) (rest : List Char) :
    Refuses (literal withVariables fuel) (']' :: rest) := by
  cases fuel with
  | zero => exact refuses_fail _
  | succ fuel =>
      have hskip : skip (']' :: rest) = ']' :: rest := skip_solid rfl rest
      have hne : ∀ c, c ≠ ']' → (skip (']' :: rest)).head? ≠ some c := by
        rintro c hc heq
        rw [hskip] at heq
        exact hc (Option.some.inj heq).symm
      rw [literal_succ]
      refine (refuses_reference _ (hne _ (by decide))).orElse_refuses <|
        Refuses.orElse_refuses (refuses_numeral (by rw [hskip]; rfl)) <|
        (refuses_string (hne _ (by decide))).orElse_refuses <|
        Refuses.orElse_refuses (refuses_wordLiteral (by rw [hskip]; rintro c ⟨rfl⟩; rfl)) <|
        (refuses_listLiteral _ (hne _ (by decide))).orElse_refuses
          (refuses_objectLiteral _ (hne _ (by decide)))

/-! ### Printed literals -/

/-- Wherever this text of a literal stands, this literal is read. -/
def SpellsLiteral (withVariables : Bool) (chars : List Char) (found : Literal) : Prop :=
  ∀ fuel, chars.length ≤ fuel → Spells (literal withVariables fuel) EndsLiteral chars found

theorem spellsLiteral_of {withVariables : Bool} {c : Char} {cs : List Char} {found : Literal}
    (hsolid : isSolid c = true)
    (h : ∀ fuel, cs.length ≤ fuel → ∀ {text rest}, skip text = c :: cs ++ rest →
      EndsLiteral rest → Reads (literal withVariables (fuel + 1)) text found rest) :
    SpellsLiteral withVariables (c :: cs) found := by
  intro fuel hfuel
  obtain ⟨fuel, rfl⟩ : ∃ n, fuel = n + 1 := ⟨fuel - 1, by simp at hfuel; omega⟩
  exact ⟨⟨c, cs, rfl, hsolid⟩, h fuel (by simpa using hfuel)⟩

theorem spellsLiteral_reference {name : String} (hname : IsName name) :
    SpellsLiteral true ('$' :: name.toList) (.reference name) := by
  refine spellsLiteral_of rfl fun fuel _ text rest htext hrest => ?_
  rw [literal_succ, if_pos rfl]
  have htoken : Reads (token "$") text () (name.toList ++ rest) := reads_token htext
  refine Reads.orElse (htoken.bind ?_) _
  exact (reads_name (hname.skip rest) hname hrest.name).bind (reads_pure _ _)

theorem readNumeral?_append (value : Number) (hrest : EndsLiteral rest) :
    readNumeral? (value.text ++ rest) = some (value.numeral, rest) := by
  rw [readNumeral?, Number.read?_text value hrest.numeral]
  cases rest with
  | nil => rfl
  | cons c rest =>
      have hc : isNameStart c = false := by
        by_contra hc
        have hchar := isNameChar_of_isNameStart (by simpa using hc)
        rw [(hrest c rfl).1] at hchar
        cases hchar
      simp [hc]

theorem spellsLiteral_numeral (withVariables : Bool) (value : Number) :
    SpellsLiteral withVariables value.text (.numeral value.numeral) := by
  obtain ⟨c, cs, heq, hc⟩ := (Number.wellFormed_numeral value).chars_eq_cons
  rw [← Number.text_eq] at heq
  have hsolid : isSolid c = true ∧ c ≠ '$' := by
    rcases hc with rfl | ⟨d, hd, rfl⟩
    · exact ⟨rfl, by decide⟩
    · interval_cases d <;> exact ⟨rfl, by decide⟩
  rw [heq]
  refine spellsLiteral_of hsolid.1 fun fuel _ text rest htext hrest => ?_
  have hhead : (skip text).head? ≠ some '$' := by
    rw [htext]
    rintro ⟨rfl⟩
    exact hsolid.2 rfl
  have hread : readNumeral? (skip text) = some (value.numeral, rest) := by
    rw [htext, ← heq]
    exact readNumeral?_append value hrest
  rw [literal_succ]
  exact (refuses_reference _ hhead).orElse (Reads.orElse ((reads_scan hread).map _) _)

theorem spellsLiteral_string (withVariables : Bool) (cs : List Char) :
    SpellsLiteral withVariables (Literal.quoted cs) (.string (cs.map Literal.reread)) := by
  refine spellsLiteral_of rfl fun fuel _ text rest htext hrest => ?_
  have hhead : (skip text).head? = some '"' := by
    rw [htext]
    rfl
  have hread : Literal.readString? (skip text) = some (cs.map Literal.reread, rest) := by
    rw [htext]
    exact Literal.readString?_quoted cs fun hquote => (hrest _ hquote).2.2 rfl
  rw [literal_succ]
  refine (refuses_reference _ (by rw [hhead]; decide)).orElse <|
    Refuses.orElse (refuses_numeral ?_) <| Reads.orElse ((reads_scan hread).map _) _
  rw [htext]
  rfl

/-- Where a name begins, a word is read. -/
theorem reads_literal_of_word {withVariables : Bool} {fuel : Nat} {c : Char} {cs : List Char}
    {found : Literal} (htext : skip text = c :: cs) (hc : isNameStart c = true)
    (h : Reads wordLiteral text found rest) :
    Reads (literal withVariables (fuel + 1)) text found rest := by
  have hne : ∀ d, isNameStart d = false → (skip text).head? ≠ some d := by
    rintro d hd heq
    rw [htext, List.head?_cons, Option.some.injEq] at heq
    rw [heq, hd] at hc
    cases hc
  have hminus : c ≠ '-' := by
    rintro rfl
    cases hc
  rw [literal_succ]
  refine (refuses_reference _ (hne _ rfl)).orElse <| Refuses.orElse (refuses_numeral ?_) <|
    (refuses_string (hne _ rfl)).orElse (h.orElse _)
  rw [htext]
  exact read?_eq_none hminus (digit?_of_isNameStart hc)

theorem reads_keywordLiteral {expected : String} (value : Literal)
    (htext : skip text = expected.toList ++ rest) :
    Reads (keywordLiteral expected value) text value rest :=
  (reads_token htext).bind (reads_pure _ _)

theorem refuses_keywordLiteral {expected : String} (value : Literal)
    (h : ¬ expected.toList <+: skip text) : Refuses (keywordLiteral expected value) text :=
  (refuses_token h).bind _

theorem spellsLiteral_true (withVariables : Bool) :
    SpellsLiteral withVariables ['t', 'r', 'u', 'e'] (.bool true) := by
  refine spellsLiteral_of rfl fun fuel _ text rest htext hrest => ?_
  exact reads_literal_of_word htext rfl ((reads_keywordLiteral _ htext).orElse _)

theorem spellsLiteral_false (withVariables : Bool) :
    SpellsLiteral withVariables ['f', 'a', 'l', 's', 'e'] (.bool false) := by
  refine spellsLiteral_of rfl fun fuel _ text rest htext hrest => ?_
  have htrue : ¬ "true".toList <+: skip text := by
    rw [htext]
    rintro ⟨after, heq⟩
    simp at heq
  exact reads_literal_of_word htext rfl <|
    (refuses_keywordLiteral _ htrue).orElse ((reads_keywordLiteral _ htext).orElse _)

theorem spellsLiteral_null (withVariables : Bool) :
    SpellsLiteral withVariables ['n', 'u', 'l', 'l'] .null := by
  refine spellsLiteral_of rfl fun fuel _ text rest htext hrest => ?_
  have htrue : ¬ "true".toList <+: skip text := by
    rw [htext]
    rintro ⟨after, heq⟩
    simp at heq
  have hfalse : ¬ "false".toList <+: skip text := by
    rw [htext]
    rintro ⟨after, heq⟩
    simp at heq
  exact reads_literal_of_word htext rfl <| (refuses_keywordLiteral _ htrue).orElse <|
    (refuses_keywordLiteral _ hfalse).orElse ((reads_keywordLiteral _ htext).orElse _)

/-- No name of an enumeration value begins with one of these. -/
def keywords : List String := ["true", "false", "null"]

theorem isNameChar_of_mem_keyword :
    ∀ word ∈ keywords, ∀ c ∈ word.toList, isNameChar c = true := by
  have hall : keywords.all (fun word => word.toList.all isNameChar) = true := by decide
  exact fun word hword => List.all_eq_true.1 (List.all_eq_true.1 hall word hword)

/-- A word that stands at the start of a name and its follow-up stands in the name. -/
theorem isPrefix_of_isPrefix_append {word chars : List Char}
    (hword : ∀ c ∈ word, isNameChar c = true) (hrest : EndsName rest)
    (h : word <+: chars ++ rest) : word <+: chars := by
  induction chars generalizing word with
  | nil =>
      cases word with
      | nil => exact List.nil_prefix
      | cons w word =>
          obtain ⟨after, rfl⟩ := h
          have hw := hword w List.mem_cons_self
          rw [hrest w rfl] at hw
          cases hw
  | cons c chars ih =>
      cases word with
      | nil => exact List.nil_prefix
      | cons w word =>
          obtain ⟨rfl, htail⟩ := List.cons_prefix_cons.1 h
          exact List.cons_prefix_cons.2
            ⟨rfl, ih (fun c hc => hword c (List.mem_cons_of_mem _ hc)) htail⟩

theorem spellsLiteral_enum (withVariables : Bool) {name : String} (hname : IsName name)
    (hkeyword : ∀ word ∈ keywords, ¬ word.toList <+: name.toList) :
    SpellsLiteral withVariables name.toList (.enum name) := by
  obtain ⟨c, cs, heq, hc, -⟩ := id hname
  rw [heq]
  refine spellsLiteral_of (isSolid_of_isNameChar (isNameChar_of_isNameStart hc))
    fun fuel _ text rest htext hrest => ?_
  have hrefuses : ∀ word ∈ keywords, ∀ value, Refuses (keywordLiteral word value) text := by
    intro word hword value
    refine refuses_keywordLiteral value fun hprefix => hkeyword word hword ?_
    rw [htext, ← heq] at hprefix
    exact isPrefix_of_isPrefix_append (isNameChar_of_mem_keyword word hword) hrest.name hprefix
  refine reads_literal_of_word htext hc <| (hrefuses _ (by simp [keywords]) _).orElse <|
    (hrefuses _ (by simp [keywords]) _).orElse <|
    (hrefuses _ (by simp [keywords]) _).orElse (Reads.map ?_ _)
  exact reads_name (by rw [htext, heq]) hname hrest.name

/-! ### Lists and objects -/

theorem endsLiteral_comma (rest : List Char) : EndsLiteral (',' :: rest) := by
  rintro c ⟨rfl⟩
  decide

theorem endsLiteral_parenthesis (rest : List Char) : EndsLiteral (')' :: rest) := by
  rintro c ⟨rfl⟩
  decide

theorem endsLiteral_bracket (rest : List Char) : EndsLiteral (']' :: rest) := by
  rintro c ⟨rfl⟩
  decide

theorem endsLiteral_brace (rest : List Char) : EndsLiteral ('\x7d' :: rest) := by
  rintro c ⟨rfl⟩
  decide

theorem length_le_commaSeparated {items : List (List Char)} {item : List Char}
    (h : item ∈ items) : item.length ≤ (commaSeparated items).length := by
  induction items with
  | nil => simp at h
  | cons first others ih =>
      cases others with
      | nil =>
          rw [List.mem_singleton.1 h]
          rfl
      | cons next others =>
          rw [commaSeparated_cons_cons, List.length_append, List.length_cons, List.length_cons]
          rcases List.mem_cons.1 h with rfl | hmem
          · omega
          · have := ih hmem
            omega

/-- Where a bracket opens, a list or an object is read. -/
theorem reads_literal_of_bracket {withVariables : Bool} {fuel : Nat} {c : Char}
    {cs : List Char} {found : Literal} (htext : skip text = c :: cs) (hc : c = '[' ∨ c = '\x7b')
    (h : Reads (orElse (listLiteral (literal withVariables fuel))
      (objectLiteral (literal withVariables fuel))) text found rest) :
    Reads (literal withVariables (fuel + 1)) text found rest := by
  have hne : ∀ d, d ≠ '[' → d ≠ '\x7b' → (skip text).head? ≠ some d := by
    rintro d hlist hobject heq
    rw [htext, List.head?_cons, Option.some.injEq] at heq
    exact hc.elim (fun hc => hlist (heq ▸ hc)) fun hc => hobject (heq ▸ hc)
  rw [literal_succ]
  refine (refuses_reference _ (hne _ (by decide) (by decide))).orElse <|
    Refuses.orElse (refuses_numeral ?_) <|
    (refuses_string (hne _ (by decide) (by decide))).orElse <|
    Refuses.orElse (refuses_wordLiteral ?_) h
  · rw [htext]
    rcases hc with rfl | rfl <;> rfl
  · rw [htext]
    rcases hc with rfl | rfl <;> rintro d ⟨rfl⟩ <;> rfl

theorem spellsLiteral_list {withVariables : Bool} {items : List (List Char)}
    {found : List Literal} (h : List.Forall₂ (SpellsLiteral withVariables) items found) :
    SpellsLiteral withVariables ('[' :: (commaSeparated items ++ [']'])) (.list found) := by
  refine spellsLiteral_of rfl fun fuel hfuel text rest htext hrest => ?_
  have hspells : List.Forall₂ (Spells (literal withVariables fuel) EndsLiteral) items found := by
    refine List.forall₂_iff_get.2 ⟨h.length_eq, fun i hi hi' => ?_⟩
    refine h.get hi hi' fuel ?_
    have := length_le_commaSeparated (List.get_mem items ⟨i, hi⟩)
    simp only [List.length_append] at hfuel
    omega
  have hitems := reads_many_commaSeparated hspells (fun _ _ _ => endsLiteral_comma _)
    (endsLiteral_bracket rest) (refuses_literal withVariables fuel rest)
  have htoken : Reads (token "[") text () (commaSeparated items ++ ']' :: rest) :=
    reads_token (by rw [htext]; simp)
  have hclose : Reads (token "]") (']' :: rest) () rest := reads_token (skip_solid rfl rest)
  have hlist : Reads (listLiteral (literal withVariables fuel)) text (.list found) rest :=
    htoken.bind (hitems.bind (hclose.bind (reads_pure _ _)))
  exact reads_literal_of_bracket htext (Or.inl rfl) (hlist.orElse _)

/-- The fields are named alike, and each value is read where the text of the other
stands. -/
def SpellsField (withVariables : Bool) (field : String × List Char)
    (found : String × Literal) : Prop :=
  IsName field.1 ∧ found.1 = field.1 ∧ SpellsLiteral withVariables field.2 found.2

theorem SpellsField.spells {withVariables : Bool} {field : String × List Char}
    {found : String × Literal} (h : SpellsField withVariables field found) {fuel : Nat}
    (hfuel : field.2.length ≤ fuel) :
    Spells (literalField (literal withVariables fuel)) EndsLiteral (Literal.fieldChars field)
      found := by
  obtain ⟨name, chars⟩ := field
  obtain ⟨foundName, value⟩ := found
  obtain ⟨hname, rfl, hvalue⟩ := h
  obtain ⟨c, cs, heq, hc, -⟩ := id hname
  refine ⟨⟨c, cs ++ ':' :: ' ' :: chars, by rw [Literal.fieldChars, heq]; rfl,
    isSolid_of_isNameChar (isNameChar_of_isNameStart hc)⟩, fun {text rest} htext hrest => ?_⟩
  have hends : EndsName (':' :: ' ' :: (chars ++ rest)) := by
    rintro c ⟨rfl⟩
    rfl
  have hfield : Reads name text foundName (':' :: ' ' :: (chars ++ rest)) :=
    reads_name (by rw [htext, Literal.fieldChars]; simp) hname hends
  have hcolon : Reads (token ":") (':' :: ' ' :: (chars ++ rest)) () (' ' :: (chars ++ rest)) :=
    reads_token (skip_solid rfl _)
  have hspells := hvalue fuel hfuel
  refine hfield.bind (hcolon.bind (Reads.bind (hspells.reads ?_ hrest) (reads_pure _ _)))
  rw [skip_space, hspells.skip]

theorem spellsLiteral_object {withVariables : Bool} {fields : List (String × List Char)}
    {found : List (String × Literal)}
    (h : List.Forall₂ (SpellsField withVariables) fields found) :
    SpellsLiteral withVariables
      ('\x7b' :: (commaSeparated (fields.map Literal.fieldChars) ++ ['\x7d']))
      (.object found) := by
  refine spellsLiteral_of rfl fun fuel hfuel text rest htext hrest => ?_
  have hspells : List.Forall₂ (Spells (literalField (literal withVariables fuel)) EndsLiteral)
      (fields.map Literal.fieldChars) found := by
    refine List.forall₂_map_left_iff.2 (List.forall₂_iff_get.2 ⟨h.length_eq, fun i hi hi' => ?_⟩)
    refine (h.get hi hi').spells ?_
    have hmem : Literal.fieldChars (fields.get ⟨i, hi⟩) ∈ fields.map Literal.fieldChars :=
      List.mem_map_of_mem (List.get_mem fields ⟨i, hi⟩)
    have := length_le_commaSeparated hmem
    simp only [List.length_append, Literal.fieldChars, List.length_cons] at hfuel this
    omega
  have hrefuses : Refuses (literalField (literal withVariables fuel)) ('\x7d' :: rest) := by
    refine (refuses_name ?_).bind _
    rw [skip_solid rfl]
    rintro c ⟨rfl⟩
    rfl
  have hfields := reads_many_commaSeparated hspells (fun _ _ _ => endsLiteral_comma _)
    (endsLiteral_brace rest) hrefuses
  have htoken : Reads (token "\x7b") text ()
      (commaSeparated (fields.map Literal.fieldChars) ++ '\x7d' :: rest) :=
    reads_token (by rw [htext]; simp)
  have hclose : Reads (token "\x7d") ('\x7d' :: rest) () rest :=
    reads_token (skip_solid rfl rest)
  have hbracket : (skip text).head? ≠ some '[' := by
    rw [htext]
    rintro ⟨⟩
  have hobject : Reads (objectLiteral (literal withVariables fuel)) text (.object found) rest :=
    htoken.bind (hfields.bind (hclose.bind (reads_pure _ _)))
  exact reads_literal_of_bracket htext (Or.inr rfl)
    ((refuses_listLiteral _ hbracket).orElse hobject)

end Parser

end QueryCache
