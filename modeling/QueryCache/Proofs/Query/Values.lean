import QueryCache.Proofs.Query.Literals

/-!
# Values as they are kept

A document keeps the printed form of a literal. `Parser.IsValue` says of a text that it is
one, and that is what the reader of values ensures. The text of a value is read back as
itself if the literal is `Literal.Legible`.
-/

namespace QueryCache

namespace Literal

open QueryCache.Parser (IsName SpellsLiteral SpellsField keywords)

mutual

/-- A literal as it can be read: names are names, and there are variables only where they
are allowed. -/
def WellFormed (withVariables : Bool) : Literal → Prop
  | reference name => withVariables = true ∧ IsName name
  | enum name => IsName name ∧ ∀ word ∈ keywords, ¬ word.toList <+: name.toList
  | list items => WellFormedItems withVariables items
  | object fields => WellFormedFields withVariables fields
  | _ => True
termination_by structural value => value

/-- Every item is well-formed. -/
def WellFormedItems (withVariables : Bool) : List Literal → Prop
  | [] => True
  | item :: rest => WellFormed withVariables item ∧ WellFormedItems withVariables rest
termination_by structural items => items

/-- Every field is well-formed. -/
def WellFormedFields (withVariables : Bool) : List (String × Literal) → Prop
  | [] => True
  | (name, value) :: rest =>
    (IsName name ∧ WellFormed withVariables value) ∧ WellFormedFields withVariables rest
termination_by structural fields => fields

end

theorem wellFormedItems_iff {withVariables : Bool} {items : List Literal} :
    WellFormedItems withVariables items ↔ ∀ item ∈ items, item.WellFormed withVariables := by
  induction items with
  | nil => simp [WellFormedItems]
  | cons item items ih => simp [WellFormedItems, ih]

theorem wellFormedFields_iff {withVariables : Bool} {fields : List (String × Literal)} :
    WellFormedFields withVariables fields ↔
      ∀ field ∈ fields, IsName field.1 ∧ field.2.WellFormed withVariables := by
  induction fields with
  | nil => simp [WellFormedFields]
  | cons field fields ih => simp [WellFormedFields, ih]

/-- The character is written as itself, by a letter, or by a code without letters. -/
def IsFaithful (c : Char) : Prop := isControl c = true → c.toNat ≤ 10 ∨ c = '\r'

mutual

/-- A literal that is read back from its text: no control character in it is written by
a code that is misread, and no double has digits that round to another one. -/
def Legible : Literal → Prop
  | numeral n => ∀ value, n.value? = some value → value.numeral.value? = some value
  | string value => ∀ c ∈ value, IsFaithful c
  | list items => LegibleItems items
  | object fields => LegibleFields fields
  | _ => True
termination_by structural value => value

/-- Every item is legible. -/
def LegibleItems : List Literal → Prop
  | [] => True
  | item :: rest => Legible item ∧ LegibleItems rest
termination_by structural items => items

/-- Every field is legible. -/
def LegibleFields : List (String × Literal) → Prop
  | [] => True
  | (_, value) :: rest => Legible value ∧ LegibleFields rest
termination_by structural fields => fields

end

theorem rereadCode_eq_self_iff {n : Nat} (h : n < 160) : rereadCode n = n ↔ n < 10 := by
  rw [rereadCode]
  omega

theorem toNat_ofNat_rereadCode {n : Nat} (h : n < 160) :
    (Char.ofNat (rereadCode n)).toNat = rereadCode n := by
  have hvalid : (rereadCode n).isValidChar := by
    left
    rw [rereadCode]
    omega
  rw [Char.ofNat, dif_pos hvalid]
  rfl

theorem reread_eq_self_iff {c : Char} : reread c = c ↔ IsFaithful c := by
  rw [reread, IsFaithful]
  by_cases hcontrol : isControl c = true
  · have hlt := toNat_lt_of_isControl hcontrol
    by_cases hcoded : isCoded c = true
    · have hne : c.toNat ≠ 10 ∧ c ≠ '\r' := by
        simp only [isCoded, Bool.and_eq_true, bne_iff_ne] at hcoded
        exact ⟨fun h => hcoded.1.2 (Char.toNat_inj.1 h), hcoded.1.1.2⟩
      rw [if_pos hcoded, ← Char.toNat_inj, toNat_ofNat_rereadCode hlt, rereadCode_eq_self_iff hlt]
      simp only [hcontrol, forall_const, hne.2, or_false]
      omega
    · have hplain : (c = '\r' ∨ c = '\n') ∨ c = '\t' := by
        simpa [isCoded, hcontrol, imp_iff_not_or] using hcoded
      rw [if_neg hcoded]
      rcases hplain with (rfl | rfl) | rfl <;> simp
  · have hcoded : ¬ isCoded c = true := by simp [isCoded, hcontrol]
    rw [if_neg hcoded]
    simp [hcontrol]

/-! ### Fields with one name -/

theorem forall₂_setField {α β : Type} {r : String × α → String × β → Prop}
    (hr : ∀ {f g}, r f g → f.1 = g.1) {fields : List (String × α)}
    {found : List (String × β)} (h : List.Forall₂ r fields found) {name : String} {a : α}
    {b : β} (hnew : r (name, a) (name, b)) :
    List.Forall₂ r (setField fields name a) (setField found name b) := by
  induction h with
  | nil => exact .cons hnew .nil
  | @cons f g fields found hfg hrest ih =>
      obtain ⟨other, old⟩ := f
      obtain ⟨other', old'⟩ := g
      obtain rfl : other = other' := hr hfg
      rw [setField, setField]
      split
      · exact .cons hnew hrest
      · exact .cons hfg ih

theorem forall₂_merged {α β : Type} {r : String × α → String × β → Prop}
    (hr : ∀ {f g}, r f g → f.1 = g.1) {fields acc : List (String × α)}
    {found acc' : List (String × β)} (h : List.Forall₂ r fields found)
    (hacc : List.Forall₂ r acc acc') :
    List.Forall₂ r (fields.foldl (fun acc field => setField acc field.1 field.2) acc)
      (found.foldl (fun acc field => setField acc field.1 field.2) acc') := by
  induction h generalizing acc acc' with
  | nil => exact hacc
  | @cons f g fields found hfg _ ih =>
      obtain ⟨name, a⟩ := f
      obtain ⟨name', b⟩ := g
      obtain rfl : name = name' := hr hfg
      exact ih (forall₂_setField hr hacc hfg)

theorem setField_of_not_mem {α : Type} {fields : List (String × α)} {name : String}
    (h : name ∉ fields.map Prod.fst) (value : α) :
    setField fields name value = fields ++ [(name, value)] := by
  induction fields with
  | nil => rfl
  | cons field fields ih =>
      obtain ⟨other, old⟩ := field
      simp only [List.map_cons, List.mem_cons, not_or] at h
      rw [setField, if_neg (Ne.symm h.1), ih h.2]
      rfl

theorem map_fst_setField_of_mem {α : Type} {fields : List (String × α)} {name : String}
    (h : name ∈ fields.map Prod.fst) (value : α) :
    (setField fields name value).map Prod.fst = fields.map Prod.fst := by
  induction fields with
  | nil => simp at h
  | cons field fields ih =>
      obtain ⟨other, old⟩ := field
      rw [setField]
      split
      · rename_i heq
        simp [heq]
      · rename_i hne
        have hmem : name ∈ fields.map Prod.fst := by
          simpa [Ne.symm hne] using h
        simp [ih hmem]

theorem nodup_merged {α : Type} {fields acc : List (String × α)}
    (h : (acc.map Prod.fst).Nodup) :
    ((fields.foldl (fun acc field => setField acc field.1 field.2) acc).map
      Prod.fst).Nodup := by
  induction fields generalizing acc with
  | nil => exact h
  | cons field fields ih =>
      rw [List.foldl_cons]
      refine ih ?_
      by_cases hmem : field.1 ∈ acc.map Prod.fst
      · rw [map_fst_setField_of_mem hmem]
        exact h
      · rw [setField_of_not_mem hmem, List.map_append]
        exact List.nodup_append.2 ⟨h, by simp, by
          rintro a ha b hb rfl
          exact hmem (List.mem_singleton.1 hb ▸ ha)⟩

/-- Fields with different names are merged into themselves. -/
theorem merged_of_nodup {α : Type} {fields acc : List (String × α)}
    (h : ((acc ++ fields).map Prod.fst).Nodup) :
    fields.foldl (fun acc field => setField acc field.1 field.2) acc = acc ++ fields := by
  induction fields generalizing acc with
  | nil => exact (List.append_nil acc).symm
  | cons field fields ih =>
      have hmem : field.1 ∉ acc.map Prod.fst := by
        rw [List.map_append, List.map_cons] at h
        exact fun hmem => (List.nodup_append.1 h).2.2 _ hmem _ List.mem_cons_self rfl
      rw [List.foldl_cons, setField_of_not_mem hmem, ih (by simpa using h)]
      simp

/-! ### What is read where a literal is printed -/

theorem itemChars?_of_forall₂ {items : List Literal} {printed : List (List Char)}
    (h : List.Forall₂ (fun chars item => chars? item = some chars) printed items) :
    itemChars? items = some printed := by
  induction h with
  | nil => rfl
  | cons hitem _ ih => simp [itemChars?, hitem, ih]

theorem fieldChars?_of_forall₂ {fields : List (String × Literal)}
    {printed : List (String × List Char)}
    (h : List.Forall₂ (fun chars field => field.1 = chars.1 ∧ field.2.chars? = some chars.2)
      printed fields) : fieldChars? fields = some printed := by
  induction h with
  | nil => rfl
  | @cons chars field printed fields hfield _ ih =>
      obtain ⟨name, chars⟩ := chars
      obtain ⟨_, value⟩ := field
      obtain ⟨rfl, hvalue⟩ := hfield
      simp only at hvalue
      simp [fieldChars?, hvalue, ih]

theorem itemChars?_cons_eq_some {item : Literal} {items : List Literal}
    {printed : List (List Char)} (h : itemChars? (item :: items) = some printed) :
    ∃ chars others, item.chars? = some chars ∧ itemChars? items = some others ∧
      printed = chars :: others := by
  rw [itemChars?] at h
  simp only [Option.bind_eq_bind, Option.bind_eq_some_iff, Option.pure_def,
    Option.some.injEq] at h
  obtain ⟨chars, hchars, others, hothers, rfl⟩ := h
  exact ⟨chars, others, hchars, hothers, rfl⟩

theorem fieldChars?_cons_eq_some {name : String} {value : Literal}
    {fields : List (String × Literal)} {printed : List (String × List Char)}
    (h : fieldChars? ((name, value) :: fields) = some printed) :
    ∃ chars others, value.chars? = some chars ∧ fieldChars? fields = some others ∧
      printed = (name, chars) :: others := by
  rw [fieldChars?] at h
  simp only [Option.bind_eq_bind, Option.bind_eq_some_iff, Option.pure_def,
    Option.some.injEq] at h
  obtain ⟨chars, hchars, others, hothers, rfl⟩ := h
  exact ⟨chars, others, hchars, hothers, rfl⟩

theorem map_fst_of_fieldChars? {fields : List (String × Literal)}
    {printed : List (String × List Char)} (h : fieldChars? fields = some printed) :
    printed.map Prod.fst = fields.map Prod.fst := by
  induction fields generalizing printed with
  | nil =>
      cases h
      rfl
  | cons field fields ih =>
      obtain ⟨name, value⟩ := field
      obtain ⟨chars, others, -, hothers, rfl⟩ := fieldChars?_cons_eq_some h
      rw [List.map_cons, List.map_cons, ih hothers]

/-- The text is read as this literal, and is its text if the original was legible. -/
def Rereads (withVariables : Bool) (legible : Prop) (chars : List Char) (found : Literal) :
    Prop :=
  SpellsLiteral withVariables chars found ∧ (legible → found.chars? = some chars)

/-- The fields are named alike, and the value of one is read where the text of the other
stands. -/
def RereadsField (withVariables : Bool) (legible : Prop) (chars : String × List Char)
    (found : String × Literal) : Prop :=
  SpellsField withVariables chars found ∧ (legible → found.2.chars? = some chars.2)

mutual

/-- The printed form of a well-formed literal is read as a literal, and as one with the
same text if it is legible. -/
theorem exists_rereads {withVariables : Bool} : ∀ {value : Literal} {chars : List Char},
    value.WellFormed withVariables → value.chars? = some chars →
      ∃ found, Rereads withVariables value.Legible chars found
  | reference name, chars, hvalue, hchars => by
      obtain ⟨rfl, hname⟩ := hvalue
      cases hchars
      exact ⟨_, Parser.spellsLiteral_reference hname, fun _ => rfl⟩
  | numeral n, chars, _, hchars => by
      rw [chars?, Option.map_eq_some_iff] at hchars
      obtain ⟨value, hvalue, rfl⟩ := hchars
      refine ⟨_, Parser.spellsLiteral_numeral withVariables value, fun hlegible => ?_⟩
      rw [chars?, hlegible value hvalue]
      rfl
  | string value, chars, _, hchars => by
      cases hchars
      refine ⟨_, Parser.spellsLiteral_string withVariables value, fun hlegible => ?_⟩
      have hsame : value.map reread = value.map id :=
        List.map_congr_left fun c hc => reread_eq_self_iff.2 (hlegible c hc)
      rw [hsame, List.map_id]
      rfl
  | bool true, chars, _, hchars => by
      cases hchars
      exact ⟨_, Parser.spellsLiteral_true withVariables, fun _ => rfl⟩
  | bool false, chars, _, hchars => by
      cases hchars
      exact ⟨_, Parser.spellsLiteral_false withVariables, fun _ => rfl⟩
  | null, chars, _, hchars => by
      cases hchars
      exact ⟨_, Parser.spellsLiteral_null withVariables, fun _ => rfl⟩
  | enum name, chars, hvalue, hchars => by
      obtain ⟨hname, hkeyword⟩ := hvalue
      cases hchars
      exact ⟨_, Parser.spellsLiteral_enum withVariables hname hkeyword, fun _ => rfl⟩
  | list items, chars, hvalue, hchars => by
      simp only [chars?, Option.bind_eq_bind, Option.bind_eq_some_iff, Option.pure_def,
        Option.some.injEq] at hchars
      obtain ⟨printed, hprinted, rfl⟩ := hchars
      obtain ⟨found, hfound⟩ := exists_rereads_items hvalue hprinted
      refine ⟨_, Parser.spellsLiteral_list (hfound.imp fun _ _ h => h.1), fun hlegible => ?_⟩
      have hitems : itemChars? found = some printed :=
        itemChars?_of_forall₂ (hfound.imp fun _ _ h => h.2 hlegible)
      simp [chars?, hitems]
  | object fields, chars, hvalue, hchars => by
      simp only [chars?, Option.bind_eq_bind, Option.bind_eq_some_iff, Option.pure_def,
        Option.some.injEq] at hchars
      obtain ⟨printed, hprinted, rfl⟩ := hchars
      obtain ⟨found, hfound⟩ := exists_rereads_fields hvalue hprinted
      have hmerged := forall₂_merged (fun h => h.1.2.1.symm) hfound .nil
      refine ⟨_, Parser.spellsLiteral_object (hmerged.imp fun _ _ h => h.1),
        fun hlegible => ?_⟩
      have hfields := fieldChars?_of_forall₂
        (hmerged.imp fun _ _ h => ⟨h.1.2.1, h.2 hlegible⟩)
      have hnodup := @merged_of_nodup _ _ [] (@nodup_merged _ printed [] List.nodup_nil)
      simp [chars?, hfields, hnodup]
termination_by structural value => value

theorem exists_rereads_items {withVariables : Bool} : ∀ {items : List Literal}
    {printed : List (List Char)}, WellFormedItems withVariables items →
      itemChars? items = some printed →
      ∃ found, List.Forall₂ (Rereads withVariables (LegibleItems items)) printed found
  | [], printed, _, hprinted => by
      cases hprinted
      exact ⟨[], .nil⟩
  | item :: items, printed, ⟨hitem, hitems⟩, hprinted => by
      obtain ⟨chars, others, hchars, hothers, rfl⟩ := itemChars?_cons_eq_some hprinted
      obtain ⟨found, hfound⟩ := exists_rereads hitem hchars
      obtain ⟨founds, hfounds⟩ := exists_rereads_items hitems hothers
      exact ⟨found :: founds, .cons (hfound.imp_right fun h hlegible => h hlegible.1)
        (hfounds.imp fun _ _ h => h.imp_right fun h hlegible => h hlegible.2)⟩
termination_by structural items => items

theorem exists_rereads_fields {withVariables : Bool} : ∀ {fields : List (String × Literal)}
    {printed : List (String × List Char)}, WellFormedFields withVariables fields →
      fieldChars? fields = some printed →
      ∃ found, List.Forall₂ (RereadsField withVariables (LegibleFields fields)) printed found
  | [], printed, _, hprinted => by
      cases hprinted
      exact ⟨[], .nil⟩
  | (name, value) :: fields, printed, ⟨⟨hname, hvalue⟩, hfields⟩, hprinted => by
      obtain ⟨chars, others, hchars, hothers, rfl⟩ := fieldChars?_cons_eq_some hprinted
      obtain ⟨found, hfound⟩ := exists_rereads hvalue hchars
      obtain ⟨founds, hfounds⟩ := exists_rereads_fields hfields hothers
      exact ⟨(name, found) :: founds,
        .cons ⟨⟨hname, rfl, hfound.1⟩, fun hlegible => hfound.2 hlegible.1⟩
          (hfounds.imp fun _ _ h => h.imp_right fun h hlegible => h hlegible.2)⟩
termination_by structural fields => fields

end

/-! ### Literals that are read as themselves -/

variable {withVariables : Bool}

theorem eq_of_spells {chars : List Char} {a b : Literal}
    (ha : SpellsLiteral withVariables chars a) (hb : SpellsLiteral withVariables chars b) :
    a = b := by
  have hspells := ha _ (Nat.le_refl _)
  have hends : Parser.EndsLiteral [] := by simp [Parser.EndsLiteral]
  exact ((hspells.reads (hspells.skip []) hends).unique
    ((hb _ (Nat.le_refl _)).reads (hspells.skip []) hends)).1

mutual

/-- A literal that is read where its text stands is legible. -/
theorem legible_of_spells : ∀ {value : Literal} {chars : List Char},
    value.WellFormed withVariables → value.chars? = some chars →
      SpellsLiteral withVariables chars value → value.Legible
  | reference name, _, _, _, _ => trivial
  | numeral n, chars, _, hchars, hspells => by
      rw [chars?, Option.map_eq_some_iff] at hchars
      obtain ⟨value, hvalue, rfl⟩ := hchars
      have heq : Literal.numeral n = .numeral value.numeral :=
        eq_of_spells hspells (Parser.spellsLiteral_numeral withVariables value)
      cases heq
      intro value' hvalue'
      rwa [Option.some.inj (hvalue.symm.trans hvalue')] at hvalue
  | string cs, chars, _, hchars, hspells => by
      cases hchars
      have heq : Literal.string cs = .string (cs.map reread) :=
        eq_of_spells hspells (Parser.spellsLiteral_string withVariables cs)
      have hmap : cs.map reread = cs.map id := by
        rw [List.map_id]
        exact (Literal.string.inj heq).symm
      exact fun c hc => reread_eq_self_iff.1 (List.map_inj_left.1 hmap c hc)
  | bool _, _, _, _, _ => trivial
  | null, _, _, _, _ => trivial
  | enum _, _, _, _, _ => trivial
  | list items, chars, hvalue, hchars, hspells => by
      simp only [chars?, Option.bind_eq_bind, Option.bind_eq_some_iff, Option.pure_def,
        Option.some.injEq] at hchars
      obtain ⟨printed, hprinted, rfl⟩ := hchars
      obtain ⟨found, hfound⟩ := exists_rereads_items hvalue hprinted
      have heq : Literal.list items = .list found :=
        eq_of_spells hspells (Parser.spellsLiteral_list (hfound.imp fun _ _ h => h.1))
      cases heq
      exact legible_of_spells_items hvalue hprinted (hfound.imp fun _ _ h => h.1)
  | object fields, chars, hvalue, hchars, hspells => by
      simp only [chars?, Option.bind_eq_bind, Option.bind_eq_some_iff, Option.pure_def,
        Option.some.injEq] at hchars
      obtain ⟨printed, hprinted, rfl⟩ := hchars
      obtain ⟨found, hfound⟩ := exists_rereads_fields hvalue hprinted
      have hmerged := forall₂_merged (fun h => h.1.2.1.symm) hfound .nil
      have heq := Literal.object.inj (eq_of_spells hspells
        (Parser.spellsLiteral_object (hmerged.imp fun _ _ h => h.1)))
      -- The fields that are read have different names, so nothing was merged.
      have hnodup : (([] ++ printed).map Prod.fst).Nodup := by
        rw [List.nil_append, map_fst_of_fieldChars? hprinted, heq]
        exact nodup_merged List.nodup_nil
      rw [← heq, merged_of_nodup hnodup] at hmerged
      exact legible_of_spells_fields hvalue hprinted (hmerged.imp fun _ _ h => h.1)
termination_by structural value => value

theorem legible_of_spells_items : ∀ {items : List Literal} {printed : List (List Char)},
    WellFormedItems withVariables items → itemChars? items = some printed →
      List.Forall₂ (SpellsLiteral withVariables) printed items → LegibleItems items
  | [], _, _, _, _ => trivial
  | item :: items, printed, ⟨hitem, hitems⟩, hprinted, hspells => by
      obtain ⟨chars, others, hchars, hothers, rfl⟩ := itemChars?_cons_eq_some hprinted
      cases hspells with
      | cons hspells hothers' =>
          exact ⟨legible_of_spells hitem hchars hspells,
            legible_of_spells_items hitems hothers hothers'⟩
termination_by structural items => items

theorem legible_of_spells_fields : ∀ {fields : List (String × Literal)}
    {printed : List (String × List Char)}, WellFormedFields withVariables fields →
      fieldChars? fields = some printed →
      List.Forall₂ (SpellsField withVariables) printed fields → LegibleFields fields
  | [], _, _, _, _ => trivial
  | (name, value) :: fields, printed, ⟨⟨_, hvalue⟩, hfields⟩, hprinted, hspells => by
      obtain ⟨chars, others, hchars, hothers, rfl⟩ := fieldChars?_cons_eq_some hprinted
      cases hspells with
      | cons hspells hothers' =>
          exact ⟨legible_of_spells hvalue hchars hspells.2.2,
            legible_of_spells_fields hfields hothers hothers'⟩
termination_by structural fields => fields

end

end Literal

namespace Parser

/-! ### What the readers of literals ensure -/

theorem eq_append_of_readName? {text rest : List Char} {name : String}
    (h : readName? text = some (name, rest)) : text = name.toList ++ rest := by
  cases text with
  | nil => cases h
  | cons c text =>
      rw [readName?] at h
      split at h
      · cases h
        rw [String.toList_ofList, List.cons_append, List.takeWhile_append_dropWhile]
      · cases h

theorem ensures_referenceLiteral : Ensures referenceLiteral (Literal.WellFormed true) :=
  (ensures_token _).bind fun _ => ensures_name.bind fun _ => ensures_pure fun hname _ =>
    ⟨rfl, hname⟩

theorem ensures_keywordLiteral (word : String) {value : Literal} {P : Literal → Prop}
    (h : P value) : Ensures (keywordLiteral word value) P :=
  (ensures_token _).bind fun _ => ensures_pure fun _ => h

/-- A keyword that does not match is no beginning of the name that is read instead. -/
theorem not_isPrefix_of_keywordLiteral {word : String} {value : Literal} {cursor : Cursor}
    (h : keywordLiteral word value cursor = none) {name : String} {rest : List Char}
    (hname : readName? (skip cursor.rest) = some (name, rest)) :
    ¬ word.toList <+: name.toList := by
  rintro ⟨after, heq⟩
  have htext := eq_append_of_readName? hname
  rw [← heq, List.append_assoc] at htext
  have hread := reads_keywordLiteral value htext
  rw [hread cursor.fault] at h
  cases h

theorem ensures_wordLiteral (withVariables : Bool) :
    Ensures wordLiteral (Literal.WellFormed withVariables) := by
  intro cursor x next hread hfault
  have hword : ∀ word value, Literal.WellFormed withVariables value →
      ∀ {found}, keywordLiteral word value cursor = some found → found = (x, next) →
        cursor.fault = none ∧ x.WellFormed withVariables := by
    rintro word value hvalue found hfound rfl
    exact ensures_keywordLiteral word hvalue cursor x next hfound hfault
  simp only [wordLiteral, orElse] at hread
  rcases htrue : keywordLiteral "true" (.bool true) cursor with _ | found
  · rcases hfalse : keywordLiteral "false" (.bool false) cursor with _ | found
    · rcases hnull : keywordLiteral "null" .null cursor with _ | found
      · simp only [htrue, hfalse, hnull] at hread
        rw [map_apply] at hread
        rcases hname : name cursor with _ | ⟨found, after⟩
        · simp [hname] at hread
        · rw [hname, Option.map_some, Option.some.injEq, Prod.mk.injEq] at hread
          obtain ⟨rfl, rfl⟩ := hread
          obtain ⟨hcursor, hfound⟩ := ensures_name cursor found after hname hfault
          have hread : ∃ rest, readName? (skip cursor.rest) = some (found, rest) := by
            rw [name, scan, Option.map_eq_some_iff] at hname
            obtain ⟨⟨_, rest⟩, hread, heq⟩ := hname
            cases heq
            exact ⟨rest, hread⟩
          obtain ⟨rest, hread⟩ := hread
          refine ⟨hcursor, hfound, fun word hword => ?_⟩
          simp only [keywords, List.mem_cons, List.not_mem_nil, or_false] at hword
          rcases hword with rfl | rfl | rfl
          · exact not_isPrefix_of_keywordLiteral htrue hread
          · exact not_isPrefix_of_keywordLiteral hfalse hread
          · exact not_isPrefix_of_keywordLiteral hnull hread
      · simp only [htrue, hfalse, hnull, Option.some.injEq] at hread
        exact hword "null" .null trivial hnull hread
    · simp only [htrue, hfalse, Option.some.injEq] at hread
      exact hword "false" (.bool false) trivial hfalse hread
  · simp only [htrue, Option.some.injEq] at hread
    exact hword "true" (.bool true) trivial htrue hread

theorem ensures_literal (withVariables : Bool) (fuel : Nat) :
    Ensures (literal withVariables fuel) (Literal.WellFormed withVariables) := by
  induction fuel with
  | zero => exact ensures_fail
  | succ fuel ih =>
      have hlist : Ensures (listLiteral (literal withVariables fuel))
          (Literal.WellFormed withVariables) :=
        (ensures_token _).bind fun _ => ih.many.bind fun _ => (ensures_token _).bind fun _ =>
          ensures_pure fun _ hitems _ => Literal.wellFormedItems_iff.2 hitems
      have hfield : Ensures (literalField (literal withVariables fuel)) fun field =>
          IsName field.1 ∧ field.2.WellFormed withVariables :=
        ensures_name.bind fun _ => (ensures_token _).bind fun _ => ih.bind fun _ =>
          ensures_pure fun hvalue _ hname => ⟨hname, hvalue⟩
      have hobject : Ensures (objectLiteral (literal withVariables fuel))
          (Literal.WellFormed withVariables) :=
        (ensures_token _).bind fun _ => hfield.many.bind fun _ => (ensures_token _).bind fun _ =>
          ensures_pure fun _ hfields _ => Literal.wellFormedFields_iff.2 hfields
      have hreference : Ensures (if withVariables then referenceLiteral else fail)
          (Literal.WellFormed withVariables) := by
        cases withVariables with
        | true => exact ensures_referenceLiteral
        | false => exact ensures_fail
      rw [literal_succ]
      refine hreference.orElse <| Ensures.orElse ?_ <| Ensures.orElse ?_ <|
        (ensures_wordLiteral withVariables).orElse (hlist.orElse hobject)
      · exact (ensures_scan fun _ => trivial).map fun _ (_ : True) => trivial
      · exact (ensures_scan fun _ => trivial).map fun _ (_ : True) => trivial

/-! ### Kept values -/

/-- The text is the printed form of a literal that can be read. -/
def IsValue (withVariables : Bool) (value : String) : Prop :=
  ∃ found : Literal, found.WellFormed withVariables ∧ found.chars? = some value.toList

/-- The text is the printed form of a literal that is read back. -/
def IsLegibleValue (withVariables : Bool) (value : String) : Prop :=
  ∃ found : Literal, found.WellFormed withVariables ∧ found.Legible ∧
    found.chars? = some value.toList

variable {withVariables : Bool} {value : String}

theorem ensures_printed (found : Literal) :
    Ensures (printed found) fun value => found.chars? = some value.toList := by
  rw [printed]
  cases hchars : found.chars? with
  | some chars => exact ensures_pure (by rw [String.toList_ofList])
  | none => exact (ensures_raise .invalidNumber (P := fun _ => False)).bind fun _ =>
      ensures_pure False.elim

theorem ensures_value (withVariables : Bool) :
    Ensures (Parser.value withVariables) (IsValue withVariables) := by
  intro cursor value next hread hfault
  have hensures : Ensures (do printed (← literal withVariables cursor.rest.length))
      (IsValue withVariables) :=
    (ensures_literal withVariables _).bind fun found =>
      (ensures_printed found).mono fun _ hchars hfound => ⟨found, hfound, hchars⟩
  exact hensures cursor value next hread hfault

/-- Where a value ends can be seen from the text. -/
theorem IsValue.append_inj {other : String} {rest rest' : List Char}
    (h : IsValue withVariables value) (h' : IsValue withVariables other)
    (hrest : EndsLiteral rest) (hrest' : EndsLiteral rest')
    (heq : value.toList ++ rest = other.toList ++ rest') : value = other ∧ rest = rest' := by
  obtain ⟨literal, hliteral, hchars⟩ := h
  obtain ⟨literal', hliteral', hchars'⟩ := h'
  obtain ⟨found, hfound, -⟩ := Literal.exists_rereads hliteral hchars
  obtain ⟨found', hfound', -⟩ := Literal.exists_rereads hliteral' hchars'
  have hspells := hfound _ (Nat.le_max_left value.toList.length other.toList.length)
  have hspells' := hfound' _ (Nat.le_max_right value.toList.length other.toList.length)
  have hread := hspells.reads (hspells.skip rest) hrest
  have hread' := hspells'.reads (hspells'.skip rest') hrest'
  rw [heq] at hread
  obtain ⟨-, rfl⟩ := hread.unique hread'
  exact ⟨String.toList_inj.1 (List.append_cancel_right heq), rfl⟩

theorem IsValue.skip (h : IsValue withVariables value) (rest : List Char) :
    skip (value.toList ++ rest) = value.toList ++ rest := by
  obtain ⟨literal, hliteral, hchars⟩ := h
  obtain ⟨found, hspells, -⟩ := Literal.exists_rereads hliteral hchars
  exact (hspells _ (Nat.le_refl _)).skip rest

theorem reads_printed {found : Literal} (h : found.chars? = some value.toList)
    (rest : List Char) : Reads (printed found) rest value rest := by
  rw [printed, h]
  simpa using reads_pure value rest

/-- A value is read back exactly if it is legible. -/
theorem IsValue.rereads {text rest : List Char} (h : IsValue withVariables value)
    (htext : Parser.skip text = value.toList ++ rest) (hrest : EndsLiteral rest) :
    Rereads (Parser.value withVariables) text value rest
      (IsLegibleValue withVariables value) := by
  have hlength : value.toList.length ≤ text.length := by
    have := length_skip_le text
    rw [htext, List.length_append] at this
    omega
  refine ⟨?_, fun next hread hfault => ?_⟩
  · rintro ⟨literal, hliteral, hlegible, hchars⟩ fault
    obtain ⟨found, hspells, hsame⟩ := Literal.exists_rereads hliteral hchars
    exact (((hspells _ hlength).reads htext hrest).bind
      (reads_printed (hsame hlegible) rest)) fault
  · obtain ⟨written, hwritten, hchars⟩ := h
    obtain ⟨found, hspells, -⟩ := Literal.exists_rereads hwritten hchars
    have hliteral := (hspells _ hlength).reads htext hrest
    have hprinted : printed found ⟨rest, none⟩ = some (value, next) := by
      have hread' : (literal withVariables text.length >>= printed) ⟨text, none⟩ =
        some (value, next) := hread
      rw [bind_apply, hliteral none] at hread'
      exact hread'
    have hfound := (ensures_printed found _ value next hprinted hfault).2
    have hwell := (ensures_literal withVariables _ ⟨text, none⟩ found ⟨rest, none⟩
      (hliteral none) rfl).2
    rw [reads_printed hfound rest none] at hprinted
    cases hprinted
    exact ⟨⟨found, hwell, Literal.legible_of_spells hwell hfound hspells, hfound⟩, rfl⟩

end Parser

end QueryCache
