import Mathlib.Data.List.Forall2
import Mathlib.Data.List.TakeWhile
import QueryCache.Proofs.Query.Reading

/-!
# Reading tokens

What the readers of single tokens do: blanks, fixed tokens, names, types and type
conditions. A printed name or type is read back if what follows cannot go on with it,
and whatever is read as one has its form.
-/

namespace QueryCache

namespace Parser

variable {α : Type} {text rest : List Char} {x : α} {P : α → Prop}

/-! ### Blanks and fixed tokens -/

theorem skip_blank {c : Char} (h : isBlank c = true) (text : List Char) :
    skip (c :: text) = skip text := by
  rw [skip, skipFrom, if_pos h]
  rfl

@[simp] theorem skip_space (text : List Char) : skip (' ' :: text) = skip text :=
  skip_blank rfl text

@[simp] theorem skip_comma (text : List Char) : skip (',' :: text) = skip text :=
  skip_blank rfl text

@[simp] theorem skip_newline (text : List Char) : skip ('\n' :: text) = skip text :=
  skip_blank rfl text

@[simp] theorem skip_indent (depth : Nat) (text : List Char) :
    skip (indent depth ++ text) = skip text := by
  rw [indent]
  induction 2 * depth with
  | zero => rfl
  | succ count ih => rw [List.replicate_succ, List.cons_append, skip_space, ih]

/-- The character begins a token. -/
def isSolid (c : Char) : Bool := !isBlank c && c != '#'

theorem skip_solid {c : Char} (h : isSolid c = true) (text : List Char) :
    skip (c :: text) = c :: text := by
  simp only [isSolid, Bool.and_eq_true, Bool.not_eq_true', bne_iff_ne] at h
  rw [skip, skipFrom, if_neg (by simp [h.1]), if_neg h.2]

theorem length_skipFrom_le (inComment : Bool) (text : List Char) :
    (skipFrom inComment text).length ≤ text.length := by
  induction text generalizing inComment with
  | nil => cases inComment <;> simp [skipFrom]
  | cons c text ih =>
      have hrest := fun inComment => Nat.le_succ_of_le (ih inComment)
      cases inComment with
      | false =>
          rw [skipFrom]
          split
          · exact hrest false
          · split
            · exact hrest true
            · exact Nat.le_refl _
      | true => exact hrest _

theorem length_skip_le (text : List Char) : (skip text).length ≤ text.length :=
  length_skipFrom_le false text

theorem reads_scan {read : List Char → Option (α × List Char)}
    (h : read (skip text) = some (x, rest)) : Reads (scan read) text x rest := by
  intro fault
  rw [scan]
  simp [h]

theorem refuses_scan {read : List Char → Option (α × List Char)}
    (h : read (skip text) = none) : Refuses (scan read) text := by
  intro fault
  rw [scan]
  simp [h]

theorem dropToken?_append (expected text : List Char) :
    dropToken? expected (expected ++ text) = some text := by
  induction expected with
  | nil => cases text <;> rfl
  | cons c expected ih => rw [List.cons_append, dropToken?, if_pos rfl, ih]

theorem eq_append_of_dropToken? {expected text rest : List Char}
    (h : dropToken? expected text = some rest) : text = expected ++ rest := by
  induction expected generalizing text with
  | nil => 
      cases text <;> simpa [dropToken?] using h
  | cons e expected ih =>
      cases text with
      | nil => simp [dropToken?] at h
      | cons c text =>
          rw [dropToken?] at h
          split at h
          · rename_i heq
            rw [heq, List.cons_append, ih h]
          · cases h

theorem reads_token {expected : String} (h : skip text = expected.toList ++ rest) :
    Reads (token expected) text () rest :=
  reads_scan (by rw [h, dropToken?_append]; rfl)

/-- A token of one character that stands right here is read. -/
theorem reads_token_cons {expected : String} {c : Char} (hexpected : expected.toList = [c])
    (hc : isSolid c = true) (rest : List Char) : Reads (token expected) (c :: rest) () rest :=
  reads_token (by rw [skip_solid hc, hexpected]; rfl)

theorem refuses_token {expected : String} (h : ¬ expected.toList <+: skip text) :
    Refuses (token expected) text := by
  refine refuses_scan ?_
  cases hdrop : dropToken? expected.toList (skip text) with
  | none => rfl
  | some rest => exact absurd ⟨rest, (eq_append_of_dropToken? hdrop).symm⟩ h

theorem refuses_token_of_head {expected : String} {c : Char} {cs : List Char}
    (hexpected : expected.toList = c :: cs) (h : (skip text).head? ≠ some c) :
    Refuses (token expected) text := by
  refine refuses_token ?_
  rintro ⟨rest, hrest⟩
  rw [hexpected] at hrest
  exact h (by rw [← hrest]; rfl)

/-! ### Spelled values -/

/-- Wherever these characters stand, and what follows them is allowed to, the reader
takes them and gives the value. -/
structure Spells (p : Parser α) (follow : List Char → Prop) (chars : List Char) (x : α) :
    Prop where
  solid : ∃ c cs, chars = c :: cs ∧ isSolid c = true
  reads : ∀ {text rest}, skip text = chars ++ rest → follow rest → Reads p text x rest

/-- Wherever these characters stand, and what follows them is allowed to, the reader gives
back the value exactly if the condition holds. -/
structure Respells (p : Parser α) (follow : List Char → Prop) (chars : List Char) (x : α)
    (R : Prop) : Prop where
  solid : ∃ c cs, chars = c :: cs ∧ isSolid c = true
  rereads : ∀ {text rest}, skip text = chars ++ rest → follow rest → Rereads p text x rest R

variable {p : Parser α} {follow : List Char → Prop} {chars : List Char} {R : Prop}

theorem Spells.respells (h : Spells p follow chars x) : Respells p follow chars x True :=
  ⟨h.solid, fun htext hrest => (h.reads htext hrest).rereads⟩

theorem Respells.skip (h : Respells p follow chars x R) (rest : List Char) :
    skip (chars ++ rest) = chars ++ rest := by
  obtain ⟨c, cs, rfl, hc⟩ := h.solid
  exact skip_solid hc _

theorem Spells.skip (h : Spells p follow chars x) (rest : List Char) :
    Parser.skip (chars ++ rest) = chars ++ rest := h.respells.skip rest

/-- What is read takes at least one character. -/
theorem Respells.length_lt (h : Respells p follow chars x R)
    (htext : Parser.skip text = chars ++ rest) : rest.length < text.length := by
  obtain ⟨c, cs, rfl, -⟩ := h.solid
  have hskip := length_skip_le text
  rw [htext] at hskip
  simp only [List.length_append, List.length_cons] at hskip
  omega

theorem commaSeparated_cons_cons (item next : List Char) (others : List (List Char)) :
    commaSeparated (item :: next :: others) =
      item ++ ',' :: ' ' :: commaSeparated (next :: others) := rfl

theorem exists_commaSeparated_append (item : List Char) (others : List (List Char))
    (closing : List Char) : ∃ rest, commaSeparated (item :: others) ++ closing = item ++ rest := by
  cases others with
  | nil => exact ⟨closing, rfl⟩
  | cons => exact ⟨_, by rw [commaSeparated_cons_cons, List.append_assoc]⟩

section CommaSeparated

variable {S : α → Prop} {items : List (List Char)} {xs : List α} {closing : List Char}

theorem skip_commaSeparated
    (h : List.Forall₂ (fun item x => Respells p follow item x (S x)) items xs)
    (hne : items ≠ []) (closing : List Char) :
    Parser.skip (commaSeparated items ++ closing) = commaSeparated items ++ closing := by
  cases h with
  | nil => exact absurd rfl hne
  | @cons item x others xs hitem _ =>
      obtain ⟨rest, hrest⟩ := exists_commaSeparated_append item others closing
      rw [hrest, hitem.skip]

/-- Items with commas between them are read one after the other, up to what closes
the list. -/
theorem rereadsAll_commaSeparated
    (h : List.Forall₂ (fun item x => Respells p follow item x (S x)) items xs)
    (hcomma : ∀ item ∈ items, ∀ rest, follow (',' :: ' ' :: (item ++ rest)))
    (hclosing : follow closing) (hrefuses : Refuses p closing) (hne : items ≠ [])
    (htext : Parser.skip text = commaSeparated items ++ closing) :
    RereadsAll p text xs closing (∀ x ∈ xs, S x) := by
  induction h generalizing text with
  | nil => exact absurd rfl hne
  | @cons item x items xs hitem hitems ih =>
      cases items with
      | nil =>
          cases hitems
          exact .cons (hitem.rereads htext hclosing) (hitem.length_lt htext)
            (.nil hrefuses True.intro) (by simp)
      | cons next others =>
          obtain ⟨more, hmore⟩ := exists_commaSeparated_append next others closing
          have hsplit : Parser.skip text = item ++ (',' :: ' ' :: (next ++ more)) := by
            rw [htext, commaSeparated_cons_cons, ← hmore]
            simp
          refine .cons (hitem.rereads hsplit (hcomma next (by simp) _)) (hitem.length_lt hsplit)
            (ih (fun item hmem => hcomma item (List.mem_cons_of_mem _ hmem)) (by simp) ?_)
            (List.forall_mem_cons).symm
          rw [skip_comma, skip_space, ← hmore, skip_commaSeparated hitems (by simp)]

/-- A comma separated list is read between its brackets. -/
theorem reads_many_commaSeparated (h : List.Forall₂ (Spells p follow) items xs)
    (hcomma : ∀ item ∈ items, ∀ rest, follow (',' :: ' ' :: (item ++ rest)))
    (hclosing : follow closing) (hrefuses : Refuses p closing) :
    Reads (many p) (commaSeparated items ++ closing) xs closing := by
  have hrespells : List.Forall₂ (fun item x => Respells p follow item x True) items xs :=
    h.imp fun _ _ hspells => hspells.respells
  cases items with
  | nil =>
      cases h
      exact (ReadsAll.nil hrefuses).many
  | cons item items =>
      have hskip := skip_commaSeparated hrespells (by simp) closing
      exact ((rereadsAll_commaSeparated hrespells hcomma hclosing hrefuses (by simp)
        hskip).readsAll fun _ _ => trivial).many

end CommaSeparated

/-! ### Names -/

/-- A letter or an underscore, and then letters, underscores and digits. -/
def IsName (name : String) : Prop :=
  ∃ c cs, name.toList = c :: cs ∧ isNameStart c = true ∧ ∀ d ∈ cs, isNameChar d = true

/-- No name goes on with this text. -/
def EndsName (rest : List Char) : Prop := ∀ c ∈ rest.head?, isNameChar c = false

theorem endsName_of_head {c : Char} (h : isNameChar c = false) (rest : List Char) :
    EndsName (c :: rest) := by
  rintro d ⟨rfl⟩
  exact h

variable {name : String}

theorem isNameChar_of_isNameStart {c : Char} (h : isNameStart c = true) :
    isNameChar c = true := by
  rw [isNameChar, h, Bool.true_or]

theorem isSolid_of_isNameChar {c : Char} (h : isNameChar c = true) : isSolid c = true := by
  have hne : ∀ d, isNameChar d = false → c ≠ d := by
    rintro d hd rfl
    rw [h] at hd
    cases hd
  simp [isSolid, isBlank, hne ' ' rfl, hne ',' rfl, hne '\t' rfl, hne '\ufeff' rfl,
    hne '\r' rfl, hne '\n' rfl, hne '#' rfl]

theorem IsName.skip (h : IsName name) (rest : List Char) :
    skip (name.toList ++ rest) = name.toList ++ rest := by
  obtain ⟨c, cs, heq, hc, -⟩ := h
  rw [heq, List.cons_append, skip_solid (isSolid_of_isNameChar (isNameChar_of_isNameStart hc))]

theorem readName?_append (h : IsName name) (hrest : EndsName rest) :
    readName? (name.toList ++ rest) = some (name, rest) := by
  obtain ⟨c, cs, heq, hc, hcs⟩ := h
  have hends : rest.takeWhile isNameChar = [] ∧ rest.dropWhile isNameChar = rest := by
    cases rest with
    | nil => exact ⟨rfl, rfl⟩
    | cons d rest => simp [hrest d rfl]
  have htake : (cs ++ rest).takeWhile isNameChar = cs := by
    rw [List.takeWhile_append_of_pos hcs, hends.1, List.append_nil]
  have hdrop : (cs ++ rest).dropWhile isNameChar = rest := by
    rw [List.dropWhile_append_of_pos hcs, hends.2]
  rw [heq, List.cons_append, readName?, if_pos hc, htake, hdrop, ← heq, String.ofList_toList]

theorem isName_of_readName? (h : readName? text = some (name, rest)) : IsName name := by
  cases text with
  | nil => simp [readName?] at h
  | cons c text =>
      rw [readName?] at h
      split at h
      · rename_i hc
        cases h
        exact ⟨c, _, String.toList_ofList, hc, fun d hd => List.mem_takeWhile_imp hd⟩
      · cases h

theorem readName?_eq_none (h : ∀ c ∈ text.head?, isNameStart c = false) :
    readName? text = none := by
  cases text with
  | nil => rfl
  | cons c text => rw [readName?, if_neg (by simp [h c rfl])]

theorem reads_name (h : skip text = name.toList ++ rest) (hname : IsName name)
    (hrest : EndsName rest) : Reads Parser.name text name rest :=
  reads_scan (by rw [h, readName?_append hname hrest])

theorem refuses_name (h : ∀ c ∈ (skip text).head?, isNameStart c = false) :
    Refuses Parser.name text :=
  refuses_scan (readName?_eq_none h)

/-! ### Types -/

/-- The text of a type: a name or a type in brackets, and an exclamation mark if the
type is required. -/
inductive TypeText : List Char → Prop
  | name {name : String} (isName : IsName name) (required : Bool) :
      TypeText (name.toList ++ if required then ['!'] else [])
  | list {text : List Char} (item : TypeText text) (required : Bool) :
      TypeText ('[' :: text ++ ']' :: if required then ['!'] else [])

/-- No type goes on with this text. -/
def EndsType (rest : List Char) : Prop :=
  ∀ c ∈ rest.head?, isNameChar c = false ∧ c ≠ '!'

/-- An exclamation mark belongs to the type before it. -/
def takeMark (base : List Char) : List Char → List Char × List Char
  | '!' :: rest => (base ++ ['!'], rest)
  | rest => (base, rest)

theorem takeMark_of_ne {rest : List Char} (h : ∀ others, rest = '!' :: others → False)
    (base : List Char) : takeMark base rest = (base, rest) := by
  rw [takeMark]
  exact h

theorem takeMark_eq (base rest : List Char) :
    (match rest with
      | '!' :: rest => some (base ++ ['!'], rest)
      | _ => some (base, rest)) = some (takeMark base rest) := by
  split
  · rfl
  · rename_i hmark
    rw [takeMark_of_ne hmark]

theorem readType?_bracket (fuel : Nat) (text : List Char) :
    readType? (fuel + 1) ('[' :: text) = (readType? fuel text).bind fun found =>
      match found.2 with
      | ']' :: rest => some (takeMark ('[' :: found.1 ++ [']']) rest)
      | _ => none := by
  rw [readType?]
  rcases readType? fuel text with _ | ⟨item, rest⟩
  · rfl
  · by_cases hclosed : ∃ others, rest = ']' :: others
    · obtain ⟨others, rfl⟩ := hclosed
      exact takeMark_eq ('[' :: item ++ [']']) others
    · have hne : ∀ others, rest = ']' :: others → False := fun others heq => hclosed ⟨others, heq⟩
      cases rest with
      | nil => rfl
      | cons c rest => simp

theorem readType?_of_name (fuel : Nat) {text : List Char} (h : text.head? ≠ some '[') :
    readType? (fuel + 1) text =
      (readName? text).map fun found => takeMark found.1.toList found.2 := by
  rw [readType?]
  · rcases readName? text with _ | ⟨name, rest⟩
    · rfl
    · exact takeMark_eq name.toList rest
  · rintro rest rfl
    exact h rfl

theorem takeMark_append (base : List Char) (required : Bool) (hrest : EndsType rest) :
    takeMark base ((if required then ['!'] else []) ++ rest) =
      (base ++ if required then ['!'] else [], rest) := by
  cases required with
  | true => rfl
  | false =>
      rw [if_neg Bool.false_ne_true, List.nil_append, List.append_nil]
      unfold takeMark
      split
      · exact absurd rfl (hrest _ rfl).2
      · rfl

theorem readType?_append {type : List Char} (h : TypeText type) {fuel : Nat}
    (hfuel : type.length ≤ fuel) (hrest : EndsType rest) :
    readType? fuel (type ++ rest) = some (type, rest) := by
  induction h generalizing fuel rest with
  | @name name hname required =>
      have hends : EndsName ((if required then ['!'] else []) ++ rest) := by
        cases required with
        | true => rintro c ⟨rfl⟩; rfl
        | false => exact fun c hc => (hrest c hc).1
      obtain ⟨c, cs, heq, hc, -⟩ := id hname
      have hhead : (name.toList ++ ((if required then ['!'] else []) ++ rest)).head? ≠
          some '[' := by
        rw [heq]
        rintro ⟨rfl⟩
        revert hc
        decide
      obtain ⟨fuel, rfl⟩ : ∃ n, fuel = n + 1 :=
        ⟨fuel - 1, by rw [heq] at hfuel; simp at hfuel; omega⟩
      rw [List.append_assoc, readType?_of_name fuel hhead, readName?_append hname hends,
        Option.map_some, takeMark_append _ required hrest]
  | @list text _ required ih =>
      obtain ⟨fuel, rfl⟩ : ∃ n, fuel = n + 1 := ⟨fuel - 1, by simp at hfuel; omega⟩
      have hbracket : EndsType (']' :: ((if required then ['!'] else []) ++ rest)) := by
        rintro c ⟨rfl⟩
        decide
      have htext : '[' :: text ++ ']' :: (if required then ['!'] else []) ++ rest =
          '[' :: (text ++ ']' :: ((if required then ['!'] else []) ++ rest)) := by simp
      rw [htext, readType?_bracket, ih (by simp at hfuel; omega) hbracket, Option.bind_some]
      simp only [takeMark_append _ required hrest]
      simp

theorem typeText_takeMark {base : List Char}
    (h : ∀ required : Bool, TypeText (base ++ if required then ['!'] else []))
    (rest : List Char) : TypeText (takeMark base rest).1 := by
  unfold takeMark
  split
  · exact h true
  · simpa using h false

theorem typeText_of_readType? {fuel : Nat} {type : List Char}
    (h : readType? fuel text = some (type, rest)) : TypeText type := by
  induction fuel generalizing text type rest with
  | zero => cases h
  | succ fuel ih =>
      by_cases hhead : text.head? = some '['
      · obtain ⟨text, rfl⟩ : ∃ others, text = '[' :: others := List.head?_eq_some_iff.1 hhead
        rw [readType?_bracket] at h
        rcases hitem : readType? fuel text with _ | ⟨item, after⟩
        · rw [hitem] at h
          cases h
        · rw [hitem, Option.bind_some] at h
          simp only at h
          split at h
          · rename_i others
            have hlist : ∀ required : Bool, TypeText
                (('[' :: item ++ [']']) ++ if required then ['!'] else []) := fun required => by
              simpa using TypeText.list (ih hitem) required
            have hmarked := typeText_takeMark hlist others
            rw [Option.some.inj h] at hmarked
            exact hmarked
          · cases h
      · rw [readType?_of_name fuel hhead] at h
        rcases hname : readName? text with _ | ⟨name, after⟩
        · rw [hname] at h
          cases h
        · rw [hname, Option.map_some] at h
          have hmarked := typeText_takeMark
            (fun required => TypeText.name (isName_of_readName? hname) required) after
          rw [Option.some.inj h] at hmarked
          exact hmarked

theorem reads_type {type : String} (h : skip text = type.toList ++ rest)
    (htype : TypeText type.toList) (hrest : EndsType rest) :
    Reads Parser.type text type rest := by
  have hread : readType? (type.toList ++ rest).length (type.toList ++ rest) =
      some (type.toList, rest) := readType?_append htype (by simp) hrest
  refine reads_scan ?_
  rw [h, hread, Option.map_some]
  simp only [String.ofList_toList]

/-! ### Type conditions -/

theorem isBlank_of_isNameChar {c : Char} (h : isNameChar c = true) : isBlank c = false := by
  have hsolid := isSolid_of_isNameChar h
  simp only [isSolid, Bool.and_eq_true, Bool.not_eq_true'] at hsolid
  exact hsolid.1

theorem IsName.dropWhile_isBlank (h : IsName name) (rest : List Char) :
    (name.toList ++ rest).dropWhile isBlank = name.toList ++ rest := by
  obtain ⟨c, cs, heq, hc, -⟩ := h
  have hsolid := isBlank_of_isNameChar (isNameChar_of_isNameStart hc)
  rw [heq, List.cons_append, List.dropWhile_cons_of_neg (by simp [hsolid])]

theorem reads_condition (h : skip text = 'o' :: 'n' :: ' ' :: (name.toList ++ rest))
    (hname : IsName name) (hrest : EndsName rest) : Reads condition text name rest := by
  refine reads_scan ?_
  have hblank : isBlank ' ' = true := rfl
  rw [h, readCondition?, if_pos hblank, hname.dropWhile_isBlank, readName?_append hname hrest]

theorem isName_of_readCondition? (h : readCondition? text = some (name, rest)) :
    IsName name := by
  unfold readCondition? at h
  split at h
  · split at h
    · exact isName_of_readName? h
    · cases h
  · cases h

theorem refuses_condition_of_head (h : (skip text).head? ≠ some 'o') :
    Refuses condition text := by
  refine refuses_scan ?_
  unfold readCondition?
  split
  · rename_i heq
    exact absurd (by rw [heq]; rfl) h
  · rfl

/-- The name of a spread is read as the beginning of a type condition only if it is
`on`, and then only before another name. -/
theorem refuses_condition_of_name (h : skip text = name.toList ++ rest) (hname : IsName name)
    (hrest : EndsName rest)
    (hon : name = "on" → ∀ c ∈ (rest.dropWhile isBlank).head?, isNameStart c = false) :
    Refuses condition text := by
  refine refuses_scan ?_
  have hread := readName?_append hname hrest
  rw [h]
  generalize name.toList ++ rest = chars at hread
  unfold readCondition?
  split
  · rename_i c others
    split
    · -- A blank ends the name, so the name is `on`.
      rename_i hblank
      have hchar : isNameChar c = false := by
        by_contra hc
        rw [isBlank_of_isNameChar (by simpa using hc)] at hblank
        cases hblank
      have hn : isNameChar 'n' = true := rfl
      have ho : isNameStart 'o' = true := rfl
      have htake : ('n' :: c :: others).takeWhile isNameChar = ['n'] := by simp [hn, hchar]
      have hdrop : ('n' :: c :: others).dropWhile isNameChar = c :: others := by
        simp [hn, hchar]
      rw [readName?, if_pos ho, htake, hdrop] at hread
      obtain ⟨rfl, rfl⟩ := Prod.mk.inj (Option.some.inj hread)
      rw [List.dropWhile_cons_of_pos hblank] at hon
      exact readName?_eq_none (hon rfl)
    · rfl
  · rfl

theorem reads_noCondition (h : Refuses condition text) : Reads noCondition text () text := by
  intro fault
  rw [noCondition, h fault]

theorem refuses_noCondition (h : Reads condition text name rest) : Refuses noCondition text := by
  intro fault
  rw [noCondition, h fault]

/-! ### What a token ensures -/

theorem ensures_scan {read : List Char → Option (α × List Char)}
    (h : ∀ {text x rest}, read text = some (x, rest) → P x) : Ensures (scan read) P := by
  intro cursor x next hread hfault
  rw [scan] at hread
  rcases hfound : read (skip cursor.rest) with _ | ⟨y, rest⟩
  · simp [hfound] at hread
  · rw [hfound, Option.map_some] at hread
    cases hread
    exact ⟨hfault, h hfound⟩

theorem ensures_token (expected : String) : Ensures (token expected) fun _ => True :=
  ensures_scan fun _ => trivial

theorem ensures_name : Ensures Parser.name IsName := ensures_scan isName_of_readName?

theorem ensures_type : Ensures Parser.type fun type => TypeText type.toList := by
  refine ensures_scan fun {text type rest} hread => ?_
  rcases htype : readType? text.length text with _ | ⟨chars, after⟩
  · simp [htype] at hread
  · rw [htype, Option.map_some] at hread
    cases hread
    rw [String.toList_ofList]
    exact typeText_of_readType? htype

theorem ensures_condition : Ensures condition IsName := ensures_scan isName_of_readCondition?

theorem ensures_noCondition : Ensures noCondition fun _ => True := by
  intro cursor x next hread hfault
  rw [noCondition] at hread
  split at hread
  · cases hread
  · cases hread
    exact ⟨hfault, trivial⟩

end Parser

end QueryCache
