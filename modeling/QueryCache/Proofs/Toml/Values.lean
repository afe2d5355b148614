import QueryCache.Proofs.Number.Digits
import QueryCache.Proofs.Toml.Quoted
import QueryCache.Toml.Parser

/-!
# Written values are read back

Strings (`TomlScanner.reads_string`), positive numbers of at most 64 bits at the end of a
line (`TomlScanner.reads_natural`) and arrays of strings (`TomlScanner.reads_strings`) are
read back as values. A number begins like a date or a time of day, but no sign follows its
digits.
-/

namespace QueryCache

namespace TomlScanner

open Scanner

variable {text rest : List Char}

/-! ### Strings -/

theorem reads_value_of_scalar {tree : TomlTree} (h : Reads scalar text tree rest)
    (depth : Nat) : Reads (value depth) text tree rest := by
  cases depth with
  | zero => exact h
  | succ depth => exact h.firstOf _

theorem reads_string (s : String) (hrest : Quoted.Ends rest) (depth : Nat) :
    Reads (value depth) (Quoted.text s ++ rest) (.string s) rest :=
  reads_value_of_scalar (((Quoted.reads_text s hrest).map TomlTree.string).firstOf _) depth

/-! ### Digits -/

/-- A digit to a base. -/
def digitBelow (base : Nat) : Scanner Nat := fun text =>
  match text with
  | c :: rest =>
    match Text.hexValue? c with
    | some d => if d < base then some (d, rest) else none
    | none => none
  | [] => none

theorem digits_eq (base : Nat) :
    digits base = do
      let first ← digitBelow base
      let others ← many (orElse (digitBelow base) do word "_"; digitBelow base)
      return first :: others := rfl

theorem takes_digitBelow {d : Nat} (hd : d < 10) :
    Takes (digitBelow 10) [Nat.digitChar d] d := by
  refine ⟨List.cons_ne_nil _ _, fun rest => ?_⟩
  interval_cases d <;> rfl

/-- Decimal digits at the end of a line. -/
def digitLine (ds : List Nat) (rest : List Char) : List Char :=
  ds.map Nat.digitChar ++ '\n' :: rest

theorem digitLine_cons (d : Nat) (ds : List Nat) (rest : List Char) :
    digitLine (d :: ds) rest = Nat.digitChar d :: digitLine ds rest := rfl

theorem head?_digitLine_ne (ds : List Nat) (rest : List Char) {c : Char}
    (hdigit : ∀ d, Nat.digitChar d ≠ c) (hnewline : '\n' ≠ c) :
    ∀ e ∈ (digitLine ds rest).head?, e ≠ c := by
  cases ds with
  | nil => simpa [digitLine] using hnewline
  | cons d ds => simpa [digitLine_cons] using hdigit d

theorem reads_digits {d : Nat} {ds : List Nat} (hds : ∀ e ∈ d :: ds, e < 10)
    (rest : List Char) : Reads (digits 10) (digitLine (d :: ds) rest) (d :: ds) ('\n' :: rest) := by
  obtain ⟨hd, hothers⟩ := List.forall_mem_cons.1 hds
  have hmany : ReadsAll (orElse (digitBelow 10) do word "_"; digitBelow 10)
      (digitLine ds rest) ds ('\n' :: rest) := by
    have hend : ReadsAll (orElse (digitBelow 10) do word "_"; digitBelow 10)
        ('\n' :: rest) [] ('\n' :: rest) := .nil rfl
    have hflatMap := hend.flatMap fun e he => (takes_digitBelow (hothers e he)).orElse _
    rw [List.append_nil, List.map_id'] at hflatMap
    rwa [digitLine, List.map_eq_flatMap]
  rw [digits_eq, digitLine_cons]
  exact ((takes_digitBelow hd).reads _).bind (hmany.many.bind (reads_pure _ _))

/-! ### What digits at the end of a line are not -/

/-- Reading so many digits leaves digits at the end of the line, where they are there. -/
theorem refuses_or_reads_times (width : Nat) {ds : List Nat} (hds : ∀ d ∈ ds, d < 10)
    (rest : List Char) :
    Refuses (times digit width) (digitLine ds rest) ∨
      ∃ values others, Reads (times digit width) (digitLine ds rest) values
        (digitLine others rest) := by
  induction width generalizing ds with
  | zero => exact Or.inr ⟨[], ds, reads_pure _ _⟩
  | succ width ih =>
      cases ds with
      | nil => exact Or.inl rfl
      | cons d ds =>
          obtain ⟨hd, hothers⟩ := List.forall_mem_cons.1 hds
          have hdigit : Reads digit (digitLine (d :: ds) rest) d (digitLine ds rest) := by
            interval_cases d <;> rfl
          rcases ih hothers with hrefuses | ⟨values, others, hreads⟩
          · exact Or.inl (hdigit.refuses_bind (hrefuses.bind _))
          · exact Or.inr ⟨d :: values, others, hdigit.bind (hreads.bind (reads_pure _ _))⟩

/-- A number of fixed width is not followed by a mark. -/
theorem refuses_number_mark {α : Type} (width : Nat) {ds : List Nat} (hds : ∀ d ∈ ds, d < 10)
    (rest : List Char) {mark : Char} (hdigit : ∀ d, Nat.digitChar d ≠ mark)
    (hnewline : '\n' ≠ mark) (q : Nat → Scanner α) :
    Refuses (do let n ← number width; exactly [mark]; q n) (digitLine ds rest) := by
  rcases refuses_or_reads_times width hds rest with hrefuses | ⟨values, others, hreads⟩
  · exact (hrefuses.bind _).bind _
  · have hmark : Refuses (exactly [mark]) (digitLine others rest) :=
      refuses_exactly_cons (head?_digitLine_ne others rest hdigit hnewline) []
    have hnumber : Reads (number width) (digitLine ds rest) (ofDigits 10 values)
        (digitLine others rest) :=
      hreads.bind (reads_pure _ _)
    exact hnumber.refuses_bind (hmark.bind _)

theorem refuses_moment {ds : List Nat} (hds : ∀ d ∈ ds, d < 10) (rest : List Char) :
    Refuses Moment.read (digitLine ds rest) := by
  have hdate : Refuses Moment.readDate (digitLine ds rest) :=
    refuses_number_mark 4 hds rest (fun _ => Nat.digitChar_ne '-' rfl) (by decide) _
  have htime : Refuses Moment.readTime (digitLine ds rest) :=
    refuses_number_mark 2 hds rest (fun _ => Nat.digitChar_ne ':' rfl) (by decide) _
  exact (hdate.bind _).orElse_refuses (htime.map _)

theorem reads_sign (h : ∀ c ∈ text.head?, c ≠ '+' ∧ c ≠ '-') : Reads sign text false text := by
  have hsign : Refuses (satisfy fun c => c == '+' || c == '-') text :=
    refuses_satisfy fun c hc => by simp [h c hc]
  exact hsign.optional.bind (reads_pure _ _)

section Digits

variable {d : Nat} {ds : List Nat} (hds : ∀ e ∈ d :: ds, e < 10)

theorem reads_digitLine_sign (ds : List Nat) (rest : List Char) :
    Reads sign (digitLine ds rest) false (digitLine ds rest) :=
  reads_sign fun c hc =>
    ⟨head?_digitLine_ne ds rest (fun _ => Nat.digitChar_ne '+' rfl) (by decide) c hc,
      head?_digitLine_ne ds rest (fun _ => Nat.digitChar_ne '-' rfl) (by decide) c hc⟩

include hds

omit hds in
theorem head?_digitLine_ne_zero (hd : d ≠ 0) (rest : List Char) :
    ∀ c ∈ (digitLine (d :: ds) rest).head?, c ≠ '0' := by
  rintro _ ⟨rfl⟩ heq
  exact hd (Nat.digitChar_eq_zero.1 heq)

theorem reads_wholePart (hd : d ≠ 0) (rest : List Char) :
    Reads wholePart (digitLine (d :: ds) rest) (false, d :: ds) ('\n' :: rest) := by
  have hzero : Refuses (exactly ['0']) (digitLine (d :: ds) rest) :=
    refuses_exactly_cons (head?_digitLine_ne_zero hd rest) []
  exact (reads_digitLine_sign _ rest).bind
    (((hzero.bind _).orElse (reads_digits hds rest)).bind (reads_pure _ _))

theorem refuses_float (hd : d ≠ 0) (rest : List Char) :
    Refuses float (digitLine (d :: ds) rest) := by
  have hfraction : Reads (Scanner.optional fraction) ('\n' :: rest) none ('\n' :: rest) := rfl
  have hexponent : Reads (Scanner.optional exponent) ('\n' :: rest) none ('\n' :: rest) := rfl
  exact (reads_wholePart hds hd rest).refuses_bind
    (hfraction.refuses_bind (hexponent.refuses_bind rfl))

omit hds in
theorem refuses_specialFloat (ds : List Nat) (rest : List Char) :
    Refuses specialFloat (digitLine ds rest) := by
  have hinf : Refuses (exactly ['i', 'n', 'f']) (digitLine ds rest) :=
    refuses_exactly_cons
      (head?_digitLine_ne ds rest (fun _ => Nat.digitChar_ne 'i' rfl) (by decide)) _
  have hnan : Refuses (exactly ['n', 'a', 'n']) (digitLine ds rest) :=
    refuses_exactly_cons
      (head?_digitLine_ne ds rest (fun _ => Nat.digitChar_ne 'n' rfl) (by decide)) _
  exact (reads_digitLine_sign ds rest).refuses_bind ((hinf.orElse_refuses hnan).bind _)

theorem reads_integer (hd : d ≠ 0) (hbound : ofDigits 10 (d :: ds) < integerBound)
    (rest : List Char) :
    Reads integer (digitLine (d :: ds) rest) (.integer (ofDigits 10 (d :: ds)))
      ('\n' :: rest) := by
  have hbased : ∀ c : Char, Refuses (exactly ['0', c]) (digitLine (d :: ds) rest) :=
    fun c => refuses_exactly_cons (head?_digitLine_ne_zero hd rest) [c]
  have hchecked : Reads (checkedInteger (ofDigits 10 (d :: ds))) ('\n' :: rest)
      (.integer (ofDigits 10 (d :: ds))) ('\n' :: rest) := by
    rw [checkedInteger, if_pos (by omega)]
    exact reads_pure _ _
  refine Refuses.firstOf ((hbased 'x').bind _) (Refuses.firstOf ((hbased 'o').bind _)
    (Refuses.firstOf ((hbased 'b').bind _) (Reads.firstOf ?_ _)))
  refine (reads_wholePart hds hd rest).bind ?_
  exact hchecked

end Digits

/-- A positive number of 64 bits is read back at the end of a line. -/
theorem reads_natural {n : Nat} (hpos : n ≠ 0) (hbound : n < integerBound) (rest : List Char)
    (depth : Nat) :
    Reads (value depth) (Nat.toDigits 10 n ++ '\n' :: rest) (.integer n) ('\n' :: rest) := by
  obtain ⟨d, ds, hdigits⟩ := List.exists_cons_of_ne_nil (Decimal.digitValues_ne_nil n)
  have htext : Nat.toDigits 10 n ++ '\n' :: rest = digitLine (d :: ds) rest := by
    rw [digitLine, ← hdigits, Decimal.map_digitChar_digitValues]
    rfl
  have hds : ∀ e ∈ d :: ds, e < 10 :=
    fun e he => Decimal.lt_of_mem_digitValues (hdigits ▸ he)
  have hd : d ≠ 0 := by
    have hhead := Decimal.head?_digitValues_ne hpos
    rw [hdigits] at hhead
    exact fun heq => hhead (congrArg some heq)
  have hn : ofDigits 10 (d :: ds) = n := by
    rw [← hdigits]
    exact Numeral.natValue_digitValues n
  have hends : Quoted.Ends (digitLine (d :: ds) rest) := fun c hc =>
    ⟨head?_digitLine_ne _ rest (fun _ => Nat.digitChar_ne '"' rfl) (by decide) c hc,
      head?_digitLine_ne _ rest (fun _ => Nat.digitChar_ne '\'' rfl) (by decide) c hc⟩
  have hinteger := reads_integer hds hd (by rwa [hn]) rest
  rw [hn] at hinteger
  rw [htext]
  refine reads_value_of_scalar (Refuses.firstOf ((Quoted.refuses_read hends).map _) ?_) depth
  exact Refuses.firstOf ((refuses_moment hds rest).map _) (Refuses.firstOf
    (refuses_float hds hd rest) (Refuses.firstOf (refuses_specialFloat _ rest)
      (hinteger.firstOf _)))

/-! ### Arrays -/

/-- No blank, line end or comment stands in front. -/
def EndsGap (text : List Char) : Prop :=
  ∀ c ∈ text.head?, c ≠ ' ' ∧ c ≠ '\t' ∧ c ≠ '\n' ∧ c ≠ '\r' ∧ c ≠ '#'

/-- A blank, a line end, or a comment with its line end. -/
def gapPiece : Scanner Unit :=
  firstOf [do let _ ← satisfy Quoted.isBlank, Quoted.newline, do comment; Quoted.newline]

theorem gap_eq : gap = (do let _ ← many gapPiece) := rfl

theorem refuses_gapPiece (h : EndsGap text) : Refuses gapPiece text := by
  have hblank : Refuses (satisfy Quoted.isBlank) text :=
    refuses_satisfy fun c hc => by simp [Quoted.isBlank, (h c hc).1, (h c hc).2.1]
  have hnewline : Refuses Quoted.newline text :=
    Quoted.refuses_newline fun c hc => ⟨(h c hc).2.2.1, (h c hc).2.2.2.1⟩
  have hcomment : Refuses comment text :=
    Refuses.bind (refuses_exactly_cons (fun c hc => (h c hc).2.2.2.2) []) _
  exact (hblank.bind _).orElse_refuses
    (hnewline.orElse_refuses ((hcomment.bind _).orElse_refuses rfl))

theorem reads_gap (h : EndsGap text) : Reads gap text () text := by
  rw [gap_eq]
  exact (ReadsAll.nil (refuses_gapPiece h)).many.bind (reads_pure _ _)

theorem reads_gap_space (h : EndsGap text) : Reads gap (' ' :: text) () text := by
  have hspace : Takes gapPiece [' '] () := ⟨List.cons_ne_nil _ _, fun _ => rfl⟩
  rw [gap_eq]
  exact (hspace.cons (.nil (refuses_gapPiece h))).many.bind (reads_pure _ _)

theorem endsGap_string (s : String) (hrest : Quoted.Ends rest) :
    EndsGap (Quoted.text s ++ rest) := by
  have hread := Quoted.reads_text s hrest
  exact fun c hc => ⟨hread.head_ne (d := ' ') (fun _ => rfl) c hc,
    hread.head_ne (d := '\t') (fun _ => rfl) c hc, hread.head_ne (d := '\n') (fun _ => rfl) c hc,
    hread.head_ne (d := '\r') (fun _ => rfl) c hc, hread.head_ne (d := '#') (fun _ => rfl) c hc⟩

/-- An item with what may stand around it. -/
def spacedItem (item : Scanner TomlTree) : Scanner TomlTree := do
  gap
  let value ← item
  gap
  return value

/-- The items of an array that is not empty. -/
def filledItems (item : Scanner TomlTree) : Scanner (List TomlTree) := do
  let items ← separated (spacedItem item) (word ",")
  let _ ← Scanner.optional (word ",")
  return items

theorem array_eq (item : Scanner TomlTree) :
    array item = do
      word "["
      let items ← Scanner.optional (filledItems item)
      gap
      word "]"
      return .array (items.getD []) := rfl

theorem refuses_scalar_bracket (rest : List Char) : Refuses scalar ('[' :: rest) := rfl

theorem refuses_value_bracket (depth : Nat) (rest : List Char) :
    Refuses (value depth) (']' :: rest) := by
  cases depth <;> rfl

/-- What follows an item of an array. -/
def EndsItem (text : List Char) : Prop := ∃ c rest, text = c :: rest ∧ (c = ',' ∨ c = ']')

theorem EndsItem.ends (h : EndsItem text) : Quoted.Ends text := by
  obtain ⟨c, rest, rfl, rfl | rfl⟩ := h <;> simp [Quoted.Ends]

theorem EndsItem.endsGap (h : EndsItem text) : EndsGap text := by
  obtain ⟨c, rest, rfl, rfl | rfl⟩ := h <;> simp [EndsGap]

/-- The other items, each behind a comma. -/
def otherItems (strings : List String) : List Char :=
  strings.flatMap fun s => ", ".toList ++ Quoted.text s

theorem otherItems_cons_append (s : String) (strings : List String) (rest : List Char) :
    otherItems (s :: strings) ++ rest =
      ',' :: ' ' :: (Quoted.text s ++ (otherItems strings ++ rest)) := by
  simp [otherItems]

theorem endsItem_otherItems (strings : List String) (rest : List Char) :
    EndsItem (otherItems strings ++ ']' :: rest) := by
  cases strings with
  | nil => exact ⟨']', rest, rfl, Or.inr rfl⟩
  | cons s strings => exact ⟨',', _, rfl, Or.inl rfl⟩

theorem reads_spacedItem (s : String) (hrest : EndsItem rest) (depth : Nat)
    (hgap : Reads gap text () (Quoted.text s ++ rest)) :
    Reads (spacedItem (value depth)) text (.string s) rest :=
  hgap.bind ((reads_string s hrest.ends depth).bind
    ((reads_gap hrest.endsGap).bind (reads_pure _ _)))

theorem readsAll_otherItems (strings : List String) (depth : Nat) (rest : List Char) :
    ReadsAll (do let _ ← word ","; spacedItem (value depth))
      (otherItems strings ++ ']' :: rest) (strings.map TomlTree.string) (']' :: rest) := by
  induction strings with
  | nil => exact .nil rfl
  | cons s strings ih =>
      have hends := endsItem_otherItems strings rest
      have hgap := reads_gap_space (endsGap_string s hends.ends)
      rw [otherItems_cons_append, List.map_cons]
      refine .cons ((reads_exactly [','] _).bind (reads_spacedItem s hends depth hgap)) ?_ ih
      simp only [List.length_cons, List.length_append]
      omega

theorem reads_array {depth : Nat} {found : Option (List TomlTree)}
    (h : Reads (Scanner.optional (filledItems (value depth))) text found (']' :: rest)) :
    Reads (value (depth + 1)) ('[' :: text) (.array (found.getD [])) rest := by
  have hgap : Reads gap (']' :: rest) () (']' :: rest) := reads_gap (by simp [EndsGap])
  have harray : Reads (array (value depth)) ('[' :: text) (.array (found.getD [])) rest := by
    rw [array_eq]
    exact (reads_exactly ['['] _).bind (h.bind (hgap.bind
      ((reads_exactly [']'] rest).bind (reads_pure _ _))))
  exact Refuses.firstOf (refuses_scalar_bracket _) (harray.firstOf _)

/-- Strings between brackets are read back as an array. -/
theorem reads_strings (s : String) (strings : List String) (depth : Nat) (rest : List Char) :
    Reads (value (depth + 1)) ('[' :: (Quoted.text s ++ (otherItems strings ++ ']' :: rest)))
      (.array ((s :: strings).map .string)) rest := by
  have hends := endsItem_otherItems strings rest
  have hfirst := reads_spacedItem s hends depth (reads_gap (endsGap_string s hends.ends))
  have hitems := ReadsAll.separated hfirst (readsAll_otherItems strings depth rest)
  have hcomma : Reads (Scanner.optional (word ",")) (']' :: rest) none (']' :: rest) := rfl
  have hfilled : Reads (filledItems (value depth)) _ (TomlTree.string s :: _) (']' :: rest) :=
    hitems.bind (hcomma.bind (reads_pure _ _))
  exact reads_array hfilled.optional

theorem reads_noStrings (depth : Nat) (rest : List Char) :
    Reads (value (depth + 1)) ('[' :: ']' :: rest) (.array []) rest := by
  have hgap : Reads gap (']' :: rest) () (']' :: rest) := reads_gap (by simp [EndsGap])
  have hfirst : Refuses (spacedItem (value depth)) (']' :: rest) :=
    hgap.refuses_bind ((refuses_value_bracket depth rest).bind _)
  have hfilled : Refuses (filledItems (value depth)) (']' :: rest) := (hfirst.bind _).bind _
  exact reads_array hfilled.optional

end TomlScanner

end QueryCache
