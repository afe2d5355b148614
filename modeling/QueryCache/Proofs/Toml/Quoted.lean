import Mathlib.Tactic.IntervalCases
import QueryCache.Proofs.Text.Reading
import QueryCache.Toml.Quoted

/-!
# Written strings and names are read back

`Quoted.reads_text` says that a string is read back from its written form, and
`Quoted.reads_nameText` that a name is. What follows a string must not begin with a quote,
and what follows a name not with a character of a bare name.

Between triple quotes the text is taken in pieces, one for each character, and a run of at
most two quotes stands for itself: `Quoted.Spelled` relates such a text to the characters
that it stands for. The reader cannot tell quotes at the end of the text from the closing
ones before it has read them, and takes up to two of them afterwards
(`Quoted.Spelled.readsAll`).
-/

namespace QueryCache

namespace Quoted

open Scanner

variable {c quote : Char} {rest : List Char}

/-! ### Characters -/

theorem toNat_lt_of_isControl (h : isControl c = true) : c.toNat < 128 := by
  rw [isControl, Bool.or_eq_true, Bool.and_eq_true, decide_eq_true_eq, beq_iff_eq] at h
  rcases h with ⟨hlt, -⟩ | rfl
  · exact Nat.lt_trans hlt (by decide)
  · decide

theorem ne_newline_of_isControl (h : isControl c = false) : c ≠ '\n' ∧ c ≠ '\r' := by
  constructor <;> rintro rfl <;> exact absurd h (by decide)

theorem takes_plainDouble (hcontrol : isControl c = false) (hquote : c ≠ '"')
    (hbackslash : c ≠ '\\') : Takes plainDouble [c] c :=
  takes_satisfy (by simp [hcontrol, hquote, hbackslash])

theorem takes_plain (hcontrol : isControl c = false) (hquote : c ≠ quote) :
    Takes (plain quote) [c] c :=
  takes_satisfy (by simp [hcontrol, hquote])

theorem reads_codePoint (h : c.toNat < 128) (rest : List Char) :
    Reads (codePoint 4) (Text.hexPadded .upper 4 c.toNat ++ rest) c rest := by
  have hdigits := reads_times_satisfy (Text.hexPadded .upper 4 c.toNat) rest
  rw [Text.length_hexPadded] at hdigits
  have hnumber := Text.hexNumber?_hexPadded .upper
    (Nat.lt_of_lt_of_le h (by decide : 128 ≤ Nat.pow 16 4))
  have hvalid : c.toNat.isValidChar := c.valid
  rw [Reads] at hdigits ⊢
  rw [codePoint, hdigits]
  simp [hnumber, hvalid]

theorem reads_blanks_nil (h : ∀ c ∈ rest.head?, isBlank c = false) :
    Reads blanks rest () rest := by
  have hspan : Reads (span isBlank) ([] ++ rest) [] rest := reads_span (by simp) h
  exact hspan.bind (reads_pure _ _)

theorem reads_blanks_space {text : List Char} (h : Reads blanks text () rest) :
    Reads blanks (' ' :: text) () rest := h

/-- There are no blanks in front of a text that is read by a scanner that refuses them. -/
theorem reads_blanks_of {α : Type} {p : Scanner α} {x : α} {text : List Char}
    (h : Reads p text x rest) (hspace : ∀ text, Refuses p (' ' :: text))
    (htab : ∀ text, Refuses p ('\t' :: text)) : Reads blanks text () text := by
  refine reads_blanks_nil fun c hc => ?_
  simp [isBlank, h.head_ne hspace c hc, h.head_ne htab c hc]

theorem refuses_newline (h : ∀ c ∈ rest.head?, c ≠ '\n' ∧ c ≠ '\r') :
    Refuses newline rest :=
  (refuses_exactly_cons (fun c hc => (h c hc).1) []).orElse_refuses
    (refuses_exactly_cons (fun c hc => (h c hc).2) ['\n'])

/-! ### Escapes -/

/-- A character is escaped, or it stands for itself. -/
theorem takes_escapeText (kept : Bool) (c : Char) :
    (∃ letters, escapeText kept c = '\\' :: letters ∧ Takes escape letters c) ∨
      escapeText kept c = [c] ∧ c ≠ '\\' ∧
        (isControl c = false ∨ kept = true ∧ c = '\n') := by
  have hshort : ∀ {letter c : Char}, (∀ rest, escape (letter :: rest) = some (c, rest)) →
      ∃ letters, ['\\', letter] = '\\' :: letters ∧ Takes escape letters c :=
    fun h => ⟨_, rfl, List.cons_ne_nil _ _, h⟩
  rw [escapeText]
  split_ifs with h₁ h₂ h₃ hkept h₄ h₅ h₆ hcontrol
  all_goals try subst c
  · exact Or.inl (hshort fun _ => rfl)
  · exact Or.inl (hshort fun _ => rfl)
  · exact Or.inr ⟨rfl, by decide, Or.inr ⟨hkept, rfl⟩⟩
  · exact Or.inl (hshort fun _ => rfl)
  · exact Or.inl (hshort fun _ => rfl)
  · exact Or.inl (hshort fun _ => rfl)
  · exact Or.inl (hshort fun _ => rfl)
  · exact Or.inl
      ⟨_, rfl, List.cons_ne_nil _ _, reads_codePoint (toNat_lt_of_isControl hcontrol)⟩
  · exact Or.inr ⟨rfl, h₆, Or.inl (Bool.eq_false_iff.2 hcontrol)⟩

theorem takes_escaped {letters : List Char} (h : Takes escape letters c) :
    Takes escaped ('\\' :: letters) c :=
  ⟨List.cons_ne_nil _ _, h.reads⟩

/-- What can stand after a backslash does not end a line. -/
theorem refuses_escapedLine {letters : List Char} (h : Reads escape letters c rest) :
    Refuses escapedLine ('\\' :: letters) := by
  have hblanks := reads_blanks_of h (fun _ => rfl) fun _ => rfl
  have hfeed : ∀ d ∈ letters.head?, d ≠ '\n' := h.head_ne fun _ => rfl
  have hreturn : ∀ d ∈ letters.head?, d ≠ '\r' := h.head_ne fun _ => rfl
  have hnewline := refuses_newline fun d hd => ⟨hfeed d hd, hreturn d hd⟩
  exact (reads_exactly ['\\'] _).refuses_bind (hblanks.refuses_bind (hnewline.bind _))

/-! ### Between two quotes -/

/-- A character between double quotes. -/
def doubled (c : Char) : List Char := if c = '"' then ['\\', '"'] else escapeText false c

theorem double_eq (content : List Char) :
    double content = '"' :: content.flatMap doubled ++ ['"'] := rfl

theorem takes_doubled (c : Char) : Takes (orElse plainDouble escaped) (doubled c) c := by
  have hescaped : ∀ {letters}, Takes escape letters c →
      Takes (orElse plainDouble escaped) ('\\' :: letters) c :=
    fun h => takes_orElse (fun _ => rfl) (takes_escaped h)
  by_cases hquote : c = '"'
  · subst c
    exact hescaped ⟨List.cons_ne_nil _ _, fun _ => rfl⟩
  · rw [doubled, if_neg hquote]
    rcases takes_escapeText false c with
      ⟨letters, htext, hletters⟩ | ⟨htext, hbackslash, hcontrol | ⟨hkept, -⟩⟩
    · rw [htext]
      exact hescaped hletters
    · rw [htext]
      exact (takes_plainDouble hcontrol hquote hbackslash).orElse _
    · cases hkept

theorem reads_double (content rest : List Char) :
    Reads readDouble (double content ++ rest) (String.ofList content) rest := by
  have hcontent : ReadsAll (orElse plainDouble escaped)
      (content.flatMap doubled ++ '"' :: rest) content ('"' :: rest) := by
    have hend : ReadsAll (orElse plainDouble escaped) ('"' :: rest) [] ('"' :: rest) := .nil rfl
    simpa using hend.flatMap fun c (_ : c ∈ content) => takes_doubled c
  rw [double_eq, List.append_assoc]
  exact (reads_exactly ['"'] _).bind
    (hcontent.many.bind ((reads_exactly ['"'] rest).bind (reads_pure _ _)))

theorem reads_single {content : List Char}
    (h : ∀ c ∈ content, isControl c = false ∧ c ≠ '\'') (rest : List Char) :
    Reads readSingle (single content ++ rest) (String.ofList content) rest := by
  have hcontent : ReadsAll (plain '\'') (content ++ '\'' :: rest) content ('\'' :: rest) := by
    have hend : ReadsAll (plain '\'') ('\'' :: rest) [] ('\'' :: rest) := .nil rfl
    simpa using hend.flatMap fun c hc => takes_plain (h c hc).1 (h c hc).2
  rw [single, List.append_assoc]
  exact (reads_exactly ['\''] _).bind
    (hcontent.many.bind ((reads_exactly ['\''] rest).bind (reads_pure _ _)))

/-- Three quotes do not stand in front where the content begins with another character
and no quote follows the closing one. -/
theorem refuses_readTriple {content : List Char} {p : Scanner (List Char)}
    (hcontent : ∀ c ∈ content.head?, c ≠ quote) (hrest : ∀ c ∈ rest.head?, c ≠ quote) :
    Refuses (readTriple quote p) (quote :: content ++ quote :: rest) := by
  refine (refuses_exactly ?_).bind _
  match content, rest with
  | [], [] => simp
  | [], c :: rest => simpa using (hrest c rfl).symm
  | c :: content, _ => simpa using fun heq => absurd heq.symm (hcontent c rfl)

theorem refuses_readTripleDouble_double {content : List Char}
    (hrest : ∀ c ∈ rest.head?, c ≠ '"') :
    Refuses readTripleDouble (double content ++ rest) := by
  rw [double_eq, List.append_assoc]
  refine refuses_readTriple ?_ hrest
  cases content with
  | nil => simp
  | cons c content =>
      rw [List.flatMap_cons]
      exact ((takes_doubled c).reads _).head_ne fun _ => rfl

/-! ### Between triple quotes -/

/-- A text between triple quotes and the characters that it stands for, where `run` quotes
have just gone by. Of three quotes in a row one must not stand for itself. -/
inductive Spelled (quote : Char) (p : Scanner (List Char)) :
    Nat → List Char → List Char → Prop
  | nil {run : Nat} : Spelled quote p run [] []
  | bare {run : Nat} {written content : List Char} (short : run < 2)
      (others : Spelled quote p (run + 1) written content) :
      Spelled quote p run (quote :: written) (quote :: content)
  | other {run : Nat} {letters written content : List Char} {c : Char}
      (takes : Takes p letters [c]) (head : letters.head? ≠ some quote)
      (others : Spelled quote p 0 written content) :
      Spelled quote p run (letters ++ written) (c :: content)

/-- A reader of pieces takes a quote where no two others follow, and leaves three quotes in
a row to the end of the string. -/
structure Pieces (quote : Char) (p : Scanner (List Char)) : Prop where
  lone : ∀ text, ¬ [quote, quote] <+: text → Reads p (quote :: text) [quote] text
  closing : ∀ text, Refuses p (quote :: quote :: quote :: text)

variable {p : Scanner (List Char)} {run : Nat} {written content : List Char}

theorem not_prefix_append {letters : List Char} (hne : letters ≠ [])
    (hhead : letters.head? ≠ some quote) (quotes text : List Char) :
    ¬ quote :: quotes <+: letters ++ text := by
  obtain ⟨c, letters, rfl⟩ := List.exists_cons_of_ne_nil hne
  intro hstart
  rw [List.cons_append, List.cons_prefix_cons] at hstart
  exact hhead (congrArg some hstart.1.symm)

/-- Right after a quote, two quotes follow at the end of the text only. -/
theorem Spelled.eq_of_quotes (h : Spelled quote p run written content) (hrun : 0 < run)
    (hstart : [quote, quote] <+: written ++ ([quote, quote, quote] ++ rest)) :
    written = [] ∧ content = [] ∨ written = [quote] ∧ content = [quote] := by
  cases h with
  | nil => exact Or.inl ⟨rfl, rfl⟩
  | bare hshort hothers =>
      cases hothers with
      | nil => exact Or.inr ⟨rfl, rfl⟩
      | bare hshort' _ => omega
      | other htakes hhead _ =>
          rw [List.cons_append, List.cons_prefix_cons, List.append_assoc] at hstart
          exact absurd hstart.2 (not_prefix_append htakes.ne_nil hhead _ _)
  | other htakes hhead _ =>
      rw [List.append_assoc] at hstart
      exact absurd hstart (not_prefix_append htakes.ne_nil hhead _ _)

/-- The pieces are taken up to the closing quotes, which swallow at most two quotes of the
string. -/
theorem Spelled.readsAll (h : Spelled quote p run written content) (hp : Pieces quote p)
    (rest : List Char) :
    ∃ pieces count, count ≤ 2 ∧ pieces.flatten ++ List.replicate count quote = content ∧
      ReadsAll p (written ++ ([quote, quote, quote] ++ rest)) pieces
        ([quote, quote, quote] ++ (List.replicate count quote ++ rest)) := by
  induction h with
  | nil => exact ⟨[], 0, by omega, rfl, .nil (hp.closing rest)⟩
  | @bare run written content hshort hothers ih =>
      -- A quote is left to the closing ones where only quotes follow.
      by_cases hstart : [quote, quote] <+: written ++ ([quote, quote, quote] ++ rest)
      · rcases hothers.eq_of_quotes (Nat.succ_pos run) hstart with ⟨rfl, rfl⟩ | ⟨rfl, rfl⟩
        · exact ⟨[], 1, by omega, rfl, .nil (hp.closing _)⟩
        · exact ⟨[], 2, by omega, rfl, .nil (hp.closing _)⟩
      · obtain ⟨pieces, count, hcount, hcontent, hreads⟩ := ih
        refine ⟨[quote] :: pieces, count, hcount, by simp [← hcontent], ?_⟩
        exact .cons (hp.lone _ hstart) (by simp) hreads
  | @other run letters written content c htakes _ _ ih =>
      obtain ⟨pieces, count, hcount, hcontent, hreads⟩ := ih
      refine ⟨[c] :: pieces, count, hcount, by simp [← hcontent], ?_⟩
      rw [List.append_assoc]
      exact htakes.cons hreads

theorem reads_optional_newline {lines : Bool} {text : List Char}
    (h : lines = false → ∀ c ∈ text.head?, c ≠ '\n' ∧ c ≠ '\r') :
    ∃ found, Reads (Scanner.optional newline) ((if lines then ['\n'] else []) ++ text) found
      text := by
  cases lines with
  | true => exact ⟨some (), ((reads_exactly ['\n'] text).orElse _).optional⟩
  | false => exact ⟨none, (refuses_newline (h rfl)).optional⟩

theorem reads_readTriple (h : Spelled quote p 0 written content) (hp : Pieces quote p)
    {lines : Bool}
    (hlines : lines = false → ∀ c ∈ (written ++ [quote]).head?, c ≠ '\n' ∧ c ≠ '\r')
    (hrest : ∀ c ∈ rest.head?, c ≠ quote) :
    Reads (readTriple quote p) (triple quote lines written ++ rest)
      (String.ofList content) rest := by
  obtain ⟨pieces, count, hcount, rfl, hpieces⟩ := h.readsAll hp rest
  have hquote : ∀ text, Reads (Scanner.optional (satisfy (· == quote))) (quote :: text)
      (some quote) text :=
    fun text => (reads_satisfy (by simp) text).optional
  have hnone : Reads (Scanner.optional (satisfy (· == quote))) rest none rest :=
    (refuses_satisfy fun c hc => beq_false_of_ne (hrest c hc)).optional
  obtain ⟨found, hnewline⟩ := @reads_optional_newline lines
    (written ++ ([quote, quote, quote] ++ rest)) (by cases written <;> simpa using hlines)
  rw [triple, List.append_assoc, List.append_assoc, List.append_assoc]
  refine (reads_exactly _ _).bind (hnewline.bind (hpieces.many.bind
    ((reads_exactly _ _).bind ?_)))
  have hpure : ∀ before last : Option Char,
      before.toList ++ last.toList = List.replicate count quote →
      Reads (pure (String.ofList (pieces.flatten ++ before.toList ++ last.toList)))
        rest (String.ofList (pieces.flatten ++ List.replicate count quote)) rest := by
    intro before last heq
    rw [List.append_assoc, heq]
    exact reads_pure _ _
  -- Up to two quotes that belong to the string are read after the closing ones.
  interval_cases count
  · exact hnone.bind (hnone.bind (hpure none none rfl))
  · exact (hquote _).bind (hnone.bind (hpure (some quote) none rfl))
  · exact (hquote _).bind ((hquote _).bind (hpure (some quote) (some quote) rfl))

/-! ### The pieces between triple quotes of either kind -/

/-- A piece that is a character. -/
def one (p : Scanner Char) : Scanner (List Char) := do return [← p]

/-- A piece between triple double quotes. -/
def doublePiece : Scanner (List Char) :=
  let joined : Scanner (List Char) := do
    escapedLine
    return []
  firstOf [one plainDouble, one (loneQuote '"'), joined, one escaped, one lineFeed]

/-- A piece between triple single quotes. -/
def singlePiece : Scanner (List Char) :=
  firstOf [one (plain '\''), one (loneQuote '\''), one lineFeed]

theorem readTripleDouble_eq : readTripleDouble = readTriple '"' doublePiece := rfl

theorem readTripleSingle_eq : readTripleSingle = readTriple '\'' singlePiece := rfl

theorem reads_one {p : Scanner Char} {text : List Char} (h : Reads p text c rest) :
    Reads (one p) text [c] rest :=
  h.bind (reads_pure _ _)

theorem reads_loneQuote {text : List Char} (h : ¬ [quote, quote] <+: text) :
    Reads (loneQuote quote) (quote :: text) quote text := by
  match text with
  | [] => exact if_pos rfl
  | [a] => exact if_pos rfl
  | a :: b :: text =>
      refine if_pos ⟨rfl, fun heq => h ?_⟩
      rw [heq.1, heq.2]
      exact List.prefix_append [quote, quote] text

theorem refuses_loneQuote_of_ne (h : c ≠ quote) (text : List Char) :
    Refuses (loneQuote quote) (c :: text) := by
  match text with
  | [] => exact if_neg h
  | [a] => exact if_neg h
  | a :: b :: text => exact if_neg fun heq => h heq.1

theorem pieces_doublePiece : Pieces '"' doublePiece where
  lone _ h := Refuses.firstOf rfl ((reads_one (reads_loneQuote h)).firstOf _)
  closing _ := rfl

theorem pieces_singlePiece : Pieces '\'' singlePiece where
  lone _ h := Refuses.firstOf rfl ((reads_one (reads_loneQuote h)).firstOf _)
  closing _ := rfl

theorem takes_doublePiece_escape {letters : List Char} (h : Takes escape letters c) :
    Takes doublePiece ('\\' :: letters) [c] := by
  refine ⟨List.cons_ne_nil _ _, fun rest => ?_⟩
  have hjoined := refuses_escapedLine (h.reads rest)
  have hlone := refuses_loneQuote_of_ne (by decide : '\\' ≠ '"') (letters ++ rest)
  refine Refuses.firstOf rfl (Refuses.firstOf (hlone.bind _) (Refuses.firstOf (hjoined.bind _) ?_))
  exact (reads_one ((takes_escaped h).reads rest)).firstOf _

theorem takes_newline {others : List (Scanner (List Char))} :
    Takes (firstOf (one lineFeed :: others)) ['\n'] ['\n'] :=
  ⟨List.cons_ne_nil _ _, fun _ => rfl⟩

/-- A character that is no quote, as it stands between triple double quotes. -/
theorem takes_doublePiece (hquote : c ≠ '"') :
    Takes doublePiece (escapeText true c) [c] ∧ (escapeText true c).head? ≠ some '"' := by
  rcases takes_escapeText true c with
    ⟨letters, htext, hletters⟩ | ⟨htext, hbackslash, hcontrol | ⟨-, rfl⟩⟩
  · rw [htext]
    exact ⟨takes_doublePiece_escape hletters, by simp⟩
  · rw [htext]
    have hplain := takes_plainDouble hcontrol hquote hbackslash
    exact ⟨⟨hplain.ne_nil, fun rest => (reads_one (hplain.reads rest)).firstOf _⟩,
      by simpa using hquote⟩
  · refine ⟨⟨List.cons_ne_nil _ _, fun rest => ?_⟩, by decide⟩
    have hlone := refuses_loneQuote_of_ne (by decide : '\n' ≠ '"') rest
    exact Refuses.firstOf rfl (Refuses.firstOf (hlone.bind _) (Refuses.firstOf rfl
      (Refuses.firstOf rfl (takes_newline.reads rest))))

theorem takes_singlePiece (hcontrol : isControl c = false ∨ c = '\n') (hquote : c ≠ '\'') :
    Takes singlePiece [c] [c] := by
  rcases hcontrol with hcontrol | rfl
  · have hplain := takes_plain hcontrol hquote
    exact ⟨hplain.ne_nil, fun rest => (reads_one (hplain.reads rest)).firstOf _⟩
  · refine ⟨List.cons_ne_nil _ _, fun rest => ?_⟩
    have hlone := refuses_loneQuote_of_ne (by decide : '\n' ≠ '\'') rest
    exact Refuses.firstOf rfl (Refuses.firstOf (hlone.bind _) (takes_newline.reads rest))

theorem spelled_tripleContent (hrun : run ≤ 2) (content : List Char) :
    Spelled '"' doublePiece run (tripleContent run content) content := by
  induction content generalizing run with
  | nil => exact .nil
  | cons c content ih =>
      have hothers := ih (Nat.zero_le 2)
      rw [tripleContent]
      split_ifs with hquote hfull
      · subst c
        have htakes : Takes doublePiece ['\\', '"'] ['"'] :=
          takes_doublePiece_escape ⟨List.cons_ne_nil _ _, fun _ => rfl⟩
        exact .other htakes (by decide) hothers
      · subst c
        exact .bare (by omega) (ih (by omega))
      · obtain ⟨htakes, hhead⟩ := takes_doublePiece hquote
        exact .other htakes hhead hothers

theorem le_longestRun (quote : Char) (run : Nat) (content : List Char) :
    run ≤ longestRun quote run content := by
  induction content generalizing run with
  | nil => exact Nat.le_refl run
  | cons c content ih =>
      rw [longestRun]
      split_ifs
      · exact Nat.le_of_succ_le (ih (run + 1))
      · exact Nat.le_max_left _ _

theorem notMem_of_longestRun (h : longestRun quote run content = 0) : quote ∉ content := by
  induction content generalizing run with
  | nil => exact List.not_mem_nil
  | cons c content ih =>
      rw [longestRun] at h
      split_ifs at h with hc
      · have hle := le_longestRun quote (run + 1) content
        omega
      · have hcontent : longestRun quote 0 content = 0 := by omega
        exact List.not_mem_cons_of_ne_of_not_mem (Ne.symm hc) (ih hcontent)

theorem spelled_self (h : ∀ c ∈ content, isControl c = false ∨ c = '\n')
    (hrun : longestRun '\'' run content ≤ 2) :
    Spelled '\'' singlePiece run content content := by
  induction content generalizing run with
  | nil => exact .nil
  | cons c content ih =>
      obtain ⟨hc, hcontent⟩ := List.forall_mem_cons.1 h
      rw [longestRun] at hrun
      split_ifs at hrun with hquote
      · subst c
        have hle := le_longestRun '\'' (run + 1) content
        exact .bare (by omega) (ih hcontent hrun)
      · have htakes := takes_singlePiece hc hquote
        exact .other htakes (by simpa using hquote) (ih hcontent (by omega))

/-! ### Strings -/

/-- No written string goes on with this text. -/
def Ends (rest : List Char) : Prop := ∀ c ∈ rest.head?, c ≠ '"' ∧ c ≠ '\''

theorem refuses_read (h : Ends rest) : Refuses read rest := by
  have hdouble : ∀ others, Refuses (exactly ('"' :: others)) rest :=
    refuses_exactly_cons fun c hc => (h c hc).1
  have hsingle : ∀ others, Refuses (exactly ('\'' :: others)) rest :=
    refuses_exactly_cons fun c hc => (h c hc).2
  refine refuses_firstOf (List.forall_mem_cons.2 ⟨(hdouble _).bind _, List.forall_mem_cons.2
    ⟨(hdouble []).bind _, List.forall_mem_cons.2 ⟨(hsingle _).bind _, ?_⟩⟩⟩)
  exact List.forall_mem_singleton.2 ((hsingle []).bind _)

theorem reads_of_double (content : List Char) (hrest : Ends rest) :
    Reads read (double content ++ rest) (String.ofList content) rest :=
  Refuses.firstOf (refuses_readTripleDouble_double fun c hc => (hrest c hc).1)
    ((reads_double content rest).firstOf _)

theorem reads_of_single (h : ∀ c ∈ content, isControl c = false ∧ c ≠ '\'')
    (hrest : Ends rest) : Reads read (single content ++ rest) (String.ofList content) rest := by
  have htriple : Refuses readTripleSingle (single content ++ rest) := by
    rw [single, List.append_assoc]
    refine refuses_readTriple (fun c hc => ?_) fun c hc => (hrest c hc).2
    exact (h c (List.mem_of_mem_head? hc)).2
  exact Refuses.firstOf rfl (Refuses.firstOf rfl (Refuses.firstOf htriple
    ((reads_single h rest).firstOf _)))

/-- The written text begins with a line end only if the string does. -/
theorem head_tripleContent (hnewline : '\n' ∉ content) (run : Nat) :
    ∀ d ∈ (tripleContent run content ++ ['"']).head?, d ≠ '\n' ∧ d ≠ '\r' := by
  cases content with
  | nil => simp [tripleContent]
  | cons c content =>
      have hc : c ≠ '\n' := fun heq => hnewline (heq ▸ List.mem_cons_self)
      rw [tripleContent]
      split_ifs with hquote hfull
      · simp
      · simp
      · rcases takes_escapeText true c with
          ⟨letters, htext, -⟩ | ⟨htext, -, hcontrol | ⟨-, hnewline⟩⟩
        · simp [htext]
        · simpa [htext] using ne_newline_of_isControl hcontrol
        · exact absurd hnewline hc

theorem reads_of_tripleDouble {lines : Bool} (hlines : lines = false → '\n' ∉ content)
    (hrest : Ends rest) :
    Reads read (tripleDouble lines content ++ rest) (String.ofList content) rest := by
  have htriple : Reads readTripleDouble (tripleDouble lines content ++ rest)
      (String.ofList content) rest := by
    rw [readTripleDouble_eq]
    exact reads_readTriple (spelled_tripleContent (Nat.zero_le 2) content) pieces_doublePiece
      (fun hno => head_tripleContent (hlines hno) 0) fun c hc => (hrest c hc).1
  exact htriple.firstOf _

theorem reads_of_tripleSingle {lines : Bool} (hlines : lines = false → '\n' ∉ content)
    (h : ∀ c ∈ content, isControl c = false ∨ c = '\n') (hrun : longestRun '\'' 0 content ≤ 2)
    (hrest : Ends rest) :
    Reads read (triple '\'' lines content ++ rest) (String.ofList content) rest := by
  have hhead : lines = false → ∀ c ∈ (content ++ ['\'']).head?, c ≠ '\n' ∧ c ≠ '\r' := by
    intro hno
    cases content with
    | nil => simp
    | cons c content =>
        have hc : c ≠ '\n' := fun heq => hlines hno (heq ▸ List.mem_cons_self)
        have hcontrol := (h c List.mem_cons_self).resolve_right hc
        simpa using ne_newline_of_isControl hcontrol
  have htriple : Reads readTripleSingle (triple '\'' lines content ++ rest)
      (String.ofList content) rest := by
    rw [readTripleSingle_eq]
    exact reads_readTriple (spelled_self h hrun) pieces_singlePiece hhead
      fun c hc => (hrest c hc).2
  exact Refuses.firstOf rfl (Refuses.firstOf rfl (htriple.firstOf _))

theorem control_or_newline (h : (shape content).control = false) :
    ∀ c ∈ content, isControl c = false ∨ c = '\n' := by
  intro c hc
  have hkept := List.any_eq_false.1 h c hc
  simpa [or_iff_not_imp_left] using hkept

theorem notMem_newline (h : (shape content).newline = false) : '\n' ∉ content := by
  simpa [shape] using h

/-- What can stand between single quotes. -/
theorem forall_plain (hcontrol : (shape content).control = false)
    (hnewline : (shape content).newline = false) (hrun : (shape content).single = 0) :
    ∀ c ∈ content, isControl c = false ∧ c ≠ '\'' := by
  intro c hc
  refine ⟨(control_or_newline hcontrol c hc).resolve_right fun heq => ?_, fun heq => ?_⟩
  · exact notMem_newline hnewline (heq ▸ hc)
  · exact notMem_of_longestRun hrun (heq ▸ hc)

/-- A string is read back from its written form. -/
theorem reads_text (s : String) (hrest : Ends rest) : Reads read (text s ++ rest) s rest := by
  suffices h : Reads read (text s ++ rest) (String.ofList s.toList) rest by
    rwa [String.ofList_toList] at h
  rw [text]
  split_ifs with hdouble hsingle htripleDouble htripleSingle hnewline
  · exact reads_of_double _ hrest
  · simp only [Bool.and_eq_true, Bool.not_eq_true', decide_eq_true_eq] at hsingle
    obtain ⟨⟨hcontrol, hnewline⟩, hrun⟩ := hsingle
    exact reads_of_single (forall_plain hcontrol hnewline hrun) hrest
  · exact reads_of_tripleDouble notMem_newline hrest
  · simp only [Bool.and_eq_true, Bool.not_eq_true', decide_eq_true_eq] at htripleSingle
    obtain ⟨hcontrol, hrun⟩ := htripleSingle
    exact reads_of_tripleSingle notMem_newline (control_or_newline hcontrol) hrun hrest
  · exact reads_of_tripleDouble (fun h => nomatch h) hrest
  · exact reads_of_double _ hrest

/-- Two quotes of the string stand before the three that close it. -/
example : read (text "it's \"\"" ++ ['\n']) = some ("it's \"\"", ['\n']) := by
  decide +kernel

/-! ### Names -/

theorem isBare_ne (h : isBare c = true) : c ≠ '"' ∧ c ≠ '\'' := by
  constructor <;> rintro rfl <;> exact absurd h (by decide)

theorem reads_bareName {name : List Char} (h : (!name.isEmpty && name.all isBare) = true)
    (hrest : ∀ c ∈ rest.head?, isBare c = false) :
    Reads readName (name ++ rest) (String.ofList name) rest := by
  rw [Bool.and_eq_true, Bool.not_eq_true', List.isEmpty_eq_false_iff, List.all_eq_true] at h
  obtain ⟨hne, hname⟩ := h
  have hhead : ∀ c ∈ (name ++ rest).head?, c ≠ '"' ∧ c ≠ '\'' := by
    obtain ⟨c, name, rfl⟩ := List.exists_cons_of_ne_nil hne
    simpa using isBare_ne (hname c List.mem_cons_self)
  have hdouble : Refuses readDouble (name ++ rest) :=
    Refuses.bind (refuses_exactly_cons (fun c hc => (hhead c hc).1) []) _
  have hsingle : Refuses readSingle (name ++ rest) :=
    Refuses.bind (refuses_exactly_cons (fun c hc => (hhead c hc).2) []) _
  have hbare : Reads (do return String.ofList (← span1 isBare)) (name ++ rest)
      (String.ofList name) rest :=
    (reads_span1 hne hname hrest).bind (reads_pure _ _)
  exact Refuses.firstOf hdouble (Refuses.firstOf hsingle (hbare.firstOf _))

/-- A name is read back from its written form. -/
theorem reads_nameText (name : String) (hrest : ∀ c ∈ rest.head?, isBare c = false) :
    Reads readName (nameText name ++ rest) name rest := by
  suffices h : Reads readName (nameText name ++ rest) (String.ofList name.toList) rest by
    rwa [String.ofList_toList] at h
  rw [nameText]
  split_ifs with hbare hdouble hsingle
  · exact reads_bareName hbare hrest
  · exact (reads_double _ rest).firstOf _
  · simp only [Bool.and_eq_true, Bool.not_eq_true', decide_eq_true_eq] at hsingle
    obtain ⟨⟨hcontrol, hnewline⟩, hrun⟩ := hsingle
    exact Refuses.firstOf rfl
      ((reads_single (forall_plain hcontrol hnewline hrun) rest).firstOf _)
  · exact (reads_double _ rest).firstOf _

end Quoted

end QueryCache
