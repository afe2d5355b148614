import Mathlib.Data.List.Basic
import QueryCache.Text.Scanner

/-!
# What a scanner does on a text

`Scanner.Reads p text x rest` says that a scanner takes a value off a text and leaves the
rest, and `Scanner.Refuses p text` that it does not match there. There is a rule for each
way in which scanners are put together.

A scanner that reads a piece of text whatever follows it `Takes` the piece. A repetition
reads a row of such pieces (`Scanner.ReadsAll.flatMap`), up to a place where the repeated
scanner refuses.
-/

namespace QueryCache

namespace Scanner

variable {α β : Type}

/-- On this text, the scanner gives the value and leaves the rest. -/
def Reads (p : Scanner α) (text : List Char) (x : α) (rest : List Char) : Prop :=
  p text = some (x, rest)

/-- On this text, the scanner does not match. -/
def Refuses (p : Scanner α) (text : List Char) : Prop := p text = none

variable {p : Scanner α} {text rest rest' : List Char} {x : α}

/-! ### Putting scanners together -/

theorem bind_apply (p : Scanner α) (q : α → Scanner β) (text : List Char) :
    (p >>= q) text = (p text).bind fun found => q found.1 found.2 := rfl

theorem map_apply (f : α → β) (p : Scanner α) (text : List Char) :
    (f <$> p) text = (p text).map fun found => (f found.1, found.2) := by
  cases h : p text <;> simp [Functor.map, StateT.map, h]

theorem reads_pure (x : α) (text : List Char) : Reads (pure x) text x text := rfl

theorem Reads.bind {q : α → Scanner β} {y : β} (h : Reads p text x rest)
    (h' : Reads (q x) rest y rest') : Reads (p >>= q) text y rest' := by
  rw [Reads, bind_apply, h]
  exact h'

theorem Reads.refuses_bind {q : α → Scanner β} (h : Reads p text x rest)
    (h' : Refuses (q x) rest) : Refuses (p >>= q) text := by
  rw [Refuses, bind_apply, h]
  exact h'

theorem Refuses.bind (h : Refuses p text) (q : α → Scanner β) : Refuses (p >>= q) text := by
  rw [Refuses, bind_apply, h]
  rfl

theorem Reads.map (h : Reads p text x rest) (f : α → β) :
    Reads (f <$> p) text (f x) rest := by
  rw [Reads, map_apply, h]
  rfl

theorem Refuses.map (h : Refuses p text) (f : α → β) : Refuses (f <$> p) text := by
  rw [Refuses, map_apply, h]
  rfl

theorem Reads.orElse (h : Reads p text x rest) (q : Scanner α) :
    Reads (orElse p q) text x rest := by
  rw [Reads, Scanner.orElse, h]

theorem Refuses.orElse {q : Scanner α} (h : Refuses p text) (h' : Reads q text x rest) :
    Reads (Scanner.orElse p q) text x rest := by
  rw [Reads, Scanner.orElse, h]
  exact h'

theorem Refuses.orElse_refuses {q : Scanner α} (h : Refuses p text) (h' : Refuses q text) :
    Refuses (Scanner.orElse p q) text := by
  rw [Refuses, Scanner.orElse, h]
  exact h'

theorem Reads.firstOf (h : Reads p text x rest) (others : List (Scanner α)) :
    Reads (firstOf (p :: others)) text x rest :=
  h.orElse _

theorem Refuses.firstOf {others : List (Scanner α)} (h : Refuses p text)
    (h' : Reads (firstOf others) text x rest) :
    Reads (Scanner.firstOf (p :: others)) text x rest :=
  h.orElse h'

theorem refuses_firstOf {scanners : List (Scanner α)} (h : ∀ p ∈ scanners, Refuses p text) :
    Refuses (Scanner.firstOf scanners) text := by
  induction scanners with
  | nil => rfl
  | cons p others ih =>
      obtain ⟨hp, hothers⟩ := List.forall_mem_cons.1 h
      exact hp.orElse_refuses (ih hothers)

theorem Reads.optional (h : Reads p text x rest) :
    Reads (optional p) text (some x) rest := by
  rw [Reads, Scanner.optional, h]

theorem Refuses.optional (h : Refuses p text) : Reads (optional p) text none text := by
  rw [Reads, Scanner.optional, h]

/-- A text that is read does not begin with a character at which the scanner refuses. -/
theorem Reads.head_ne (h : Reads p text x rest) {d : Char}
    (hd : ∀ rest, Refuses p (d :: rest)) : ∀ c ∈ text.head?, c ≠ d := by
  cases text with
  | nil => simp
  | cons c others =>
      rintro _ ⟨rfl⟩ rfl
      rw [Reads, show p (c :: others) = none from hd others] at h
      cases h

/-! ### Characters -/

theorem reads_satisfy {test : Char → Bool} {c : Char} (h : test c = true)
    (rest : List Char) : Reads (satisfy test) (c :: rest) c rest :=
  if_pos h

theorem refuses_satisfy {test : Char → Bool} (h : ∀ c ∈ text.head?, test c = false) :
    Refuses (satisfy test) text := by
  cases text with
  | nil => rfl
  | cons c rest => exact if_neg (by simp [h c rfl])

theorem reads_span {test : Char → Bool} {taken : List Char}
    (htaken : ∀ c ∈ taken, test c = true) (hrest : ∀ c ∈ rest.head?, test c = false) :
    Reads (span test) (taken ++ rest) taken rest := by
  have htakeWhile : rest.takeWhile test = [] := by
    cases rest with
    | nil => rfl
    | cons c rest => simp [hrest c rfl]
  have hdropWhile : rest.dropWhile test = rest := by
    cases rest with
    | nil => rfl
    | cons c rest => simp [hrest c rfl]
  rw [Reads, span, List.takeWhile_append_of_pos htaken, List.dropWhile_append_of_pos htaken,
    htakeWhile, hdropWhile, List.append_nil]

theorem reads_span1 {test : Char → Bool} {taken : List Char} (hne : taken ≠ [])
    (htaken : ∀ c ∈ taken, test c = true) (hrest : ∀ c ∈ rest.head?, test c = false) :
    Reads (span1 test) (taken ++ rest) taken rest := by
  obtain ⟨c, cs, rfl⟩ := List.exists_cons_of_ne_nil hne
  obtain ⟨hc, hcs⟩ := List.forall_mem_cons.1 htaken
  exact (reads_satisfy hc _).bind ((reads_span hcs hrest).bind (reads_pure _ _))

theorem exactly_cons (c : Char) (expected : List Char) :
    exactly (c :: expected) = satisfy (· == c) >>= fun _ => exactly expected := rfl

theorem reads_exactly (expected rest : List Char) :
    Reads (exactly expected) (expected ++ rest) () rest := by
  induction expected with
  | nil => exact reads_pure _ _
  | cons c expected ih =>
      rw [exactly_cons]
      exact (reads_satisfy (by simp) _).bind ih

theorem refuses_exactly {expected : List Char} (h : ¬ expected <+: text) :
    Refuses (exactly expected) text := by
  induction expected generalizing text with
  | nil => exact absurd (List.nil_prefix) h
  | cons c expected ih =>
      cases text with
      | nil => rfl
      | cons d rest =>
          rw [exactly_cons]
          by_cases hd : d = c
          · subst hd
            refine (reads_satisfy (by simp) rest).refuses_bind ?_
            exact ih fun hstart => h (List.cons_prefix_cons.2 ⟨rfl, hstart⟩)
          · refine (refuses_satisfy ?_).bind _
            rintro _ ⟨rfl⟩
            exact beq_false_of_ne hd

theorem refuses_exactly_cons {c : Char} (h : ∀ d ∈ text.head?, d ≠ c)
    (expected : List Char) : Refuses (exactly (c :: expected)) text :=
  Refuses.bind (refuses_satisfy fun d hd => beq_false_of_ne (h d hd)) _

theorem reads_times_satisfy (digits rest : List Char) :
    Reads (times (satisfy fun _ => true) digits.length) (digits ++ rest) digits rest := by
  induction digits with
  | nil => exact reads_pure _ _
  | cons c digits ih => exact (reads_satisfy rfl _).bind (ih.bind (reads_pure _ _))

/-! ### Repetitions -/

/-- On this text, the scanner gives the values one after the other, each of them from at
least one character, and does not match on the rest. -/
inductive ReadsAll (p : Scanner α) : List Char → List α → List Char → Prop
  | nil {text : List Char} (refuses : Refuses p text) : ReadsAll p text [] text
  | cons {text rest rest' : List Char} {x : α} {xs : List α} (reads : Reads p text x rest)
      (shorter : rest.length < text.length) (others : ReadsAll p rest xs rest') :
      ReadsAll p text (x :: xs) rest'

theorem ReadsAll.manyWithin {xs : List α} (h : ReadsAll p text xs rest) {fuel : Nat}
    (hfuel : text.length ≤ fuel) : manyWithin p fuel text = (xs, rest) := by
  induction h generalizing fuel with
  | @nil text hrefuses =>
      cases fuel with
      | zero => rfl
      | succ fuel =>
          rw [Scanner.manyWithin, show p text = none from hrefuses]
  | @cons text rest _ x _ hreads hshorter _ ih =>
      cases fuel with
      | zero => omega
      | succ fuel =>
          have hothers := @ih fuel (by omega)
          rw [Scanner.manyWithin, show p text = some (x, rest) from hreads]
          simp only [hothers]

theorem ReadsAll.many {xs : List α} (h : ReadsAll p text xs rest) :
    Reads (many p) text xs rest := by
  rw [Reads, Scanner.many, h.manyWithin (Nat.le_refl _)]

theorem ReadsAll.separated {separator : Scanner β} {xs : List α} (h : Reads p text x rest)
    (h' : ReadsAll (do let _ ← separator; p) rest xs rest') :
    Reads (separated p separator) text (x :: xs) rest' :=
  h.bind (h'.many.bind (reads_pure _ _))

/-- The scanner reads exactly this piece, whatever follows it. -/
structure Takes (p : Scanner α) (piece : List Char) (x : α) : Prop where
  ne_nil : piece ≠ []
  reads : ∀ rest, Reads p (piece ++ rest) x rest

variable {piece : List Char}

theorem Takes.cons (h : Takes p piece x) {xs : List α} (h' : ReadsAll p text xs rest) :
    ReadsAll p (piece ++ text) (x :: xs) rest := by
  refine .cons (h.reads text) ?_ h'
  have hlength := List.length_pos_of_ne_nil h.ne_nil
  rw [List.length_append]
  omega

/-- A row of pieces is read one by one. -/
theorem ReadsAll.flatMap {γ : Type} {spell : γ → List Char} {value : γ → α} {row : List γ}
    (hrow : ∀ y ∈ row, Takes p (spell y) (value y)) {xs : List α}
    (h : ReadsAll p text xs rest) :
    ReadsAll p (row.flatMap spell ++ text) (row.map value ++ xs) rest := by
  induction row with
  | nil => exact h
  | cons y row ih =>
      obtain ⟨hy, hrow⟩ := List.forall_mem_cons.1 hrow
      rw [List.flatMap_cons, List.append_assoc]
      exact hy.cons (ih hrow)

theorem Takes.orElse (h : Takes p piece x) (q : Scanner α) : Takes (orElse p q) piece x :=
  ⟨h.ne_nil, fun rest => (h.reads rest).orElse q⟩

theorem takes_orElse {q : Scanner α} (h : ∀ rest, Refuses p (piece ++ rest))
    (h' : Takes q piece x) : Takes (Scanner.orElse p q) piece x :=
  ⟨h'.ne_nil, fun rest => (h rest).orElse (h'.reads rest)⟩

theorem Takes.map (h : Takes p piece x) (f : α → β) : Takes (f <$> p) piece (f x) :=
  ⟨h.ne_nil, fun rest => (h.reads rest).map f⟩

theorem takes_satisfy {test : Char → Bool} {c : Char} (h : test c = true) :
    Takes (satisfy test) [c] c :=
  ⟨List.cons_ne_nil _ _, reads_satisfy h⟩

end Scanner

end QueryCache
