import QueryCache.Query.Grammar

/-!
# What a reader does on a text

`Parser.Reads p text x rest` says that a reader takes a value off a text and leaves
the rest, and `Parser.Refuses p text` that it does not match there. There is a rule
for each way in which readers are put together, so what a reader of the grammar does on
a text is derived from what it does on the parts. Neither the value nor the rest
depends on the faults that were found before.
-/

namespace QueryCache

namespace Parser

variable {α β : Type}

/-- On this text, the reader gives the value and leaves the rest. -/
def Reads (p : Parser α) (text : List Char) (x : α) (rest : List Char) : Prop :=
  ∀ fault, p ⟨text, fault⟩ = some (x, ⟨rest, fault⟩)

/-- On this text, the reader does not match. -/
def Refuses (p : Parser α) (text : List Char) : Prop := ∀ fault, p ⟨text, fault⟩ = none

variable {p : Parser α} {text rest rest' : List Char} {x : α}

theorem bind_apply (p : Parser α) (q : α → Parser β) (cursor : Cursor) :
    (p >>= q) cursor = (p cursor).bind fun found => q found.1 found.2 := rfl

theorem exists_of_bind {q : α → Parser β} {cursor next : Cursor} {y : β}
    (h : (p >>= q) cursor = some (y, next)) :
    ∃ x middle, p cursor = some (x, middle) ∧ q x middle = some (y, next) := by
  rw [bind_apply, Option.bind_eq_some_iff] at h
  obtain ⟨⟨x, middle⟩, hx, hy⟩ := h
  exact ⟨x, middle, hx, hy⟩

theorem map_apply (f : α → β) (p : Parser α) (cursor : Cursor) :
    (f <$> p) cursor = (p cursor).map fun found => (f found.1, found.2) := by
  cases h : p cursor <;> simp [Functor.map, StateT.map, h]

theorem reads_pure (x : α) (text : List Char) : Reads (pure x) text x text := fun _ => rfl

/-- A text is read in one way. -/
theorem Reads.unique {y : α} (h : Reads p text x rest) (h' : Reads p text y rest') :
    x = y ∧ rest = rest' := by
  have heq := (h none).symm.trans (h' none)
  simpa using heq

theorem Reads.bind {q : α → Parser β} {y : β} (h : Reads p text x rest)
    (h' : Reads (q x) rest y rest') : Reads (p >>= q) text y rest' := by
  intro fault
  rw [bind_apply, h fault]
  exact h' fault

theorem Reads.refuses_bind {q : α → Parser β} (h : Reads p text x rest)
    (h' : Refuses (q x) rest) : Refuses (p >>= q) text := by
  intro fault
  rw [bind_apply, h fault]
  exact h' fault

theorem Refuses.bind (h : Refuses p text) (q : α → Parser β) : Refuses (p >>= q) text := by
  intro fault
  rw [bind_apply, h fault]
  rfl

theorem Reads.map (h : Reads p text x rest) (f : α → β) : Reads (f <$> p) text (f x) rest := by
  intro fault
  rw [map_apply, h fault]
  rfl

theorem Refuses.map (h : Refuses p text) (f : α → β) : Refuses (f <$> p) text := by
  intro fault
  rw [map_apply, h fault]
  rfl

theorem Reads.orElse (h : Reads p text x rest) (q : Parser α) :
    Reads (orElse p q) text x rest := by
  intro fault
  rw [Parser.orElse, h fault]

theorem Refuses.orElse {q : Parser α} (h : Refuses p text) (h' : Reads q text x rest) :
    Reads (Parser.orElse p q) text x rest := by
  intro fault
  rw [Parser.orElse, h fault]
  exact h' fault

theorem Refuses.orElse_refuses {q : Parser α} (h : Refuses p text) (h' : Refuses q text) :
    Refuses (Parser.orElse p q) text := by
  intro fault
  rw [Parser.orElse, h fault]
  exact h' fault

theorem refuses_fail (text : List Char) : Refuses (fail : Parser α) text := fun _ => rfl

theorem Reads.optional (h : Reads p text x rest) : Reads (optional p) text (some x) rest := by
  intro fault
  rw [Parser.optional, h fault]

theorem Refuses.optional (h : Refuses p text) : Reads (optional p) text none text := by
  intro fault
  rw [Parser.optional, h fault]

theorem Refuses.orEmpty {p : Parser (List α)} (h : Refuses p text) :
    Reads (orEmpty p) text [] text :=
  h.optional.bind (reads_pure _ _)

/-! ### Repetitions -/

/-- On this text, the reader gives the values one after the other, each of them from
at least one character, and does not match on the rest. -/
inductive ReadsAll (p : Parser α) : List Char → List α → List Char → Prop
  | nil {text : List Char} (refuses : Refuses p text) : ReadsAll p text [] text
  | cons {text rest rest' : List Char} {x : α} {xs : List α} (reads : Reads p text x rest)
      (shorter : rest.length < text.length) (others : ReadsAll p rest xs rest') :
      ReadsAll p text (x :: xs) rest'

theorem ReadsAll.manyWithin {xs : List α} (h : ReadsAll p text xs rest) {fuel : Nat}
    (hfuel : text.length ≤ fuel) (fault : Option Fault) :
    manyWithin p fuel ⟨text, fault⟩ = (xs, ⟨rest, fault⟩) := by
  induction h generalizing fuel with
  | nil hrefuses =>
      cases fuel with
      | zero => rfl
      | succ fuel => rw [Parser.manyWithin, hrefuses fault]
  | cons hreads hshorter _ ih =>
      cases fuel with
      | zero => omega
      | succ fuel =>
          have hothers := @ih fuel (by omega)
          rw [Parser.manyWithin, hreads fault]
          simp only [hothers]

theorem ReadsAll.many {xs : List α} (h : ReadsAll p text xs rest) :
    Reads (many p) text xs rest := by
  intro fault
  rw [Parser.many, h.manyWithin (Nat.le_refl _)]

theorem ReadsAll.many1 {xs : List α} (h : ReadsAll p text (x :: xs) rest) :
    Reads (many1 p) text (x :: xs) rest := by
  cases h with
  | cons hreads _ hothers => exact hreads.bind (hothers.many.bind (reads_pure _ _))

theorem exists_of_manyWithin_cons {fuel : Nat} {cursor next : Cursor} {xs : List α}
    (h : manyWithin p fuel cursor = (x :: xs, next)) :
    ∃ fuel middle, p cursor = some (x, middle) ∧ manyWithin p fuel middle = (xs, next) := by
  cases fuel with
  | zero => cases h
  | succ fuel =>
      rw [manyWithin] at h
      rcases hx : p cursor with _ | ⟨y, middle⟩
      · rw [hx] at h
        cases h
      · rw [hx] at h
        simp only [Prod.mk.injEq, List.cons.injEq] at h
        obtain ⟨⟨rfl, hxs⟩, hnext⟩ := h
        exact ⟨fuel, middle, rfl, Prod.ext hxs hnext⟩

theorem exists_of_many1 {cursor next : Cursor} {xs : List α}
    (h : Parser.many1 p cursor = some (xs, next)) :
    ∃ fuel, manyWithin p fuel cursor = (xs, next) := by
  obtain ⟨first, middle, hfirst, hothers⟩ := exists_of_bind h
  obtain ⟨others, last, hmany, hpure⟩ := exists_of_bind hothers
  cases hpure
  refine ⟨middle.rest.length + 1, ?_⟩
  rw [manyWithin, hfirst]
  simp only [Option.some.inj hmany]

/-! ### What is read without a fault -/

/-- If the reader ends without a fault, then there was none before, and what it gives
has the property. -/
def Ensures (p : Parser α) (P : α → Prop) : Prop :=
  ∀ cursor x next, p cursor = some (x, next) → next.fault = none →
    cursor.fault = none ∧ P x

variable {P : α → Prop} {Q : β → Prop}

theorem Ensures.mono (h : Ensures p P) {P' : α → Prop} (hP : ∀ x, P x → P' x) :
    Ensures p P' :=
  fun cursor x next hread hfault => (h cursor x next hread hfault).imp_right (hP x)

theorem ensures_pure (h : P x) : Ensures (pure x) P := by
  rintro cursor y next ⟨rfl⟩ hfault
  exact ⟨hfault, h⟩

/-- What the second reader ensures may depend on what the first one has ensured. -/
theorem Ensures.bind (h : Ensures p P) {q : α → Parser β}
    (h' : ∀ x, Ensures (q x) fun y => P x → Q y) : Ensures (p >>= q) Q := by
  intro cursor y next hread hfault
  obtain ⟨x, middle, hx, hy⟩ := exists_of_bind hread
  obtain ⟨hmiddle, hQ⟩ := h' x middle y next hy hfault
  obtain ⟨hcursor, hP⟩ := h cursor x middle hx hmiddle
  exact ⟨hcursor, hQ hP⟩

theorem Ensures.map (h : Ensures p P) {f : α → β} (hf : ∀ x, P x → Q (f x)) :
    Ensures (f <$> p) Q := by
  intro cursor y next hread hfault
  rw [map_apply] at hread
  rcases hp : p cursor with _ | ⟨x, middle⟩
  · simp [hp] at hread
  · rw [hp, Option.map_some] at hread
    cases hread
    exact (h cursor x _ hp hfault).imp_right (hf x)

theorem Ensures.orElse {q : Parser α} (h : Ensures p P) (h' : Ensures q P) :
    Ensures (orElse p q) P := by
  intro cursor x next hread hfault
  rw [Parser.orElse] at hread
  rcases hp : p cursor with _ | found
  · rw [hp] at hread
    exact h' cursor x next hread hfault
  · rw [hp] at hread
    exact h cursor x next (hp.trans hread) hfault

theorem ensures_fail : Ensures (fail : Parser α) P := by
  intro cursor x next hread
  cases hread

theorem ensures_raise (fault : Fault) {P : Unit → Prop} : Ensures (raise fault) P := by
  intro cursor x next hread hfault
  cases hread
  cases hcursor : cursor.fault <;> simp [hcursor] at hfault

theorem Ensures.optional (h : Ensures p P) : Ensures (optional p) fun o => ∀ x ∈ o, P x := by
  intro cursor o next hread hfault
  rw [Parser.optional] at hread
  rcases hp : p cursor with _ | ⟨x, middle⟩
  · rw [hp] at hread
    cases hread
    exact ⟨hfault, by simp⟩
  · rw [hp] at hread
    cases hread
    exact (h cursor x _ hp hfault).imp_right (by simp)

theorem Ensures.orEmpty {p : Parser (List α)} (h : Ensures p fun xs => ∀ x ∈ xs, P x) :
    Ensures (orEmpty p) fun xs => ∀ x ∈ xs, P x := by
  refine h.optional.bind fun o => ensures_pure fun ho => ?_
  cases o with
  | none => simp
  | some xs => exact ho xs rfl

theorem Ensures.manyWithin (h : Ensures p P) (fuel : Nat) (cursor : Cursor)
    (hfault : (manyWithin p fuel cursor).2.fault = none) :
    cursor.fault = none ∧ ∀ x ∈ (manyWithin p fuel cursor).1, P x := by
  induction fuel generalizing cursor with
  | zero => exact ⟨hfault, by simp [Parser.manyWithin]⟩
  | succ fuel ih =>
      rw [Parser.manyWithin] at hfault ⊢
      rcases hp : p cursor with _ | ⟨x, middle⟩
      · rw [hp] at hfault
        exact ⟨hfault, by simp⟩
      · rw [hp] at hfault
        obtain ⟨hmiddle, hothers⟩ := ih middle hfault
        obtain ⟨hcursor, hx⟩ := h cursor x middle hp hmiddle
        exact ⟨hcursor, by simpa [hx] using hothers⟩

theorem Ensures.many (h : Ensures p P) : Ensures (many p) fun xs => ∀ x ∈ xs, P x := by
  intro cursor xs next hread hfault
  have heq : Parser.manyWithin p cursor.rest.length cursor = (xs, next) :=
    Option.some.inj hread
  have hwithin := h.manyWithin cursor.rest.length cursor (by rw [heq]; exact hfault)
  rwa [heq] at hwithin

theorem Ensures.many1 (h : Ensures p P) :
    Ensures (many1 p) fun xs => xs ≠ [] ∧ ∀ x ∈ xs, P x := by
  refine h.bind fun first => h.many.bind fun others => ensures_pure fun hothers hfirst => ?_
  exact ⟨by simp, by simpa [hfirst] using hothers⟩

/-! ### What is read back -/

/-- On this text, the reader gives back the value without a fault exactly if the condition
holds, and then this is the rest. -/
structure Rereads (p : Parser α) (text : List Char) (x : α) (rest : List Char) (R : Prop) :
    Prop where
  reads : R → Reads p text x rest
  recovers : ∀ next, p ⟨text, none⟩ = some (x, next) → next.fault = none → R ∧ next.rest = rest

section Rereads

variable {R S T : Prop} {y : β} {q : α → Parser β}

theorem Rereads.congr (h : Rereads p text x rest R) (hRS : R ↔ S) : Rereads p text x rest S :=
  ⟨fun hS => h.reads (hRS.2 hS),
    fun next hread hfault => (h.recovers next hread hfault).imp_left hRS.1⟩

theorem Reads.rereads (h : Reads p text x rest) : Rereads p text x rest True := by
  refine ⟨fun _ => h, fun next hread _ => ?_⟩
  rw [h none] at hread
  cases hread
  exact ⟨trivial, rfl⟩

theorem Refuses.rereads (h : Refuses p text) : Rereads p text x rest False := by
  refine ⟨False.elim, fun next hread _ => ?_⟩
  rw [h none] at hread
  cases hread

/-- A reader that gives only other values does not give back this one. -/
theorem Ensures.rereads (h : Ensures p P) (hx : ¬ P x) : Rereads p text x rest False :=
  ⟨False.elim, fun next hread hfault => absurd (h _ x next hread hfault).2 hx⟩

theorem Reads.rereads_bind (h : Reads p text x rest') (h' : Rereads (q x) rest' y rest R) :
    Rereads (p >>= q) text y rest R := by
  refine ⟨fun hR => h.bind (h'.reads hR), fun next hread hfault => ?_⟩
  rw [bind_apply, h none] at hread
  exact h'.recovers next hread hfault

/-- What the second reader gives must show what the first one has given. -/
theorem Rereads.bind (h : Rereads p text x rest' R)
    (hq : ∀ x', Ensures (q x') fun y' => y' = y → x' = x)
    (h' : Rereads (q x) rest' y rest S) : Rereads (p >>= q) text y rest (R ∧ S) := by
  refine ⟨fun hRS => (h.reads hRS.1).bind (h'.reads hRS.2), fun next hread hfault => ?_⟩
  obtain ⟨x', middle, hp, hy⟩ := exists_of_bind hread
  obtain ⟨hmiddle, hx⟩ := hq x' middle y next hy hfault
  obtain rfl := hx rfl
  obtain ⟨hR, hrest⟩ := h.recovers middle hp hmiddle
  obtain ⟨_, _⟩ := middle
  cases hmiddle
  cases hrest
  exact (h'.recovers next hy hfault).imp_left fun hS => ⟨hR, hS⟩

/-- The last part of a construct. -/
theorem Rereads.bind_pure (h : Rereads p text x rest R) {f : α → β}
    (hf : ∀ x', f x' = f x → x' = x) :
    Rereads (p >>= fun x' => pure (f x')) text (f x) rest R :=
  (h.bind (fun x' => ensures_pure (hf x')) (reads_pure (f x) rest).rereads).congr (by rw [and_true])

theorem Rereads.map {f : α → β} (h : Rereads p text x rest R) (hf : Function.Injective f) :
    Rereads (f <$> p) text (f x) rest R := by
  refine ⟨fun hR => (h.reads hR).map f, fun next hread hfault => ?_⟩
  rw [map_apply] at hread
  rcases hp : p ⟨text, none⟩ with _ | ⟨x', middle⟩
  · simp [hp] at hread
  · rw [hp, Option.map_some, Option.some.injEq, Prod.mk.injEq] at hread
    obtain ⟨hx, rfl⟩ := hread
    obtain rfl := hf hx
    exact h.recovers _ hp hfault

/-- The second alternative must not give back the value. -/
theorem Rereads.orElse (h : Rereads p text x rest R) {p' : Parser α}
    (h' : Rereads p' text x rest False) : Rereads (orElse p p') text x rest R := by
  refine ⟨fun hR => (h.reads hR).orElse p', fun next hread hfault => ?_⟩
  rw [Parser.orElse] at hread
  rcases hp : p ⟨text, none⟩ with _ | found
  · rw [hp] at hread
    exact (h'.recovers next hread hfault).1.elim
  · rw [hp] at hread
    exact h.recovers next (hp.trans hread) hfault

theorem Refuses.orElse_rereads {p' : Parser α} (h : Refuses p text)
    (h' : Rereads p' text x rest R) : Rereads (Parser.orElse p p') text x rest R := by
  refine ⟨fun hR => h.orElse (h'.reads hR), fun next hread hfault => ?_⟩
  rw [Parser.orElse, h none] at hread
  exact h'.recovers next hread hfault

theorem Rereads.optional (h : Rereads p text x rest R) :
    Rereads (optional p) text (some x) rest R := by
  refine ⟨fun hR => (h.reads hR).optional, fun next hread hfault => ?_⟩
  rw [Parser.optional] at hread
  rcases hp : p ⟨text, none⟩ with _ | ⟨x', middle⟩
  · simp [hp] at hread
  · rw [hp] at hread
    cases hread
    exact h.recovers _ hp hfault

theorem Rereads.orEmpty {p : Parser (List α)} {xs : List α} (hne : xs ≠ [])
    (h : Rereads p text xs rest R) : Rereads (orEmpty p) text xs rest R := by
  refine h.optional.bind_pure fun o heq => ?_
  cases o with
  | none => exact absurd heq.symm hne
  | some xs' => exact congrArg some heq

/-- On this text, the reader gives back the values one after the other and then does not
match, exactly if the condition holds. -/
inductive RereadsAll (p : Parser α) : List Char → List α → List Char → Prop → Prop
  | nil {text : List Char} {R : Prop} (refuses : Refuses p text) (condition : R) :
      RereadsAll p text [] text R
  | cons {text rest rest' : List Char} {x : α} {xs : List α} {R S T : Prop}
      (rereads : Rereads p text x rest R) (shorter : rest.length < text.length)
      (others : RereadsAll p rest xs rest' S) (condition : R ∧ S ↔ T) :
      RereadsAll p text (x :: xs) rest' T

theorem RereadsAll.readsAll {xs : List α} (h : RereadsAll p text xs rest R) (hR : R) :
    ReadsAll p text xs rest := by
  induction h with
  | nil hrefuses _ => exact .nil hrefuses
  | cons hx hshorter _ hcondition ih =>
      obtain ⟨hfirst, hothers⟩ := hcondition.2 hR
      exact .cons (hx.reads hfirst) hshorter (ih hothers)

theorem RereadsAll.recovers {xs : List α} (h : RereadsAll p text xs rest R) (hp : Ensures p P)
    {fuel : Nat} {next : Cursor} (hread : manyWithin p fuel ⟨text, none⟩ = (xs, next))
    (hfault : next.fault = none) : R ∧ next.rest = rest := by
  induction h generalizing fuel with
  | @nil text R hrefuses hR =>
      have hnext : manyWithin p fuel ⟨text, none⟩ = ([], ⟨text, none⟩) := by
        cases fuel with
        | zero => rfl
        | succ fuel => rw [manyWithin, hrefuses none]
      rw [hnext] at hread
      cases hread
      exact ⟨hR, rfl⟩
  | cons hx _ _ hcondition ih =>
      obtain ⟨fuel, middle, hfirst, hothers⟩ := exists_of_manyWithin_cons hread
      have hmiddle := (hp.manyWithin fuel middle (by rw [hothers]; exact hfault)).1
      obtain ⟨hR, hrest⟩ := hx.recovers middle hfirst hmiddle
      obtain ⟨_, _⟩ := middle
      cases hmiddle
      cases hrest
      exact (ih hothers).imp_left fun hS => hcondition.1 ⟨hR, hS⟩

theorem RereadsAll.many {xs : List α} (h : RereadsAll p text xs rest R) (hp : Ensures p P) :
    Rereads (many p) text xs rest R :=
  ⟨fun hR => (h.readsAll hR).many,
    fun _ hread hfault => h.recovers hp (Option.some.inj hread) hfault⟩

theorem RereadsAll.many1 {xs : List α} (h : RereadsAll p text xs rest R) (hne : xs ≠ [])
    (hp : Ensures p P) : Rereads (many1 p) text xs rest R := by
  cases h with
  | nil => exact absurd rfl hne
  | cons hx _ hothers hcondition =>
      exact (hx.bind
        (fun x' => hp.many.bind fun _ => ensures_pure fun _ heq => (List.cons.inj heq).1)
        ((hothers.many hp).bind_pure fun _ heq => (List.cons.inj heq).2)).congr hcondition

end Rereads

end Parser

end QueryCache
