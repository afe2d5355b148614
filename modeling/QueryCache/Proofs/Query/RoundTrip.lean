import QueryCache.Proofs.Query.Definitions
import QueryCache.Proofs.Query.Injective

/-!
# Reading a written document

The text of a document that was read is read as the same document exactly if its operations and
fragments are legible: `Document.reads_back_iff`. The names of definitions are distinct, so no
definition of the document can have been read in the place of another one.
-/

namespace QueryCache

open QueryCache.Parser

/-- All definitions of the document are legible. -/
structure Document.Legible (d : Document) : Prop where
  operations : ∀ op ∈ d.operations, op.Legible
  fragments : ∀ fragment ∈ d.fragments, fragment.Legible

namespace Document

variable {d d' : Document}

/-! ### Putting definitions together again -/

theorem addOperation_of_compatible {op : Operation}
    (h : ∀ other ∈ d.operations, other.Compatible op) :
    d.addOperation op = .ok { d with operations := d.operations ++ [op] } := by
  rw [addOperation]
  cases hname : op.name with
  | none =>
      have hnil : d.operations = [] :=
        List.eq_nil_iff_forall_not_mem.2 fun other hmem => (h other hmem).2.1 hname
      simp [hnil]
  | some name =>
      have hanonymous : (d.operations.any fun other => other.name.isNone) = false :=
        List.any_eq_false.2 fun other hmem => by simpa using (h other hmem).1
      have hother : (d.operations.any fun other => other.name == some name) = false :=
        List.any_eq_false.2 fun other hmem => by
          simpa [hname] using (h other hmem).2.2
      simp [hanonymous, hother]

theorem addFragment_of_distinct {fragment : Fragment}
    (h : ∀ other ∈ d.fragments, other.name ≠ fragment.name) :
    d.addFragment fragment = .ok { d with fragments := d.fragments ++ [fragment] } := by
  have hother : (d.fragments.any fun other => other.name == fragment.name) = false :=
    List.any_eq_false.2 fun other hmem => by simpa using h other hmem
  rw [addFragment, hother]
  rfl

theorem foldlM_operations {ops : List Operation}
    (h : (d.operations ++ ops).Pairwise Operation.Compatible) :
    (ops.map Definition.operation).foldlM addDefinition d =
      .ok { d with operations := d.operations ++ ops } := by
  induction ops generalizing d with
  | nil => simp; rfl
  | cons op ops ih =>
      have hcompatible : ∀ other ∈ d.operations, other.Compatible op := fun other hmem =>
        (List.pairwise_append.1 h).2.2 other hmem op List.mem_cons_self
      rw [List.map_cons, List.foldlM_cons, addDefinition, addOperation_of_compatible hcompatible]
      have hih := @ih { d with operations := d.operations ++ [op] } (by simpa using h)
      rw [List.append_assoc] at hih
      exact hih

theorem foldlM_fragments {fragments : List Fragment}
    (h : (d.fragments ++ fragments).Pairwise fun a b => a.name ≠ b.name) :
    (fragments.map Definition.fragment).foldlM addDefinition d =
      .ok { d with fragments := d.fragments ++ fragments } := by
  induction fragments generalizing d with
  | nil => simp; rfl
  | cons fragment fragments ih =>
      have hdistinct : ∀ other ∈ d.fragments, other.name ≠ fragment.name := fun other hmem =>
        (List.pairwise_append.1 h).2.2 other hmem fragment List.mem_cons_self
      rw [List.map_cons, List.foldlM_cons, addDefinition, addFragment_of_distinct hdistinct]
      have hih := @ih { d with fragments := d.fragments ++ [fragment] } (by simpa using h)
      rw [List.append_assoc] at hih
      exact hih

theorem legible_iff : d.Legible ↔ ∀ definition ∈ d.definitions, definition.Legible := by
  simp only [definitions, List.mem_append, List.mem_map]
  constructor
  · rintro ⟨hoperations, hfragments⟩ _ (⟨op, hop, rfl⟩ | ⟨f, hf, rfl⟩)
    · exact hoperations op hop
    · exact hfragments f hf
  · intro h
    exact ⟨fun op hop => h _ (.inl ⟨op, hop, rfl⟩), fun f hf => h _ (.inr ⟨f, hf, rfl⟩)⟩

theorem perm_addDefinition {definition : Definition} (h : d.addDefinition definition = .ok d') :
    d'.definitions.Perm (d.definitions ++ [definition]) := by
  cases definition with
  | operation op =>
      obtain ⟨rfl, -⟩ := addOperation_eq_ok h
      simp only [definitions, List.map_append, List.map_singleton, List.append_assoc]
      exact List.Perm.append_left _ List.perm_append_comm
  | fragment f =>
      obtain ⟨rfl, -⟩ := addFragment_eq_ok h
      simp [definitions]

theorem perm_foldlM {found : List Definition} (h : found.foldlM addDefinition d = .ok d') :
    d'.definitions.Perm (d.definitions ++ found) := by
  induction found generalizing d with
  | nil =>
      cases h
      simp
  | cons definition found ih =>
      obtain ⟨next, hadd, hrest⟩ := exists_of_foldlM_cons h
      have happend := (perm_addDefinition hadd).append_right found
      rw [List.append_assoc] at happend
      exact (ih hrest).trans happend

/-- A document holds the definitions it was put together from. -/
theorem perm_ofDefinitions {found : List Definition} (h : ofDefinitions found = .ok d) :
    d.definitions.Perm found := by
  obtain ⟨d', hfold, -, rfl⟩ := ofDefinitions_eq_ok h
  have hsorted : d'.sorted.definitions.Perm d'.definitions :=
    ((List.mergeSort_perm _ _).map _).append ((List.mergeSort_perm _ _).map _)
  exact hsorted.trans (perm_foldlM hfold)

theorem Distinct.eq_of_key (h : d.Distinct) {a b : Definition} (ha : a ∈ d.definitions)
    (hb : b ∈ d.definitions) (hkey : b.key = a.key) : b = a := by
  simp only [definitions, List.mem_append, List.mem_map] at ha hb
  rcases ha with ⟨op, hop, rfl⟩ | ⟨f, hf, rfl⟩ <;> rcases hb with ⟨op', hop', rfl⟩ | ⟨f', hf', rfl⟩
  · by_contra hne
    have hsymm : Std.Symm Operation.Compatible := ⟨fun _ _ => Compatible.symm⟩
    exact (h.operations.forall hop' hop fun heq => hne (congrArg _ heq)).2.2 (Sum.inl.inj hkey)
  · cases hkey
  · cases hkey
  · by_contra hne
    have hsymm : Std.Symm fun f f' : Fragment => f.name ≠ f'.name := ⟨fun _ _ => Ne.symm⟩
    exact h.fragments.forall hf' hf (fun heq => hne (congrArg _ heq)) (Sum.inr.inj hkey)

/-- Definitions under distinct names are put together again, and sorted. -/
theorem ofDefinitions_of_distinct (hne : d.operations ≠ []) (h : d.Distinct) :
    ofDefinitions d.definitions = .ok d.sorted := by
  have hoperations : (d.operations.map Definition.operation).foldlM addDefinition empty =
      .ok ⟨d.operations, []⟩ := foldlM_operations h.operations
  have hfragments : (d.fragments.map Definition.fragment).foldlM addDefinition
      ⟨d.operations, []⟩ = .ok d := foldlM_fragments h.fragments
  have hfold : d.definitions.foldlM addDefinition empty = .ok d := by
    rw [definitions, List.foldlM_append, hoperations]
    exact hfragments
  have hnonempty : d.operations.isEmpty = false := by simpa using hne
  rw [ofDefinitions, hfold]
  change (if d.operations.isEmpty then _ else _) = _
  rw [hnonempty]
  rfl

/-- A sorted document is put together again from its definitions. -/
theorem ofDefinitions_definitions (h : d.WellFormed) : ofDefinitions d.definitions = .ok d := by
  rw [ofDefinitions_of_distinct h.nonempty h.distinct, h.sorted]

/-- Legible definitions are read back, in the order in which they are written. -/
theorem ofText?_text_eq_ofDefinitions (hne : d.definitions ≠ [])
    (h : ∀ definition ∈ d.definitions, definition.WellFormed) (hl : d.Legible) :
    ofText? d.text = ofDefinitions d.definitions := by
  have hskip := skip_paragraphs hne h
  obtain ⟨rest, hall, hend⟩ := readsAll_paragraphs h (legible_iff.1 hl) hskip
  have hends : Reads endOfText rest () rest := fun _ => by rw [endOfText, hend]; rfl
  have hread : Reads Parser.definitions d.chars d.definitions rest := by
    obtain ⟨first, others, hfirst⟩ := List.exists_cons_of_ne_nil hne
    rw [chars_eq]
    rw [hfirst] at hall ⊢
    exact hall.many1.bind (hends.bind (reads_pure _ _))
  unfold ofText?
  rw [text, String.toList_ofList, hread none]

/-- A legible document is read back from its text. -/
theorem ofText?_text (h : d.WellFormed) (hl : d.Legible) : ofText? d.text = .ok d := by
  rw [ofText?_text_eq_ofDefinitions h.definitions_ne_nil h.definition hl]
  exact ofDefinitions_definitions h

theorem legible_of_ofText?_text (h : d.WellFormed) (hread : ofText? d.text = .ok d) :
    d.Legible := by
  obtain ⟨found, cursor, hfound, hfault, hd⟩ := ofText?_eq_ok hread
  have hperm := perm_ofDefinitions hd
  rw [text, String.toList_ofList, chars_eq] at hfound
  obtain ⟨found', next, hmany1, hend⟩ := exists_of_bind hfound
  obtain ⟨_, last, hlast, hpure⟩ := exists_of_bind hend
  cases hpure
  have hnext := (ensures_endOfText next () cursor hlast hfault).1
  obtain ⟨fuel, hmany⟩ := exists_of_many1 hmany1
  exact legible_iff.2 <| legible_of_manyWithin h.definition
    (fun a ha b hb => h.distinct.eq_of_key ha (hperm.mem_iff.2 hb)) hperm.length_eq.symm
    (skip_paragraphs h.definitions_ne_nil h.definition) hmany hnext

/-- What was read from a text is read from its own text again, and so is written in the same way
again, exactly if it is legible. -/
theorem reads_back_iff {text : String} (h : ofText? text = .ok d) :
    (ofText? d.text = .ok d ↔ d.Legible) ∧
      ((ofText? d.text).map Document.text = .ok d.text ↔ d.Legible) := by
  have hd := wellFormed_ofText? h
  have hiff : ofText? d.text = .ok d ↔ d.Legible :=
    ⟨legible_of_ofText?_text hd, ofText?_text hd⟩
  refine ⟨hiff, Iff.trans ⟨fun hprinted => ?_, fun hread => by rw [hread]; rfl⟩ hiff⟩
  cases hread : ofText? d.text with
  | error fault =>
      rw [hread] at hprinted
      cases hprinted
  | ok d' =>
      rw [hread] at hprinted
      rw [text_injective (wellFormed_ofText? hread) hd (Except.ok.inj hprinted)]

/-- A default value that was read behind directives is written before them, and then it is not
read. -/
theorem not_read_back_of_default_and_directive :
    ∃ d, ofText? "query Q($a: Int @d = 3) \x7b x \x7d" = .ok d ∧
      ofText? d.text = .error .grammar := by
  refine ⟨⟨[⟨.query, some "Q", [⟨"a", "Int", some "3", [⟨"d", []⟩]⟩], [],
    [.field (.leaf "x") none]⟩], []⟩, ?_, ?_⟩
  · decide +kernel
  · decide +kernel

/-- A query with a default value of one variable and a directive of another. -/
def pageQuery : Document :=
  ⟨[⟨.query, some "Page", [⟨"size", "Int", some "20", []⟩, ⟨"after", "ID", none, [⟨"live", []⟩]⟩],
    [], [.field ⟨none, "page", [⟨"size", "$size"⟩], []⟩ (some [.spread "on" []])]⟩],
    [⟨"on", "Page", [], [.field (.leaf "id") none]⟩]⟩

/-- No field comes after the spread of the fragment named `on`, so the query is read back. -/
theorem reads_back_pageQuery :
    ofText? ("query Page($size: Int = 20, $after: ID @live) " ++
        "\x7b page(size: $size) \x7b ...on \x7d \x7d fragment on on Page \x7b id \x7d") =
      .ok pageQuery ∧
    pageQuery.Legible ∧
    ((ofText? pageQuery.text = .ok pageQuery ↔ pageQuery.Legible) ∧
      ((ofText? pageQuery.text).map Document.text = .ok pageQuery.text ↔ pageQuery.Legible)) := by
  have hread : ofText? ("query Page($size: Int = 20, $after: ID @live) " ++
      "\x7b page(size: $size) \x7b ...on \x7d \x7d fragment on on Page \x7b id \x7d") =
      .ok pageQuery := by
    decide +kernel
  have hagain : ofText? pageQuery.text = .ok pageQuery := by
    decide +kernel
  have hiff := reads_back_iff hread
  exact ⟨hread, hiff.1.1 hagain, hiff⟩

end Document

end QueryCache
