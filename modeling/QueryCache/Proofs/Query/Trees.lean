import QueryCache.Proofs.Query.Key
import QueryCache.Proofs.Query.RoundTrip

/-!
# The keys of trees

A query that is given as a tree is keyed as the tree stands, a query that is given as a text
as it is read, with its definitions in their order. `QueryKey.ofQuery_tree_iff` says when the
two ways lead to one key: the text of the tree has to be the text of a document that is read
back. If the definitions of the tree are well-formed, this means that the tree lists them in
their order and that they are legible. Trees with the same definitions in different orders
have different keys.
-/

namespace QueryCache

namespace Document

variable {d d' t t' : Document}

/-! ### The order of definitions -/

/-- Operations and fragments are collected in the order in which they come. -/
theorem eq_of_foldlM {found : List Definition} (h : found.foldlM addDefinition d = .ok d') :
    d' = ⟨d.operations ++ found.filterMap Definition.operation?,
      d.fragments ++ found.filterMap Definition.fragment?⟩ := by
  induction found generalizing d with
  | nil =>
      cases h
      simp
  | cons definition found ih =>
      obtain ⟨next, hadd, hrest⟩ := exists_of_foldlM_cons h
      rw [ih hrest]
      cases definition with
      | operation op =>
          obtain ⟨rfl, -⟩ := addOperation_eq_ok hadd
          simp [List.filterMap_cons, Definition.operation?, Definition.fragment?]
      | fragment f =>
          obtain ⟨rfl, -⟩ := addFragment_eq_ok hadd
          simp [List.filterMap_cons, Definition.operation?, Definition.fragment?]

/-- A document that is put together again is sorted, and otherwise the same. -/
theorem eq_sorted_of_ofDefinitions (h : ofDefinitions t.definitions = .ok d) :
    d = t.sorted := by
  obtain ⟨found, hfold, -, rfl⟩ := ofDefinitions_eq_ok h
  rw [eq_of_foldlM hfold, filterMap_operation?_definitions, filterMap_fragment?_definitions]
  simp [empty]

/-! ### Texts of trees -/

theorem text_of_definitions_eq_nil (h : t.definitions = []) : t.text = "" := by
  rw [text, chars_eq, h]
  rfl

/-- There is nothing to read in an empty text. -/
theorem definitions_ne_nil_of_ofText? (h : ofText? t.text = .ok d) : t.definitions ≠ [] := by
  intro hnil
  have hempty : ofText? "" = .error .grammar := by decide +kernel
  rw [text_of_definitions_eq_nil hnil, hempty] at h
  cases h

/-- A tree of legible definitions is read as the sorted tree. -/
theorem eq_sorted_of_ofText? (hread : ofText? t.text = .ok d)
    (ht : ∀ definition ∈ t.definitions, definition.WellFormed) (hl : t.Legible) :
    d = t.sorted := by
  rw [ofText?_text_eq_ofDefinitions (definitions_ne_nil_of_ofText? hread) ht hl] at hread
  exact eq_sorted_of_ofDefinitions hread

/-- If moreover the definitions are named apart, the text is read. -/
theorem ofText?_text_of_distinct (hne : t.operations ≠ [])
    (ht : ∀ definition ∈ t.definitions, definition.WellFormed) (hl : t.Legible)
    (hdistinct : t.Distinct) : ofText? t.text = .ok t.sorted := by
  have hdefinitions : t.definitions ≠ [] := by
    intro hnil
    exact hne (List.map_eq_nil_iff.1 (List.append_eq_nil_iff.1 hnil).1)
  rw [ofText?_text_eq_ofDefinitions hdefinitions ht hl]
  exact ofDefinitions_of_distinct hne hdistinct

/-- Trees of well-formed definitions are told apart by their texts. -/
theorem eq_of_text_eq (ht : ∀ definition ∈ t.definitions, definition.WellFormed)
    (ht' : ∀ definition ∈ t'.definitions, definition.WellFormed)
    (hne : t.definitions ≠ []) (hne' : t'.definitions ≠ []) (h : t.text = t'.text) :
    t = t' := by
  have hchars : t.chars = t'.chars := String.ofList_injective h
  have hend : paragraphs (t.definitions.map Definition.chars) ++ [] =
      paragraphs (t'.definitions.map Definition.chars) ++ [] := by
    rw [← chars_eq, ← chars_eq, hchars]
  exact definitions_injective
    (Definition.paragraphs_append_inj hne hne' ht ht' (by simp) (by simp) hend).1

/-- A tree and what its text is read as have one text exactly if a document has it that is
read back. -/
theorem text_eq_iff_of_ofText? (hread : ofText? t.text = .ok d) :
    t.text = d.text ↔ ∃ s : Document, s.WellFormed ∧ s.Legible ∧ s.text = t.text := by
  have hd := wellFormed_ofText? hread
  constructor
  · intro heq
    rw [heq] at hread
    exact ⟨d, hd, legible_of_ofText?_text hd hread, heq.symm⟩
  · rintro ⟨s, hs, hl, heq⟩
    rw [← heq, ofText?_text hs hl] at hread
    cases hread
    exact heq.symm

theorem text_eq_iff_sorted (hread : ofText? t.text = .ok d)
    (ht : ∀ definition ∈ t.definitions, definition.WellFormed) :
    t.text = d.text ↔ t.sorted = t ∧ t.Legible := by
  have hd := wellFormed_ofText? hread
  constructor
  · intro heq
    obtain rfl := eq_of_text_eq ht hd.definition (definitions_ne_nil_of_ofText? hread)
      hd.definitions_ne_nil heq
    exact ⟨hd.sorted, legible_of_ofText?_text hd hread⟩
  · rintro ⟨hsorted, hl⟩
    rw [eq_sorted_of_ofText? hread ht hl, hsorted]

end Document

namespace QueryKey

variable {t t' d : Document}

theorem ofQuery_eq_iff_text {vars : Variables} :
    ofQuery t vars = ofQuery d vars ↔ t.text = d.text := by
  constructor
  · intro heq
    have hchars : t.chars ++ variableSuffix vars = d.chars ++ variableSuffix vars := by
      rw [← toList_text_ofQuery, ← toList_text_ofQuery, heq]
    exact congrArg String.ofList (List.append_cancel_right hchars)
  · intro heq
    cases vars <;> simp only [ofQuery, heq]

/-- The key of a tree is that of its text exactly if the text is that of a document which is
read back. For well-formed definitions this is so exactly if the tree lists them in their
order and they are legible, and no other tree of such definitions has its key. -/
theorem ofQuery_tree_iff (hread : Document.ofText? t.text = .ok d) (vars : Variables) :
    (ofQuery t vars = ofQuery d vars ↔
      ∃ s : Document, s.WellFormed ∧ s.Legible ∧ s.text = t.text) ∧
    ((∀ definition ∈ t.definitions, definition.WellFormed) →
      (t.Legible → d = t.sorted) ∧
      (ofQuery t vars = ofQuery d vars ↔ t.sorted = t ∧ t.Legible) ∧
      ∀ t' : Document, (∀ definition ∈ t'.definitions, definition.WellFormed) →
        (ofQuery t vars = ofQuery t' vars ↔ t = t')) := by
  refine ⟨ofQuery_eq_iff_text.trans (Document.text_eq_iff_of_ofText? hread), fun ht =>
    ⟨Document.eq_sorted_of_ofText? hread ht,
      ofQuery_eq_iff_text.trans (Document.text_eq_iff_sorted hread ht), fun t' ht' => ?_⟩⟩
  rw [ofQuery_eq_iff_text]
  refine ⟨fun heq => ?_, congrArg Document.text⟩
  have hne' : t'.definitions ≠ [] := Document.definitions_ne_nil_of_ofText? (heq ▸ hread)
  exact Document.eq_of_text_eq ht ht' (Document.definitions_ne_nil_of_ofText? hread) hne' heq

/-- Queries for one field each, which they are named for. -/
def fieldQueries (names : List String) : Document :=
  ⟨names.map fun name => ⟨.query, some name, [], [], [.field (.leaf name) none]⟩, []⟩

/-- The two queries are read in their order, however the tree lists them. -/
theorem ofText?_fieldQueries :
    Document.ofText? (fieldQueries ["b", "a"]).text = .ok (fieldQueries ["a", "b"]) := by
  have hread : ∀ name ∈ ["b", "a"],
      Document.ofText? (fieldQueries [name]).text = .ok (fieldQueries [name]) := by
    decide +kernel
  have hwellFormed : ∀ name ∈ ["b", "a"], (fieldQueries [name]).WellFormed := fun name hname =>
    Document.wellFormed_ofText? (hread name hname)
  have hlegible : ∀ name ∈ ["b", "a"], (fieldQueries [name]).Legible := fun name hname =>
    Document.legible_of_ofText?_text (hwellFormed name hname) (hread name hname)
  have hsorted : (fieldQueries ["b", "a"]).sorted = fieldQueries ["a", "b"] := by
    simp [fieldQueries, Document.sorted, List.mergeSort,
      List.MergeSort.Internal.splitInTwo, Document.operationLe]
  have hoperation : ∀ op ∈ (fieldQueries ["b", "a"]).operations,
      op.WellFormed ∧ op.Legible := by
    intro op hop
    obtain ⟨name, hname, rfl⟩ := List.mem_map.1 hop
    exact ⟨(hwellFormed name hname).operations _ (List.mem_singleton_self _),
      (hlegible name hname).operations _ (List.mem_singleton_self _)⟩
  have hdefinition : ∀ definition ∈ (fieldQueries ["b", "a"]).definitions,
      definition.WellFormed := by
    intro definition hmem
    have hoperations := (List.mem_append.1 hmem).resolve_right List.not_mem_nil
    obtain ⟨op, hop, rfl⟩ := List.mem_map.1 hoperations
    exact .operation (hoperation op hop).1
  rw [← hsorted]
  refine Document.ofText?_text_of_distinct (by simp [fieldQueries]) hdefinition
    ⟨fun op hop => (hoperation op hop).2, by simp [fieldQueries]⟩ ⟨?_, by simp [fieldQueries]⟩
  simp [fieldQueries, Operation.Compatible]

/-- The tree does not have the key of the text, and no other order of the queries has its
key. -/
theorem ofQuery_tree_iff_fieldQueries :
    Document.ofText? (fieldQueries ["b", "a"]).text = .ok (fieldQueries ["a", "b"]) ∧
    (ofQuery (fieldQueries ["b", "a"]) [] = ofQuery (fieldQueries ["a", "b"]) [] ↔
      ∃ s : Document, s.WellFormed ∧ s.Legible ∧ s.text = (fieldQueries ["b", "a"]).text) ∧
    ((∀ definition ∈ (fieldQueries ["b", "a"]).definitions, definition.WellFormed) →
      ((fieldQueries ["b", "a"]).Legible →
        fieldQueries ["a", "b"] = (fieldQueries ["b", "a"]).sorted) ∧
      (ofQuery (fieldQueries ["b", "a"]) [] = ofQuery (fieldQueries ["a", "b"]) [] ↔
        (fieldQueries ["b", "a"]).sorted = fieldQueries ["b", "a"] ∧
          (fieldQueries ["b", "a"]).Legible) ∧
      ∀ t' : Document, (∀ definition ∈ t'.definitions, definition.WellFormed) →
        (ofQuery (fieldQueries ["b", "a"]) [] = ofQuery t' [] ↔
          fieldQueries ["b", "a"] = t')) :=
  ⟨ofText?_fieldQueries, ofQuery_tree_iff ofText?_fieldQueries []⟩

/-- The tree is keyed in the order in which it lists the queries, its text in theirs. -/
theorem ofQuery_ne_of_listed_backwards :
    ¬ ∀ (t d : Document) (vars : Variables), Document.ofText? t.text = .ok d →
      ofQuery t vars = ofQuery d vars := by
  intro hclaim
  have hne : ofQuery (fieldQueries ["b", "a"]) [] ≠ ofQuery (fieldQueries ["a", "b"]) [] := by
    decide +kernel
  exact hne (hclaim _ _ [] ofText?_fieldQueries)

end QueryKey

end QueryCache
