import QueryCache.Proofs.Table.Lookup
import QueryCache.Proofs.Toml.Values

/-!
# Written documents are read back

A `TomlName` and a `TomlContent` come with the way in which they are written and the proof
that they are read back, and a `TomlEntry` is a line with both of them.
`TomlDocument.ofText?_chars` says which table a document stands for that begins with
entries and ends with one other table: every name leads to its value, provided that no name
occurs twice in a table.
-/

namespace QueryCache

open Scanner

/-! ### Entries -/

/-- A name as it is written. -/
structure TomlName where
  name : String
  chars : List Char
  reads : ∀ rest : List Char, (∀ c ∈ rest.head?, Quoted.isBare c = false) →
    Reads Quoted.readName (chars ++ rest) name rest

/-- A value as it is written at the end of a line. -/
structure TomlContent where
  value : Toml
  chars : List Char
  tree : TomlTree
  reads : ∀ rest : List Char, Reads (TomlScanner.value TomlScanner.nestingLimit)
    (chars ++ '\n' :: rest) tree ('\n' :: rest)
  value?_tree : tree.value? = some value

namespace TomlName

/-- A name that stands for itself. -/
def bare (name : String)
    (hbare : (!name.toList.isEmpty && name.toList.all Quoted.isBare) = true) : TomlName where
  name := name
  chars := name.toList
  reads rest hrest := by
    have hread := Quoted.reads_bareName hbare hrest
    rwa [String.ofList_toList] at hread

/-- A name in the spelling that suits it. -/
def spelled (name : String) : TomlName where
  name := name
  chars := Quoted.nameText name
  reads _ hrest := Quoted.reads_nameText name hrest

theorem reads_space (name : TomlName) (rest : List Char) :
    Reads Quoted.readName (name.chars ++ ' ' :: rest) name.name (' ' :: rest) :=
  name.reads _ (by simp [Quoted.isBare])

/-- The header of the table with this name. -/
def header (title : TomlName) : List Char := '[' :: title.chars ++ [']', '\n']

theorem header_append (title : TomlName) (rest : List Char) :
    title.header ++ rest = '[' :: (title.chars ++ ']' :: '\n' :: rest) := by
  simp [header]

end TomlName

namespace TomlContent

/-- A string. -/
def string (s : String) : TomlContent where
  value := .string s
  chars := Quoted.text s
  tree := .string s
  reads rest := TomlScanner.reads_string s (by simp [Quoted.Ends]) _
  value?_tree := rfl

/-- A positive number. -/
def natural (n : Nat) (hpos : n ≠ 0) (hbound : n < TomlScanner.integerBound) : TomlContent where
  value := .integer n
  chars := Nat.toDigits 10 n
  tree := .integer n
  reads rest := TomlScanner.reads_natural hpos hbound rest _
  value?_tree := rfl

end TomlContent

/-- An entry as it is written. -/
structure TomlEntry where
  name : TomlName
  content : TomlContent

namespace TomlEntry

/-- The line of an entry. -/
def chars (entry : TomlEntry) : List Char :=
  entry.name.chars ++ " = ".toList ++ entry.content.chars ++ ['\n']

theorem chars_append (entry : TomlEntry) (rest : List Char) :
    entry.chars ++ rest =
      entry.name.chars ++ ' ' :: '=' :: ' ' :: (entry.content.chars ++ '\n' :: rest) := by
  simp [chars]

/-- What the line of an entry says. -/
def line (entry : TomlEntry) : TomlLine := .entry ⟨[], entry.name.name⟩ entry.content.tree

/-- The entry of the table. -/
def pair (entry : TomlEntry) : String × Toml := (entry.name.name, entry.content.value)

end TomlEntry

namespace TomlScanner

variable {text rest rest' : List Char} {name : String}

/-! ### Keys -/

/-- A single name is a key. -/
theorem reads_key (h : Reads Quoted.readName text name rest)
    (hblanks : Reads Quoted.blanks rest () rest') (hrest : ∀ c ∈ rest'.head?, c ≠ '.') :
    Reads key text ⟨[], name⟩ rest' := by
  have hpart : Reads (do Quoted.blanks; let name ← Quoted.readName; Quoted.blanks; return name)
      text name rest' :=
    (Quoted.reads_blanks_of h (fun _ => rfl) fun _ => rfl).bind
      (h.bind (hblanks.bind (reads_pure _ _)))
  exact (ReadsAll.separated hpart (.nil ((refuses_exactly_cons hrest []).bind _))).bind
    (reads_pure _ _)

/-! ### Lines -/

/-- A line of a document with the blanks in front of it. -/
def spacedLine : Scanner (Option TomlLine) := do
  Quoted.blanks
  line

theorem document_eq :
    document = do
      let _ ← Scanner.optional (satisfy (· == '\ufeff'))
      let lines ← many spacedLine
      Quoted.blanks
      return lines.filterMap id := rfl

theorem takes_empty : Takes spacedLine ['\n'] none := ⟨List.cons_ne_nil _ _, fun _ => rfl⟩

theorem refuses_emptyLine (hnewline : ∀ c ∈ text.head?, c ≠ '\n' ∧ c ≠ '\r')
    (hremark : ∀ c ∈ text.head?, c ≠ '#') : Refuses emptyLine text := by
  have hcomment : Refuses comment text := (refuses_exactly_cons hremark []).bind _
  exact ((Quoted.refuses_newline hnewline).orElse_refuses (hcomment.bind _)).bind _

theorem takes_header (title : TomlName) :
    Takes spacedLine title.header (some (.header ⟨[], title.name⟩)) := by
  refine ⟨List.cons_ne_nil _ _, fun rest => ?_⟩
  rw [title.header_append]
  have hname := title.reads (']' :: '\n' :: rest) (by simp [Quoted.isBare])
  have hkey : Reads key _ ⟨[], title.name⟩ (']' :: '\n' :: rest) :=
    reads_key hname rfl (by simp)
  have hhead : ∀ c ∈ (title.chars ++ ']' :: '\n' :: rest).head?, c ≠ '[' :=
    hname.head_ne fun _ => rfl
  have hbrackets : Refuses (exactly ['[', '['])
      ('[' :: (title.chars ++ ']' :: '\n' :: rest)) := by
    rw [exactly_cons]
    exact (reads_satisfy rfl _).refuses_bind (refuses_exactly_cons hhead [])
  have hheader : Reads headerLine ('[' :: (title.chars ++ _)) (.header ⟨[], title.name⟩) rest :=
    (reads_exactly ['['] _).bind (hkey.bind ((reads_exactly [']'] _).bind
      (Reads.bind rfl (reads_pure _ _))))
  have hblanks : Reads Quoted.blanks ('[' :: (title.chars ++ ']' :: '\n' :: rest)) () _ :=
    Quoted.reads_blanks_nil (by simp [Quoted.isBlank])
  exact hblanks.bind (Refuses.firstOf (refuses_emptyLine (by simp) (by simp))
    (Refuses.firstOf ((hbrackets.bind _).map some) ((hheader.map some).firstOf _)))

theorem takes_entry (entry : TomlEntry) :
    Takes spacedLine entry.chars (some entry.line) := by
  refine ⟨by simp [TomlEntry.chars], fun rest => ?_⟩
  rw [entry.chars_append]
  obtain ⟨name, content⟩ := entry
  have hname := name.reads_space ('=' :: ' ' :: (content.chars ++ '\n' :: rest))
  have hcontent := content.reads rest
  -- The line begins as a name does, so it is of no other kind.
  have hempty : Refuses emptyLine _ := refuses_emptyLine
    (fun c hc => ⟨hname.head_ne (d := '\n') (fun _ => rfl) c hc,
      hname.head_ne (d := '\r') (fun _ => rfl) c hc⟩)
    (hname.head_ne fun _ => rfl)
  have hbracket : ∀ others, Refuses (exactly ('[' :: others)) _ :=
    refuses_exactly_cons (hname.head_ne fun _ => rfl)
  have hkey : Reads key _ ⟨[], name.name⟩ ('=' :: ' ' :: (content.chars ++ '\n' :: rest)) :=
    reads_key hname rfl (by simp)
  have hblanks : Reads Quoted.blanks (' ' :: (content.chars ++ '\n' :: rest)) ()
      (content.chars ++ '\n' :: rest) :=
    Quoted.reads_blanks_space (Quoted.reads_blanks_of hcontent (fun _ => rfl) fun _ => rfl)
  have hentry : Reads entryLine _ (TomlEntry.line ⟨name, content⟩) rest :=
    hkey.bind ((reads_exactly ['='] _).bind (hblanks.bind (hcontent.bind
      (Reads.bind rfl (reads_pure _ _)))))
  exact (Quoted.reads_blanks_of hname (fun _ => rfl) fun _ => rfl).bind
    (Refuses.firstOf hempty (Refuses.firstOf (((hbracket ['[']).bind _).map some)
      (Refuses.firstOf (((hbracket []).bind _).map some) ((hentry.map some).firstOf _))))

end TomlScanner

/-- A document that begins with entries and ends with one other table. -/
structure TomlDocument where
  entries : List TomlEntry
  title : TomlName
  inner : List TomlEntry

namespace TomlDocument

/-- The text of a document. -/
def chars (document : TomlDocument) : List Char :=
  document.entries.flatMap TomlEntry.chars ++ '\n' :: document.title.header ++
    document.inner.flatMap TomlEntry.chars

/-- The lines of a document that say something. -/
def lines (document : TomlDocument) : List TomlLine :=
  document.entries.map TomlEntry.line ++ .header ⟨[], document.title.name⟩ ::
    document.inner.map TomlEntry.line

/-- No byte order mark stands in front. -/
theorem refuses_mark (document : TomlDocument) :
    Refuses (satisfy (· == '\ufeff')) document.chars := by
  refine refuses_satisfy fun c hc => beq_false_of_ne ?_
  obtain ⟨entries, title, inner⟩ := document
  cases entries with
  | nil =>
      obtain rfl : c = '\n' := (Option.some.inj hc).symm
      decide
  | cons entry entries =>
      rw [chars, List.flatMap_cons, List.append_assoc, List.append_assoc, entry.chars_append] at hc
      exact (entry.name.reads_space _).head_ne (d := '\ufeff') (fun _ => rfl) c hc

theorem reads_chars (document : TomlDocument) :
    Reads TomlScanner.document document.chars document.lines [] := by
  have hinner : ReadsAll TomlScanner.spacedLine (document.inner.flatMap TomlEntry.chars)
      (document.inner.map fun entry => some entry.line) [] := by
    have hend : ReadsAll TomlScanner.spacedLine [] [] [] := .nil rfl
    simpa using hend.flatMap fun entry (_ : entry ∈ document.inner) =>
      TomlScanner.takes_entry entry
  have hmiddle := TomlScanner.takes_empty.cons
    ((TomlScanner.takes_header document.title).cons hinner)
  have hlines := hmiddle.flatMap fun entry (_ : entry ∈ document.entries) =>
    TomlScanner.takes_entry entry
  have hchars : document.chars = document.entries.flatMap TomlEntry.chars ++ (['\n'] ++
      (document.title.header ++ document.inner.flatMap TomlEntry.chars)) := by
    simp [chars]
  rw [TomlScanner.document_eq]
  refine document.refuses_mark.optional.bind ?_
  rw [hchars]
  refine hlines.many.bind (Reads.bind rfl ?_)
  have hsaid : List.filterMap id (document.entries.map (fun entry => some entry.line) ++
      none :: some (.header ⟨[], document.title.name⟩) ::
        document.inner.map fun entry => some entry.line) = document.lines := by
    simp [lines, List.filterMap_map]
  exact hsaid ▸ reads_pure _ _

end TomlDocument

namespace TomlTable

/-! ### Putting the tables together -/

section Draft

variable {name title : String} {tree : TomlTree} {value : Toml} {root inner : TomlTable}

theorem read?_entry (hvalue : tree.value? = some value) (hfresh : Table.get? root name = none) :
    Draft.read? ⟨root, []⟩ (.entry ⟨[], name⟩ tree) =
      some ⟨Table.insert root name value, []⟩ := by
  simp [Draft.read?, hvalue, change?, add?, give?, Table.contains, hfresh]

theorem read?_header (hfresh : Table.get? root title = none) :
    Draft.read? ⟨root, []⟩ (.header ⟨[], title⟩) =
      some ⟨Table.insert root title (.table .header []), [title]⟩ := by
  simp [Draft.read?, openTable?, change?, hfresh]

theorem read?_entry_under (root : TomlTable) (title : String) (hvalue : tree.value? = some value)
    (hfresh : Table.get? inner name = none) :
    Draft.read? ⟨Table.insert root title (.table .header inner), [title]⟩
        (.entry ⟨[], name⟩ tree) =
      some ⟨Table.insert root title (.table .header (Table.insert inner name value)), [title]⟩ := by
  simp [Draft.read?, hvalue, change?, add?, give?, Table.contains, hfresh, Reach.passes,
    Table.insert_insert_self]

end Draft

variable {root inner : TomlTable} {entries : List TomlEntry}

/-- The names of entries, none of which has a value yet. -/
structure Fresh (entries : List TomlEntry) (filled : TomlTable) : Prop where
  nodup : (Table.keys (entries.map TomlEntry.pair)).Nodup
  fresh : ∀ name ∈ Table.keys (entries.map TomlEntry.pair), Table.get? filled name = none

theorem fresh_nil (h : (Table.keys (entries.map TomlEntry.pair)).Nodup) : Fresh entries [] :=
  ⟨h, fun _ _ => rfl⟩

theorem Fresh.cons {entry : TomlEntry} (h : Fresh (entry :: entries) root) :
    Table.get? root entry.name.name = none ∧
      Fresh entries (Table.insert root entry.name.name entry.content.value) := by
  obtain ⟨hnotMem, hnodup⟩ := List.nodup_cons.1 h.nodup
  obtain ⟨hentry, hothers⟩ := List.forall_mem_cons.1 h.fresh
  refine ⟨hentry, hnodup, fun name hname => ?_⟩
  have hne : name ≠ entry.name.name := by
    rintro rfl
    exact hnotMem hname
  rw [Table.get?_insert_of_ne _ _ hne]
  exact hothers name hname

theorem foldlM_entries (h : Fresh entries root) :
    (entries.map TomlEntry.line).foldlM Draft.read? ⟨root, []⟩ =
      some ⟨Table.insertAll root (entries.map TomlEntry.pair), []⟩ := by
  induction entries generalizing root with
  | nil => rfl
  | cons entry entries ih =>
      obtain ⟨hfresh, hothers⟩ := h.cons
      have hentry := read?_entry entry.content.value?_tree hfresh
      rw [List.map_cons, List.foldlM_cons, TomlEntry.line, hentry]
      exact ih hothers

theorem foldlM_entries_under (root : TomlTable) (title : String) (h : Fresh entries inner) :
    (entries.map TomlEntry.line).foldlM Draft.read?
        ⟨Table.insert root title (.table .header inner), [title]⟩ =
      some ⟨Table.insert root title
        (.table .header (Table.insertAll inner (entries.map TomlEntry.pair))), [title]⟩ := by
  induction entries generalizing inner with
  | nil => rfl
  | cons entry entries ih =>
      obtain ⟨hfresh, hothers⟩ := h.cons
      have hentry := read?_entry_under root title entry.content.value?_tree hfresh
      rw [List.map_cons, List.foldlM_cons, TomlEntry.line, hentry]
      exact ih hothers

end TomlTable

namespace TomlDocument

/-- The table of a document. -/
def table (document : TomlDocument) : TomlTable :=
  Table.insert (Table.insertAll [] (document.entries.map TomlEntry.pair)) document.title.name
    (.table .header (Table.insertAll [] (document.inner.map TomlEntry.pair)))

/-- No name occurs twice in a table. -/
structure Distinct (document : TomlDocument) : Prop where
  outer : (document.title.name :: Table.keys (document.entries.map TomlEntry.pair)).Nodup
  inner : (Table.keys (document.inner.map TomlEntry.pair)).Nodup

theorem ofLines?_lines {document : TomlDocument} (h : document.Distinct) :
    TomlTable.ofLines? document.lines = some document.table := by
  obtain ⟨htitle, hentries⟩ := List.nodup_cons.1 h.outer
  have houter := TomlTable.foldlM_entries (TomlTable.fresh_nil hentries)
  have hinner := TomlTable.foldlM_entries_under
    (Table.insertAll [] (document.entries.map TomlEntry.pair)) document.title.name
    (TomlTable.fresh_nil h.inner)
  have hfresh : Table.get? (Table.insertAll [] (document.entries.map TomlEntry.pair))
      document.title.name = none := by
    rw [Table.get?_insertAll _ hentries, Table.get?_eq_none_iff.2 htitle]
    rfl
  rw [TomlTable.ofLines?, lines, List.foldlM_append, houter, Option.bind_eq_bind,
    Option.bind_some, List.foldlM_cons, TomlTable.read?_header hfresh, Option.bind_eq_bind,
    Option.bind_some, hinner]
  rfl

theorem get?_table_title (document : TomlDocument) :
    Table.get? document.table document.title.name =
      some (.table .header (Table.insertAll [] (document.inner.map TomlEntry.pair))) :=
  Table.get?_insert_self _ _ _

theorem get?_table_of_ne {document : TomlDocument} (h : document.Distinct) {name : String}
    (hne : name ≠ document.title.name) :
    Table.get? document.table name = Table.get? (document.entries.map TomlEntry.pair) name := by
  rw [table, Table.get?_insert_of_ne _ _ hne, Table.get?_insertAll _ (List.nodup_cons.1 h.outer).2,
    Table.get?_nil, Option.or_none]

/-- A document is read back as its table. -/
theorem ofText?_chars {document : TomlDocument} (h : document.Distinct) :
    TomlTable.ofText? (String.ofList document.chars) = some document.table := by
  rw [TomlTable.ofText?, String.toList_ofList, Scanner.all?,
    show TomlScanner.document document.chars = some (document.lines, []) from
      document.reads_chars]
  exact ofLines?_lines h

end TomlDocument

end QueryCache
