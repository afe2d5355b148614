import QueryCache.Proofs.Toml.Documents
import QueryCache.Settings.File

/-!
# Saved settings are loaded again

`Settings.document` is the document that the written form of settings is: the settings as
entries, and the headers as a table at the end. So `Settings.ofTable?_document` finds every
setting in the table that is read, and `Settings.load_of_save` says that loading undoes
saving, for all settings that hold together and whatever characters their strings have.
-/

namespace QueryCache

namespace Settings

/-! ### Arrays of strings -/

theorem itemsText_cons (s : String) (strings : List String) :
    itemsText (s :: strings) = Quoted.text s ++ TomlScanner.otherItems strings := by
  induction strings generalizing s with
  | nil => simp [itemsText, TomlScanner.otherItems]
  | cons t strings ih =>
      rw [itemsText, ih]
      · simp [TomlScanner.otherItems]
      · simp

theorem values?_strings (strings : List String) :
    TomlTree.values? (strings.map .string) = some (strings.map .string) := by
  induction strings with
  | nil => rfl
  | cons s strings ih => simp [TomlTree.values?, TomlTree.value?, ih]

theorem mapM_stringOf? (strings : List String) :
    (strings.map Toml.string).mapM stringOf? = some strings := by
  induction strings with
  | nil => rfl
  | cons s strings ih => simp [stringOf?, ih]

/-- An array of strings. -/
def stringsContent (strings : List String) : TomlContent where
  value := .array (strings.map .string)
  chars := '[' :: itemsText strings ++ [']']
  tree := .array (strings.map .string)
  reads rest := by
    cases strings with
    | nil => exact TomlScanner.reads_noStrings (TomlScanner.nestingLimit - 1) _
    | cons s strings =>
        have htext : '[' :: itemsText (s :: strings) ++ [']'] ++ '\n' :: rest =
            '[' :: (Quoted.text s ++ (TomlScanner.otherItems strings ++ ']' :: '\n' :: rest)) := by
          simp [itemsText_cons]
        rw [htext]
        exact TomlScanner.reads_strings s strings (TomlScanner.nestingLimit - 1) _
  value?_tree := by rw [TomlTree.value?, values?_strings]; rfl

/-! ### The document of settings -/

/-- The written form as a document. -/
def document (settings : Settings) (hpos : settings.maxInvalidationDepth ≠ 0)
    (hbound : settings.maxInvalidationDepth ≤ maxWritten) : TomlDocument where
  entries :=
    (settings.endpoint.map fun endpoint =>
      ⟨.bare "endpoint" rfl, .string endpoint⟩).toList ++
    [⟨.bare "local_directive" rfl, .string settings.localDirective⟩,
      ⟨.bare "typename_field" rfl, .string settings.typenameField⟩,
      ⟨.bare "id_field" rfl, .string settings.idField⟩,
      ⟨.bare "inject_fields" rfl, stringsContent settings.injectFields⟩,
      ⟨.bare "max_invalidation_depth" rfl,
        .natural settings.maxInvalidationDepth hpos (Nat.lt_succ_of_le hbound)⟩]
  title := .bare "headers" rfl
  inner := settings.headers.map fun (name, value) => ⟨.spelled name, .string value⟩

variable {settings : Settings} (hpos : settings.maxInvalidationDepth ≠ 0)
  (hbound : settings.maxInvalidationDepth ≤ maxWritten)

theorem chars_document : (settings.document hpos hbound).chars = settings.tomlChars := by
  obtain ⟨endpoint, _, _, _, _, _, headers⟩ := settings
  have hheaders : headersText headers =
      (headers.map fun (name, value) => (⟨.spelled name, .string value⟩ : TomlEntry)).flatMap
        TomlEntry.chars := by
    rw [List.flatMap_map]
    rfl
  rw [TomlDocument.chars, document, tomlChars, hheaders]
  cases endpoint <;>
    simp [TomlEntry.chars, TomlName.bare, TomlName.header, TomlContent.string,
      TomlContent.natural, stringsContent, stringEntry, entryText]

/-- The headers as entries of a table. -/
def headerPairs (headers : Table String String) : TomlTable :=
  headers.map fun (name, value) => (name, .string value)

theorem pairs_inner_document :
    (settings.document hpos hbound).inner.map TomlEntry.pair = headerPairs settings.headers := by
  rw [document, List.map_map]
  rfl

theorem sorted_headerPairs {headers : Table String String} (h : Table.Sorted headers) :
    Table.Sorted (headerPairs headers) :=
  List.pairwise_map.2 h

theorem headersOf?_headerPairs (origin : TableOrigin) (headers : Table String String) :
    headersOf? (.table origin (headerPairs headers)) = some headers := by
  rw [headersOf?, headerPairs]
  induction headers with
  | nil => rfl
  | cons header headers ih =>
      rw [List.map_cons, List.mapM_cons, ih]
      rfl

theorem distinct_document (hsorted : Table.Sorted settings.headers) :
    (settings.document hpos hbound).Distinct where
  outer := by
    have hnames : ["headers", "endpoint", "local_directive", "typename_field", "id_field",
        "inject_fields", "max_invalidation_depth"].Nodup := by decide
    obtain ⟨endpoint, _⟩ := settings
    cases endpoint with
    | none => exact hnames.sublist (.cons_cons _ (.cons _ (List.Sublist.refl _)))
    | some endpoint => exact hnames
  inner := by
    rw [pairs_inner_document]
    exact Table.nodup_keys_of_sorted (sorted_headerPairs hsorted)

theorem pairs_entries_document :
    (settings.document hpos hbound).entries.map TomlEntry.pair =
      (settings.endpoint.map fun endpoint => ("endpoint", .string endpoint)).toList ++
      [("local_directive", .string settings.localDirective),
        ("typename_field", .string settings.typenameField), ("id_field", .string settings.idField),
        ("inject_fields", .array (settings.injectFields.map .string)),
        ("max_invalidation_depth", .integer settings.maxInvalidationDepth)] := by
  obtain ⟨endpoint, _⟩ := settings
  cases endpoint <;> rfl

theorem ofTable?_document (hsorted : Table.Sorted settings.headers) :
    ofTable? (settings.document hpos hbound).table = some settings := by
  have hget : ∀ name, name ≠ "headers" →
      Table.get? (settings.document hpos hbound).table name =
        Table.get? ((settings.document hpos hbound).entries.map TomlEntry.pair) name :=
    fun name hne => TomlDocument.get?_table_of_ne (distinct_document hpos hbound hsorted) hne
  have hheaders : Table.get? (settings.document hpos hbound).table "headers" =
      some (.table .header (headerPairs settings.headers)) := by
    have htitle := (settings.document hpos hbound).get?_table_title
    rw [pairs_inner_document, Table.insertAll_of_sorted (sorted_headerPairs hsorted)] at htitle
    exact htitle
  have hinject : stringsOf? (.array (settings.injectFields.map .string)) =
      some settings.injectFields := mapM_stringOf? _
  have hdepth : naturalOf? (.integer settings.maxInvalidationDepth) =
      some settings.maxInvalidationDepth := by simp [naturalOf?]
  have hheadersOf := headersOf?_headerPairs .header settings.headers
  -- Every setting is looked up among the entries; only the endpoint may be missing.
  rw [pairs_entries_document] at hget
  simp only [ofTable?, setting?, hheaders, hheadersOf, hget "endpoint" (by decide),
    hget "local_directive" (by decide), hget "typename_field" (by decide),
    hget "id_field" (by decide), hget "inject_fields" (by decide),
    hget "max_invalidation_depth" (by decide)]
  obtain ⟨endpoint, _⟩ := settings
  cases endpoint with
  | none => simp [Table.get?_cons, stringOf?, hinject, hdepth, standard]
  | some endpoint => simp [Table.get?_cons, stringOf?, hinject, hdepth]

/-! ### Saving and loading -/

theorem ne_zero_of_check (h : settings.check = .ok ()) : settings.maxInvalidationDepth ≠ 0 := by
  intro hzero
  rw [check] at h
  split_ifs at h

/-- Checked settings are read back from their written form. -/
theorem parse_of_toml? {text : String} (hsorted : Table.Sorted settings.headers)
    (hcheck : settings.check = .ok ()) (htext : settings.toml? = .ok text) :
    parse text = .ok settings := by
  rw [toml?] at htext
  split_ifs at htext with hbound
  cases htext
  have hpos := ne_zero_of_check hcheck
  have hread := TomlDocument.ofText?_chars (distinct_document hpos hbound hsorted)
  rw [chars_document] at hread
  have hsettings : ofToml? (String.ofList settings.tomlChars) = .ok settings := by
    rw [ofToml?, hread, Option.bind_some, ofTable?_document hpos hbound hsorted]
  rw [parse, hsettings]
  simp [hcheck, bind, Except.bind, pure, Except.pure]

theorem load_of_save {place place' : FilePlace} (hsorted : Table.Sorted settings.headers)
    (hcheck : settings.check = .ok ()) (hsave : settings.save place = .ok place') :
    load place' = .ok settings := by
  obtain ⟨text, htext, hwrite⟩ := exists_of_bind_eq_ok hsave
  rw [FilePlace.write] at hwrite
  split_ifs at hwrite
  cases hwrite
  exact parse_of_toml? hsorted hcheck htext

/-- Settings whose strings call for different spellings. -/
def unruly : Settings where
  endpoint := some "http://[::1]:4000/graphql"
  localDirective := "the \"local\" one"
  typenameField := "it's a \"type\"\nname"
  idField := "\\ '''\x07"
  injectFields := ["", "é\t\"\"\"", "'''\n\"\"\"\\"]
  maxInvalidationDepth := maxWritten
  headers := [("", "a\r\n"), ("x \"y\" 'z'", "\x7f"), ("x-token", "\\")]

theorem load_of_save_unruly :
    Table.Sorted unruly.headers ∧ unruly.check = .ok () ∧
      unruly.save ⟨true, none⟩ = .ok ⟨true, some (String.ofList unruly.tomlChars)⟩ ∧
      load ⟨true, some (String.ofList unruly.tomlChars)⟩ = .ok unruly := by
  have hsorted : Table.Sorted unruly.headers := by
    rw [Table.Sorted, unruly]
    decide
  have hcheck : unruly.check = .ok () := by decide +kernel
  have hsave : unruly.save ⟨true, none⟩ =
      .ok ⟨true, some (String.ofList unruly.tomlChars)⟩ := rfl
  exact ⟨hsorted, hcheck, hsave, load_of_save hsorted hcheck hsave⟩

end Settings

end QueryCache
