import QueryCache.Failure
import QueryCache.Settings.Basic
import QueryCache.Toml.Parser

/-!
# Settings as TOML

`Settings.ofToml?` reads settings from a text. A setting that is missing has its
standard value, and unknown names are passed over. `Settings.toml?` writes them,
one setting a line in a fixed order, with the headers as a table at the end. A
depth that does not fit a signed 64 bit integer cannot be written.
-/

namespace QueryCache

namespace Settings

/-! ### Reading -/

/-- The string that a value is. -/
def stringOf? : Toml → Option String
  | .string s => some s
  | _ => none

/-- The strings in a list. -/
def stringsOf? : Toml → Option (List String)
  | .array items => items.mapM stringOf?
  | _ => none

/-- The natural number that a value is. -/
def naturalOf? : Toml → Option Nat
  | .integer n => if 0 ≤ n then some n.toNat else none
  | _ => none

/-- The name under which a date or a time counts as a table of strings. -/
def momentName : String := "$__toml_private_datetime"

/-- The strings in a table. -/
def headersOf? : Toml → Option (Table String String)
  | .table _ entries =>
    entries.mapM fun (name, value) => (stringOf? value).map (name, ·)
  | .moment m => some [(momentName, m.text)]
  | _ => none

/-- The value of a setting in a table. -/
def setting? {α : Type} (table : TomlTable) (name : String) (read : Toml → Option α)
    (default : α) : Option α :=
  match Table.get? table name with
  | some value => read value
  | none => some default

/-- The settings in a table. -/
def ofTable? (table : TomlTable) : Option Settings := do
  return {
    endpoint := ← setting? table "endpoint" (fun value => (stringOf? value).map some)
      standard.endpoint
    localDirective := ← setting? table "local_directive" stringOf? standard.localDirective
    typenameField := ← setting? table "typename_field" stringOf? standard.typenameField
    idField := ← setting? table "id_field" stringOf? standard.idField
    injectFields := ← setting? table "inject_fields" stringsOf? standard.injectFields
    maxInvalidationDepth := ← setting? table "max_invalidation_depth" naturalOf?
      standard.maxInvalidationDepth
    headers := ← setting? table "headers" headersOf? standard.headers }

/-- The settings that a text states. They are not checked. -/
def ofToml? (text : String) : Except Failure Settings :=
  match (TomlTable.ofText? text).bind ofTable? with
  | some settings => .ok settings
  | none => .error (.settings "Toml deserialization error")

/-! ### Writing -/

/-- A line that gives a value to a name. -/
def entryText (name content : List Char) : List Char :=
  name ++ " = ".toList ++ content ++ ['\n']

/-- A line with a string. -/
def stringEntry (name value : String) : List Char :=
  entryText name.toList (Quoted.text value)

/-- Strings with commas between them. -/
def itemsText : List String → List Char
  | [] => []
  | [s] => Quoted.text s
  | s :: rest => Quoted.text s ++ ", ".toList ++ itemsText rest

/-- The lines of a table of strings. -/
def headersText (headers : Table String String) : List Char :=
  headers.flatMap fun (name, value) => entryText (Quoted.nameText name) (Quoted.text value)

/-- The largest depth that can be written. -/
def maxWritten : Nat := 9223372036854775807

/-- The characters of the written form. -/
def tomlChars (settings : Settings) : List Char :=
  (match settings.endpoint with
    | some endpoint => stringEntry "endpoint" endpoint
    | none => []) ++
  stringEntry "local_directive" settings.localDirective ++
  stringEntry "typename_field" settings.typenameField ++
  stringEntry "id_field" settings.idField ++
  entryText "inject_fields".toList ('[' :: itemsText settings.injectFields ++ [']']) ++
  entryText "max_invalidation_depth".toList
    (Nat.toDigits 10 settings.maxInvalidationDepth) ++
  "\n[headers]\n".toList ++
  headersText settings.headers

/-- The written form. -/
def toml? (settings : Settings) : Except Failure String :=
  if settings.maxInvalidationDepth ≤ maxWritten then
    .ok (String.ofList settings.tomlChars)
  else
    .error (.encoding "Toml serialization error")

end Settings

end QueryCache
