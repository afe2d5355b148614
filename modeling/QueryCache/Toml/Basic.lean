import QueryCache.Toml.Moment

/-!
# TOML documents

`TomlTree` is the syntax tree of a value, in which a table is still the list of
its entries as they are written, each under a key of one or more names.
`TomlLine` is a line of a document. `Toml` is a value whose tables have been put
together; every table remembers how it came about, because that decides where
it may be extended further on.
-/

namespace QueryCache

/-- A key: the names of the tables that lead to an entry, and the name of the
entry. -/
structure TomlKey where
  path : List String
  name : String
deriving DecidableEq

/-- The syntax tree of a value. -/
inductive TomlTree where
  | string (value : String)
  | integer (value : Int)
  /-- A number with a fraction or an exponent, of which only the kind matters. -/
  | float
  | bool (value : Bool)
  | moment (value : Moment)
  | array (items : List TomlTree)
  | table (entries : List (TomlKey × TomlTree))

/-- A line of a document that says something. -/
inductive TomlLine where
  | entry (key : TomlKey) (value : TomlTree)
  /-- The entries that follow belong to this table. -/
  | header (key : TomlKey)
  /-- The entries that follow belong to a new last table of this list. -/
  | item (key : TomlKey)

/-- How a table came about. -/
inductive TableOrigin where
  /-- A header names the table, or it is the whole document. -/
  | header
  /-- The table is written as a value. -/
  | literal
  /-- The table lies on the way to one that a header names. -/
  | implied
  /-- The table lies on the way to an entry. -/
  | dotted
deriving DecidableEq

/-- A value. Tables are lists of entries with increasing names. -/
inductive Toml where
  | string (value : String)
  | integer (value : Int)
  | float
  | bool (value : Bool)
  | moment (value : Moment)
  | array (items : List Toml)
  | table (origin : TableOrigin) (entries : List (String × Toml))
  /-- A list of tables that headers fill. -/
  | tables (items : List (List (String × Toml)))

end QueryCache
