import QueryCache.Client.Journal
import QueryCache.Json.Parser

/-!
# Envelopes

A request travels as a JSON object with the query, the variables if there are
any, and the name of the operation if there is one: `Request.body`. A response is
an object with the data and a list of errors, each with a message; either may
also be an array that lists the parts in this order. `Envelope.ofBytes?` reads
one. Other members are skipped without a look at what they hold.

The other end of the line reads a request with `Request.ofBytes?`, by the same
rules. How many containers may nest in it is up to the reader.
-/

namespace QueryCache

namespace Request

/-- The members of a request in the order in which they are sent. -/
def members (request : Request) : List (String × Json) :=
  [("query", .string request.query)] ++
    (if request.vars.isEmpty then [] else [("variables", .object request.vars)]) ++
    (match request.operationName with
      | some name => [("operationName", .string name)]
      | none => [])

/-- The text of a request. -/
def body (request : Request) : String := (Json.object request.members).text

end Request

/-- What a response says. -/
structure Envelope where
  data : Option Json
  errors : List String

namespace Envelope

/-- How many containers may nest in the data. -/
def dataNesting : Nat := JsonText.nestingLimit - 1

/-- The data; null is none. -/
def dataOf? : JsonText → Option (Option Json)
  | .null => some none
  | tree => (tree.valueWithin? dataNesting).map some

/-- The trees of the members with a name. -/
def membersNamed (name : String) (members : List (Option String × JsonText)) :
    List JsonText :=
  (members.filter fun member => member.1 == some name).map Prod.snd

/-- Every member has a name. -/
def allNamed (members : List (Option String × JsonText)) : Bool :=
  members.all fun member => member.1.isSome

/-- The message of an error. -/
def messageOf? : JsonText → Option String
  | .object members =>
    match allNamed members, membersNamed "message" members with
    | true, [.string text] => text
    | _, _ => none
  | .array [.string text] => text
  | _ => none

/-- The messages of a list of errors. -/
def errorsOf? : JsonText → Option (List String)
  | .array items => items.mapM messageOf?
  | _ => none

/-- Reads a part that may be missing, but not be there twice. -/
def part? {α : Type} (read : JsonText → Option α) (default : α) :
    List JsonText → Option α
  | [] => some default
  | [tree] => read tree
  | _ => none

/-- The envelope with a syntax tree. -/
def ofTree? : JsonText → Option Envelope
  | .object members =>
    if allNamed members then do
      let data ← part? dataOf? none (membersNamed "data" members)
      let errors ← part? errorsOf? [] (membersNamed "errors" members)
      return ⟨data, errors⟩
    else none
  | .array items =>
    if items.length ≤ 2 then do
      let data ← part? dataOf? none (items.take 1)
      let errors ← part? errorsOf? [] (items.drop 1)
      return ⟨data, errors⟩
    else none
  | _ => none

/-- The envelope in some bytes. -/
def ofBytes? (bytes : ByteArray) : Option Envelope := do
  ofTree? (← JsonText.ofBytes? bytes)

/-- The data of a response. Any error makes the whole response fail. -/
def result (envelope : Envelope) : Except Failure Json :=
  if envelope.errors.isEmpty then
    match envelope.data with
    | some data => .ok data
    | none => .error (.transport "Response carried no data")
  else .error (.transport ("; ".intercalate envelope.errors))

end Envelope

namespace Request

open Envelope (allNamed membersNamed part?)

/-- The text of a query. -/
def queryOf? : JsonText → Option String
  | .string text => text
  | _ => none

/-- The variables, an object in which at most `depth` containers nest with itself. -/
def varsOf? (depth : Nat) (tree : JsonText) : Option Variables :=
  match tree.valueWithin? depth with
  | some (.object vars) => some vars
  | _ => none

/-- The name of an operation; null is none. -/
def operationNameOf? : JsonText → Option (Option String)
  | .null => some none
  | .string name => name.map some
  | _ => none

/-- Reads the parts of a request. The query may not be missing. -/
def ofParts? (depth : Nat) (query vars operationName : List JsonText) : Option Request := do
  let query ← match query with
    | [tree] => queryOf? tree
    | _ => none
  let vars ← part? (varsOf? depth) [] vars
  let operationName ← part? operationNameOf? none operationName
  return ⟨query, vars, operationName⟩

/-- The request with a syntax tree in which at most `depth` containers nest. -/
def ofTreeWithin? : Nat → JsonText → Option Request
  | depth + 1, .object members =>
    if allNamed members then
      ofParts? depth (membersNamed "query" members) (membersNamed "variables" members)
        (membersNamed "operationName" members)
    else none
  | depth + 1, .array items =>
    if items.length ≤ 3 then
      ofParts? depth (items.take 1) ((items.drop 1).take 1) (items.drop 2)
    else none
  | _, _ => none

/-- The request in some bytes, in which at most `depth` containers nest. -/
def ofBytes? (depth : Nat) (bytes : ByteArray) : Option Request := do
  ofTreeWithin? depth (← JsonText.ofBytes? bytes)

end Request

end QueryCache
