import QueryCache.Url.Domain
import QueryCache.Url.Path

/-!
# Reading URLs

`Url.ofText?` reads a URL that stands by itself. Blanks around it do not count,
nor do tabs and line ends in it. The five special schemes need a host, take any
number of slashes of either kind before it, and have a standard port; `file` URLs
may go without a host; in any other URL two slashes begin an authority. Every
part is brought into its written form.
-/

namespace QueryCache

namespace Url

/-! ### Schemes -/

/-- The standard ports of the special schemes. -/
def standardPorts : List (String × Nat) :=
  [("http", 80), ("https", 443), ("ws", 80), ("wss", 443), ("ftp", 21)]

/-- The kind of a scheme. -/
def schemeKind (scheme : String) : SchemeKind :=
  if scheme = "file" then .file
  else if (standardPorts.lookup scheme).isSome then .special
  else .other

/-- A character of a scheme after its first letter. -/
def isSchemeChar (c : Char) : Bool :=
  c.isAlphanum || c == '+' || c == '-' || c == '.'

/-- The scheme of a text in lower case, and what stands after the colon. -/
def scheme? (text : List Char) : Option (String × List Char) :=
  match text with
  | c :: _ =>
    match c.isAlpha, text.dropWhile isSchemeChar with
    | true, ':' :: rest =>
      some (String.ofList ((text.takeWhile isSchemeChar).map Char.toLower), rest)
    | _, _ => none
  | [] => none

/-- The text without what does not count around it. -/
def trimmed (text : String) : List Char :=
  ((text.toList.dropWhile (· ≤ ' ')).reverse.dropWhile (· ≤ ' ')).reverse

/-- A tab or a line end. -/
def isBreak (c : Char) : Bool := c == '\t' || c == '\n' || c == '\r'

/-- The text without tabs and line ends. -/
def withoutBreaks (text : List Char) : List Char := text.filter fun c => !isBreak c

/-- The text with one tab in place of the tabs and line ends after a colon, and
without all others. -/
def withSeams (isAfterColon : Bool) : List Char → List Char
  | [] => []
  | c :: rest =>
    if isBreak c then
      if isAfterColon then '\t' :: withSeams false rest else withSeams false rest
    else c :: withSeams (c == ':') rest

/-! ### Hosts -/

/-- The content of brackets, if a text begins with one. -/
def bracketed? (text : List Char) : Option (Option (List Char)) :=
  match text with
  | '[' :: rest =>
    match rest.reverse with
    | ']' :: content => some (some content.reverse)
    | _ => some none
  | _ => none

/-- The host between brackets. -/
def addressHost? : Option (List Char) → Except UrlFault Host
  | some content =>
    match Ipv6.ofText? content with
    | some address => .ok (.ipv6 address)
    | none => .error .invalidIpv6
  | none => .error .invalidIpv6

/-- A host that is a name or an address. -/
def host? (text : List Char) : Except UrlFault Host :=
  match bracketed? text with
  | some content => addressHost? content
  | none =>
    match (Percent.decode? text).bind Domain.canonical? with
    | none => .error .invalidHostName
    | some [] => .error .emptyHost
    | some name =>
      if Ipv4.isMeant name then
        match Ipv4.ofText? name with
        | some address => .ok (.ipv4 address)
        | none => .error .invalidIpv4
      else .ok (.name (String.ofList name))

/-- A character that cannot stand in a host of any kind. -/
def isForbidden (c : Char) : Bool :=
  "\x00\t\n\r #/:<>?@[\\]^|".toList.contains c

/-- A host of a scheme that knows nothing about hosts. -/
def foreignHost? (text : List Char) : Except UrlFault Host :=
  match bracketed? text with
  | some content => addressHost? content
  | none =>
    if text.any isForbidden then .error .invalidHostCharacter
    else .ok (.name (Percent.encode Percent.isControl text))

/-! ### Authorities -/

/-- The user name and the password in the text before an at sign. -/
def credentials (text : List Char) : String × String :=
  (Percent.encode Percent.inUserinfo (text.takeWhile (· != ':')),
    Percent.encode Percent.inUserinfo ((text.dropWhile (· != ':')).drop 1))

/-- The texts before and after the last at sign. -/
def atLastSign (text : List Char) : Option (List Char × List Char) :=
  if text.contains '@' then
    let reversed := text.reverse
    some (((reversed.dropWhile (· != '@')).drop 1).reverse,
      (reversed.takeWhile (· != '@')).reverse)
  else none

/-- The text up to the colon of a port, and the text from it on. A colon between
brackets is none. -/
def beforePort : Bool → List Char → List Char × List Char
  | _, [] => ([], [])
  | inBrackets, c :: rest =>
    if c = ':' ∧ !inBrackets then ([], c :: rest)
    else
      let inBrackets := if c = '[' then true else if c = ']' then false else inBrackets
      let (host, others) := beforePort inBrackets rest
      (c :: host, others)

/-- The largest port. -/
def maxPort : Nat := 65535

/-- The port after its colon, and the text after it. Not even one digit makes no
port. A backslash can follow. -/
def port? (text : List Char) : Except UrlFault (Option Nat × List Char) :=
  let digits := text.takeWhile Char.isDigit
  let rest := text.dropWhile Char.isDigit
  let port := Scanner.ofDigits 10 (digits.map fun c => c.toNat - '0'.toNat)
  if maxPort < port then .error .invalidPort
  else
    match rest with
    | [] => .ok (if digits.isEmpty then none else some port, [])
    | '\\' :: _ => .ok (if digits.isEmpty then none else some port, rest)
    | _ => .error .invalidPort

/-- An authority, and the text after its port. `after` is what follows it in the
URL. -/
def authority? (scheme : String) (text after : List Char) :
    Except UrlFault (Authority × List Char) := do
  let kind := schemeKind scheme
  let ((username, password), hostAndPort) ← match atLastSign text with
    | none => pure (("", ""), text)
    | some (before, hostAndPort) =>
      if before.isEmpty && hostAndPort.isEmpty && !after.isEmpty then throw .emptyHost
      else pure (credentials before, hostAndPort)
  let (hostText, portText) := beforePort false hostAndPort
  let host ←
    if kind = .special then
      if hostText.isEmpty then throw .emptyHost else host? hostText
    else foreignHost? hostText
  if host.isEmpty && !portText.isEmpty then throw .emptyHost
  let (port, rest) ← port? (portText.drop 1)
  if host.isEmpty && (username != "" || password != "") then throw .emptyHost
  let port := port.filter fun port => standardPorts.lookup scheme != some port
  return (⟨username, password, host, port⟩, rest)

/-! ### Whole URLs -/

/-- The end of a URL: a query and a fragment. -/
def queryAndFragment (kind : SchemeKind) (text : List Char) :
    Option String × Option String :=
  let mustEncode := if kind.isSpecial then Percent.inSpecialQuery else Percent.inQuery
  let fragment : List Char → Option String
    | '#' :: rest => some (Percent.encode Percent.inFragment rest)
    | _ => none
  match text with
  | '?' :: rest =>
    (some (Percent.encode mustEncode (rest.takeWhile (· != '#'))),
      fragment (rest.dropWhile (· != '#')))
  | _ => (none, fragment text)

/-- A character of a path. -/
def isPathChar (c : Char) : Bool := c != '?' && c != '#'

/-- A URL from its first parts and the text of the others. -/
def assemble (scheme : String) (authority : Option Authority)
    (path : List Char → UrlPath) (text : List Char) : Url :=
  let (query, fragment) :=
    queryAndFragment (schemeKind scheme) (withoutBreaks (text.dropWhile isPathChar))
  ⟨scheme, authority, path (text.takeWhile isPathChar), query, fragment⟩

/-- A path without the slash in front of it. -/
def withoutSlash (kind : SchemeKind) (text : List Char) : List Char :=
  match text with
  | c :: rest => if kind.isSlash c then rest else text
  | [] => []

/-- The path after an authority. Only a URL of another scheme can be without. -/
def pathAfterHost (kind : SchemeKind) (text : List Char) : UrlPath :=
  if kind = .other ∧ text = [] then .segments []
  else .segments (UrlPath.segmentsOf kind (withoutSlash kind text))

/-- A URL with an authority, from the text after the slashes. -/
def withAuthority? (scheme : String) (text : List Char) : Except UrlFault Url := do
  let kind := schemeKind scheme
  let inAuthority (c : Char) : Bool := !kind.isSlash c && isPathChar c
  let after := text.dropWhile inAuthority
  let (authority, rest) ← authority? scheme (text.takeWhile inAuthority) after
  return assemble scheme (some authority) (pathAfterHost kind) (rest ++ after)

/-- No host. -/
def noHost : Authority := ⟨"", "", .name "", none⟩

/-- The path of a `file` URL without a host. -/
def localPath (text : List Char) : UrlPath :=
  .segments (UrlPath.withoutEmptyFront
    (UrlPath.segmentsOf .file (withoutSlash .file text)))

/-- The host of a `file` URL. The local host counts as none. -/
def fileHost? (text : List Char) : Except UrlFault Host := do
  if text.isEmpty then return .name ""
  else
    match ← host? text with
    | .name "localhost" => return .name ""
    | host => return host

/-- A `file` URL from the text after two slashes. A host does not count before a
drive letter. -/
def fileWithHost? (text : List Char) : Except UrlFault Url := do
  let inHost (c : Char) : Bool := !SchemeKind.file.isSlash c && isPathChar c
  let hostText := withoutBreaks (text.takeWhile inHost)
  let isDrive := UrlPath.isDriveLetter hostText
  let host ← if isDrive then pure (.name "") else fileHost? hostText
  let rest := if isDrive then text else text.dropWhile inHost
  if host.isEmpty then
    return assemble "file" (some noHost) localPath rest
  else
    let walk := UrlPath.walk .file (withoutSlash .file (rest.takeWhile isPathChar))
    let host := if walk.hasDrive then .name "" else host
    return assemble "file" (some { noHost with host })
      (fun _ => .segments (UrlPath.withoutEmptyFront walk.trail.reverse)) rest

/-- A `file` URL from the text after its scheme. -/
def file? (text : List Char) : Except UrlFault Url :=
  match text with
  | a :: b :: rest =>
    if SchemeKind.file.isSlash a && SchemeKind.file.isSlash b then fileWithHost? rest
    else .ok (assemble "file" (some noHost) localPath text)
  | _ => .ok (assemble "file" (some noHost) localPath text)

/-- A URL of another scheme, from the text after the scheme. -/
def other? (scheme : String) (text : List Char) : Except UrlFault Url :=
  match text with
  | '/' :: '/' :: rest => withAuthority? scheme rest
  | '/' :: _ =>
    .ok (assemble scheme none
      (fun path => .segments (UrlPath.segmentsOf .other (withoutSlash .other path))) text)
  | _ =>
    .ok (assemble scheme none
      (fun path => .rootless (Percent.encode Percent.isControl path)) text)

/-- The URL that a text stands for. -/
def ofText? (text : String) : Except UrlFault Url :=
  let text := trimmed text
  match scheme? (withoutBreaks text) with
  | none => .error .noScheme
  | some (scheme, rest) =>
    match schemeKind scheme with
    | .file => file? (withSeams false ((text.dropWhile (· != ':')).drop 1))
    | .special => withAuthority? scheme (rest.dropWhile fun c => c == '/' || c == '\\')
    | .other => other? scheme rest

end Url

end QueryCache
