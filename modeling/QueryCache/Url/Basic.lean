import QueryCache.Url.Address

/-!
# URLs

A URL has a scheme, then possibly an authority, that is a host with what stands
around it, then a path, and possibly a query and a fragment. All parts are kept
in the form in which they are written, so `Url.text` only puts them together.
-/

namespace QueryCache

/-- A host. An empty name is no host. -/
inductive Host where
  | name (name : String)
  | ipv4 (address : Ipv4)
  | ipv6 (address : Ipv6)
deriving DecidableEq

/-- What stands between the two slashes and the path. -/
structure Authority where
  username : String
  password : String
  host : Host
  /-- The port, if it is not the standard one of the scheme. -/
  port : Option Nat
deriving DecidableEq

/-- A path: segments with a slash before each, or any text. -/
inductive UrlPath where
  | segments (segments : List String)
  | rootless (text : String)
deriving DecidableEq

/-- The parts of a URL. -/
structure Url where
  scheme : String
  authority : Option Authority
  path : UrlPath
  query : Option String
  fragment : Option String
deriving DecidableEq

/-- Why a text is no URL. -/
inductive UrlFault where
  | noScheme
  | emptyHost
  | invalidPort
  | invalidIpv4
  | invalidIpv6
  | invalidHostCharacter
  | invalidHostName
deriving DecidableEq

namespace UrlFault

/-- The wording of a fault. -/
def message : UrlFault → String
  | noScheme => "relative URL without a base"
  | emptyHost => "empty host"
  | invalidPort => "invalid port number"
  | invalidIpv4 => "invalid IPv4 address"
  | invalidIpv6 => "invalid IPv6 address"
  | invalidHostCharacter => "invalid domain character"
  | invalidHostName => "invalid international domain name"

end UrlFault

namespace Host

/-- There is no host. -/
def isEmpty : Host → Bool
  | name "" => true
  | _ => false

/-- The written form of a host. -/
def text : Host → String
  | name text => text
  | ipv4 address => address.text
  | ipv6 address => address.text

end Host

namespace Authority

/-- The user name and the password before a host. -/
def credentials (authority : Authority) : String :=
  let password := if authority.password = "" then "" else ":" ++ authority.password
  if authority.username = "" ∧ authority.password = "" then ""
  else authority.username ++ password ++ "@"

/-- The written form of an authority. -/
def text (authority : Authority) : String :=
  "//" ++ authority.credentials ++ authority.host.text ++
    match authority.port with
    | some port => ":" ++ toString port
    | none => ""

end Authority

namespace UrlPath

/-- Segments with a slash before each. -/
def segmentsText (segments : List String) : String :=
  segments.foldr (fun segment rest => "/" ++ segment ++ rest) ""

/-- The written form of a path. A path that begins with an empty segment would
read as an authority where there is none, so a segment that does not count is
put in front of it. -/
def text (hasAuthority : Bool) : UrlPath → String
  | rootless written => written
  | segments found =>
    match hasAuthority, found with
    | false, "" :: _ :: _ => "/." ++ segmentsText found
    | _, _ => segmentsText found

end UrlPath

namespace Url

/-- A part after its mark, if there is one. -/
def marked (mark : String) : Option String → String
  | some text => mark ++ text
  | none => ""

/-- The written form of a URL without its fragment. -/
def textBeforeFragment (url : Url) : String :=
  url.scheme ++ ":" ++ (url.authority.map Authority.text).getD "" ++
    url.path.text url.authority.isSome ++ marked "?" url.query

/-- The written form of a URL. -/
def text (url : Url) : String := url.textBeforeFragment ++ marked "#" url.fragment

end Url

end QueryCache
