import QueryCache.Url.Basic

/-!
# Targets of requests

A request goes to a URL that has a host, or to one whose whole text reads as an
authority, such as that of a mail address. Authorities are looked at more closely
here than in a URL: every character has to be one that can stand there, brackets
come in one pair, a percent sign only stands before an at sign, and after it
there is at most one colon. Something has to stand behind the two slashes. The
fragment of a URL is not sent.
-/

namespace QueryCache

/-- Why a URL cannot be the target of a request. -/
inductive TargetFault where
  | empty
  | tooLong
  | schemeTooLong
  | invalidCharacter
  | invalidAuthority
  | invalidFormat
deriving DecidableEq

namespace TargetFault

/-- The wording of a fault. -/
def message : TargetFault → String
  | empty => "empty string"
  | tooLong => "uri too long"
  | schemeTooLong => "scheme too long"
  | invalidCharacter => "invalid uri character"
  | invalidAuthority => "invalid authority"
  | invalidFormat => "invalid format"

end TargetFault

namespace Target

/-- The length of the longest target. -/
def maxLength : Nat := 65534

/-- The length of the longest scheme. -/
def maxSchemeLength : Nat := 64

/-- How many colons may stand before an at sign or between brackets. -/
def maxColons : Nat := 8

/-- A character that can stand in an authority as it is. -/
def isAuthorityChar (c : Char) : Bool :=
  c.isAlphanum || "!$&'()*+,-.:;=@[]_~".toList.contains c

/-- What has been seen of an authority. -/
structure Progress where
  colons : Nat
  opened : Bool
  closed : Bool
  percent : Bool
deriving DecidableEq

/-- Goes on by one character of an authority. Colons and percent signs before an
at sign or inside of brackets do not count. -/
def Progress.next (progress : Progress) (c : Char) : Except TargetFault Progress :=
  if c = '%' then .ok { progress with percent := true }
  else if !isAuthorityChar c then .error .invalidCharacter
  else if c = ':' then
    if progress.colons < maxColons then
      .ok { progress with colons := progress.colons + 1 }
    else .error .invalidAuthority
  else if c = '[' then
    if progress.percent || progress.opened then .error .invalidAuthority
    else .ok { progress with opened := true }
  else if c = ']' then
    if !progress.opened || progress.closed then .error .invalidAuthority
    else .ok { progress with closed := true, colons := 0, percent := false }
  else if c = '@' then .ok { progress with colons := 0, percent := false }
  else .ok progress

/-- Ends an authority. -/
def endsAuthority (c : Char) : Bool := c == '/' || c == '?' || c == '#'

/-- Checks the authority at the start of a text. -/
def checkAuthority (text : List Char) : Except TargetFault Unit := do
  let authority := text.takeWhile fun c => !endsAuthority c
  let progress ← authority.foldlM Progress.next ⟨0, false, false, false⟩
  if progress.opened != progress.closed || 1 < progress.colons ||
      authority.getLast? == some '@' || progress.percent then
    throw .invalidAuthority

/-- The text of a URL as the target of a request. -/
def ofUrl (url : Url) : Except TargetFault String := do
  if maxLength < url.text.utf8ByteSize then throw .tooLong
  match url.authority with
  | none =>
    checkAuthority url.text.toList
    if url.text.toList.any endsAuthority then throw .invalidFormat
    return url.text
  | some authority =>
    if maxSchemeLength < url.scheme.length then throw .schemeTooLong
    let text := authority.text.toList.drop 2
    if (url.text.toList.drop (url.scheme.length + 3)).isEmpty then throw .empty
    checkAuthority text
    if text.isEmpty then throw .invalidFormat
    let url := if url.path = .segments [] then { url with path := .segments [""] } else url
    return url.textBeforeFragment

end Target

end QueryCache
