import QueryCache.Url.Basic
import QueryCache.Url.Percent

/-!
# Paths of URLs

A path is read segment by segment. A segment of one point does not count, and
one of two points takes the segment before it away, unless that is a drive
letter with a colon or a bar. In a `file` URL a drive letter in front has a
colon, and empty segments in front do not count. A tab there is what is left of
tabs and line ends after a colon: it ends a segment that is a drive letter in
front, and does not count otherwise.
-/

namespace QueryCache

/-- The kinds of schemes. -/
inductive SchemeKind where
  | file
  /-- A scheme whose URLs always have a host. -/
  | special
  | other
deriving DecidableEq

namespace SchemeKind

/-- A backslash counts as a slash. -/
def isSpecial : SchemeKind → Bool
  | other => false
  | _ => true

/-- Ends an authority or a segment. -/
def isSlash (kind : SchemeKind) (c : Char) : Bool :=
  c == '/' || (kind.isSpecial && c == '\\')

end SchemeKind

namespace UrlPath

/-- A segment that does not count. -/
def isSingleDot (segment : String) : Bool :=
  [".", "%2e", "%2E"].contains segment

/-- A segment that takes another one away. -/
def isDoubleDot (segment : String) : Bool :=
  ["..", "%2e%2e", "%2e%2E", "%2E%2e", "%2E%2E", "%2e.", "%2E.", ".%2e", ".%2E"].contains
    segment

/-- A letter with a colon or a bar. -/
def isDriveLetter (segment : List Char) : Bool :=
  match segment with
  | [letter, mark] => letter.isAlpha && (mark == ':' || mark == '|')
  | _ => false

/-- The segments that have been read, the last one first. -/
abbrev Trail := List String

/-- Takes the last segment away. -/
def shorten : Trail → Trail
  | [] => []
  | last :: trail => if isDriveLetter last.toList then last :: trail else trail

/-- A drive letter in front with a colon. -/
def withColon (segment : String) : String :=
  match segment.toList with
  | letter :: _ => String.ofList [letter, ':']
  | [] => segment

/-- What has been read of a path. -/
structure Walk where
  trail : Trail
  /-- The first segment is a drive letter that a slash or the end follows. -/
  hasDrive : Bool

/-- Takes in a segment. After the last one a path ends with a slash where that
does not count itself. -/
def Walk.follow (kind : SchemeKind) (isLast : Bool) (walk : Walk) (segment : String) :
    Walk :=
  let ended (trail : Trail) : Trail := if isLast then "" :: trail else trail
  if isDoubleDot segment then { walk with trail := ended (shorten walk.trail) }
  else if isSingleDot segment then { walk with trail := ended walk.trail }
  else if kind == .file && walk.trail.isEmpty && isDriveLetter segment.toList then
    ⟨[withColon segment], true⟩
  else { walk with trail := segment :: walk.trail }

/-- The drive letter that a tab ends, and what follows the tab. -/
def endedDrive? : List Char → Option (String × List Char)
  | letter :: ':' :: '\t' :: c :: rest =>
    if letter.isAlpha then some (String.ofList [letter, ':'], c :: rest) else none
  | _ => none

/-- The written form of a segment. -/
def encodeSegment (text : List Char) : String :=
  Percent.encode Percent.inPath (text.filter (· != '\t'))

/-- Takes in the text between two slashes. What follows a tab after a drive letter
is a segment of its own, even if it consists of points. -/
def Walk.step (kind : SchemeKind) (isLast : Bool) (walk : Walk) (text : List Char) : Walk :=
  match walk.trail, endedDrive? text with
  | [], some (drive, rest) =>
    { walk with trail := [encodeSegment rest, drive] }
  | _, _ => walk.follow kind isLast (encodeSegment text)

/-- Takes in all segments that are left. -/
def Walk.stepAll (kind : SchemeKind) : List (List Char) → Walk → Walk
  | [], walk => walk
  | text :: rest, walk => stepAll kind rest (walk.step kind rest.isEmpty text)

/-- The way through a path after its first slash. -/
def walk (kind : SchemeKind) (text : List Char) : Walk :=
  Walk.stepAll kind (Text.split kind.isSlash text) ⟨[], false⟩

/-- The segments of a path after its first slash. -/
def segmentsOf (kind : SchemeKind) (text : List Char) : List String :=
  (walk kind text).trail.reverse

/-- Segments without the empty ones in front. -/
def withoutEmptyFront (segments : List String) : List String :=
  match segments.dropWhile (· == "") with
  | [] => [""]
  | rest => rest

end UrlPath

end QueryCache
