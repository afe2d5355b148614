import QueryCache.Unicode.Composed
import QueryCache.Unicode.Direction
import QueryCache.Unicode.Joining
import QueryCache.Url.NameTable
import QueryCache.Url.Punycode

/-!
# Labels of host names

A label is what stands between the points of a host name. One with other
characters than those of ASCII is written in Punycode after `xn--`, and a label
that is written so has to be one that needs it. A label does not begin with a
mark, the two invisible joiners stand only where they change how letters are
drawn, and it is not too long. Where a name has letters that run to the left,
each of its labels runs in one direction: `HostLabel.runsOneWay`.
-/

namespace QueryCache

namespace Domain

/-- A character of ASCII that no name can have in it. -/
def isDenied (c : Char) : Bool :=
  c ≤ ' ' || c == '\x7f' || "%#/:<>?@[\\]^|".toList.contains c

/-- What a text counts as in a name, if all its characters can be in one. -/
def spelled? (text : List Char) : Option (List Char) := do
  let counted := Unicode.composed (← text.mapM counterpart).flatten
  if counted.any isDenied then none else return counted

end Domain

/-- A label: what it says, and how it is written. -/
structure HostLabel where
  text : List Char
  written : List Char

namespace HostLabel

open Unicode

/-- The length of the longest label with other characters than those of ASCII. -/
def maxLength : Nat := 1000

/-- The length of the longest text in Punycode. -/
def maxEncodedLength : Nat := 2000

/-- The text is in ASCII. -/
def isAscii (text : List Char) : Bool := text.all (·.toNat < Punycode.firstCode)

/-! ### Joiners -/

/-- Keeps the letters around it from joining. -/
def nonJoiner : Char := '\u200c'

/-- Joins the letters around it. -/
def joiner : Char := '\u200d'

/-- The first character that is not transparent has a property. -/
def reaches (property : Char → Bool) (text : List Char) : Bool :=
  (text.find? fun c => joining c != .transparent).any property

/-- A character stands at the right place with regard to those before it, the last
one first, and those after it. A joiner of either kind can follow a virama. Else
the nonjoiner has to stand between letters that would join. -/
def joinerFits (before : List Char) (c : Char) (after : List Char) : Bool :=
  if c == nonJoiner || c == joiner then
    before.head?.any isVirama ||
      (c == nonJoiner && reaches joinsNext before && reaches joinsPrevious after)
  else true

/-- All joiners after some text stand at the right places. -/
def joinersFit : List Char → List Char → Bool
  | _, [] => true
  | before, c :: after => joinerFits before c after && joinersFit (c :: before) after

/-- A label can say this. -/
def isValid (text : List Char) : Bool :=
  !text.head?.any isMark && joinersFit [] text &&
    (isAscii text || text.length ≤ maxLength)

/-! ### Directions -/

/-- The character makes a name one that runs to the left in part. -/
def runsLeft (c : Char) : Bool :=
  [Direction.rightToLeft, .arabicLetter, .arabicNumber].contains (direction c)

/-- The classes inside a label that runs to the right. -/
def rightwardClasses : List Direction :=
  [.leftToRight, .europeanNumber, .europeanSeparator, .commonSeparator,
    .europeanTerminator, .neutral, .boundary, .nonspacing]

/-- The classes inside a label that runs to the left. -/
def leftwardClasses : List Direction :=
  [.rightToLeft, .arabicLetter, .arabicNumber, .europeanNumber, .europeanSeparator,
    .commonSeparator, .europeanTerminator, .neutral, .boundary, .nonspacing]

/-- The classes of a label run in one direction, which its first class decides.
Nonspacing marks at its end do not count. Numbers of both kinds cannot be in one
label. -/
def classesRunOneWay : List Direction → Bool
  | [] => true
  | first :: rest =>
    match first, rest.reverse.dropWhile (· == .nonspacing) with
    | .leftToRight, [] => true
    | .leftToRight, last :: inner =>
      [Direction.leftToRight, .europeanNumber].contains last &&
        inner.all rightwardClasses.contains
    | .rightToLeft, classes | .arabicLetter, classes =>
      (match classes with
        | [] => true
        | last :: inner =>
          [Direction.rightToLeft, .arabicLetter, .europeanNumber, .arabicNumber].contains
              last &&
            inner.all leftwardClasses.contains) &&
        !(classes.contains .europeanNumber && classes.contains .arabicNumber)
    | _, _ => false

/-- The label runs in one direction. -/
def runsOneWay (label : HostLabel) : Bool := classesRunOneWay (label.text.map direction)

/-! ### Reading -/

/-- The label of a text in Punycode. -/
def ofEncoded? (encoded : List Char) : Option HostLabel := do
  if encoded.isEmpty || encoded.getLast? == some '-' || !isAscii encoded ||
      maxEncodedLength < encoded.length then none
  else
    let text ← Punycode.decode? encoded
    if Domain.spelled? text == some text && isValid text then
      return ⟨text, ['x', 'n', '-', '-'] ++ encoded⟩
    else none

/-- The label of a text that has been spelled. -/
def ofText? (text : List Char) : Option HostLabel :=
  match text with
  | 'x' :: 'n' :: '-' :: '-' :: encoded => ofEncoded? encoded
  | _ =>
    if isValid text then
      some ⟨text, if isAscii text then text
        else ['x', 'n', '-', '-'] ++ Punycode.encode text⟩
    else none

end HostLabel

end QueryCache
