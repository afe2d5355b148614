import QueryCache.Unicode.CombiningClass
import QueryCache.Unicode.Decomposition

/-!
# Canonical composition

Texts that are the same to a reader can be written with different characters.
`composed` gives them one form: every character is taken apart, marks in a row
are brought into the order of their combining classes, and then every starter is
put together with the marks after it as far as there are characters for that. A
mark is out of reach of a starter behind a mark of no smaller class.
-/

namespace QueryCache

namespace Unicode

/-! ### Syllables of Hangul -/

namespace Hangul

/-- The first syllable. -/
def syllableBase : Nat := 0xAC00

/-- The first leading consonant. -/
def leadBase : Nat := 0x1100

/-- The first vowel. -/
def vowelBase : Nat := 0x1161

/-- The code before the first trailing consonant. -/
def tailBase : Nat := 0x11A7

def leadCount : Nat := 19

def vowelCount : Nat := 21

/-- The number of trailing consonants, with none as one of them. -/
def tailCount : Nat := 28

/-- The number of syllables. -/
def syllableCount : Nat := leadCount * vowelCount * tailCount

/-- The code is that of a syllable. -/
def IsSyllable (code : Nat) : Prop :=
  syllableBase ≤ code ∧ code < syllableBase + syllableCount

instance (code : Nat) : Decidable (IsSyllable code) :=
  inferInstanceAs (Decidable (_ ∧ _))

/-- The parts of a syllable. -/
def parts (code : Nat) : List Nat :=
  let index := code - syllableBase
  let lead := leadBase + index / (vowelCount * tailCount)
  let vowel := vowelBase + index / tailCount % vowelCount
  let tail := index % tailCount
  if tail = 0 then [lead, vowel] else [lead, vowel, tailBase + tail]

/-- The syllable of a leading consonant and a vowel, or of a syllable and a
trailing consonant. -/
def joined? (a b : Nat) : Option Nat :=
  if leadBase ≤ a ∧ a < leadBase + leadCount ∧ vowelBase ≤ b ∧ b < vowelBase + vowelCount then
    some (syllableBase + ((a - leadBase) * vowelCount + (b - vowelBase)) * tailCount)
  else if IsSyllable a ∧ (a - syllableBase) % tailCount = 0 ∧
      tailBase < b ∧ b < tailBase + tailCount then
    some (a + (b - tailBase))
  else none

end Hangul

/-! ### Taking apart -/

/-- How many times parts can have parts. -/
def maxDepth : Nat := 3

/-- The codes that a code stands for, where parts are taken apart themselves at
most so many times. -/
def partsWithin : Nat → Nat → List Nat
  | 0, code => [code]
  | depth + 1, code =>
    match equations.get? code with
    | some parts => parts.flatMap (partsWithin depth)
    | none => [code]

/-- The characters that a character stands for. -/
def takenApart (c : Char) : List Char :=
  if Hangul.IsSyllable c.toNat then (Hangul.parts c.toNat).map Char.ofNat
  else (partsWithin maxDepth c.toNat).map Char.ofNat

/-! ### Order -/

/-- Puts a character behind others, of which the last one comes first. A mark goes
before marks of a larger class. -/
def settle (c : Char) : List Char → List Char
  | [] => [c]
  | last :: done =>
    if combiningClass c ≠ 0 ∧ combiningClass c < combiningClass last then
      last :: settle c done
    else c :: last :: done

/-- The characters of a text with the marks in order. -/
def ordered (text : List Char) : List Char :=
  (text.foldl (fun done c => settle c done) []).reverse

/-! ### Putting together -/

/-- The place of a pair of codes in the table of composites. -/
def pairKey (a b : Nat) : Nat := a * 0x110000 + b

/-- The codes of the characters that two others are put together to. -/
def composites : CodeTable Nat := .ofRuns <|
  compositions.filterMap fun run =>
    match run.value with
    | [a, b] => some ⟨pairKey a b, pairKey a b, run.first⟩
    | _ => none

/-- The character that two others are put together to. -/
def joined? (a b : Char) : Option Char :=
  ((Hangul.joined? a.toNat b.toNat).or (composites.get? (pairKey a.toNat b.toNat))).map
    Char.ofNat

/-- What has been put together. All lists have the last character first. -/
structure Composer where
  /-- What comes before the last starter. -/
  done : List Char
  starter : Option Char
  /-- The marks behind the starter that are not put together with it. -/
  marks : List Char

namespace Composer

/-- Everything so far. -/
def all (composer : Composer) : List Char :=
  composer.marks ++ composer.starter.toList ++ composer.done

/-- The starter is out of reach of a character. -/
def blocks (composer : Composer) (c : Char) : Bool :=
  match composer.marks with
  | [] => false
  | last :: _ => combiningClass c ≤ combiningClass last

/-- Goes on by one character. -/
def add (composer : Composer) (c : Char) : Composer :=
  let joined :=
    if composer.blocks c then none
    else composer.starter.bind fun starter => joined? starter c
  match joined with
  | some joined => { composer with starter := some joined }
  | none =>
    if combiningClass c = 0 then ⟨composer.all, some c, []⟩
    else { composer with marks := c :: composer.marks }

end Composer

/-- The form that a text has in common with all that are the same to a reader. -/
def composed (text : List Char) : List Char :=
  ((ordered (text.flatMap takenApart)).foldl Composer.add ⟨[], none, []⟩).all.reverse

end Unicode

end QueryCache
