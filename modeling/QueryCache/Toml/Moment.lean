import QueryCache.Text.Scanner

/-!
# Dates and times

A `Moment` is a date, a time of day, or both, and then possibly with an offset
from universal time. `Moment.read` accepts the written forms of moments that
exist, so the thirtieth of February is refused; second 60 is accepted at any
time of day. A fraction of a second counts up to nine digits. `Moment.text` is
the one form in which a moment is shown again.
-/

namespace QueryCache

/-- A day of the calendar. -/
structure Date where
  year : Nat
  month : Nat
  day : Nat
deriving DecidableEq

/-- A time of day. -/
structure TimeOfDay where
  hour : Nat
  minute : Nat
  second : Nat
  nanosecond : Nat
deriving DecidableEq

/-- How far a local time is from universal time. -/
inductive TimeOffset where
  | none
  | universal
  | shifted (west : Bool) (minutes : Nat)
deriving DecidableEq

/-- A date, a time of day, or both. -/
inductive Moment where
  | date (date : Date)
  | time (time : TimeOfDay)
  | dateTime (date : Date) (time : TimeOfDay) (offset : TimeOffset)
deriving DecidableEq

namespace Date

/-- The year has a twenty-ninth of February. -/
def isLeapYear (year : Nat) : Bool :=
  year % 4 == 0 && (year % 100 != 0 || year % 400 == 0)

/-- The number of days in a month. -/
def daysIn (year month : Nat) : Nat :=
  if month = 2 then (if isLeapYear year then 29 else 28)
  else if month = 4 ∨ month = 6 ∨ month = 9 ∨ month = 11 then 30
  else 31

/-- The day exists. -/
def exists? (date : Date) : Bool :=
  1 ≤ date.month && date.month ≤ 12 && 1 ≤ date.day &&
    date.day ≤ daysIn date.year date.month

end Date

namespace TimeOfDay

/-- The time exists. A leap second may stand at the end of any minute. -/
def exists? (time : TimeOfDay) : Bool :=
  time.hour ≤ 23 && time.minute ≤ 59 && time.second ≤ 60

end TimeOfDay

namespace Moment

/-! ### Reading -/

/-- Goes on only where a condition holds. -/
def guarded {α : Type} (condition : Bool) (value : α) : Scanner α :=
  if condition then pure value else Scanner.fail

/-- A date in the form `2006-01-02`. -/
def readDate : Scanner Date := do
  let year ← Scanner.number 4
  Scanner.word "-"
  let month ← Scanner.number 2
  Scanner.word "-"
  let day ← Scanner.number 2
  let date : Date := ⟨year, month, day⟩
  guarded date.exists? date

/-- How many digits of a fraction of a second count. -/
def fractionDigits : Nat := 9

/-- The nanoseconds that the digits after the point stand for. -/
def nanoseconds (digits : List Nat) : Nat :=
  let counted := digits.take fractionDigits
  Scanner.ofDigits 10 counted * Nat.pow 10 (fractionDigits - counted.length)

/-- A fraction of a second in the form `.5`. -/
def readFraction : Scanner Nat := do
  Scanner.word "."
  return nanoseconds (← Scanner.many1 Scanner.digit)

/-- A time of day in the form `15:04:05`, possibly with a fraction. -/
def readTime : Scanner TimeOfDay := do
  let hour ← Scanner.number 2
  Scanner.word ":"
  let minute ← Scanner.number 2
  Scanner.word ":"
  let second ← Scanner.number 2
  let fraction ← Scanner.optional readFraction
  let time : TimeOfDay := ⟨hour, minute, second, fraction.getD 0⟩
  guarded time.exists? time

/-- An offset in the form `Z` or `+07:00`. -/
def readOffset : Scanner TimeOffset :=
  let universal : Scanner TimeOffset := do
    let _ ← Scanner.satisfy fun c => c == 'Z' || c == 'z'
    return .universal
  let shifted : Scanner TimeOffset := do
    let sign ← Scanner.satisfy fun c => c == '+' || c == '-'
    let hours ← Scanner.number 2
    Scanner.word ":"
    let minutes ← Scanner.number 2
    guarded (hours ≤ 23 && minutes ≤ 59) (.shifted (sign == '-') (hours * 60 + minutes))
  Scanner.orElse universal shifted

/-- The time of day that follows a date, and its offset. -/
def readTimeAndOffset : Scanner (TimeOfDay × TimeOffset) := do
  let _ ← Scanner.satisfy fun c => c == 'T' || c == 't' || c == ' '
  let clock ← readTime
  let offset ← Scanner.optional readOffset
  return (clock, offset.getD .none)

/-- The written form of a moment. -/
def read : Scanner Moment :=
  let dated : Scanner Moment := do
    let date ← readDate
    match ← Scanner.optional readTimeAndOffset with
    | some (clock, offset) => return .dateTime date clock offset
    | none => return .date date
  Scanner.orElse dated (Moment.time <$> readTime)

/-! ### Writing -/

/-- The last `width` decimal digits of a number. -/
def padded : Nat → Nat → List Char
  | 0, _ => []
  | width + 1, n => padded width (n / 10) ++ [Char.ofNat ('0'.toNat + n % 10)]

/-- A date in the form `2006-01-02`. -/
def dateText (date : Date) : List Char :=
  padded 4 date.year ++ '-' :: padded 2 date.month ++ '-' :: padded 2 date.day

/-- The fraction of a second without trailing zeros, and nothing for zero. -/
def fractionText (nanosecond : Nat) : List Char :=
  if nanosecond = 0 then []
  else '.' :: ((padded fractionDigits nanosecond).reverse.dropWhile (· == '0')).reverse

/-- A time of day in the form `15:04:05.5`. -/
def timeText (time : TimeOfDay) : List Char :=
  padded 2 time.hour ++ ':' :: padded 2 time.minute ++ ':' :: padded 2 time.second ++
    fractionText time.nanosecond

/-- An offset in the form `Z` or `+07:00`. Zero is east. -/
def offsetText : TimeOffset → List Char
  | .none => []
  | .universal => ['Z']
  | .shifted west minutes =>
    (if west && minutes != 0 then '-' else '+') ::
      padded 2 (minutes / 60) ++ ':' :: padded 2 (minutes % 60)

/-- The form in which a moment is shown. -/
def text : Moment → String
  | date d => String.ofList (dateText d)
  | time t => String.ofList (timeText t)
  | dateTime d t offset =>
    String.ofList (dateText d ++ 'T' :: timeText t ++ offsetText offset)

end Moment

end QueryCache
