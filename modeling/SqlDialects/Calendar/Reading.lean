import SqlDialects.Calendar.Timestamp
import SqlDialects.Number.Integer
import SqlDialects.Text.Blank

/-!
Dates and timestamps read from text. Every number may follow blanks and may be short (`2020-1-5`);
a year has up to four digits, or any number of them after a sign.
-/

namespace SqlDialects

/-- Why a text is no date or timestamp. -/
inductive CalendarFault where
  | tooShort
  | invalid
  | outOfRange
  | trailing
deriving DecidableEq, Repr

/-- What a fault says. -/
def CalendarFault.message : CalendarFault → String
  | .tooShort => "premature end of input"
  | .invalid => "input contains invalid characters"
  | .outOfRange => "input is out of range"
  | .trailing => "trailing input"

namespace Calendar

/-- One digit or more, `width` at most where a width is given, within 64 bits. -/
def scanDigits (width : Option Nat) (cs : List Char) : Except CalendarFault (Nat × List Char) :=
  let digits := match width with
    | some n => (cs.take n).takeWhile Text.isAsciiDigit
    | none => cs.takeWhile Text.isAsciiDigit
  if cs = [] then .error .tooShort
  else if digits = [] then .error .invalid
  else if IntegerRange.long.greatest < digitsValue 0 digits then .error .outOfRange
  else .ok (digitsValue 0 digits, cs.drop digits.length)

/-- A number of one or two digits between two bounds. -/
def scanField (least greatest : Nat) (cs : List Char) :
    Except CalendarFault (Nat × List Char) := do
  let (n, rest) ← scanDigits (some 2) (cs.dropWhile Text.isBlank)
  if least ≤ n && n ≤ greatest then .ok (n, rest) else .error .outOfRange

/-- A year, which has to fit in 32 bits. -/
def scanYear (cs : List Char) : Except CalendarFault (Int × List Char) := do
  let (year, rest) ← match cs.dropWhile Text.isBlank with
    | '-' :: more => (scanDigits none more).map fun (n, rest) => (-(n : Int), rest)
    | '+' :: more => (scanDigits none more).map fun (n, rest) => ((n : Int), rest)
    | more => (scanDigits (some 4) more).map fun (n, rest) => ((n : Int), rest)
  if IntegerRange.integer.least ≤ year && year ≤ IntegerRange.integer.greatest then
    .ok (year, rest)
  else .error .outOfRange

/-- The character `mark` itself. -/
def scanMark (mark : Char) : List Char → Except CalendarFault (List Char)
  | [] => .error .tooShort
  | c :: rest => if c = mark then .ok rest else .error .invalid

/-- Year, month and day with dashes between them. -/
def scanDate (cs : List Char) :
    Except CalendarFault ((Int × Nat × Nat) × List Char) := do
  let (year, cs) ← scanYear cs
  let (month, cs) ← scanField 1 12 (← scanMark '-' cs)
  let (day, cs) ← scanField 1 31 (← scanMark '-' cs)
  .ok ((year, month, day), cs)

/-- Hour, minute and second with colons between them. -/
def scanTime (cs : List Char) :
    Except CalendarFault ((Nat × Nat × Nat) × List Char) := do
  let (hour, cs) ← scanField 0 23 cs
  let (minute, cs) ← scanField 0 59 (← scanMark ':' cs)
  let (second, cs) ← scanField 0 60 (← scanMark ':' cs)
  .ok ((hour, minute, second), cs)

/-- The day of three numbers. -/
def dayOf (numbers : Int × Nat × Nat) : Except CalendarFault Date :=
  match Date.ofNumbers? numbers.1 numbers.2.1 numbers.2.2 with
  | some date => .ok date
  | none => .error .outOfRange

/-- The time of three numbers; second 60 is a leap second of any minute. -/
def timeOf (numbers : Nat × Nat × Nat) : Except CalendarFault TimeOfDay :=
  let (hour, minute, second) := numbers
  let time? :=
    if second = 60 then TimeOfDay.ofNumbers? hour minute 59 nanosPerSecond
    else TimeOfDay.ofNumbers? hour minute second 0
  match time? with
  | some time => .ok time
  | none => .error .outOfRange

/-- The whole text has to be read. -/
def atEnd (cs : List Char) : Except CalendarFault Unit :=
  if cs = [] then .ok () else .error .trailing

end Calendar

/-- A text read as a date. -/
def Date.read (s : String) : Except CalendarFault Date := do
  let (numbers, rest) ← Calendar.scanDate s.toList
  Calendar.atEnd rest
  Calendar.dayOf numbers

namespace Timestamp

/-- A date and a time with what `between` accepts between them. -/
def readWith (between : List Char → Except CalendarFault (List Char)) (s : String) :
    Except CalendarFault Timestamp := do
  let (day, rest) ← Calendar.scanDate s.toList
  let (time, rest) ← Calendar.scanTime (← between rest)
  Calendar.atEnd rest
  return ⟨← Calendar.dayOf day, ← Calendar.timeOf time⟩

/-- A text read as a timestamp: date and time with blanks or a `T` between them, or a date alone,
which is its midnight. The fault is that of the last attempt. -/
def read (s : String) : Except CalendarFault Timestamp :=
  match readWith (fun cs => .ok (cs.dropWhile Text.isBlank)) s with
  | .ok t => .ok t
  | .error _ =>
    match readWith (Calendar.scanMark 'T') s with
    | .ok t => .ok t
    | .error _ => (Date.read s).map (⟨·, .midnight⟩)

end Timestamp

end SqlDialects
