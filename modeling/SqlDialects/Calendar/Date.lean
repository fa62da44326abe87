import SqlDialects.Number.Shortest

/-!
Dates of the proleptic Gregorian calendar, over the years that a timestamp can hold, with the step
to the next and the previous day.
-/

namespace SqlDialects

namespace Calendar

/-- Whether the year has a 29th of February. -/
def isLeap (year : Int) : Bool :=
  year % 4 == 0 && (year % 100 != 0 || year % 400 == 0)

/-- Days of a month; none in a month that does not exist. -/
def daysIn (year : Int) (month : Nat) : Nat :=
  match month with
  | 1 | 3 | 5 | 7 | 8 | 10 | 12 => 31
  | 4 | 6 | 9 | 11 => 30
  | 2 => if isLeap year then 29 else 28
  | _ => 0

/-- First year of the calendar. -/
def firstYear : Int := -262143

/-- Last year of the calendar. -/
def lastYear : Int := 262142

/-- A year of the calendar, and a day that the year has. -/
def isDay (year : Int) (month day : Nat) : Bool :=
  firstYear ≤ year && year ≤ lastYear && 1 ≤ day && day ≤ daysIn year month

end Calendar

/-- A day of the calendar. -/
structure Date where
  year : Int
  month : Nat
  day : Nat
  exists_day : Calendar.isDay year month day = true
deriving DecidableEq

namespace Date

/-- The day with these numbers, if there is one. -/
def ofNumbers? (year : Int) (month day : Nat) : Option Date :=
  if h : Calendar.isDay year month day = true then some ⟨year, month, day, h⟩ else none

/-- The day after. None after the last one. -/
def next? (d : Date) : Option Date :=
  if d.day < Calendar.daysIn d.year d.month then ofNumbers? d.year d.month (d.day + 1)
  else if d.month < 12 then ofNumbers? d.year (d.month + 1) 1
  else ofNumbers? (d.year + 1) 1 1

/-- The day before. None before the first one. -/
def previous? (d : Date) : Option Date :=
  if 1 < d.day then ofNumbers? d.year d.month (d.day - 1)
  else if 1 < d.month then ofNumbers? d.year (d.month - 1) (Calendar.daysIn d.year (d.month - 1))
  else ofNumbers? (d.year - 1) 12 31

/-- A year in at least four digits, signed outside 0 to 9999. -/
def yearText (year : Int) : List Char :=
  if 0 ≤ year ∧ year ≤ 9999 then padDigits 4 year.toNat
  else (if year < 0 then '-' else '+') :: padDigits 4 year.natAbs

/-- `2020-01-31` -/
def textChars (d : Date) : List Char :=
  yearText d.year ++ '-' :: padDigits 2 d.month ++ '-' :: padDigits 2 d.day

/-- Year, month and day. -/
def text (d : Date) : String := String.ofList d.textChars

end Date

end SqlDialects
