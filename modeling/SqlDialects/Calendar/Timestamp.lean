import SqlDialects.Calendar.Date

/-!
Timestamps without a zone. A leap second is the second 59 with a thousand million nanoseconds or
more, and is written as second 60.
-/

namespace SqlDialects

/-- Nanoseconds of a second. -/
def nanosPerSecond : Nat := 1000000000

/-- A time of day; `nanos` reaches the double of a second during a leap second. -/
structure TimeOfDay where
  second : Nat
  nanos : Nat
  second_lt : second < 86400
  nanos_lt : nanos < 2 * nanosPerSecond
deriving DecidableEq

namespace TimeOfDay

/-- The start of the day. -/
def midnight : TimeOfDay := ⟨0, 0, by decide, by decide⟩

/-- The time with these numbers, if there is one. -/
def ofNumbers? (hour minute second nanos : Nat) : Option TimeOfDay :=
  if h : hour < 24 ∧ minute < 60 ∧ second < 60 ∧ nanos < 2 * nanosPerSecond then
    some ⟨hour * 3600 + minute * 60 + second, nanos, by omega, h.2.2.2⟩
  else none

/-- `10:15:00` -/
def textChars (t : TimeOfDay) : List Char :=
  padDigits 2 (t.second / 3600) ++ ':' :: padDigits 2 (t.second / 60 % 60)
    ++ ':' :: padDigits 2 (t.second % 60 + t.nanos / nanosPerSecond)

end TimeOfDay

/-- A day and a time of day. -/
structure Timestamp where
  date : Date
  time : TimeOfDay
deriving DecidableEq

/-- Seconds of local time east of UTC: less than a day either way. -/
structure UtcOffset where
  seconds : Int
  inside : -86400 < seconds ∧ seconds < 86400
deriving DecidableEq

namespace UtcOffset

/-- Local time is UTC. -/
def zero : UtcOffset := ⟨0, by decide⟩

/-- The offset of a number of seconds, if it is less than a day. -/
def ofSeconds? (seconds : Int) : Option UtcOffset :=
  if h : -86400 < seconds ∧ seconds < 86400 then some ⟨seconds, h⟩ else none

/-- The same distance the other way. -/
def neg (o : UtcOffset) : UtcOffset := ⟨-o.seconds, by have := o.inside; omega⟩

end UtcOffset

namespace Timestamp

/-- `2020-01-31 10:15:00` -/
def textChars (t : Timestamp) : List Char :=
  t.date.textChars ++ ' ' :: t.time.textChars

/-- Date and time, without the nanoseconds. -/
def text (t : Timestamp) : String := String.ofList t.textChars

/-- A leap second that is left behind becomes part of the second it follows when moving on, and the
start of the next one when moving back. Both are given as seconds of the day and nanoseconds. -/
def leaveLeapSecond (t : TimeOfDay) (shift : Int) : Int × Nat :=
  if t.nanos < nanosPerSecond ∨ shift = 0 then (t.second, t.nanos)
  else if 0 < shift then (t.second, t.nanos - nanosPerSecond)
  else (t.second + 1, t.nanos - nanosPerSecond)

theorem leaveLeapSecond_nanos_lt (t : TimeOfDay) (shift : Int) :
    (leaveLeapSecond t shift).2 < 2 * nanosPerSecond := by
  have := t.nanos_lt
  unfold leaveLeapSecond
  split
  · exact this
  · split
    · exact Nat.lt_of_le_of_lt (Nat.sub_le _ _) this
    · exact Nat.lt_of_le_of_lt (Nat.sub_le _ _) this

/-- The timestamp moved by an offset, less than a day. None where the calendar ends. -/
def shift? (t : Timestamp) (offset : UtcOffset) : Option Timestamp :=
  let moved := leaveLeapSecond t.time offset.seconds
  let second := moved.1 + offset.seconds
  let day? :=
    if second < 0 then t.date.previous?
    else if second < 86400 then some t.date
    else t.date.next?
  day?.map fun day =>
    ⟨day, ⟨(second % 86400).toNat, moved.2, by omega, leaveLeapSecond_nanos_lt _ _⟩⟩

/-- Local time to UTC. -/
def toUtc? (t : Timestamp) (zone : UtcOffset) : Option Timestamp := t.shift? zone.neg

/-- UTC to local time. -/
def ofUtc? (t : Timestamp) (zone : UtcOffset) : Option Timestamp := t.shift? zone

end Timestamp

end SqlDialects
