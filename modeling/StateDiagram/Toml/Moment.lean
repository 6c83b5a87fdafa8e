/-!
# `Toml.Moment` — dates and times

## Contents

* `Date`, `Time`, `Offset`, `Moment` — days, times of day, and both;
* `Date.isValid`, `Time.isValid` — what the calendar and the clock allow;
* `OffsetRule` — what is allowed as an offset;
* `Moment.text` — their text.
-/

namespace StateDiagram

/-- A number with zeros before it, to at least `width` digits. -/
def zeroPadded (width n : Nat) : String :=
  let digits := Nat.toDigits 10 n
  String.ofList (List.replicate (width - digits.length) '0' ++ digits)

/-- A day of the calendar. -/
structure Date where
  year : Nat
  month : Nat
  day : Nat
deriving DecidableEq, Repr

/-- A time of the day, to the nanosecond. -/
structure Time where
  hour : Nat
  minute : Nat
  second : Nat
  nanosecond : Nat
deriving DecidableEq, Repr

/-- How far a time is from universal time, which may be told as such or in minutes. -/
inductive Offset
  | utc
  | minutes (west : Bool) (count : Nat)
deriving DecidableEq, Repr

/-- A day, a time of day, or both, then perhaps with an offset. -/
inductive Moment
  | date (d : Date)
  | time (t : Time)
  | dateTime (d : Date) (t : Time) (offset : Option Offset)
deriving DecidableEq, Repr

/-- The number of days of a month of a year. -/
def daysInMonth (year month : Nat) : Nat :=
  if month = 2 then if year % 4 = 0 ∧ (year % 100 ≠ 0 ∨ year % 400 = 0) then 29 else 28
  else if month ∈ [4, 6, 9, 11] then 30
  else 31

/-- The day is one of the calendar. -/
def Date.isValid (d : Date) : Bool :=
  1 ≤ d.month && d.month ≤ 12 && 1 ≤ d.day && d.day ≤ daysInMonth d.year d.month

/-- The time is one of a day. A minute may end in a leap second. -/
def Time.isValid (t : Time) : Bool :=
  t.hour ≤ 23 && t.minute ≤ 59 && t.second ≤ 60

/-- Which hours and minutes make an offset. -/
abbrev OffsetRule := (hour minute : Nat) → Bool

/-- An offset looks like a time of day. -/
def OffsetRule.timeOfDay : OffsetRule :=
  fun hour minute => hour ≤ 23 && minute ≤ 59

/-- An offset is no longer than a day, and may have any number of minutes. -/
def OffsetRule.withinDay : OffsetRule :=
  fun hour minute => 60 * hour + minute ≤ 24 * 60

/-- Year, month and day with dashes. -/
def Date.text (d : Date) : String :=
  zeroPadded 4 d.year ++ "-" ++ zeroPadded 2 d.month ++ "-" ++ zeroPadded 2 d.day

/-- Hour, minute and second with colons, then the fraction of a second if there is one. -/
def Time.text (t : Time) : String :=
  let fraction := (zeroPadded 9 t.nanosecond).toList.reverse.dropWhile (· == '0')
  zeroPadded 2 t.hour ++ ":" ++ zeroPadded 2 t.minute ++ ":" ++ zeroPadded 2 t.second ++
    (if fraction.isEmpty then "" else "." ++ String.ofList fraction.reverse)

/-- `Z`, or hours and minutes with a sign. No offset at all is told as an eastern one. -/
def Offset.text : Offset → String
  | utc => "Z"
  | minutes west count =>
    (if west && count ≠ 0 then "-" else "+") ++ zeroPadded 2 (count / 60) ++ ":" ++
      zeroPadded 2 (count % 60)

/-- The text of a moment, day and time joined by `T`. -/
def Moment.text : Moment → String
  | date d => d.text
  | time t => t.text
  | dateTime d t offset => d.text ++ "T" ++ t.text ++ (offset.map Offset.text).getD ""

end StateDiagram
