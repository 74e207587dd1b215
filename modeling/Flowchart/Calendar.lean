/-!
# Dates and times

A document in YAML may hold dates, and a date with a time of day and an offset from universal
time. `Date.check` and `Timestamp.check` refuse what the Gregorian calendar does not have.
-/

namespace Flowchart

/-- A day of the Gregorian calendar. -/
structure Date where
  year : Nat
  month : Nat
  day : Nat
deriving DecidableEq, Repr

/-- A day and a time of day; `offset` is in minutes east of universal time, if it is known. -/
structure Timestamp where
  date : Date
  hour : Nat
  minute : Nat
  second : Nat
  microsecond : Nat
  offset : Option Int
deriving DecidableEq, Repr

/-- Why there is no such day or time. -/
inductive CalendarError where
  | year (year : Nat)
  | month
  | day
  | hour
  | minute
  | second
  /-- An offset of a day or more. -/
  | offset (minutes : Int)
deriving DecidableEq, Repr

namespace Date

/-- Every fourth year, without the centuries that are not divisible by four. -/
def isLeapYear (y : Nat) : Bool :=
  y % 4 == 0 && (y % 100 != 0 || y % 400 == 0)

/-- The days of a month. -/
def daysInMonth (y m : Nat) : Nat :=
  if m = 2 then (if isLeapYear y then 29 else 28)
  else if m = 4 ∨ m = 6 ∨ m = 9 ∨ m = 11 then 30 else 31

/-- The days before the first of January of a year, counted from the year one. -/
def daysBeforeYear (y : Nat) : Nat :=
  let p := y - 1
  p * 365 + p / 4 - p / 100 + p / 400

/-- The number of a day, counted from the first day of the year one. -/
def dayNumber (d : Date) : Nat :=
  (List.range (d.month - 1)).foldl (fun days m => days + daysInMonth d.year (m + 1))
    (daysBeforeYear d.year + d.day)

/-- Accepts the days of the years 1 to 9999. -/
def check (d : Date) : Except CalendarError Date :=
  if d.year = 0 ∨ 9999 < d.year then throw (.year d.year)
  else if d.month = 0 ∨ 12 < d.month then throw .month
  else if d.day = 0 ∨ daysInMonth d.year d.month < d.day then throw .day
  else pure d

/-- Decimal digits, by zeros filled to a width. -/
def padded (width n : Nat) : String :=
  let digits := Nat.toDigits 10 n
  String.ofList (List.replicate (width - digits.length) '0' ++ digits)

/-- The text `year-month-day`. -/
def text (d : Date) : String :=
  padded 4 d.year ++ "-" ++ padded 2 d.month ++ "-" ++ padded 2 d.day

end Date

namespace Timestamp

/-- Accepts the times of an existing day. The offset is looked at first. -/
def check (t : Timestamp) : Except CalendarError Timestamp := do
  if let some m := t.offset then
    if 24 * 60 ≤ m.natAbs then throw (.offset m)
  let _ ← t.date.check
  if 23 < t.hour then throw .hour
  if 59 < t.minute then throw .minute
  if 59 < t.second then throw .second
  pure t

/-- Microseconds since the year one, in universal time if the offset is known. -/
def instant (t : Timestamp) : Int :=
  let minutes : Int := (t.date.dayNumber * 24 + t.hour) * 60 + t.minute
  ((minutes - t.offset.getD 0) * 60 + t.second) * 1000000 + t.microsecond

/-- Two times are the same if they denote the same instant and both or neither has an offset. -/
def same (s t : Timestamp) : Bool :=
  s.offset.isSome == t.offset.isSome && s.instant == t.instant

/-- The text of an offset. -/
private def offsetText (m : Int) : String :=
  (if m < 0 then "-" else "+") ++ Date.padded 2 (m.natAbs / 60) ++ ":"
    ++ Date.padded 2 (m.natAbs % 60)

/-- The text `date hour:minute:second`, with the fraction if it is not zero and the offset if it is
known. -/
def text (t : Timestamp) : String :=
  t.date.text ++ " " ++ Date.padded 2 t.hour ++ ":" ++ Date.padded 2 t.minute ++ ":"
    ++ Date.padded 2 t.second
    ++ (if t.microsecond = 0 then "" else "." ++ Date.padded 6 t.microsecond)
    ++ (t.offset.map offsetText).getD ""

end Timestamp

end Flowchart
