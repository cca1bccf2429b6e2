/-!
# Dates and times

Dates of the Gregorian calendar from year 1 to 9999, and dates with a time of day and an optional
zone offset.

## Main definitions

* `Date`, `DateTime`
* `Date.fault?`, `TimeOfDay.fault?`: the first part that is out of range, if any
* `Date.iso`, `DateTime.iso`: the written forms
* `DateTime.instant?`: the moment of a time with a zone, for comparison
-/

namespace DocSchema

/-- A date of the calendar. -/
structure Date where
  year : Nat
  month : Nat
  day : Nat
  deriving DecidableEq, Repr

/-- A time of day. -/
structure TimeOfDay where
  hour : Nat
  minute : Nat
  second : Nat
  microsecond : Nat := 0
  deriving DecidableEq, Repr

/-- A date with a time, and the seconds that its zone is ahead of universal time. -/
structure DateTime where
  date : Date
  time : TimeOfDay
  offset : Option Int := none
  deriving DecidableEq, Repr

/-- A part of a date or time that is out of range. -/
inductive CalendarFault
  | year (value : Nat)
  | month
  | day
  | hour
  | minute
  | second
  /-- A zone offset, in seconds, of a day or more. -/
  | offset (seconds : Int)
  deriving DecidableEq, Repr

namespace CalendarFault

/-- The seconds of an offset as whole days with the seconds that remain of a day. -/
def offsetText (seconds : Int) : String :=
  let days := seconds / 86400
  let rest := seconds % 86400
  let parts := (if days = 0 then [] else ["days=" ++ toString days])
    ++ (if rest = 0 then [] else ["seconds=" ++ toString rest])
  "datetime.timedelta(" ++ (if parts.isEmpty then "0" else ", ".intercalate parts) ++ ")"

/-- The wording of a fault. -/
def message : CalendarFault → String
  | year value => "year " ++ toString value ++ " is out of range"
  | month => "month must be in 1..12"
  | day => "day is out of range for month"
  | hour => "hour must be in 0..23"
  | minute => "minute must be in 0..59"
  | second => "second must be in 0..59"
  | offset seconds =>
    "offset must be a timedelta strictly between -timedelta(hours=24) and timedelta(hours=24), not "
      ++ offsetText seconds ++ "."

end CalendarFault

/-- Digits of `n`, filled up with zeros on the left to at least `width`. -/
def zeroPadded (width n : Nat) : String :=
  let digits := Nat.toDigits 10 n
  String.ofList (List.replicate (width - digits.length) '0' ++ digits)

namespace Date

/-- Whether February of a year has 29 days. -/
def isLeap (year : Nat) : Bool :=
  year % 4 == 0 && (year % 100 != 0 || year % 400 == 0)

/-- The number of days of a month. -/
def daysIn (year month : Nat) : Nat :=
  if month = 2 then (if isLeap year then 29 else 28)
  else if month = 4 ∨ month = 6 ∨ month = 9 ∨ month = 11 then 30
  else 31

/-- The first part that is out of range: the year, then the month, then the day. -/
def fault? (d : Date) : Option CalendarFault :=
  if d.year < 1 ∨ 9999 < d.year then some (.year d.year)
  else if d.month < 1 ∨ 12 < d.month then some .month
  else if d.day < 1 ∨ daysIn d.year d.month < d.day then some .day
  else none

/-- The date as `2024-01-31`. -/
def iso (d : Date) : String :=
  zeroPadded 4 d.year ++ "-" ++ zeroPadded 2 d.month ++ "-" ++ zeroPadded 2 d.day

/-- The number of days before the date, counted from the first day of year 1. -/
def dayNumber (d : Date) : Nat :=
  let years := d.year - 1
  let before := years * 365 + years / 4 - years / 100 + years / 400
  (List.range (d.month - 1)).foldl (fun days m => days + daysIn d.year (m + 1)) before + (d.day - 1)

end Date

namespace TimeOfDay

/-- The first part that is out of range: the hour, then the minute, then the second. -/
def fault? (t : TimeOfDay) : Option CalendarFault :=
  if 23 < t.hour then some .hour
  else if 59 < t.minute then some .minute
  else if 59 < t.second then some .second
  else none

/-- The time as `10:20:30`, with six more digits if there is a fraction of a second. -/
def iso (t : TimeOfDay) : String :=
  zeroPadded 2 t.hour ++ ":" ++ zeroPadded 2 t.minute ++ ":" ++ zeroPadded 2 t.second
    ++ (if t.microsecond = 0 then "" else "." ++ zeroPadded 6 t.microsecond)

end TimeOfDay

namespace DateTime

/-- A zone offset as `+05:30`, with seconds if it has any. -/
def offsetIso (seconds : Int) : String :=
  let n := seconds.natAbs
  (if seconds < 0 then "-" else "+") ++ zeroPadded 2 (n / 3600) ++ ":"
    ++ zeroPadded 2 (n / 60 % 60)
    ++ (if n % 60 = 0 then "" else ":" ++ zeroPadded 2 (n % 60))

/-- The date and the time with a separator between them, and the zone offset if there is one. -/
def isoWith (separator : String) (t : DateTime) : String :=
  t.date.iso ++ separator ++ t.time.iso ++ (t.offset.map offsetIso).getD ""

/-- The date and time as `2024-01-31T10:20:30+05:30`. -/
def iso (t : DateTime) : String := t.isoWith "T"

/-- The moment in microseconds, if the time has a zone. -/
def instant? (t : DateTime) : Option Int :=
  t.offset.map fun offset =>
    let seconds : Int := (t.date.dayNumber * 86400 + t.time.hour * 3600 + t.time.minute * 60
      + t.time.second : Nat)
    (seconds - offset) * 1000000 + (t.time.microsecond : Int)

/-- Whether two times are equal: with zones if they are the same moment, without if all their
parts are the same. A time with a zone differs from one without. -/
def sameTime (s t : DateTime) : Bool :=
  match s.instant?, t.instant? with
  | some a, some b => a == b
  | none, none => s.date == t.date && s.time == t.time
  | _, _ => false

end DateTime

end DocSchema
