import DocSchema.Calendar
import DocSchema.Number.Spelling

/-!
# Written dates and times

A date is written with hyphens, and the time behind it with colons. The parts may lack a leading
zero, a fraction of a second and a zone may follow, and spaces may stand in front of the zone.

## Main definitions

* `Timestamp.parse?`: the parts of a written date or date with time
* `Timestamp.isImplicit`: whether a plain text is one by its form alone
* `Timestamp.dateTimeFault?`: the part of a time that is out of range
-/

namespace DocSchema.Yaml

open Number.Binary64 (digitsValue)

/-- A zone: universal time, or hours and minutes ahead of it or behind it. -/
inductive ZoneParts
  | universal
  | offset (negative : Bool) (hours minutes : Nat)
  deriving DecidableEq, Repr

/-- A written time of day. -/
structure ClockParts where
  hour : Nat
  minute : Nat
  second : Nat
  fraction : List Char
  zone : Option ZoneParts
  deriving DecidableEq, Repr

/-- A written date, and the time if there is one. -/
structure Timestamp where
  year : Nat
  month : Nat
  day : Nat
  clock : Option ClockParts
  deriving DecidableEq, Repr

namespace Timestamp

/-- Exactly two digits. -/
def twoDigits? : List Char → Option (Nat × List Char)
  | a :: b :: rest =>
    if a.isDigit && b.isDigit then some (digitsValue [a, b], rest) else none
  | _ => none

/-- One or two digits, as many as there are. -/
def upToTwoDigits? : List Char → Option (Nat × List Char)
  | [] => none
  | a :: rest =>
    if a.isDigit then
      match rest with
      | b :: more =>
        if b.isDigit then some (digitsValue [a, b], more) else some (digitsValue [a], rest)
      | [] => some (digitsValue [a], [])
    else none

/-- Exactly four digits. -/
def fourDigits? (cs : List Char) : Option (Nat × List Char) := do
  let (high, rest) ← twoDigits? cs
  let (low, rest) ← twoDigits? rest
  return (high * 100 + low, rest)

/-- A given character. -/
def sign? (sign : Char) : List Char → Option (List Char)
  | c :: rest => if c = sign then some rest else none
  | [] => none

/-- Drops spaces and tabs. -/
def dropSpaces (cs : List Char) : List Char := cs.dropWhile fun c => c == ' ' || c == '\t'

/-- A zone up to the end of the text, or nothing. -/
def zone? (cs : List Char) : Option (Option ZoneParts) :=
  match dropSpaces cs with
  | [] => if cs.isEmpty then some none else none
  | 'Z' :: rest => if rest.isEmpty then some (some .universal) else none
  | c :: rest =>
    if c = '+' ∨ c = '-' then do
      let (hours, rest) ← upToTwoDigits? rest
      match rest with
      | [] => return some (.offset (c == '-') hours 0)
      | ':' :: rest =>
        let (minutes, rest) ← twoDigits? rest
        if rest.isEmpty then return some (.offset (c == '-') hours minutes) else none
      | _ => none
    else none

/-- A time of day up to the end of the text. -/
def clock? (cs : List Char) : Option ClockParts := do
  let (hour, rest) ← upToTwoDigits? cs
  let (minute, rest) ← twoDigits? (← sign? ':' rest)
  let (second, rest) ← twoDigits? (← sign? ':' rest)
  let (fraction, rest) := match rest with
    | '.' :: rest => (rest.takeWhile Char.isDigit, rest.dropWhile Char.isDigit)
    | rest => ([], rest)
  let zone ← zone? rest
  return { hour, minute, second, fraction, zone }

/-- The time behind a date, or nothing. -/
def clockPart? : List Char → Option (Option ClockParts)
  | [] => some none
  | c :: rest =>
    if c = 'T' ∨ c = 't' then (clock? rest).map some
    else if c = ' ' ∨ c = '\t' then (clock? (dropSpaces rest)).map some
    else none

/-- The parts of a written date or date with time. -/
def parse? (cs : List Char) : Option Timestamp := do
  let (year, rest) ← fourDigits? cs
  let (month, rest) ← upToTwoDigits? (← sign? '-' rest)
  let (day, rest) ← upToTwoDigits? (← sign? '-' rest)
  let clock ← clockPart? rest
  return { year, month, day, clock }

/-- Whether a plain text is a date or time by its form. A date alone needs all its digits. -/
def isImplicit (cs : List Char) : Bool :=
  match parse? cs with
  | some t => t.clock.isSome || cs.length == 10
  | none => false

/-- The microseconds of a fraction; further digits are dropped. -/
def microseconds (fraction : List Char) : Nat :=
  digitsValue ((fraction ++ List.replicate 6 '0').take 6)

/-- The seconds that a zone is ahead of universal time. -/
def zoneSeconds : ZoneParts → Int
  | .universal => 0
  | .offset negative hours minutes =>
    let seconds : Int := hours * 3600 + minutes * 60
    if negative then -seconds else seconds

/-- The first part of a date with time that is out of range: the zone, then the date, then the
time. -/
def dateTimeFault? (t : DateTime) : Option CalendarFault :=
  let zoneFault : Option CalendarFault :=
    match t.offset with
    | some seconds => if 86400 ≤ seconds.natAbs then some (.offset seconds) else none
    | none => none
  (zoneFault.or t.date.fault?).or t.time.fault?

end Timestamp

end DocSchema.Yaml
