import IncidentMemory.Number.Decimal
import IncidentMemory.Time.Calendar

/-!
# Timestamps

A timestamp is an instant in coordinated universal time, to the nanosecond. Inside a leap second the
nanoseconds run on past one second.

`render` writes the notation of RFC 3339 with as many fraction digits as needed in groups of three;
the zone is either `Z` or `+00:00`. `parse` reads that notation exactly, and `parseLenient` also
with blanks between the parts, numbers of fewer digits, years beyond four digits and the zone `UTC`.
-/

namespace IncidentMemory

/-- An instant in coordinated universal time. -/
structure Timestamp where
  /-- Whole seconds since 1970-01-01T00:00:00. -/
  seconds : Int
  /-- Nanoseconds after that second; from one thousand million up inside a leap second. -/
  nanos : Nat
  deriving DecidableEq, Repr

namespace Timestamp

/-- Seconds in a day. -/
def secondsPerDay : Nat := 86400

/-- Nanoseconds in a second. -/
def secondNanos : Nat := 1000000000

/-- The first and the last year that are told apart. -/
def yearRange : Int × Int := (-262143, 262142)

/-! ## Writing -/

/-- How universal time is marked at the end of a timestamp. -/
inductive ZoneMark where
  /-- The letter `Z`. -/
  | letter
  /-- The offset `+00:00`. -/
  | offset

/-- The mark as text. -/
def ZoneMark.text : ZoneMark → String
  | .letter => "Z"
  | .offset => "+00:00"

/-- A year: four digits, and a sign and at least four digits outside the years 0 to 9999. -/
def renderYear (y : Int) : String :=
  if 0 ≤ y ∧ y ≤ 9999 then Text.padded 4 y.toNat
  else (if y < 0 then "-" else "+") ++ Text.padded 4 y.natAbs

/-- A fraction of a second: nothing, or a point and three, six or nine digits. -/
def renderFraction (nanos : Nat) : String :=
  if nanos = 0 then ""
  else if nanos % 1000000 = 0 then "." ++ Text.padded 3 (nanos / 1000000)
  else if nanos % 1000 = 0 then "." ++ Text.padded 6 (nanos / 1000)
  else "." ++ Text.padded 9 nanos

/-- **A timestamp's text.** The second of a leap second is number sixty. -/
def render (zone : ZoneMark) (t : Timestamp) : String :=
  let day := t.seconds / secondsPerDay
  let ofDay := (t.seconds % secondsPerDay).toNat
  let date := Date.ofDayNumber day
  let leap := secondNanos ≤ t.nanos
  let second := ofDay % 60 + (if leap then 1 else 0)
  let nanos := if leap then t.nanos - secondNanos else t.nanos
  renderYear date.year ++ "-" ++ Text.padded 2 date.month ++ "-" ++ Text.padded 2 date.day ++ "T"
    ++ Text.padded 2 (ofDay / 3600) ++ ":" ++ Text.padded 2 (ofDay / 60 % 60) ++ ":"
    ++ Text.padded 2 second ++ renderFraction nanos ++ zone.text

/-! ## Reading -/

/-- The parts of a local date and time. -/
structure Local where
  /-- The date. -/
  date : Date
  /-- The hour. -/
  hour : Nat
  /-- The minute. -/
  minute : Nat
  /-- The second; sixty is a leap second. -/
  second : Nat
  /-- Nanoseconds. -/
  nanos : Nat

/-- The instant of a local time at an offset in seconds, if there is such a day and time, the offset
is less than a day, and the date lies within the years that are told apart. -/
def Local.at? (l : Local) (offset : Int) : Option Timestamp :=
  let inYears := fun (s : Int) =>
    let year := (Date.ofDayNumber (s / secondsPerDay)).year
    yearRange.1 ≤ year && year ≤ yearRange.2
  let second := min l.second 59
  let leap := if l.second = 60 then secondNanos else 0
  let atLocal := l.date.dayNumber * secondsPerDay + (l.hour * 3600 + l.minute * 60 + second : Nat)
  if l.date.isValid && l.hour < 24 && l.minute < 60 && l.second ≤ 60
      && offset.natAbs < secondsPerDay && yearRange.1 ≤ l.date.year && l.date.year ≤ yearRange.2 && inYears (atLocal - offset) then
    some ⟨atLocal - offset, l.nanos + leap⟩
  else none

/-- Between `least` and `most` digits at the start of a text, and the rest. -/
def digits? (least most : Nat) (s : List Char) : Option (Nat × List Char) :=
  let ds := (s.take most).takeWhile Number.isDigit
  if ds.length < least then none else some (Number.ofDigits ds, s.drop ds.length)

/-- All digits at the start of a text, at least one, and the rest. -/
def allDigits? (s : List Char) : Option (Nat × List Char) :=
  digits? 1 s.length s

/-- A given character at the start of a text, dropped. -/
def drop? (c : Char) : List Char → Option (List Char)
  | x :: s => if x = c then some s else none
  | [] => none

/-- The separator of date and time, dropped. -/
def dropTimeMark? : List Char → Option (List Char)
  | c :: s => if c = 'T' ∨ c = 't' ∨ c = ' ' then some s else none
  | [] => none

/-- A fraction of a second, if a point follows: nine digits count, further ones are passed over. -/
def fraction? : List Char → Option (Nat × List Char)
  | '.' :: s =>
    let ds := s.takeWhile Number.isDigit
    if ds.isEmpty then none
    else
      let kept := ds.take 9
      some (Number.ofDigits kept * Nat.pow 10 (9 - kept.length), s.drop ds.length)
  | s => some (0, s)

/-- A zone: `Z`, or a sign, two digits of hours, what `gap` passes over, and two digits of minutes.
The result is in seconds. -/
def zone? (gap : List Char → Option (List Char)) : List Char → Option (Int × List Char)
  | [] => none
  | c :: s =>
    if c = 'Z' ∨ c = 'z' then some (0, s)
    else if c = '+' ∨ c = '-' ∨ c = '\u2212' then do
      let (hours, s) ← digits? 2 2 s
      let s ← gap s
      let (minutes, s) ← digits? 2 2 s
      if 60 ≤ minutes then none
      else
        let offset : Int := hours * 3600 + minutes * 60
        some (if c = '+' then offset else -offset, s)
    else none

/-- **Reads a timestamp** in the notation of RFC 3339. -/
def parse (text : String) : Option Timestamp := do
  let (year, s) ← digits? 4 4 text.toList
  let s ← drop? '-' s
  let (month, s) ← digits? 2 2 s
  let s ← drop? '-' s
  let (day, s) ← digits? 2 2 s
  let s ← dropTimeMark? s
  let (hour, s) ← digits? 2 2 s
  let s ← drop? ':' s
  let (minute, s) ← digits? 2 2 s
  let s ← drop? ':' s
  let (second, s) ← digits? 2 2 s
  let (nanos, s) ← fraction? s
  let (offset, s) ← zone? (drop? ':') s
  if s.isEmpty then Local.at? ⟨⟨year, month, day⟩, hour, minute, second, nanos⟩ offset else none

/-- The text without the blanks in front. -/
def unblank (s : List Char) : List Char :=
  s.dropWhile Text.isBlank

/-- A year with any number of digits after a sign, or with at most four of them. -/
def lenientYear? (s : List Char) : Option (Int × List Char) :=
  match unblank s with
  | '-' :: s => (allDigits? s).map fun (y, s) => (-(y : Int), s)
  | '+' :: s => (allDigits? s).map fun (y, s) => ((y : Int), s)
  | s => (digits? 1 4 s).map fun (y, s) => ((y : Int), s)

/-- One or two digits, blanks in front. -/
def lenientPart? (s : List Char) : Option (Nat × List Char) :=
  digits? 1 2 (unblank s)

/-- The zone of the lenient notation: the letters `UTC` in any case, or a zone whose hours and
minutes may be apart. -/
def lenientZone? (s : List Char) : Option (Int × List Char) :=
  let s := unblank s
  if (s.take 3).map Text.lowerAscii = ['u', 't', 'c'] then some (0, s.drop 3)
  else zone? (fun s => some (s.dropWhile fun c => c = ':' || Text.isBlank c)) s

/-- **Reads a timestamp leniently.** -/
def parseLenient (text : String) : Option Timestamp := do
  let (year, s) ← lenientYear? text.toList
  let s ← drop? '-' (unblank s)
  let (month, s) ← lenientPart? s
  let s ← drop? '-' (unblank s)
  let (day, s) ← lenientPart? s
  let s ← dropTimeMark? s
  let (hour, s) ← lenientPart? s
  let s ← drop? ':' (unblank s)
  let (minute, s) ← lenientPart? s
  let s ← drop? ':' (unblank s)
  let (second, s) ← lenientPart? s
  let (nanos, s) ← fraction? s
  let (offset, s) ← lenientZone? s
  if (unblank s).isEmpty then Local.at? ⟨⟨year, month, day⟩, hour, minute, second, nanos⟩ offset
  else none

end Timestamp

end IncidentMemory
