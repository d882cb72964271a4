import DspHost.Number.Decimal

/-!
# Dates and times of a settings file

A date has four digits for the year and two each for month and day, a time two each for hour, minute
and second and perhaps a fraction. A time on a date may say how far it is ahead of universal time.

## Main definitions

* `Toml.Date`, `Toml.Date.exists` — a day of the calendar
* `Toml.ClockTime` — a time of day
* `Toml.Moment` — a date, a time, or both
* `Toml.readMoment?` — a moment and what follows it
-/

namespace DspHost.Toml

/-- A calendar date. -/
structure Date where
  /-- The year. -/
  year : Nat
  /-- The month, from 1. -/
  month : Nat
  /-- The day of the month, from 1. -/
  day : Nat
  deriving DecidableEq, Repr

/-- A time of day. -/
structure ClockTime where
  /-- The hour. -/
  hour : Nat
  /-- The minute. -/
  minute : Nat
  /-- The second; the sixtieth is a leap second. -/
  second : Nat
  /-- The digits of the fraction of a second. -/
  fraction : List Nat
  deriving DecidableEq, Repr

/-- A date, a time of day, or both. -/
inductive Moment where
  /-- A date. -/
  | date (date : Date)
  /-- A time of day. -/
  | time (time : ClockTime)
  /-- A time on a date, with the minutes that it is ahead of universal time if that is said. -/
  | both (date : Date) (time : ClockTime) (ahead : Option Int)
  deriving DecidableEq, Repr

/-! ### The calendar -/

/-- Whether a year has a leap day: every fourth year, of the full centuries every fourth. -/
def isLeapYear (year : Nat) : Bool := year % 4 == 0 && (year % 100 != 0 || year % 400 == 0)

/-- The number of days of a month. -/
def daysOf (year month : Nat) : Nat :=
  if month = 2 then (if isLeapYear year then 29 else 28)
  else if month ∈ [4, 6, 9, 11] then 30
  else if 1 ≤ month ∧ month ≤ 12 then 31
  else 0

/-- Whether the calendar has the date. -/
def Date.exists (d : Date) : Bool := 1 ≤ d.day && d.day ≤ daysOf d.year d.month

/-- Whether a clock shows the time. -/
def ClockTime.exists (t : ClockTime) : Bool := t.hour ≤ 23 && t.minute ≤ 59 && t.second ≤ 60

/-! ### Reading -/

/-- The number of a given count of digits. -/
def readFixed? (count : Nat) (text : List Char) : Option (Nat × List Char) :=
  let digits := text.take count
  if digits.length = count ∧ digits.all Char.isDigit then
    some (digitsValue (digits.map digitValue), text.drop count)
  else none

/-- The text after a character. -/
def readMark? (mark : Char) : List Char → Option (List Char)
  | c :: rest => if c = mark then some rest else none
  | [] => none

/-- Reads a date that the calendar has. -/
def readDate? (text : List Char) : Option (Date × List Char) := do
  let (year, rest) ← readFixed? 4 text
  let (month, rest) ← readFixed? 2 (← readMark? '-' rest)
  let (day, rest) ← readFixed? 2 (← readMark? '-' rest)
  let date : Date := ⟨year, month, day⟩
  if date.exists then some (date, rest) else none

/-- The digits of a fraction, if a point and at least one digit follow. -/
def scanFractionDigits (text : List Char) : List Nat × List Char :=
  match text with
  | '.' :: rest =>
    match scanDigits rest with
    | ([], _) => ([], text)
    | found => found
  | _ => ([], text)

/-- Reads a time that a clock shows. -/
def readTime? (text : List Char) : Option (ClockTime × List Char) := do
  let (hour, rest) ← readFixed? 2 text
  let (minute, rest) ← readFixed? 2 (← readMark? ':' rest)
  let (second, rest) ← readFixed? 2 (← readMark? ':' rest)
  let (fraction, rest) := scanFractionDigits rest
  let time : ClockTime := ⟨hour, minute, second, fraction⟩
  if time.exists then some (time, rest) else none

/-- Reads how many minutes a time is ahead of universal time, after the sign. -/
def readAhead? (text : List Char) : Option (Nat × List Char) := do
  let (hour, rest) ← readFixed? 2 text
  let (minute, rest) ← readFixed? 2 (← readMark? ':' rest)
  if hour ≤ 23 ∧ minute ≤ 59 then some (60 * hour + minute, rest) else none

/-- Reads how far a time is ahead of universal time, if that is said. -/
def readOffset? : List Char → Option (Option Int × List Char)
  | 'Z' :: rest => some (some 0, rest)
  | 'z' :: rest => some (some 0, rest)
  | '+' :: rest => (readAhead? rest).map fun (minutes, after) => (some minutes, after)
  | '-' :: rest => (readAhead? rest).map fun (minutes, after) => (some (-minutes), after)
  | text => some (none, text)

/-- The text after the mark between a date and a time. -/
def dateMark? : List Char → Option (List Char)
  | c :: rest => if c = 'T' ∨ c = 't' ∨ c = ' ' then some rest else none
  | [] => none

/-- Whether a text starts with two digits and a colon, as a time does. -/
def startsTime (text : List Char) : Bool :=
  ((readFixed? 2 text).bind fun (_, rest) => readMark? ':' rest).isSome

/-- Whether a text starts with four digits and a hyphen, as a date does. -/
def startsDate (text : List Char) : Bool :=
  ((readFixed? 4 text).bind fun (_, rest) => readMark? '-' rest).isSome

/-- Reads a moment. -/
def readMoment? (text : List Char) : Option (Moment × List Char) :=
  if startsTime text then (readTime? text).map fun (time, rest) => (.time time, rest)
  else do
    let (date, rest) ← readDate? text
    match (dateMark? rest).filter startsTime with
    | none => return (.date date, rest)
    | some rest =>
      let (time, rest) ← readTime? rest
      let (ahead, rest) ← readOffset? rest
      return (.both date time ahead, rest)

/-! ### Readings -/

example : isLeapYear 2000 ∧ ¬ isLeapYear 1900 ∧ daysOf 2024 2 = 29 := by decide

example : readMoment? "1979-05-27 # a".toList
    = some (.date ⟨1979, 5, 27⟩, " # a".toList) := by cbv

example : readMoment? "1979-05-27t07:32:00.25-00:30".toList
    = some (.both ⟨1979, 5, 27⟩ ⟨7, 32, 0, [2, 5]⟩ (some (-30)), []) := by cbv

example : readMoment? "1979-02-29".toList = none := by cbv

end DspHost.Toml
