import Pigeonhole.Number.Numeral

/-!
# Points in time

Records carry their time as seconds since the beginning of 1970.  A `Moment` is such a time on the
calendar of coordinated universal time.
-/

namespace Pigeonhole.Log

/-- A second on the calendar. -/
structure Moment where
  year : Int
  month : Nat
  day : Nat
  hour : Nat
  minute : Nat
  second : Nat
deriving DecidableEq, Repr

/-- The day of the calendar that lies a number of days after the first of March of the year zero.
Years are counted from March, so a leap day ends its year. -/
def civilDay (days : Int) : Int × Nat × Nat :=
  let era := days.fdiv 146097
  let dayOfEra := (days.fmod 146097).toNat
  let yearOfEra := (dayOfEra - dayOfEra / 1460 + dayOfEra / 36524 - dayOfEra / 146096) / 365
  let dayOfYear := dayOfEra - (365 * yearOfEra + yearOfEra / 4 - yearOfEra / 100)
  let shifted := (5 * dayOfYear + 2) / 153
  let day := dayOfYear - (153 * shifted + 2) / 5 + 1
  let month := if shifted < 10 then shifted + 3 else shifted - 9
  let year := (yearOfEra : Int) + era * 400 + (if month ≤ 2 then 1 else 0)
  (year, month, day)

/-- The days from the first of March of the year zero to the beginning of 1970. -/
def daysToEpoch : Int := 719468

/-- The calendar second that is a number of seconds after the beginning of 1970. -/
def Moment.ofSeconds (seconds : Int) : Moment :=
  let (year, month, day) := civilDay (seconds.fdiv 86400 + daysToEpoch)
  let inDay := (seconds.fmod 86400).toNat
  { year, month, day, hour := inDay / 3600, minute := inDay / 60 % 60, second := inDay % 60 }

/-- The digits of a natural number, filled up with zeros to a width. -/
def padded (width n : Nat) : List Char :=
  let ds := Text.natDigits n
  List.replicate (width - ds.length) '0' ++ ds

/-- Date and time with a mark between them. -/
def Moment.text (yearWidth : Nat) (mark : Char) (m : Moment) : List Char :=
  (if m.year < 0 then '-' :: padded yearWidth m.year.natAbs else padded yearWidth m.year.toNat) ++
    '-' :: padded 2 m.month ++ '-' :: padded 2 m.day ++ mark :: padded 2 m.hour ++
    ':' :: padded 2 m.minute ++ ':' :: padded 2 m.second

/-- Why a time is not written. -/
inductive TimeError where
  /-- The time is not a number. -/
  | notANumber
  /-- The time is beyond 64 bits, or its year beyond what a text can hold. -/
  | tooLarge
  /-- The time is beyond the calendar. -/
  | noMoment
  /-- The year is beyond what the machine-readable form can show. -/
  | year
deriving DecidableEq, Repr

/-- The microseconds of a part of a second, a half rounded to the even one. -/
def microsOf (num den : Nat) : Nat :=
  match ((Double.ofRatio false num den).scale 1000000).ratio? with
  | some (_, n, d) => roundHalfEven n d
  | none => 0

/-- Whole seconds and microseconds of a fraction. -/
def splitSeconds (negative : Bool) (num den : Nat) : Int × Nat :=
  let whole := Double.signed negative (num / den)
  let n := microsOf (num % den) den
  if negative then
    if n = 0 then (whole, 0)
    else if n < 1000000 then (whole - 1, 1000000 - n)
    else (whole - 1, 0)
  else if 1000000 ≤ n then (whole + 1, n - 1000000) else (whole, n)

/-- Seconds and microseconds of a time. -/
def secondsAndMicros : Number → Except TimeError (Int × Nat)
  | .int n => .ok (n, 0)
  | .double .nan => .error .notANumber
  | .double x =>
    match x.ratio? with
    | some (negative, num, den) => .ok (splitSeconds negative num den)
    | none => .error .tooLarge

/-- The whole seconds of a time. -/
def wholeSeconds : Number → Except TimeError Int
  | .int n => .ok n
  | .double .nan => .error .notANumber
  | .double x =>
    match x.floor? with
    | some n => .ok n
    | none => .error .tooLarge

/-- The calendar second that lies a number of seconds after the beginning of 1970, if there is one:
seconds have 64 bits, and years 32, counted from 1900. -/
def momentAt (seconds : Int) : Except TimeError Moment :=
  if seconds < -9223372036854775808 ∨ 9223372036854775807 < seconds then .error .tooLarge
  else
    let m := Moment.ofSeconds seconds
    if m.year - 1900 < -2147483648 ∨ 2147483647 < m.year - 1900 then .error .noMoment else .ok m

/-- The years that the machine-readable form can show. -/
def isWritableYear (year : Int) : Bool := 1 ≤ year && year ≤ 9999

/-- The machine-readable form of a time: with microseconds if there are any, and the offset from
universal time. -/
def isoTime (created : Number) : Except TimeError (List Char) := do
  let (seconds, micros) ← secondsAndMicros created
  let m ← momentAt seconds
  if isWritableYear m.year then
    return m.text 4 'T' ++ (if micros = 0 then [] else '.' :: padded 6 micros) ++ "+00:00".toList
  else throw .year

/-- The form of a time in lines of text, in whole seconds; its year has 32 bits. -/
def plainTime (created : Number) : Except TimeError (List Char) := do
  let m ← momentAt (← wholeSeconds created)
  if 2147483647 < m.year then throw .tooLarge else return m.text 1 ' '

/-- How a time looks in lines of text whose year has four digits, a zero for every digit. -/
def plainPattern : List Char := "0000-00-00 00:00:00 ".toList

/-- A line of text without the time at its beginning. -/
def dropTime (line : List Char) : List Char :=
  let head := line.take plainPattern.length
  if head.map (fun c => if Text.isAsciiDigit c then '0' else c) = plainPattern then
    line.drop plainPattern.length
  else line

end Pigeonhole.Log
