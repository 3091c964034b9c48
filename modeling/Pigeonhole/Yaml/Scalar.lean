import Pigeonhole.Json.Parser
import Pigeonhole.Yaml.Error

/-!
# Plain scalars

A scalar without quotes is read by its look: as null, a boolean, an integer in one of several bases,
a double, a date, or else as a string.
-/

namespace Pigeonhole.Yaml

open Text

/-- Words that stand for booleans. -/
def booleanWord? (s : String) : Option Bool :=
  if s ∈ ["yes", "Yes", "YES", "true", "True", "TRUE", "on", "On", "ON"] then some true
  else if s ∈ ["no", "No", "NO", "false", "False", "FALSE", "off", "Off", "OFF"] then some false
  else none

/-- Whether a text stands for null. -/
def isNullWord (s : String) : Bool := s ∈ ["", "~", "null", "Null", "NULL"]

/-- Whether all characters are digits of a base or underscores. -/
def allDigits (base : Nat) (s : List Char) : Bool :=
  s.all fun c => c = '_' || ((Json.hexValue? c).any (· < base))

/-- The number of digits of a base; underscores are left out. -/
def digitsNumber (base : Nat) (s : List Char) : Nat :=
  (s.filterMap Json.hexValue?).foldl (fun n d => n * base + d) 0

/-- Whether a text is a part of a number in base sixty after its first. -/
def isSixtieth (s : List Char) : Bool :=
  match s with
  | [c] => isAsciiDigit c
  | [a, b] => '0' ≤ a && a ≤ '5' && isAsciiDigit b
  | _ => false

/-- The number of parts in base sixty. -/
def sixtiethsNumber (parts : List (List Char)) : Nat :=
  parts.foldl (fun n part => n * 60 + digitsNumber 10 part) 0

/-- Whether a text starts with one of the digits `1` to `9` and goes on with digits. -/
def isPositive (s : List Char) : Bool :=
  match s with
  | c :: _ => '1' ≤ c && c ≤ '9' && allDigits 10 s
  | [] => false

/-- Whether a text starts with a digit and goes on with digits. -/
def isDigits (s : List Char) : Bool :=
  match s with
  | c :: _ => isAsciiDigit c && allDigits 10 s
  | [] => false

/-- The value of digits in a base after its mark, if all are digits of the base. -/
def based? (base : Nat) (s : List Char) : Option (Except YamlError Nat) :=
  if s.isEmpty || !allDigits base s then none
  else if (s.filter (· != '_')).isEmpty then some (.error .range)
  else some (.ok (digitsNumber base s))

/-- The value of decimal digits, unless there are more than integers may have. -/
def decimal (s : List Char) : Except YamlError Nat :=
  (Numeral.ofDigits (s.filterMap Json.hexValue?)).mapError fun _ => .range

/-- The value of an unsigned integer. -/
def natural? (s : List Char) : Option (Except YamlError Nat) :=
  match s with
  | ['0'] => some (.ok 0)
  | '0' :: 'b' :: t => based? 2 t
  | '0' :: 'x' :: t => based? 16 t
  | '0' :: t => if allDigits 8 t then some (.ok (digitsNumber 8 t)) else none
  | _ =>
    match splitOnChar ':' s with
    | [_] => if isPositive s then some (decimal s) else none
    | first :: rest =>
      if isPositive first && rest.all isSixtieth then
        some ((decimal first).map fun _ => sixtiethsNumber (first :: rest))
      else none
    | [] => none

/-- The value of an integer. -/
def integer? (s : List Char) : Option (Except YamlError Int) :=
  let (negative, body) := Numeral.takeSign s
  (natural? body).map fun n => n.map fun n => if negative then -(n : Int) else n

/-- Whether a text is an exponent with its sign. -/
def isExponent (s : List Char) : Bool :=
  match s with
  | 'e' :: sign :: ds | 'E' :: sign :: ds =>
    (sign = '+' || sign = '-') && !ds.isEmpty && ds.all isAsciiDigit
  | _ => false

/-- Whether a text is digits and underscores with an exponent or none after them. -/
def isFraction (s : List Char) : Bool :=
  let rest := s.dropWhile fun c => isAsciiDigit c || c = '_'
  rest.isEmpty || isExponent rest

/-- A double increased by a natural number, rounded once. -/
def addNatural (x : Double) (n : Nat) : Double :=
  match x.ratio? with
  | some (_, num, den) => Double.ofRatio false (num + n * den) den
  | none => x

/-- The double in base sixty of parts, the last first, from a power of sixty on; every sum is
rounded. -/
def sixtiethsDouble (x : Double) (base : Nat) : List (List Char) → Double
  | [] => x
  | part :: rest =>
    sixtiethsDouble (addNatural x (digitsNumber 10 part * base)) (base * 60) rest

/-- The value of a double. -/
def double? (s : List Char) : Option Double :=
  let (negative, body) := Numeral.takeSign s
  let word := String.ofList body
  if word ∈ [".inf", ".Inf", ".INF"] then some (.infinite negative)
  else if String.ofList s ∈ [".nan", ".NaN", ".NAN"] then some .nan
  else if !body.contains '.' then none
  else
    let whole := body.takeWhile (· != '.')
    let fraction := (body.dropWhile (· != '.')).drop 1
    let plain := if whole.isEmpty then
        body.length = s.length && (fraction.head?.any isAsciiDigit) && isFraction fraction
      else isDigits whole && isFraction fraction
    if plain then
      (Numeral.signedDouble? (body.filter (· != '_'))).map (·.withSign negative)
    else
      match splitOnChar ':' whole with
      | first :: second :: rest =>
        if isDigits first && (second :: rest).all isSixtieth
            && fraction.all (fun c => isAsciiDigit c || c = '_') then
          let parts := (first :: second :: rest).reverse
          let last := parts.headD [] ++ '.' :: fraction
          (Numeral.signedDouble? (last.filter (· != '_'))).map fun x =>
            (sixtiethsDouble x 60 parts.tail).withSign negative
        else none
      | _ => none

/-- The days of a month. -/
def daysInMonth (year month : Nat) : Nat :=
  if month = 2 then
    if (year % 4 = 0 ∧ year % 100 ≠ 0) ∨ year % 400 = 0 then 29 else 28
  else if month ∈ [4, 6, 9, 11] then 30
  else 31

/-- Whether a day is on the calendar. -/
def isDay (year month day : Nat) : Bool :=
  1 ≤ year && 1 ≤ month && month ≤ 12 && 1 ≤ day && day ≤ daysInMonth year month

/-- Whether a text is a number of digits in a range of lengths. -/
def isCount (least most : Nat) (s : List Char) : Bool :=
  s.all isAsciiDigit && least ≤ s.length && s.length ≤ most

/-- The minutes of an offset from universal time: none, `Z`, or hours with minutes or not. -/
def offsetMinutes? (s : List Char) : Option Nat :=
  match s with
  | [] | ['Z'] => some 0
  | sign :: t =>
    if sign = '+' || sign = '-' then
      match splitOnChar ':' t with
      | [hours] => if isCount 1 2 hours then some (digitsNumber 10 hours * 60) else none
      | [hours, minutes] =>
        if isCount 1 2 hours && isCount 2 2 minutes then
          some (digitsNumber 10 hours * 60 + digitsNumber 10 minutes)
        else none
      | _ => none
    else none

/-- Whether a text looks like a time of the day with an offset, and if so, whether there is such a
time. -/
def timeOfDay? (s : List Char) : Option Bool :=
  match splitOnChar ':' s with
  | hours :: minutes :: rest =>
    let rest := joinWith [':'] rest
    let seconds := rest.take 2
    let tail := match rest.drop 2 with
      | '.' :: t => t.dropWhile isAsciiDigit
      | tail => tail
    let offset := offsetMinutes? (tail.dropWhile fun c => c = ' ' || c = '\t')
    if isCount 1 2 hours && isCount 2 2 minutes && isCount 2 2 seconds then
      offset.map fun offset => digitsNumber 10 hours < 24 && digitsNumber 10 minutes < 60 &&
        digitsNumber 10 seconds < 60 && offset < 1440
    else none
  | _ => none

/-- Whether a text looks like a date or a point in time, and if so, whether there is such a one. -/
def date? (s : List Char) : Option Bool :=
  match splitOnChar '-' s with
  | year :: month :: rest =>
    let rest := joinWith ['-'] rest
    let day := rest.takeWhile isAsciiDigit
    let tail := rest.drop day.length
    let real := isDay (digitsNumber 10 year) (digitsNumber 10 month) (digitsNumber 10 day)
    if tail.isEmpty then
      if isCount 4 4 year && isCount 2 2 month && isCount 2 2 day then some real else none
    else if isCount 4 4 year && isCount 1 2 month && isCount 1 2 day then
      let time := match tail with
        | 'T' :: t | 't' :: t => some t
        | _ =>
          let t := tail.dropWhile fun c => c = ' ' || c = '\t'
          if t.length < tail.length then some t else none
      (time.bind timeOfDay?).map (real && ·)
    else none
  | _ => none

/-- The value of a scalar without quotes. -/
def plainValue (s : List Char) : Except YamlError Value :=
  let word := String.ofList s
  match booleanWord? word with
  | some b => .ok (.bool b)
  | none =>
    if isNullWord word then .ok .null
    else if word = "=" || word = "<<" then .error .value
    else
      match double? s, integer? s, date? s with
      | some x, _, _ => .ok (Tree.double x)
      | none, some n, _ => n.map Tree.int
      | none, none, some true => .ok (.foreign .object)
      | none, none, some false => .error .range
      | none, none, none => .ok (.str word)

end Pigeonhole.Yaml
