import Pigeonhole.Number.Basic
import Pigeonhole.Text.Blank
import Pigeonhole.Text.Keyword
import Pigeonhole.Text.Split

/-!
# Numerals

`DecimalText` is a number as it is written: digits before and after a point, and an exponent.  The
readers of this file take a whole text: `readInt` and `readDouble?` with digits of any script,
white space at the ends and single underscores between digits, `fieldInt` and `fieldDouble?` as
numeric fields take their strings.  An integer may have `maxDigits` digits at most, whether it is
read or written.
-/

namespace Pigeonhole

/-- The parts of a decimal number as it is written, digits by their values. -/
structure DecimalText where
  whole : List Nat
  fraction : List Nat := []
  exponent : Int := 0
deriving Repr

namespace DecimalText

/-- The double nearest to a decimal number as it is written. -/
def toDouble (negative : Bool) (d : DecimalText) : Double :=
  let digits := d.whole ++ d.fraction
  Double.ofDecimal negative (Text.digitsValue digits) digits.length
    (d.exponent - d.fraction.length)

end DecimalText

/-- Why a text is no integer. -/
inductive NumeralError where
  | malformed
  /-- More digits than integers may have. -/
  | tooLong (digits : Nat)
deriving DecidableEq, Repr

namespace Numeral

open Text

/-- The most digits that an integer may be written with. -/
def maxDigits : Nat := 4300

/-- The number of digits, unless there are too many. -/
def ofDigits (ds : List Nat) : Except NumeralError Nat :=
  if ds.length ≤ maxDigits then .ok (digitsValue ds) else .error (.tooLong ds.length)

/-- The values of the ASCII digits at the beginning of a text, and the rest. -/
def spanDigits : List Char → List Nat × List Char
  | [] => ([], [])
  | c :: s =>
    match asciiDigitValue? c with
    | some v => (v :: (spanDigits s).1, (spanDigits s).2)
    | none => ([], c :: s)

/-- A sign at the beginning of a text (whether it is a minus), and the rest. -/
def takeSign : List Char → Bool × List Char
  | '-' :: s => (true, s)
  | '+' :: s => (false, s)
  | s => (false, s)

/-- The exponent at the beginning of a text, if there is one, and the rest. -/
def takeExponent (s : List Char) : Int × List Char :=
  match s with
  | c :: t =>
    if c = 'e' ∨ c = 'E' then
      match spanDigits (takeSign t).2 with
      | ([], _) => (0, s)
      | (ds, rest) => (if (takeSign t).1 then -digitsValue ds else digitsValue ds, rest)
    else (0, s)
  | [] => (0, [])

/-- White space around numerals: all but the information separators. -/
def isMargin (c : Char) : Bool := isBlank c && !(0x1c ≤ c.toNat && c.toNat ≤ 0x1f)

/-- The text without margins. -/
def trimMargins (s : List Char) : List Char :=
  ((s.dropWhile isMargin).reverse.dropWhile isMargin).reverse

/-- Decimal digits of any script as the digits `0` to `9`. -/
def plainDigits (s : List Char) : List Char :=
  s.map fun c => ((digitValue? c).map digitChar).getD c

/-- The text without its underscores if each stands between two digits. -/
def dropUnderscores (before : Option Char) : List Char → Option (List Char)
  | [] => some []
  | '_' :: s =>
    match before, s with
    | some b, c :: _ => if isAsciiDigit b && isAsciiDigit c then dropUnderscores none s else none
    | _, _ => none
  | c :: s => (dropUnderscores (some c) s).map (c :: ·)

/-- The integer of a sign and digits. -/
def signedInt (s : List Char) : Except NumeralError Int :=
  match spanDigits (takeSign s).2 with
  | ([], _) => .error .malformed
  | (ds, []) => (ofDigits ds).map fun n => if (takeSign s).1 then -(n : Int) else n
  | _ => .error .malformed

/-- The decimal number of digits with an optional point and exponent; a digit has to stand on one
side of the point. -/
def decimalText? (s : List Char) : Option DecimalText :=
  let (whole, rest) := spanDigits s
  let (fraction, rest) := match rest with
    | '.' :: t => spanDigits t
    | _ => ([], rest)
  let (exponent, rest) := takeExponent rest
  if whole.isEmpty && fraction.isEmpty then none
  else if rest.isEmpty then some { whole, fraction, exponent } else none

/-- The double of a sign and a decimal number or a name of a value that is not finite, in any case
of ASCII letters. -/
def signedDouble? (s : List Char) : Option Double :=
  let (negative, body) := takeSign s
  let name := body.map Char.toLower
  if name = "nan".toList then some .nan
  else if name = "inf".toList ∨ name = "infinity".toList then some (.infinite negative)
  else (decimalText? body).map (·.toDouble negative)

/-- The text of a numeral in plain digits, without the white space around it. -/
def numeralText (s : List Char) : List Char := plainDigits (trimMargins s)

/-- Reads an integer. -/
def readInt (s : List Char) : Except NumeralError Int :=
  match dropUnderscores none (numeralText s) with
  | some digits => signedInt digits
  | none => .error .malformed

/-- Reads a double. -/
def readDouble? (s : List Char) : Option Double :=
  (dropUnderscores none (numeralText s)).bind signedDouble?

/-- The text without its underscores, if it has some, none at its ends and no two in a row. -/
def joinGroups? (s : List Char) : Option (List Char) :=
  let groups := splitOnChar '_' s
  if groups.length ≤ 1 ∨ groups.any (·.isEmpty) then none else some groups.flatten

/-- The text without a point and the zeros after it, if nothing else follows the point and there is
at least one zero. -/
def dropZeroFraction (s : List Char) : List Char :=
  match s.dropWhile (· != '.') with
  | _ :: '0' :: zeros => if zeros.all (· == '0') then s.takeWhile (· != '.') else s
  | _ => s

/-- A text that begins with a zero without the zeros and underscores in front of its first other
digit or of a minus; the last zero stays if a point or nothing follows.  `none` if anything else
follows. -/
def dropZeros? : List Char → Option (List Char)
  | [] => none
  | [c] => if c = '0' ∨ c = '_' then some [c] else none
  | c :: d :: s =>
    if d = '0' ∨ d = '_' then dropZeros? (d :: s)
    else if d = '.' then some (c :: d :: s)
    else if d = '-' ∨ ('1' ≤ d ∧ d ≤ '9') then some (d :: s)
    else none

/-- The text of an integer without its plus sign and its zeros in front, if it begins as an integer
does. -/
def dropLead? (s : List Char) : Option (List Char) :=
  let body := match s with
    | '+' :: t => t
    | _ => s
  match body with
  | '0' :: _ => dropZeros? body
  | c :: _ => if c = '-' ∨ isAsciiDigit c then some body else none
  | [] => none

/-- The integer of an optional minus and digits, without zeros in front.  Its whole text may be as
long as an integer may have digits. -/
def strictInt (s : List Char) : Except NumeralError Int :=
  let (negative, body) := match s with
    | '-' :: t => (true, t)
    | _ => (false, s)
  let sign : Nat := if negative then 1 else 0
  match spanDigits body with
  | ([], _) => .error .malformed
  | (d :: ds, []) =>
    if d = 0 ∧ ds ≠ [] then .error .malformed
    else if ds.length + 1 + sign ≤ maxDigits then
      .ok (if negative then -(digitsValue (d :: ds) : Int) else digitsValue (d :: ds))
    else .error (.tooLong (ds.length + 1))
  | _ => .error .malformed

/-- Reads an integer given as a string for a numeric field: ASCII digits with single underscores,
white space around them, zeros in front, and a fraction of zeros. -/
def fieldInt (s : List Char) : Except NumeralError Int :=
  match dropLead? (trimMargins s) with
  | none => .error .malformed
  | some body =>
    let digits := dropZeroFraction body
    strictInt ((joinGroups? digits).getD digits)

/-- Reads a double given as a string for a numeric field. -/
def fieldDouble? (s : List Char) : Option Double :=
  match signedDouble? (trimMargins s) with
  | some x => some x
  | none => (joinGroups? s).bind signedDouble?

end Numeral

/-- Whether a number can be written: an integer has no more digits than are read, and every double
has a text. -/
def Number.isWritable : Number → Bool
  | .int n => (Text.natDigits n.natAbs).length ≤ Numeral.maxDigits
  | .double _ => true

end Pigeonhole
