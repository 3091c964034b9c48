import Pigeonhole.Json.Printer
import Pigeonhole.Number.Numeral

/-!
# Reading JSON text

`Json.parse` reads a whole text.  Besides the standard grammar it takes `NaN`, `Infinity` and
`-Infinity`; a number with a point or an exponent is a double, any other an integer.  A repeated key
keeps its first place and its last value.  The length of integers and the depth of the text are
bounded; of several faults the first one counts.

A text is a list of characters, and half of a surrogate pair is no character.  An escape may name
such a half without its other half; no value here is what it stands for, so it is refused by an
error of its own.
-/

namespace Pigeonhole

/-- Why a text is not read as JSON. -/
inductive JsonError where
  | malformed
  /-- An integer with more digits than are read or written. -/
  | longInteger
  /-- Too many arrays and objects inside each other. -/
  | tooDeep
  /-- A string with half of a surrogate pair, which is no text. -/
  | halfPair
deriving DecidableEq, Repr

namespace Json

/-- White space between the parts of JSON text. -/
def isSpace (c : Char) : Bool := c = ' ' || c = '\t' || c = '\n' || c = '\r'

/-- The text without its leading white space. -/
def skipSpace (s : List Char) : List Char := s.dropWhile isSpace

/-- The value of a hexadecimal digit. -/
def hexValue? (c : Char) : Option Nat :=
  if '0' ≤ c ∧ c ≤ '9' then some (c.toNat - '0'.toNat)
  else if 'a' ≤ c ∧ c ≤ 'f' then some (c.toNat - 'a'.toNat + 10)
  else if 'A' ≤ c ∧ c ≤ 'F' then some (c.toNat - 'A'.toNat + 10)
  else none

/-- The number of four hexadecimal digits. -/
def hexUnit? (a b c d : Char) : Option Nat := do
  let a ← hexValue? a
  let b ← hexValue? b
  let c ← hexValue? c
  let d ← hexValue? d
  return ((a * 16 + b) * 16 + c) * 16 + d

/-- Whether a unit is the first half of a surrogate pair. -/
def isHighUnit (n : Nat) : Bool := 0xd800 ≤ n && n < 0xdc00

/-- Whether a unit is the second half of a surrogate pair. -/
def isLowUnit (n : Nat) : Bool := 0xdc00 ≤ n && n < 0xe000

/-- The code points of a text whose units may be halves of surrogate pairs. -/
def joinPairs : List Nat → List Nat
  | high :: low :: rest =>
    if isHighUnit high && isLowUnit low then
      (0x10000 + (high - 0xd800) * 0x400 + (low - 0xdc00)) :: joinPairs rest
    else high :: joinPairs (low :: rest)
  | units => units

/-- The character of a code point, `none` for half of a pair. -/
def pointChar? (n : Nat) : Option Char :=
  if 0xd800 ≤ n && n < 0xe000 then none else some (Char.ofNat n)

/-- The characters of code points, `none` if there is half of a pair. -/
def pointChars? : List Nat → Option (List Char)
  | [] => some []
  | n :: rest =>
    match pointChar? n, pointChars? rest with
    | some c, some cs => some (c :: cs)
    | _, _ => none

/-- The text of units. -/
def textOfUnits? (units : List Nat) : Option (List Char) := pointChars? (joinPairs units)

/-- The character of a simple escape. -/
def simpleEscape? (c : Char) : Option Char :=
  if c = '\x22' then some '\x22'
  else if c = '\\' then some '\\'
  else if c = '/' then some '/'
  else if c = 'b' then some '\x08'
  else if c = 'f' then some '\x0c'
  else if c = 'n' then some '\n'
  else if c = 'r' then some '\r'
  else if c = 't' then some '\t'
  else none

/-- The units up to the closing quote, and the rest after it: an escape by number is one unit, any
other character its code point. -/
def stringUnits? : List Char → Option (List Nat × List Char)
  | [] => none
  | '\x22' :: s => some ([], s)
  | '\\' :: 'u' :: a :: b :: c :: d :: s =>
    match hexUnit? a b c d with
    | some unit => (stringUnits? s).map fun (units, rest) => (unit :: units, rest)
    | none => none
  | '\\' :: c :: s =>
    match simpleEscape? c with
    | some x => (stringUnits? s).map fun (units, rest) => (x.toNat :: units, rest)
    | none => none
  | c :: s =>
    if c = '\\' ∨ c.toNat < 0x20 then none
    else (stringUnits? s).map fun (units, rest) => (c.toNat :: units, rest)

/-- The text up to the closing quote, and the rest after it. -/
def stringBody (s : List Char) : Except JsonError (List Char × List Char) :=
  match stringUnits? s with
  | none => .error .malformed
  | some (units, rest) =>
    match textOfUnits? units with
    | some text => .ok (text, rest)
    | none => .error .halfPair

/-- The number at the beginning of a text that starts with a digit. -/
def unsigned (negative : Bool) (s : List Char) : Except JsonError (Number × List Char) :=
  let (whole, rest) := match s with
    | '0' :: t => ([0], t)
    | _ => Numeral.spanDigits s
  if whole.isEmpty then .error .malformed
  else
    let (fraction, afterPoint) := match rest with
      | '.' :: t => Numeral.spanDigits t
      | _ => ([], rest)
    let rest := if fraction.isEmpty then rest else afterPoint
    let (exponent, tail) := Numeral.takeExponent rest
    if fraction.isEmpty ∧ tail.length = rest.length then
      match Numeral.ofDigits whole with
      | .ok n => .ok (.int (if negative then -n else n), rest)
      | .error _ => .error .longInteger
    else .ok (.double (DecimalText.toDouble negative { whole, fraction, exponent }), tail)

/-- The number at the beginning of a text, named values included. -/
def number (s : List Char) : Except JsonError (Number × List Char) :=
  match s with
  | '-' :: t =>
    match Text.dropExact "Infinity".toList t with
    | some rest => .ok (.double (.infinite true), rest)
    | none => unsigned true t
  | _ =>
    match Text.dropExact "NaN".toList s with
    | some rest => .ok (.double .nan, rest)
    | none =>
      match Text.dropExact "Infinity".toList s with
      | some rest => .ok (.double (.infinite false), rest)
      | none => unsigned false s

/-- A constant or a number at the beginning of a text. -/
def atom (s : List Char) : Except JsonError (Json × List Char) :=
  match Text.dropExact "null".toList s with
  | some rest => .ok (.null, rest)
  | none =>
    match Text.dropExact "true".toList s with
    | some rest => .ok (.bool true, rest)
    | none =>
      match Text.dropExact "false".toList s with
      | some rest => .ok (.bool false, rest)
      | none => (number s).map fun (n, rest) => (.num n, rest)

mutual

/-- The value at the beginning of a text; the fuel bounds the number of values and separators, and
`depth` the arrays and objects inside each other. -/
def value : Nat → Nat → List Char → Except JsonError (Json × List Char)
  | 0, _, _ => .error .malformed
  | fuel + 1, depth, s =>
    match s with
    | '\x22' :: t =>
      match stringBody t with
      | .ok (body, rest) => .ok (Tree.ofString body, rest)
      | .error e => .error e
    | '[' :: t =>
      match depth, skipSpace t with
      | 0, _ => .error .tooDeep
      | _ + 1, ']' :: rest => .ok (.arr [], rest)
      | depth + 1, u => (items fuel depth u).map fun (items, rest) => (.arr items, rest)
    | '\x7b' :: t =>
      match depth, skipSpace t with
      | 0, _ => .error .tooDeep
      | _ + 1, '\x7d' :: rest => .ok (.obj [], rest)
      | depth + 1, u =>
        (members fuel depth u).map fun (members, rest) => (.obj (assignAll members), rest)
    | _ => atom s

/-- The items of an array up to its closing bracket. -/
def items : Nat → Nat → List Char → Except JsonError (List Json × List Char)
  | 0, _, _ => .error .malformed
  | fuel + 1, depth, s =>
    match value fuel depth s with
    | .error e => .error e
    | .ok (v, rest) =>
      match skipSpace rest with
      | ',' :: t => (items fuel depth (skipSpace t)).map fun (items, rest) => (v :: items, rest)
      | ']' :: t => .ok ([v], t)
      | _ => .error .malformed

/-- The members of an object up to its closing brace. -/
def members : Nat → Nat → List Char → Except JsonError (List (String × Json) × List Char)
  | 0, _, _ => .error .malformed
  | fuel + 1, depth, s =>
    match s with
    | '\x22' :: t =>
      match stringBody t with
      | .error e => .error e
      | .ok (key, afterKey) =>
        match skipSpace afterKey with
        | ':' :: u =>
          match value fuel depth (skipSpace u) with
          | .error e => .error e
          | .ok (v, rest) =>
            match skipSpace rest with
            | ',' :: t =>
              (members fuel depth (skipSpace t)).map fun (members, rest) =>
                ((String.ofList key, v) :: members, rest)
            | '\x7d' :: t => .ok ([(String.ofList key, v)], t)
            | _ => .error .malformed
        | _ => .error .malformed
    | _ => .error .malformed

end

/-- How many arrays and objects may stand inside each other. -/
def maxDepth : Nat := 980

/-- Reads a whole text as one JSON value. -/
def parse (s : List Char) : Except JsonError Json :=
  match value (2 * s.length + 2) maxDepth (skipSpace s) with
  | .ok (v, rest) => if (skipSpace rest).isEmpty then .ok v else .error .malformed
  | .error e => .error e

end Json

end Pigeonhole
