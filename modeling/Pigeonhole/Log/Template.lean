import Pigeonhole.Json.Display
import Pigeonhole.Log.Record
import Pigeonhole.Number.Numeral
import Pigeonhole.Number.Rounded

/-!
# Message templates

A template is a text with directives such as `%s` or `%05.1f`, which take the arguments of a record
in order, or by name if there is a single mapping.  Every argument has to be taken.
-/

namespace Pigeonhole.Log

/-- Why a template is not filled in. -/
inductive TemplateError where
  /-- An argument is missing, left over or of the wrong kind. -/
  | mismatch
  /-- A directive that is cut short or unknown, or a number without an integer part. -/
  | malformed
  | missingKey
  /-- A number that is too large. -/
  | tooLarge
  /-- An argument or a message with an integer that is too long to be written. -/
  | longInteger
deriving DecidableEq, Repr

/-- The form of a directive. -/
structure Directive where
  left : Bool := false
  plus : Bool := false
  blank : Bool := false
  alternate : Bool := false
  zero : Bool := false
  width : Nat := 0
  precision : Option Nat := none

namespace Directive

/-- The directive with a flag set, if the character is one. -/
def flag? (d : Directive) (c : Char) : Option Directive :=
  if c = '-' then some { d with left := true }
  else if c = '+' then some { d with plus := true }
  else if c = ' ' then some { d with blank := true }
  else if c = '#' then some { d with alternate := true }
  else if c = '0' then some { d with zero := true }
  else none

/-- The flags at the beginning of a text, and the rest. -/
def flags (d : Directive) : List Char → Directive × List Char
  | [] => (d, [])
  | c :: s =>
    match d.flag? c with
    | some d => d.flags s
    | none => (d, c :: s)

/-- The sign of a number. -/
def sign (d : Directive) (negative : Bool) : List Char :=
  if negative then ['-'] else if d.plus then ['+'] else if d.blank then [' '] else []

/-- A text filled up with blanks. -/
def padText (d : Directive) (body : List Char) : List Char :=
  let blanks := List.replicate (d.width - body.length) ' '
  if d.left then body ++ blanks else blanks ++ body

/-- A number filled up with blanks outside or with zeros after its sign and base. -/
def padNumber (d : Directive) (lead body : List Char) : List Char :=
  let n := d.width - (lead.length + body.length)
  if d.left then lead ++ body ++ List.replicate n ' '
  else if d.zero then lead ++ List.replicate n '0' ++ body
  else List.replicate n ' ' ++ lead ++ body

/-- A text cut to the precision. -/
def cut (d : Directive) (body : List Char) : List Char :=
  match d.precision with
  | some n => body.take n
  | none => body

end Directive

/-- The digits of a natural number in a base up to sixteen. -/
def digitsIn (base : Nat) : Nat → Nat → List Char
  | 0, _ => []
  | fuel + 1, n =>
    if n < base then [Text.hexDigit n]
    else digitsIn base fuel (n / base) ++ [Text.hexDigit (n % base)]

/-- Characters outside ASCII as escapes. -/
def asciiChar (c : Char) : List Char :=
  if c.toNat < 0x80 then [c]
  else if c.toNat < 0x100 then '\\' :: 'x' :: Text.hexDigits 2 c.toNat
  else if c.toNat < 0x10000 then '\\' :: 'u' :: Text.hexDigits 4 c.toNat
  else '\\' :: 'U' :: Text.hexDigits 8 c.toNat

/-- The integer that an integer directive writes. -/
def integerOf : Value → Except TemplateError Int
  | .num (.int n) => .ok n
  | .bool b => .ok (if b then 1 else 0)
  | .num (.double .nan) => .error .malformed
  | .num (.double x) =>
    match x.truncate? with
    | some n => .ok n
    | none => .error .tooLarge
  | _ => .error .mismatch

/-- The integer that a directive of another base writes. -/
def wholeOf : Value → Except TemplateError Int
  | .num (.int n) => .ok n
  | .bool b => .ok (if b then 1 else 0)
  | _ => .error .mismatch

/-- The double that a directive writes. -/
def doubleOf : Value → Except TemplateError Double
  | .num (.double x) => .ok x
  | .bool b => .ok (Double.ofInt (if b then 1 else 0))
  | .num (.int n) =>
    let x := Double.ofInt n
    if x.isFinite then .ok x else .error .tooLarge
  | _ => .error .mismatch

/-- An integer in a base, with the text that names the base. -/
def writeInteger (d : Directive) (base : Nat) (name : List Char) (upper : Bool) (n : Int) :
    List Char :=
  let size := n.natAbs
  let digits := if base = 10 then Text.natDigits size else digitsIn base (size.log2 + 1) size
  let digits := if upper then digits.map Char.toUpper else digits
  let digits := List.replicate (d.precision.getD 0 - digits.length) '0' ++ digits
  d.padNumber (d.sign (n < 0) ++ if d.alternate then name else []) digits

/-- A double in one of the three forms. -/
def writeDouble (d : Directive) (conversion : Char) (x : Double) : List Char :=
  let precision := d.precision.getD 6
  let body := match x.ratio? with
    | none => if x = .nan then "nan".toList else "inf".toList
    | some (_, num, den) =>
      if conversion.toLower = 'f' then Rounded.fixed d.alternate precision num den
      else if conversion.toLower = 'e' then Rounded.scientific d.alternate precision num den
      else Rounded.general d.alternate precision num den
  d.padNumber (d.sign x.hasMinus) (if conversion.isUpper then body.map Char.toUpper else body)

/-- The character that a directive writes. -/
def charOf : Value → Except TemplateError Char
  | .str s =>
    match s.toList with
    | [c] => .ok c
    | _ => .error .mismatch
  | v => do
    let n ← wholeOf v
    if 0 ≤ n ∧ n < 0x110000 then return Char.ofNat n.toNat else throw .tooLarge

/-- What is made of a value of which the integers are written, unless one is too long for it. -/
def shown {α : Type} (v : Value) (a : α) : Except TemplateError α :=
  if v.isWritable then .ok a else .error .longInteger

/-- An argument written by a directive. -/
def Directive.write (d : Directive) (conversion : Char) (v : Value) :
    Except TemplateError (List Char) :=
  match conversion with
  | 's' => shown v (d.padText (d.cut (Value.display v).toList))
  | 'r' => shown v (d.padText (d.cut (Value.displayNested v).toList))
  | 'a' => shown v (d.padText (d.cut ((Value.displayNested v).toList.flatMap asciiChar)))
  | 'c' => (charOf v).map fun c => d.padText [c]
  | 'd' | 'i' | 'u' => do
    let n ← integerOf v
    shown (Tree.int n) (writeInteger d 10 [] false n)
  | 'o' => (wholeOf v).map (writeInteger d 8 ['0', 'o'] false)
  | 'x' => (wholeOf v).map (writeInteger d 16 ['0', 'x'] false)
  | 'X' => (wholeOf v).map (writeInteger d 16 ['0', 'X'] true)
  | 'e' | 'f' | 'g' | 'E' | 'F' | 'G' => (doubleOf v).map (writeDouble d conversion)
  | _ => .error .malformed

/-- The arguments that are left to take. -/
structure Arguments where
  items : List Value
  /-- The mapping that directives may name members of. -/
  named : Option (List (String × Value)) := none

namespace Arguments

/-- The arguments of a record: a single mapping that is not empty is taken by name. -/
def ofList : List Value → Arguments
  | [.obj (m :: ms)] => ⟨[.obj (m :: ms)], some (m :: ms)⟩
  | items => ⟨items, none⟩

/-- The next argument, and those after it. -/
def next (a : Arguments) : Except TemplateError (Value × Arguments) :=
  match a.items with
  | v :: rest => .ok (v, { a with items := rest })
  | [] => .error .mismatch

/-- The arguments with the member of a name as the only one. -/
def choose (a : Arguments) (name : List Char) : Except TemplateError Arguments :=
  match a.named with
  | none => .error .mismatch
  | some ms =>
    match ms.lookup (String.ofList name) with
    | some v => .ok { a with items := [v] }
    | none => .error .missingKey

/-- The next argument as the width or precision of a directive. -/
def nextSize (most : Nat) (a : Arguments) : Except TemplateError (Int × Arguments) := do
  let (v, rest) ← a.next
  let n ← wholeOf v
  if n.natAbs ≤ most then return (n, rest) else throw .tooLarge

end Arguments

/-- A name in parentheses, after the opening one, and the rest; parentheses in it are balanced. -/
def nameInParentheses : Nat → List Char → Option (List Char × List Char)
  | _, [] => none
  | depth, c :: s =>
    if c = ')' ∧ depth = 0 then some ([], s)
    else
      let depth := if c = '(' then depth + 1 else if c = ')' then depth - 1 else depth
      (nameInParentheses depth s).map fun (name, rest) => (c :: name, rest)

/-- The arguments for a directive that may begin with a name in parentheses, and its rest. -/
def chooseNamed (a : Arguments) (s : List Char) : Except TemplateError (Arguments × List Char) :=
  match s with
  | '(' :: t =>
    match a.named, nameInParentheses 0 t with
    | none, _ => .error .mismatch
    | some _, none => .error .malformed
    | some _, some (name, rest) => (a.choose name).map (·, rest)
  | _ => .ok (a, s)

/-- The largest width. -/
def maxWidth : Nat := 9223372036854775807

/-- The largest precision. -/
def maxPrecision : Nat := 2147483647

/-- A width or precision that is written in a directive, and the rest. -/
def writtenSize (most : Nat) (s : List Char) : Except TemplateError (Nat × List Char) :=
  let (ds, rest) := Numeral.spanDigits s
  let n := Text.digitsValue ds
  if n ≤ most then .ok (n, rest) else .error .malformed

/-- A width at the beginning of a text. -/
def takeWidth (d : Directive) (a : Arguments) (s : List Char) :
    Except TemplateError (Directive × Arguments × List Char) :=
  match s with
  | '*' :: s => do
    let (n, a) ← a.nextSize maxWidth
    return ({ d with width := n.natAbs, left := d.left || n < 0 }, a, s)
  | _ => (writtenSize maxWidth s).map fun (n, rest) => ({ d with width := n }, a, rest)

/-- A precision at the beginning of a text. -/
def takePrecision (d : Directive) (a : Arguments) (s : List Char) :
    Except TemplateError (Directive × Arguments × List Char) :=
  match s with
  | '.' :: '*' :: s => do
    let (n, a) ← a.nextSize maxPrecision
    return ({ d with precision := some n.toNat }, a, s)
  | '.' :: s =>
    (writtenSize maxPrecision s).map fun (n, rest) => ({ d with precision := some n }, a, rest)
  | _ => .ok (d, a, s)

/-- The text without a mark of length at its beginning. -/
def dropLengthMark : List Char → List Char
  | c :: s => if c = 'h' ∨ c = 'l' ∨ c = 'L' then s else c :: s
  | [] => []

/-- A directive after its percent sign: what it writes, the arguments left and the rest. -/
def fillDirective (a : Arguments) (s : List Char) :
    Except TemplateError (List Char × Arguments × List Char) := do
  let (a, s) ← chooseNamed a s
  let (d, s) := Directive.flags {} s
  let (d, a, s) ← takeWidth d a s
  let (d, a, s) ← takePrecision d a s
  match dropLengthMark s with
  | [] => throw .malformed
  | conversion :: rest =>
    let (v, a) ← a.next
    return (← d.write conversion v, a, rest)

/-- The text of a template, in which a double percent sign stands for one; the fuel bounds its
length. -/
def fillTemplate : Nat → Arguments → List Char → Except TemplateError (List Char)
  | _, a, [] => if a.items.isEmpty || a.named.isSome then .ok [] else .error .mismatch
  | 0, _, _ => .error .malformed
  | fuel + 1, a, '%' :: '%' :: s => do
    return '%' :: (← fillTemplate fuel a s)
  | fuel + 1, a, '%' :: s => do
    let (written, a, rest) ← fillDirective a s
    return written ++ (← fillTemplate fuel a rest)
  | fuel + 1, a, c :: s => do
    return c :: (← fillTemplate fuel a s)

/-- The message of a record. -/
def Record.text (r : Record) : Except TemplateError (List Char) := do
  let message ← shown r.message (Value.display r.message).toList
  if r.arguments.isEmpty then return message
  fillTemplate message.length (Arguments.ofList r.arguments) message

end Pigeonhole.Log
