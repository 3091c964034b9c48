import Pigeonhole.Json.Basic
import Pigeonhole.Number.Numeral
import Pigeonhole.Text.Hex

/-!
# JSON text

`Tree.print` writes a value in a format.  `Json.canonical` is the compact text in which integral
doubles are written as integers: it decides equality of partition keys and of query operands, and
its length in bytes is the size of a payload.

These are texts of all values.  Not all of them are written: an integer may have
`Numeral.maxDigits` digits at most, and a foreign leaf has no text.  `Tree.textFault?` finds what is
in the way, and the functions whose names end with a question mark fail with it.  Whatever stores,
compares or measures a value uses those.
-/

namespace Pigeonhole

/-- How JSON text is laid out. -/
structure JsonFormat where
  /-- Whether characters outside printable ASCII are escaped. -/
  ascii : Bool
  /-- What stands between items. -/
  comma : List Char
  /-- What stands between a key and its value. -/
  colon : List Char
  /-- Columns of each level; `none` for one line. -/
  indent : Option Nat

namespace JsonFormat

/-- One line without blanks, characters as they are. -/
def compact : JsonFormat := ⟨false, [','], [':'], none⟩

/-- One line with blanks after commas and colons, ASCII only. -/
def line : JsonFormat := ⟨true, [',', ' '], [':', ' '], none⟩

/-- An item a line, indented by two columns a level, ASCII only. -/
def block : JsonFormat := ⟨true, [','], [':', ' '], some 2⟩

/-- What stands before an item at a depth. -/
def lineBreak (f : JsonFormat) (depth : Nat) : List Char :=
  match f.indent with
  | some k => '\n' :: List.replicate (k * depth) ' '
  | none => []

end JsonFormat

namespace Quoted

/-- The escape of a 16-bit unit. -/
def unitEscape (n : Nat) : List Char := '\\' :: 'u' :: Text.hexDigits 4 n

/-- The escape of a character by its 16-bit units. -/
def charEscape (c : Char) : List Char :=
  if c.toNat < 0x10000 then unitEscape c.toNat
  else
    let n := c.toNat - 0x10000
    unitEscape (0xd800 + n / 0x400) ++ unitEscape (0xdc00 + n % 0x400)

/-- A character inside quotes. -/
def encodeChar (ascii : Bool) (c : Char) : List Char :=
  if c = '\x22' then ['\\', '\x22']
  else if c = '\\' then ['\\', '\\']
  else if c = '\n' then ['\\', 'n']
  else if c = '\r' then ['\\', 'r']
  else if c = '\t' then ['\\', 't']
  else if c = '\x08' then ['\\', 'b']
  else if c = '\x0c' then ['\\', 'f']
  else if c.toNat < 0x20 then unitEscape c.toNat
  else if ascii && 0x7e < c.toNat then charEscape c
  else [c]

/-- A text inside quotes. -/
def encode (ascii : Bool) (s : List Char) : List Char := s.flatMap (encodeChar ascii)

/-- A text with its quotes. -/
def quote (ascii : Bool) (s : List Char) : List Char := '\x22' :: encode ascii s ++ ['\x22']

end Quoted

namespace Tree

variable {α : Type}

mutual

/-- The text of a value at a depth; foreign leaves are written by `leaf`. -/
def print (f : JsonFormat) (leaf : α → List Char) (depth : Nat) : Tree α → List Char
  | .null => ['n', 'u', 'l', 'l']
  | .bool true => ['t', 'r', 'u', 'e']
  | .bool false => ['f', 'a', 'l', 's', 'e']
  | .num n => n.text Double.jsonLayout
  | .str s => Quoted.quote f.ascii s.toList
  | .arr [] => ['[', ']']
  | .arr (v :: rest) =>
    '[' :: f.lineBreak (depth + 1) ++ print f leaf (depth + 1) v ++
      (printItems f leaf (depth + 1) rest ++ (f.lineBreak depth ++ [']']))
  | .obj [] => ['\x7b', '\x7d']
  | .obj ((key, v) :: rest) =>
    '\x7b' :: f.lineBreak (depth + 1) ++ Quoted.quote f.ascii key.toList ++ f.colon ++
      print f leaf (depth + 1) v ++
      (printMembers f leaf (depth + 1) rest ++ (f.lineBreak depth ++ ['\x7d']))
  | .foreign a => leaf a

/-- The items after the first. -/
def printItems (f : JsonFormat) (leaf : α → List Char) (depth : Nat) : List (Tree α) → List Char
  | [] => []
  | v :: rest =>
    f.comma ++ f.lineBreak depth ++ print f leaf depth v ++ printItems f leaf depth rest

/-- The members after the first. -/
def printMembers (f : JsonFormat) (leaf : α → List Char) (depth : Nat) :
    List (String × Tree α) → List Char
  | [] => []
  | (key, v) :: rest =>
    f.comma ++ f.lineBreak depth ++ Quoted.quote f.ascii key.toList ++ f.colon ++
      print f leaf depth v ++ printMembers f leaf depth rest

end

end Tree

/-! ## Values that are not written -/

/-- What keeps a value from being written. -/
inductive TextFault where
  /-- A value that is not JSON. -/
  | foreign
  /-- An integer with more digits than are written. -/
  | longInteger
deriving DecidableEq, Repr

/-- The message of a fault. -/
def TextFault.message : TextFault → String
  | foreign => "Object of type object is not JSON serializable"
  | longInteger => "Exceeds the limit (" ++ String.ofList (Text.natDigits Numeral.maxDigits) ++
      " digits) for integer string conversion; use sys.set_int_max_str_digits() to increase the limit"

namespace Tree

variable {α : Type}

mutual

/-- What keeps a value from being written, the first fault in the order of the text; `leaf` says
what a foreign leaf is. -/
def textFault? (leaf : α → Option TextFault) : Tree α → Option TextFault
  | .num n => if n.isWritable then none else some .longInteger
  | .arr items => itemsTextFault? leaf items
  | .obj members => membersTextFault? leaf members
  | .foreign a => leaf a
  | _ => none

/-- The first fault in the items of an array. -/
def itemsTextFault? (leaf : α → Option TextFault) : List (Tree α) → Option TextFault
  | [] => none
  | v :: rest => (textFault? leaf v).or (itemsTextFault? leaf rest)

/-- The first fault in the members of an object. -/
def membersTextFault? (leaf : α → Option TextFault) : List (String × Tree α) → Option TextFault
  | [] => none
  | (_, v) :: rest => (textFault? leaf v).or (membersTextFault? leaf rest)

end

/-- Whether the numbers in a value can be written. -/
def isWritable (v : Tree α) : Bool := (v.textFault? fun _ => none).isNone

end Tree

/-! ## Canonical texts -/

/-- The bytes of a text in UTF-8. -/
def utf8Length : List Char → Nat
  | [] => 0
  | c :: s => c.utf8Size + utf8Length s

namespace Json

/-- The text of a JSON value in a format. -/
def write (f : JsonFormat) (j : Json) : List Char := j.print f (fun leaf => nomatch leaf) 0

/-- The canonical text of a JSON value. -/
def canonical (j : Json) : List Char := write .compact j.normalize

/-- The canonical text of a JSON value as a string. -/
def text (j : Json) : String := String.ofList j.canonical

/-- Whether two JSON values have one canonical text. -/
def same (a b : Json) : Bool := a.canonical == b.canonical

/-- The bytes of the canonical text; null counts as absent. -/
def payloadLength (j : Json) : Nat :=
  match j with
  | .null => 0
  | _ => utf8Length j.canonical

/-- What is made of a JSON value that can be written.  The integers that stand for integral doubles
are never too long, so the value itself is asked. -/
def written {α : Type} (j : Json) (a : α) : Except TextFault α :=
  if j.isWritable then .ok a else .error .longInteger

end Json

namespace Value

/-- The first fault of a value that is not JSON. -/
def firstFault (v : Value) : TextFault := (v.textFault? fun _ => some .foreign).getD .foreign

/-- The JSON value that a value is, if it can be written. -/
def written? (v : Value) : Except TextFault Json :=
  match v.toJson? with
  | some j => j.written j
  | none => .error v.firstFault

/-- The canonical text of a value that can be written. -/
def text? (v : Value) : Except TextFault String := v.written?.map Json.text

/-- Whether two values have one canonical text: false if one is absent. -/
def same? (a b : Value) : Except TextFault Bool :=
  match a, b with
  | .foreign .missing, _ => .ok false
  | _, .foreign .missing => .ok false
  | _, _ => do
    let x ← a.written?
    let y ← b.written?
    return x.same y

/-- The bytes of the canonical text, none for an absent value. -/
def payloadLength? (v : Value) : Except TextFault Nat :=
  match v with
  | .foreign .missing => .ok 0
  | _ => v.written?.map Json.payloadLength

end Value

end Pigeonhole
