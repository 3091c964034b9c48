import Pigeonhole.Number.Numeral
import Pigeonhole.Query.Form

/-!
# Sizes

Sizes of files are written as a decimal number and a unit, `512`, `10KB`, `1.5 MB`.
-/

namespace Pigeonhole.Log

open Text

/-- Why a text is no size. -/
inductive SizeError where
  | malformed (text : String)
  /-- The unit is written with a letter that only resembles its own. -/
  | unknownUnit
  /-- More bytes than a double can count. -/
  | tooLarge
deriving DecidableEq, Repr

/-- The units, with their numbers of bytes. -/
def sizeUnits : List (String × Nat) := [("gb", 1073741824), ("mb", 1048576), ("kb", 1024), ("b", 1)]

/-- The number of digits and an optional fraction at the beginning of a text, and the rest. -/
def sizeNumber? (s : List Char) : Option (Double × List Char) := do
  let rest ← Query.dropNumber? s
  let x ← Numeral.readDouble? (s.take (s.length - rest.length))
  return (x, rest)

/-- The bytes of the unit at the beginning of a text, one if there is none, as a factor; the unit
itself; and the rest. -/
def sizeUnit (s : List Char) : Nat × List Char × List Char :=
  match sizeUnits.findSome? fun (name, bytes) => (dropKeyword name.toList s).map (bytes, ·) with
  | some (bytes, rest) => (bytes, s.take (s.length - rest.length), rest)
  | none => (1, [], s)

/-- Reads a size in bytes, rounded down. -/
def readSize (size : String) : Except SizeError Int :=
  match sizeNumber? (stripLeft size.toList) with
  | none => .error (.malformed size)
  | some (x, rest) =>
    let (bytes, unit, rest) := sizeUnit (stripLeft rest)
    if (stripLeft rest).isEmpty then
      if unit.all fun c => c.toNat < 0x80 then
        match (x.scale bytes).truncate? with
        | some n => .ok n
        | none => .error .tooLarge
      else .error .unknownUnit
    else .error (.malformed size)

end Pigeonhole.Log
