import Pigeonhole.Json.Printer
import Pigeonhole.Text.Quoted

/-!
# Values in messages

Messages show a string as it is and any other value in a notation of its own: `None`, `True`,
`False`, and strings inside arrays and objects between single quotes with escapes for what cannot be
printed.  A message does not show an integer with more digits than are written.
-/

namespace Pigeonhole

namespace Tree

variable {α : Type}

mutual

/-- A value inside another one. -/
def nestedMessage (leaf : α → List Char) : Tree α → List Char
  | .null => "None".toList
  | .bool true => "True".toList
  | .bool false => "False".toList
  | .num n => n.text Double.messageLayout
  | .str s => Text.quoted s.toList
  | .arr [] => "[]".toList
  | .arr (v :: rest) => '[' :: nestedMessage leaf v ++ (itemsMessage leaf rest ++ [']'])
  | .obj [] => ['\x7b', '\x7d']
  | .obj ((key, v) :: rest) =>
    '\x7b' :: Text.quoted key.toList ++ (": ".toList ++ nestedMessage leaf v) ++
      (membersMessage leaf rest ++ ['\x7d'])
  | .foreign a => leaf a

/-- The items after the first. -/
def itemsMessage (leaf : α → List Char) : List (Tree α) → List Char
  | [] => []
  | v :: rest => ", ".toList ++ nestedMessage leaf v ++ itemsMessage leaf rest

/-- The members after the first. -/
def membersMessage (leaf : α → List Char) : List (String × Tree α) → List Char
  | [] => []
  | (key, v) :: rest =>
    ", ".toList ++ Text.quoted key.toList ++ ": ".toList ++ nestedMessage leaf v ++
      membersMessage leaf rest

end

/-- A value in a message: a string as it is. -/
def message (leaf : α → List Char) : Tree α → List Char
  | .str s => s.toList
  | v => v.nestedMessage leaf

end Tree

/-- A foreign value in a message. -/
def Foreign.message : Foreign → List Char
  | .missing => "MISSING".toList
  | .object | .mapping _ => "<object>".toList

namespace Value

/-- A value in a message. -/
def display (v : Value) : String := String.ofList (v.message Foreign.message)

/-- A value inside quotes or brackets in a message. -/
def displayNested (v : Value) : String := String.ofList (v.nestedMessage Foreign.message)

/-- A value in a message, if its numbers can be written. -/
def display? (v : Value) : Except TextFault String :=
  if v.isWritable then .ok v.display else .error .longInteger

end Value

end Pigeonhole
