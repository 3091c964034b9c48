import Pigeonhole.Text.Blank
import Pigeonhole.Text.Digit
import Pigeonhole.Text.Keyword
import Pigeonhole.Text.Word

/-!
# Forms of a fragment

A fragment of a condition has one of two forms,

    CONTAINS(c.path, operand, true)
    c.path relation operand

`Form.ofFragment?` takes a fragment apart without giving operands a value.  A quoted operand ends at
the first quote after which the rest of the fragment has the form, so it may hold quotes itself.
-/

namespace Pigeonhole.Query

open Text

/-- How a field is compared with a value. -/
inductive Relation where
  | eq
  | lt
  | le
  | gt
  | ge
deriving DecidableEq, Repr

/-- The sign of a relation. -/
def Relation.symbol : Relation → String
  | eq => "="
  | lt => "<"
  | le => "<="
  | gt => ">"
  | ge => ">="

/-- Whether the relation allows an order. -/
def Relation.allows : Relation → Ordering → Bool
  | eq, o => o == .eq
  | lt, o => o == .lt
  | le, o => o != .gt
  | gt, o => o == .gt
  | ge, o => o != .lt

/-- A fragment taken apart. -/
inductive Form where
  | contains (path operand : List Char)
  | compares (path : List Char) (relation : Relation) (operand : List Char)
deriving DecidableEq, Repr

/-- The characters of field paths. -/
def isPathChar (c : Char) : Bool := isWord c || c = '.'

/-- The field path after `c.`, and the rest. -/
def field? (s : List Char) : Option (List Char × List Char) :=
  match dropKeyword "c.".toList s with
  | some rest =>
    let path := rest.takeWhile isPathChar
    if path.isEmpty then none else some (path, rest.dropWhile isPathChar)
  | none => none

/-- The texts that may be meant between an opening quote and a closing one, each with the rest,
nearest first.  A quoted text has no line break. -/
def closings (quote : Char) : List Char → List (List Char × List Char)
  | [] => []
  | c :: s =>
    let later :=
      if c = '\n' then [] else (closings quote s).map fun (body, rest) => (c :: body, rest)
    if c = quote then ([], s) :: later else later

/-- The ways to read a parameter or a quoted text at the beginning of a text, with the rests. -/
def operandReadings : List Char → List (List Char × List Char)
  | '@' :: s =>
    let name := s.takeWhile isWord
    if name.isEmpty then [] else [('@' :: name, s.dropWhile isWord)]
  | c :: s =>
    if c = '\x27' ∨ c = '\x22' then
      (closings c s).map fun (body, rest) => (c :: body ++ [c], rest)
    else []
  | [] => []

/-- Whether nothing follows but a line break at most. -/
def atEnd (s : List Char) : Bool := s = [] || s = ['\n']

/-- Whether the rest of a `CONTAINS` after its operand follows. -/
def endsContains (s : List Char) : Bool :=
  match stripLeft s with
  | ',' :: s =>
    match dropKeyword "true".toList (stripLeft s) with
    | some s =>
      match stripLeft s with
      | ')' :: s => atEnd s
      | _ => false
    | none => false
  | _ => false

/-- The text without the unsigned decimal number at its beginning. -/
def dropNumber? (s : List Char) : Option (List Char) :=
  let rest := s.dropWhile isDecimal
  if (s.takeWhile isDecimal).isEmpty then none
  else
    match rest with
    | '.' :: t => some (if (t.takeWhile isDecimal).isEmpty then rest else t.dropWhile isDecimal)
    | _ => some rest

/-- Whether a text is a number or a constant, with a line break after it at most. -/
def isBareLiteral (s : List Char) : Bool :=
  let unsigned := match s with
    | '-' :: t => t
    | _ => s
  (dropNumber? unsigned).any atEnd || (dropKeyword "true".toList s).any atEnd ||
    (dropKeyword "false".toList s).any atEnd || (dropKeyword "null".toList s).any atEnd

/-- The text without a line break at its end. -/
def dropLineEnd (s : List Char) : List Char :=
  if s.getLast? = some '\n' then s.dropLast else s

/-- The relation at the beginning of a text, and the rest. -/
def relation? : List Char → Option (Relation × List Char)
  | '<' :: '=' :: s => some (.le, s)
  | '>' :: '=' :: s => some (.ge, s)
  | '=' :: s => some (.eq, s)
  | '<' :: s => some (.lt, s)
  | '>' :: s => some (.gt, s)
  | _ => none

/-- The operand that a text consists of, with a line break after it at most. -/
def wholeOperand? (s : List Char) : Option (List Char) :=
  match (operandReadings s).find? fun (_, rest) => atEnd rest with
  | some (token, _) => some token
  | none => if isBareLiteral s then some (dropLineEnd s) else none

/-- Takes a `CONTAINS` apart. -/
def containsForm? (s : List Char) : Option Form := do
  let s ← dropKeyword "contains(".toList s
  let (path, s) ← field? (stripLeft s)
  match stripLeft s with
  | ',' :: s =>
    let (token, _) ← (operandReadings (stripLeft s)).find? fun (_, rest) => endsContains rest
    return .contains path token
  | _ => none

/-- Takes a comparison apart. -/
def comparesForm? (s : List Char) : Option Form := do
  let (path, s) ← field? s
  let (relation, s) ← relation? (stripLeft s)
  let token ← wholeOperand? (stripLeft s)
  return .compares path relation token

/-- Takes a fragment apart. -/
def Form.ofFragment? (s : List Char) : Option Form := (containsForm? s).or (comparesForm? s)

end Pigeonhole.Query
