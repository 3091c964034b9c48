import Pigeonhole.Json.Basic
import Pigeonhole.Number.Numeral
import Pigeonhole.Query.Error
import Pigeonhole.Text.Lowercase

/-!
# Operands

An operand is written as a parameter name with `@`, a text between quotes, `true`, `false`, `null`
or a number.
-/

namespace Pigeonhole.Query

/-- Whether a character is a quote. -/
def isQuote (c : Char) : Bool := c = '\x27' || c = '\x22'

/-- The text between two equal quotes. -/
def unquote? : List Char → Option (List Char)
  | quote :: c :: s =>
    if isQuote quote && (c :: s).getLast? = some quote then some (c :: s).dropLast else none
  | _ => none

/-- The value of a constant, in any letter case. -/
def constant? {α : Type} (token : List Char) : Option (Tree α) :=
  let word := Text.lower token
  if word = "true".toList then some (.bool true)
  else if word = "false".toList then some (.bool false)
  else if word = "null".toList then some .null
  else none

/-- The value of a number; one with a point is a double. -/
def numeral (token : List Char) : Except QueryError Number :=
  if token.contains '.' then
    match Numeral.readDouble? token with
    | some x => .ok (.double x)
    | none => .error (.malformedLiteral (String.ofList token))
  else
    match Numeral.readInt token with
    | .ok n => .ok (.int n)
    | .error .malformed => .error (.malformedLiteral (String.ofList token))
    | .error (.tooLong digits) => .error (.longInteger digits)

/-- The value of an operand that is no parameter. -/
def literal {α : Type} (token : List Char) : Except QueryError (Tree α) :=
  match unquote? token with
  | some body => .ok (Tree.ofString body)
  | none =>
    match constant? token with
    | some v => .ok v
    | none => (numeral token).map .num

/-- The value of an operand. -/
def resolveOperand {α : Type} (bindings : List (String × Tree α)) (token : List Char) :
    Except QueryError (Tree α) :=
  if token.head? = some '@' then
    let name := String.ofList token
    match bindings.lookup name with
    | some v => .ok v
    | none => .error (.missingParameter name)
  else literal token

end Pigeonhole.Query
