import Pigeonhole.Json.Printer
import Pigeonhole.Text.Quoted

/-!
# Errors of queries

What can be wrong with a query, with the message of each cause.
-/

namespace Pigeonhole

/-- Why a query is not answered. -/
inductive QueryError where
  /-- The statement has none of the supported shapes. -/
  | unsupportedQuery (text : String)
  /-- A fragment of the condition has none of the supported forms. -/
  | unsupportedCondition (fragment : String)
  /-- A parameter is named that has no value. -/
  | missingParameter (name : String)
  /-- A literal that is no number. -/
  | malformedLiteral (token : String)
  /-- An integer with more digits than are read. -/
  | longInteger (digits : Nat)
  /-- A comparison with an integer that has more digits than are written. -/
  | unwritable
deriving DecidableEq, Repr

/-- The message of an error. -/
def QueryError.message : QueryError → String
  | unsupportedQuery text => "Unsupported query: " ++ text
  | unsupportedCondition fragment => "Unsupported WHERE condition: " ++ fragment
  | missingParameter name => "Missing query parameter: " ++ name
  | malformedLiteral token =>
    "invalid literal for int() with base 10: " ++ String.ofList (Text.quoted token.toList)
  | longInteger digits =>
    "Exceeds the limit (" ++ String.ofList (Text.natDigits Numeral.maxDigits) ++
      " digits) for integer string conversion: value has " ++
      String.ofList (Text.natDigits digits) ++
      " digits; use sys.set_int_max_str_digits() to increase the limit"
  | unwritable => TextFault.longInteger.message

end Pigeonhole
