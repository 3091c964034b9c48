import Pigeonhole.Number.Numeral
import Pigeonhole.Query.Form
import Pigeonhole.Query.Spec

/-!
# Building queries

A `Builder` collects clauses and the values of their parameters, and `Builder.build` writes them as
one query, each clause in parentheses and `AND` between them.  The parameter of a clause built by
`Clause.ofField` is named after its field; of several values for one name the first counts.
-/

namespace Pigeonhole.Query

/-- The operators of built clauses. -/
inductive Operator where
  | relation (r : Relation)
  | contains
deriving DecidableEq, Repr

namespace Operator

/-- All operators, in the order in which they are listed. -/
def all : List Operator :=
  [relation .eq, relation .lt, relation .le, relation .gt, relation .ge, contains]

/-- How an operator is written. -/
def symbol : Operator → String
  | relation r => r.symbol
  | contains => "CONTAINS"

/-- The operator that is written so. -/
def ofSymbol? (symbol : String) : Option Operator := all.find? fun op => op.symbol = symbol

/-- The symbols of all operators as a quoted list. -/
def listing : String :=
  "[" ++ String.intercalate ", " (all.map fun op => "'" ++ op.symbol ++ "'") ++ "]"

end Operator

/-- Why a query is not built. -/
inductive BuildError where
  | unknownOperator (symbol : String)
  | limitNotPositive (limit : Int)
  /-- The limit has more digits than are written. -/
  | longLimit
  /-- The value of a parameter is not JSON. -/
  | notJson
deriving DecidableEq, Repr

/-- The message of an error. -/
def BuildError.message : BuildError → String
  | unknownOperator symbol =>
    "Unsupported operator: " ++ symbol ++ ". Must be one of " ++ Operator.listing
  | limitNotPositive limit =>
    "max_items must be positive: " ++ String.ofList (Text.intDigits limit)
  | longLimit =>
    "Exceeds the limit (" ++ String.ofList (Text.natDigits Numeral.maxDigits) ++
      " digits) for integer string conversion; use sys.set_int_max_str_digits() to increase the limit"
  | notJson => "Parameter value must be JSON-compatible"

/-- A condition as text, with values for its parameters. -/
structure Clause where
  text : String
  bindings : List (String × Value) := []

/-- The parameter named after a field. -/
def parameterName (field : String) : String :=
  String.ofList ('@' :: field.toList.map fun c => if c = '.' then '_' else c)

/-- The comparison of a field with a value. -/
def Clause.ofField (field : String) (op : Operator) (value : Value) : Clause :=
  let name := parameterName field
  { text := match op with
      | .contains => "CONTAINS(c." ++ field ++ ", " ++ name ++ ", true)"
      | .relation r => "c." ++ field ++ " " ++ r.symbol ++ " " ++ name
    bindings := [(name, value)] }

/-- The comparison of a field with a value, the operator given by its symbol. -/
def Clause.ofSymbol (field symbol : String) (value : Value) : Except BuildError Clause :=
  match Operator.ofSymbol? symbol with
  | some op => .ok (Clause.ofField field op value)
  | none => .error (.unknownOperator symbol)

/-- Members with one more, unless the key is there already. -/
def assignFirst {α : Type} (key : String) (value : α) (ms : List (String × α)) :
    List (String × α) :=
  if (ms.lookup key).isSome then ms else ms ++ [(key, value)]

/-- The number of digits that a limit is written with. -/
def limitLength (limit : Option Int) : Nat :=
  (limit.map fun n => (Text.natDigits n.natAbs).length).getD 0

/-- The clauses of a query so far, and the values of their parameters. -/
structure Builder where
  clauses : List String := []
  bindings : List (String × Value) := []

namespace Builder

/-- One more clause. -/
def add (b : Builder) (clause : Clause) : Builder where
  clauses := b.clauses ++ [clause.text]
  bindings := clause.bindings.foldl (fun ms (name, value) => assignFirst name value ms) b.bindings

/-- The text of a query from its clauses. -/
def text (limit : Option Int) (clauses : List String) : String :=
  let top := match limit with
    | some n => "TOP " ++ String.ofList (Text.intDigits n) ++ " "
    | none => ""
  let condition :=
    if clauses.isEmpty then ""
    else "WHERE " ++ String.intercalate " AND " (clauses.map fun c => "(" ++ c ++ ")")
  "SELECT " ++ top ++ "* FROM c " ++ condition

/-- The values of parameters if all are JSON. -/
def jsonBindings? : List (String × Value) → Option (List Binding)
  | [] => some []
  | (name, value) :: rest => do
    let j ← value.toJson?
    let js ← jsonBindings? rest
    return (name, j) :: js

/-- The query of the clauses, with a limit if one is given. -/
def build (b : Builder) (limit : Option Int) : Except BuildError Spec :=
  if limitLength limit ≤ Numeral.maxDigits then
    match limit.filter (· ≤ 0) with
    | some n => .error (.limitNotPositive n)
    | none =>
      match jsonBindings? b.bindings with
      | some parameters => .ok { text := text limit b.clauses, parameters }
      | none => .error .notJson
  else .error .longLimit

end Builder

end Pigeonhole.Query
