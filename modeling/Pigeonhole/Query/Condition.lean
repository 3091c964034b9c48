import Pigeonhole.Json.Path
import Pigeonhole.Json.Printer
import Pigeonhole.Query.Form
import Pigeonhole.Query.Operand

/-!
# Conditions

A condition is a form whose operand has its value.  `Condition.compile` gives one for a fragment,
and `Condition.holds` tests a document: text containment up to letter case, equality of canonical
texts, or the order of numbers.  Nothing is ordered but numbers, and an absent field meets no
condition.  Only for equality the texts have to be written, so only there a test can fail
(`Condition.isComparable`).
-/

namespace Pigeonhole.Query

/-- A condition on documents; the value may have foreign leaves of type `α`. -/
inductive Condition (α : Type) where
  | contains (path : String) (value : Tree α)
  | compares (path : String) (relation : Relation) (value : Tree α)

/-- A form with the value of its operand. -/
def Form.resolve {α : Type} (bindings : List (String × Tree α)) :
    Form → Except QueryError (Condition α)
  | .contains path token => do
    return .contains (String.ofList path) (← resolveOperand bindings token)
  | .compares path relation token => do
    return .compares (String.ofList path) relation (← resolveOperand bindings token)

namespace Condition

variable {α : Type}

/-- The condition that a fragment states. -/
def compile (bindings : List (String × Tree α)) (fragment : List Char) :
    Except QueryError (Condition α) :=
  match Form.ofFragment? fragment with
  | some form => form.resolve bindings
  | none => .error (.unsupportedCondition (String.ofList fragment))

/-- Whether a field is a text that contains another one, up to letter case. -/
def containsText (field : Option (Tree α)) (value : Tree α) : Bool :=
  match field, value with
  | some (.str s), .str part => Text.contains (Text.lower part.toList) (Text.lower s.toList)
  | _, _ => false

/-- Whether a field and a value are numbers in an order that the relation allows. -/
def inOrder (relation : Relation) (field : Option (Tree α)) (value : Tree α) : Bool :=
  match field, value with
  | some (.num a), .num b => (a.compare? b).any relation.allows
  | _, _ => false

/-- Whether a document meets a condition. -/
def holds (c : Condition Empty) (document : Json) : Bool :=
  match c with
  | contains path value => containsText (document.resolve path) value
  | compares path .eq value => (document.resolve path).any (Json.same · value)
  | compares path relation value => inOrder relation (document.resolve path) value

/-- Whether it can be told if a document meets a condition: to be equal, both sides have to be
written. -/
def isComparable (c : Condition Empty) (document : Json) : Bool :=
  match c with
  | compares path .eq value =>
    (document.resolve path).all fun field => field.isWritable && value.isWritable
  | _ => true

/-- Whether a value of any kind meets a condition, unless values are to be equal that cannot be
written. -/
def holds? (c : Condition Foreign) (document : Value) : Except TextFault Bool :=
  match c with
  | contains path value => .ok (containsText (document.resolve path) value)
  | compares path .eq value =>
    Value.same? ((document.resolve path).getD (.foreign .missing)) value
  | compares path relation value => .ok (inOrder relation (document.resolve path) value)

end Condition

end Pigeonhole.Query
