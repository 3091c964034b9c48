import Pigeonhole.Query.Condition
import Pigeonhole.Query.Spec
import Pigeonhole.Query.Statement

/-!
# Answers of queries

`Parsed.ofSpec` reads a query and `Parsed.execute` answers it from a list of documents.  All
fragments are compiled before a document is looked at.  After that the one thing that can go wrong
is an integer that has to be written to be compared and is too long for it.  `Parsed.answer` answers
a query from values that need not be JSON, of which more cannot be compared.
-/

namespace Pigeonhole.Query

/-- A query that has been read. -/
structure Parsed where
  /-- The text as given. -/
  text : String
  shape : Shape
  fragments : List (List Char)
  bindings : List Binding

/-- Reads a query. -/
def Parsed.ofSpec (spec : Spec) : Except QueryError Parsed :=
  match Statement.parse? spec.text.toList with
  | some statement =>
    if statement.limitDigits ≤ Numeral.maxDigits then
      .ok { text := spec.text
            shape := statement.shape
            fragments := statement.fragments
            bindings := spec.bindings }
    else .error (.longInteger statement.limitDigits)
  | none => .error (.unsupportedQuery spec.text)

/-- The conditions of fragments, or the error of the first that has none. -/
def compileAll {α : Type} (bindings : List (String × Tree α)) :
    List (List Char) → Except QueryError (List (Condition α))
  | [] => .ok []
  | fragment :: rest => do
    let c ← Condition.compile bindings fragment
    let cs ← compileAll bindings rest
    return c :: cs

/-- The documents that meet all conditions. -/
def satisfying (conditions : List (Condition Empty)) (documents : List Json) : List Json :=
  documents.filter fun d => conditions.all (·.holds d)

/-- Whether it can be told if a document meets all conditions: the first that it does not meet
decides, so nothing after it is looked at. -/
def isConclusive : List (Condition Empty) → Json → Bool
  | [], _ => true
  | c :: rest, document =>
    c.isComparable document && (!c.holds document || isConclusive rest document)

/-- The documents that meet all conditions, unless it cannot be told of one of them. -/
def meeting (conditions : List (Condition Empty)) (documents : List Json) :
    Except QueryError (List Json) :=
  if documents.all (isConclusive conditions) then .ok (satisfying conditions documents)
  else .error .unwritable

/-- The projection of a document to its id. -/
def idEntry {α : Type} (document : Tree α) : Tree α :=
  .obj [("id", (document.member? "id").getD .null)]

/-- What a statement of a shape makes of the documents found. -/
def Shape.select {α : Type} : Shape → List (Tree α) → List (Tree α)
  | .count, found => [Tree.int found.length]
  | .ids, found => found.map idEntry
  | .all none, found => found
  | .all (some n), found => found.take n

/-- The answer of a query from a list of documents. -/
def Parsed.execute (query : Parsed) (documents : List Json) : Except QueryError (List Json) := do
  let conditions ← compileAll query.bindings query.fragments
  return query.shape.select (← meeting conditions documents)

/-- Reads a query and answers it. -/
def Spec.run (spec : Spec) (documents : List Json) : Except QueryError (List Json) := do
  (← Parsed.ofSpec spec).execute documents

/-! ## Values that need not be JSON -/

/-- Why a query is not answered from values. -/
inductive AnswerError where
  | query (e : QueryError)
  /-- A value that is compared cannot be written. -/
  | noText (fault : TextFault)
  /-- The id is asked for of a value that is no object. -/
  | noObject
deriving DecidableEq, Repr

/-- Whether a value meets all conditions, unless it cannot be told; the first condition that it does
not meet decides. -/
def meetsAll? : List (Condition Foreign) → Value → Except TextFault Bool
  | [], _ => .ok true
  | c :: rest, document =>
    match c.holds? document with
    | .ok true => meetsAll? rest document
    | r => r

/-- The values that meet all conditions, unless it cannot be told of one of them. -/
def meeting? (conditions : List (Condition Foreign)) : List Value → Except TextFault (List Value)
  | [] => .ok []
  | document :: rest =>
    match meetsAll? conditions document with
    | .error fault => .error fault
    | .ok true => (meeting? conditions rest).map (document :: ·)
    | .ok false => meeting? conditions rest

/-- Whether a value is an object. -/
def isObject : Value → Bool
  | .obj _ => true
  | _ => false

/-- The answer of a query from a list of values. -/
def Parsed.answer (query : Parsed) (documents : List Value) : Except AnswerError (List Value) :=
  let bindings := query.bindings.map fun (name, j) => (name, Tree.ofJson j)
  match compileAll bindings query.fragments with
  | .error e => .error (.query e)
  | .ok conditions =>
    match meeting? conditions documents with
    | .error fault => .error (.noText fault)
    | .ok found =>
      if query.shape = .ids && !found.all isObject then .error .noObject
      else .ok (query.shape.select found)

/-- Reads a query and answers it from a list of values. -/
def Spec.answer (spec : Spec) (documents : List Value) : Except AnswerError (List Value) :=
  match Parsed.ofSpec spec with
  | .error e => .error (.query e)
  | .ok query => query.answer documents

end Pigeonhole.Query
