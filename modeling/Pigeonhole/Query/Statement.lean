import Pigeonhole.Query.Where
import Pigeonhole.Text.Digit

/-!
# Statements

The supported statements are

    SELECT VALUE COUNT(1) FROM c [WHERE clause]
    SELECT c.id FROM c [WHERE clause]
    SELECT [TOP n] * FROM c [WHERE clause]

with any blanks between words and keywords in any letter case.
-/

namespace Pigeonhole.Query

open Text

/-- What a statement selects. -/
inductive Shape where
  /-- The number of documents. -/
  | count
  /-- The id of each document. -/
  | ids
  /-- The documents themselves, a limited number of them if a limit is given. -/
  | all (limit : Option Nat)
deriving DecidableEq, Repr

/-- A statement: what it selects, and the text of its condition if it has one. -/
structure Statement where
  shape : Shape
  clause : Option (List Char)
  /-- The number of digits that the limit is written with. -/
  limitDigits : Nat := 0
deriving DecidableEq, Repr

/-- The rest after blanks and a keyword. -/
def dropWord (word : String) (s : List Char) : Option (List Char) :=
  (dropBlanks1 s).bind (dropKeyword word.toList)

/-- The rest after blanks and `FROM c`. -/
def dropSource (s : List Char) : Option (List Char) :=
  (dropWord "from" s).bind (dropWord "c")

/-- What follows the source: nothing, or a condition. -/
def clause? (s : List Char) : Option (Option (List Char)) :=
  if s.isEmpty then some none
  else
    match (dropWord "where" s).bind dropBlanks1 with
    | some (c :: rest) => some (some (c :: rest))
    | _ => none

/-- A statement of a shape with the source and the condition at the beginning of a text. -/
def Statement.ofSource? (shape : Shape) (s : List Char) : Option Statement :=
  ((dropSource s).bind clause?).map fun clause => { shape, clause }

/-- The values of the decimal digits at the beginning of a text, and the rest. -/
def spanDecimals : List Char → List Nat × List Char
  | [] => ([], [])
  | c :: s =>
    match digitValue? c with
    | some v => (v :: (spanDecimals s).1, (spanDecimals s).2)
    | none => ([], c :: s)

/-- The digits of a limit at the beginning of a text, and the rest. -/
def limit? (s : List Char) : Option (List Nat × List Char) :=
  match ((dropWord "top" s).bind dropBlanks1).map spanDecimals with
  | some (d :: ds, rest) => some (d :: ds, rest)
  | _ => none

/-- The rest of a count after `SELECT`. -/
def countTail? (s : List Char) : Option Statement :=
  ((dropWord "value" s).bind (dropWord "count(1)")).bind (Statement.ofSource? .count)

/-- The rest of a projection to ids after `SELECT`. -/
def idsTail? (s : List Char) : Option Statement :=
  (dropWord "c.id" s).bind (Statement.ofSource? .ids)

/-- The rest of a selection of documents after `SELECT`. -/
def allTail? (s : List Char) : Option Statement :=
  match limit? s with
  | some (ds, rest) =>
    ((dropWord "*" rest).bind (Statement.ofSource? (.all (some (digitsValue ds))))).map
      ({ · with limitDigits := ds.length })
  | none => (dropWord "*" s).bind (Statement.ofSource? (.all none))

/-- Reads a statement without blanks at its ends. -/
def Statement.ofTrimmed? (s : List Char) : Option Statement :=
  match dropKeyword "select".toList s with
  | some rest => (countTail? rest).or ((idsTail? rest).or (allTail? rest))
  | none => none

/-- Reads a statement. -/
def Statement.parse? (s : List Char) : Option Statement := Statement.ofTrimmed? (strip s)

/-- The fragments of the condition of a statement. -/
def Statement.fragments (statement : Statement) : List (List Char) :=
  match statement.clause with
  | some clause => Query.fragments clause
  | none => []

end Pigeonhole.Query
