import Pigeonhole.Text.Blank
import Pigeonhole.Text.Keyword
import Pigeonhole.Text.Split

/-!
# Conjunctions

A `WHERE` clause is cut into fragments at the word `AND`.  If the clause contains `) AND (` it is
cut only between parentheses, else at every `AND` between blanks; then each fragment loses one pair
of parentheses.  Parentheses and words inside quotes are not told apart.
-/

namespace Pigeonhole.Query

open Text

/-- The rest after the word `AND` between blanks. -/
def plainAnd (s : List Char) : Option (List Char) :=
  ((dropBlanks1 s).bind (dropKeyword "and".toList)).bind dropBlanks1

/-- The rest after `AND` between a closing and an opening parenthesis. -/
def groupedAnd : List Char → Option (List Char)
  | ')' :: s =>
    match plainAnd s with
    | some ('(' :: rest) => some rest
    | _ => none
  | _ => none

/-- The mark of a clause that is cut between parentheses only. -/
def groupMark : List Char := ") AND (".toList

/-- The text without an opening parenthesis at its beginning. -/
def dropOpening : List Char → List Char
  | '(' :: s => s
  | s => s

/-- The text without a closing parenthesis at its end. -/
def dropClosing (s : List Char) : List Char :=
  if s.getLast? = some ')' then s.dropLast else s

/-- A piece without blanks at its ends and without one pair of parentheses. -/
def unwrap (piece : List Char) : List Char := strip (dropClosing (dropOpening (strip piece)))

/-- The pieces of a clause between its conjunctions. -/
def conjuncts (clause : List Char) : List (List Char) :=
  let clause := strip clause
  splitBy (if contains groupMark clause then groupedAnd else plainAnd) clause

/-- The fragments of a `WHERE` clause, empty ones left out. -/
def fragments (clause : List Char) : List (List Char) :=
  ((conjuncts clause).map unwrap).filter (!·.isEmpty)

end Pigeonhole.Query
