/-!
# Issues

An `Issue` says what is wrong with one part of a value, and where that part is.
-/

namespace Pigeonhole

/-- One step down to a part of a value. -/
inductive Step where
  | key (name : String)
  | index (i : Nat)
  /-- To the value of a key that is a number. -/
  | number (n : Int)
deriving DecidableEq, Repr

/-- What is wrong with a part of a value. -/
inductive IssueKind where
  /-- A required member is absent. -/
  | missing
  | notString
  | notList
  | notMapping
  /-- Not the mapping of a model. -/
  | notModel
  /-- None of the members of an enumeration. -/
  | notMember
  /-- None of the admitted literals. -/
  | notLiteral
  | notDouble
  /-- A string that is no double. -/
  | doubleText
  | notInt
  /-- A string that is no integer. -/
  | intText
  /-- A string with more digits than integers may have. -/
  | longIntText
  /-- A double that is no integer. -/
  | fractional
  /-- A double that is infinite or no number where an integer is expected. -/
  | notFinite
  /-- A double beyond the integers of 64 bits. -/
  | tooLarge
  /-- Below the least admitted number. -/
  | tooSmall
  /-- A rule of the model is broken. -/
  | rule (message : String)
deriving DecidableEq, Repr

/-- What is wrong with a part of a value, and where. -/
structure Issue where
  place : List Step
  kind : IssueKind
deriving DecidableEq, Repr

/-- The issue of a part, seen from the whole. -/
def Issue.under (step : Step) (issue : Issue) : Issue := { issue with place := step :: issue.place }

end Pigeonhole
