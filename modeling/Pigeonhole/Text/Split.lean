/-!
# Cutting a text at separators

A separator is given by a function that returns the rest of a text after the separator, if one
stands at its beginning.  `splitBy` cuts at the leftmost separators that do not overlap, and keeps
empty pieces.  `lines` cuts at the ends of lines, which belong to the lines before them.
-/

namespace Pigeonhole.Text

/-- Adds a character at the front of the first piece. -/
def consHead (c : Char) : List (List Char) → List (List Char)
  | [] => [[c]]
  | piece :: rest => (c :: piece) :: rest

/-- The pieces of a text between its separators. -/
def splitBy (separator : List Char → Option (List Char)) (s : List Char) : List (List Char) :=
  match s with
  | [] => [[]]
  | c :: t =>
    match separator (c :: t) with
    | some rest =>
      if rest.length < (c :: t).length then [] :: splitBy separator rest
      else consHead c (splitBy separator t)
    | none => consHead c (splitBy separator t)
termination_by s.length
decreasing_by
  · assumption
  · exact Nat.lt_succ_self _
  · exact Nat.lt_succ_self _

/-- The pieces of a text between the occurrences of one character. -/
def splitOnChar (mark : Char) : List Char → List (List Char)
  | [] => [[]]
  | c :: s => if c = mark then [] :: splitOnChar mark s else consHead c (splitOnChar mark s)

/-- Whether a character ends a line: the line breaks, the separators of files, groups and records,
and the separators of lines and paragraphs. -/
def isLineEnd (c : Char) : Bool :=
  c ∈ ['\n', '\r', '\x0b', '\x0c', '\x1c', '\x1d', '\x1e', '\u0085', '\u2028', '\u2029']

/-- The lines of a text; an end of line at its end begins no further line, and a carriage return
with a line feed after it is one end. -/
def lines : List Char → List (List Char)
  | [] => []
  | '\r' :: '\n' :: s => [] :: lines s
  | c :: s => if isLineEnd c then [] :: lines s else consHead c (lines s)

/-- The pieces joined with a separator between them. -/
def joinWith (separator : List Char) : List (List Char) → List Char
  | [] => []
  | [piece] => piece
  | piece :: rest => piece ++ separator ++ joinWith separator rest

theorem consHead_ne_nil (c : Char) (pieces : List (List Char)) : consHead c pieces ≠ [] := by
  cases pieces <;> simp [consHead]

theorem splitOnChar_ne_nil (mark : Char) (s : List Char) : splitOnChar mark s ≠ [] := by
  cases s with
  | nil => simp [splitOnChar]
  | cons c s =>
    simp only [splitOnChar]
    split
    · simp
    · exact consHead_ne_nil _ _

end Pigeonhole.Text
