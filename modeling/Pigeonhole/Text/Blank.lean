import Pigeonhole.Text.Ranges

/-!
# White space

`isBlank` is the white space of the query language, of numerals and of sizes: the Unicode white
space together with the four ASCII information separators.  `strip` removes it from both ends.
-/

namespace Pigeonhole.Text

/-- The code points of white space. -/
def blankRanges : List (Nat × Nat) :=
  [(0x09, 0x0d), (0x1c, 0x20), (0x85, 0x85), (0xa0, 0xa0), (0x1680, 0x1680), (0x2000, 0x200a),
    (0x2028, 0x2029), (0x202f, 0x202f), (0x205f, 0x205f), (0x3000, 0x3000)]

/-- White space. -/
def isBlank (c : Char) : Bool := inRanges blankRanges c.toNat

/-- The text without its leading white space. -/
def stripLeft (s : List Char) : List Char := s.dropWhile isBlank

/-- The text without its trailing white space. -/
def stripRight (s : List Char) : List Char := (s.reverse.dropWhile isBlank).reverse

/-- The text without white space at its ends. -/
def strip (s : List Char) : List Char := stripRight (stripLeft s)

/-- The rest after at least one blank and all that follow it. -/
def dropBlanks1 : List Char → Option (List Char)
  | [] => none
  | c :: s => if isBlank c then some (stripLeft s) else none

@[simp] theorem stripLeft_nil : stripLeft [] = [] := rfl

end Pigeonhole.Text
