/-!
# Similar texts

Two texts are compared by what they have in common: the longest run of characters that stands in
both, and then what the parts before it and the parts after it have in common.  `similar` picks the
texts that share enough with a given one, the closest first.
-/

namespace Pigeonhole.Text

/-- How many characters two texts begin with in common. -/
def commonPrefix : List Char → List Char → Nat
  | c :: a, d :: b => if c = d then commonPrefix a b + 1 else 0
  | _, _ => 0

/-- A run of characters that stands in two texts: where it begins in each, and its length. -/
structure CommonRun where
  left : Nat
  right : Nat
  size : Nat
deriving DecidableEq, Repr

/-- The longest run at the beginning of a text that stands somewhere in another one, the first of
several. -/
def longestPrefixRun (a : List Char) : List Char → CommonRun
  | [] => ⟨0, 0, 0⟩
  | d :: b =>
    let here := commonPrefix a (d :: b)
    let later := longestPrefixRun a b
    if later.size ≤ here then ⟨0, 0, here⟩ else { later with right := later.right + 1 }

/-- The longest run that stands in two texts, the first of several in the left text. -/
def longestRun (a b : List Char) : CommonRun :=
  match a with
  | [] => ⟨0, 0, 0⟩
  | c :: rest =>
    let here := longestPrefixRun (c :: rest) b
    let later := longestRun rest b
    if later.size ≤ here.size then here else { later with left := later.left + 1 }

/-- How many characters two texts have in common: their longest common run, and what stands in
common before it and after it. -/
def shared (a b : List Char) : Nat :=
  let run := longestRun a b
  if _h : 0 < run.size ∧ run.left + run.size ≤ a.length then
    shared (a.take run.left) (b.take run.right) + run.size +
      shared (a.drop (run.left + run.size)) (b.drop (run.right + run.size))
  else 0
termination_by a.length
decreasing_by
  · simp only [run, List.length_take] at *
    omega
  · simp only [run, List.length_drop] at *
    omega

/-- What two texts have in common, out of the characters of both. -/
structure Likeness where
  common : Nat
  total : Nat
deriving DecidableEq, Repr

namespace Likeness

/-- The likeness of two texts. -/
def of (a b : List Char) : Likeness := ⟨shared a b, a.length + b.length⟩

/-- Whether three tenths of all characters are in common, six tenths of each text on average. -/
def isClose (l : Likeness) : Bool := 3 * l.total ≤ 10 * l.common

/-- The order of likenesses as fractions. -/
def compare (a b : Likeness) : Ordering := Ord.compare (a.common * b.total) (b.common * a.total)

end Likeness

/-- Whether a candidate comes before another one: it is closer, or as close and later in the order
of texts. -/
def isCloser (a b : Likeness × String) : Bool :=
  match a.1.compare b.1 with
  | .gt => true
  | .lt => false
  | .eq => b.2 ≤ a.2

/-- The candidates that are close to a word, three at most, the closest first. -/
def similar (candidates : List String) (word : String) : List String :=
  let rated := candidates.map fun c => (Likeness.of c.toList word.toList, c)
  (((rated.filter fun r => r.1.isClose).mergeSort isCloser).take 3).map (·.2)

end Pigeonhole.Text
