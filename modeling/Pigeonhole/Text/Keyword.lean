/-!
# Keywords in any letter case

Keywords are written in small ASCII letters and matched up to simple case folding, under which the
long s counts as s, the dotted capital I and the dotless i as i, and the Kelvin sign as k.
-/

namespace Pigeonhole.Text

/-- The small letter that a character stands for in a keyword. -/
def foldLetter (c : Char) : Char :=
  if 'A' ≤ c && c ≤ 'Z' then Char.ofNat (c.toNat + 32)
  else if c = 'ſ' then 's'
  else if c = 'İ' || c = 'ı' then 'i'
  else if c = '\u212a' then 'k'
  else c

/-- The rest of a text after a keyword, written in any letter case. -/
def dropKeyword : List Char → List Char → Option (List Char)
  | [], s => some s
  | _ :: _, [] => none
  | k :: w, c :: s => if foldLetter c = k then dropKeyword w s else none

/-- The rest of a text after exactly these characters. -/
def dropExact : List Char → List Char → Option (List Char)
  | [], s => some s
  | _ :: _, [] => none
  | k :: w, c :: s => if c = k then dropExact w s else none

/-- Whether a text contains another one as a contiguous part. -/
def contains (part : List Char) : List Char → Bool
  | [] => part.isEmpty
  | c :: s => part.isPrefixOf (c :: s) || contains part s

end Pigeonhole.Text
