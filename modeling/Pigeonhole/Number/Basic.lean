import Pigeonhole.Number.Shortest

/-!
# Numbers

A number is an integer of any size or a double.  Both are compared by the exact value they denote:
`Number.compare?` is undefined on what is not a number and total on all else.
-/

namespace Pigeonhole

/-- An integer of any size or a double. -/
inductive Number where
  | int (n : Int)
  | double (x : Double)
deriving DecidableEq, Repr, Inhabited

/-- The value that a number denotes on the extended line. -/
inductive Extent where
  | bottom
  | ratio (num : Int) (den : Nat)
  | top
deriving DecidableEq, Repr

namespace Extent

/-- The order of the extended line; fractions have positive denominators. -/
def compare : Extent → Extent → Ordering
  | bottom, bottom => .eq
  | bottom, _ => .lt
  | _, bottom => .gt
  | top, top => .eq
  | top, _ => .gt
  | _, top => .lt
  | ratio a b, ratio c d => Ord.compare (a * d) (c * b)

end Extent

namespace Double

/-- The value of a double, `none` for what is not a number. -/
def extent? : Double → Option Extent
  | .nan => none
  | .infinite negative => some (if negative then .bottom else .top)
  | x@(.finite ..) =>
    x.ratio?.map fun (negative, num, den) => .ratio (if negative then -num else num) den

/-- How the digits of a double are laid out as text. -/
structure Layout where
  /-- The first digit's exponents below this one are written with an exponent mark. -/
  leastPositional : Int
  /-- The first digit's exponents from this one on are written with an exponent mark. -/
  firstScientific : Int
  /-- Least number of exponent digits. -/
  exponentWidth : Nat
  nan : List Char
  infinity : List Char

/-- Doubles in JSON text: positional from one ten-thousandth up to `10 ^ 16`, with a point. -/
def jsonLayout : Layout where
  leastPositional := -4
  firstScientific := 16
  exponentWidth := 2
  nan := "NaN".toList
  infinity := "Infinity".toList

/-- Doubles in messages: as in JSON text but for the names of the values that are not finite. -/
def messageLayout : Layout :=
  { jsonLayout with nan := "nan".toList, infinity := "inf".toList }

/-- An exponent with its sign, padded to a width. -/
def exponentText (width : Nat) (e : Int) : List Char :=
  let ds := Text.natDigits e.natAbs
  (if e < 0 then '-' else '+') :: (List.replicate (width - ds.length) '0' ++ ds)

/-- The digits of a decimal in a layout. -/
def Decimal.text (layout : Layout) (d : Decimal) : List Char :=
  let ds := Text.natDigits d.digits
  let first := (ds.length : Int) + d.scale - 1
  if d.digits = 0 then "0.0".toList
  else if layout.leastPositional ≤ first ∧ first < layout.firstScientific then
    if 0 ≤ d.scale then ds ++ List.replicate d.scale.toNat '0' ++ ".0".toList
    else if 0 ≤ first then
      ds.take (first + 1).toNat ++ '.' :: ds.drop (first + 1).toNat
    else "0.".toList ++ List.replicate (-first - 1).toNat '0' ++ ds
  else
    let mark := 'e' :: exponentText layout.exponentWidth first
    match ds with
    | [] => []
    | [c] => c :: mark
    | c :: rest => c :: '.' :: rest ++ mark

/-- The shortest text of a double. -/
def text (layout : Layout) : Double → List Char
  | .nan => layout.nan
  | .infinite negative => if negative then '-' :: layout.infinity else layout.infinity
  | .finite negative biased fraction =>
    let digits := (shortestDigits (mantissaOf biased fraction) (exponentOf biased)).text layout
    if negative then '-' :: digits else digits

end Double

namespace Number

/-- The value of a number, `none` for what is not a number. -/
def extent? : Number → Option Extent
  | int n => some (.ratio n 1)
  | double x => x.extent?

/-- The order of two numbers by value, `none` if one of them is not a number. -/
def compare? (a b : Number) : Option Ordering := do
  let x ← a.extent?
  let y ← b.extent?
  return x.compare y

/-- Whether a number is zero, of either sign. -/
def isZero (n : Number) : Bool := n.compare? (.int 0) == some .eq

/-- An integral double as the integer equal to it, any other number unchanged. -/
def normalize : Number → Number
  | int n => int n
  | double x =>
    match x.toInt? with
    | some n => int n
    | none => double x

/-- The text of a number; doubles in a layout. -/
def text (layout : Double.Layout) : Number → List Char
  | int n => Text.intDigits n
  | double x => x.text layout

/-- The double nearest to a number. -/
def toDouble : Number → Double
  | int n => Double.ofInt n
  | double x => x

end Number

end Pigeonhole
