import Pigeonhole.Number.Basic

/-!
# Decimals with a given number of digits

A fraction is written with a fixed number of decimal places, with one digit before the point and an
exponent, or in the shorter of both forms.  A tie goes to the even digit.
-/

namespace Pigeonhole.Rounded

/-- Whether `num / den` is below `10 ^ e`. -/
def belowTen (num den : Nat) (e : Int) : Bool :=
  if 0 ≤ e then num < den * tenPow e.toNat else num * tenPow (-e).toNat < den

/-- The largest exponent from a given one downwards whose power of ten is not above `num / den`. -/
def exponentFrom (num den : Nat) : Nat → Int → Int
  | 0, e => e
  | fuel + 1, e => if belowTen num den e then exponentFrom num den fuel (e - 1) else e

/-- The fraction `num / (den · 10 ^ e)` rounded. -/
def roundAt (num den : Nat) (e : Int) : Nat :=
  if 0 ≤ e then roundHalfEven num (den * tenPow e.toNat)
  else roundHalfEven (num * tenPow (-e).toNat) den

/-- The digits of a fraction, one more than `places`, and the exponent of the first. -/
def significant (places : Nat) (num den : Nat) : List Char × Int :=
  if num = 0 then (List.replicate (places + 1) '0', 0)
  else
    let e := exponentFrom num den 4 (Double.leadingExponent num den)
    let n := roundAt num den (e - places)
    if n = tenPow (places + 1) then (Text.natDigits (tenPow places), e + 1)
    else (Text.natDigits n, e)

/-- Digits with a point after some of them; a point at the end only if it is asked for. -/
def withPoint (point : Bool) (before : Nat) (digits : List Char) : List Char :=
  let fraction := digits.drop before
  digits.take before ++ (if fraction.isEmpty && !point then [] else '.' :: fraction)

/-- A fraction with a fixed number of decimal places. -/
def fixed (point : Bool) (places : Nat) (num den : Nat) : List Char :=
  let ds := Text.natDigits (roundHalfEven (num * tenPow places) den)
  let ds := List.replicate (places + 1 - ds.length) '0' ++ ds
  withPoint point (ds.length - places) ds

/-- Digits with a point after the first, and an exponent. -/
def withExponent (point : Bool) (digits : List Char) (e : Int) : List Char :=
  withPoint point 1 digits ++ 'e' :: Double.exponentText 2 e

/-- A fraction with one digit before the point and an exponent. -/
def scientific (point : Bool) (places : Nat) (num den : Nat) : List Char :=
  let (digits, e) := significant places num den
  withExponent point digits e

/-- The text without the zeros at its end. -/
def dropZeros (digits : List Char) : List Char := (digits.reverse.dropWhile (· == '0')).reverse

/-- A fraction with a number of significant digits in the shorter form, zeros at the end left out
unless a point is asked for. -/
def general (point : Bool) (count : Nat) (num den : Nat) : List Char :=
  let count := max count 1
  let (digits, e) := significant (count - 1) num den
  if -4 ≤ e ∧ e < count then
    let places := ((count : Int) - 1 - e).toNat
    let body := List.replicate (-e).toNat '0' ++ digits
    let whole := body.take (body.length - places)
    let fraction := body.drop (body.length - places)
    withPoint point whole.length (whole ++ if point then fraction else dropZeros fraction)
  else
    withExponent point (if point then digits else digits.take 1 ++ dropZeros (digits.drop 1)) e

end Pigeonhole.Rounded
