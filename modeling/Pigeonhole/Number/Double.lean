import Pigeonhole.Number.Power

/-!
# Double precision numbers

A `Double` is a number of the binary interchange format of 64 bits: not a number, an infinity, or a
finite number with a sign, a biased exponent and a fraction.  Every finite number is
`± mantissa · 2 ^ exponent`, and all operations work on this reading with exact natural numbers.
`Double.ofRatio` rounds a quotient to the nearest double, a tie to the even mantissa.
-/

namespace Pigeonhole

/-- A number of the 64-bit binary format; all values that are not a number are one. -/
inductive Double where
  | nan
  | infinite (negative : Bool)
  | finite (negative : Bool) (biased : Fin 2047) (fraction : Fin 4503599627370496)
deriving DecidableEq, Repr, Inhabited

/-- The fraction `num / den` rounded to the nearest natural number, a tie to the even one. -/
def roundHalfEven (num den : Nat) : Nat :=
  let q := num / den
  let twice := 2 * (num % den)
  if twice < den then q else if den < twice then q + 1 else q + q % 2

namespace Double

/-- The mantissa of a finite number, with the hidden bit of a normal one. -/
def mantissaOf (biased : Fin 2047) (fraction : Fin 4503599627370496) : Nat :=
  if biased.val = 0 then fraction.val else twoPow 52 + fraction.val

/-- The exponent of the last bit of a finite number. -/
def exponentOf (biased : Fin 2047) : Int := (max biased.val 1 : Int) - 1075

/-- Zero with a sign. -/
def zero (negative : Bool) : Double := .finite negative 0 0

/-- The finite number `± m · 2 ^ q` for a mantissa and an exponent of the format; an infinity if the
exponent is too large. -/
def ofParts (negative : Bool) (m : Nat) (q : Int) : Double :=
  let biased := if m < twoPow 52 then 0 else (q + 1075).toNat
  let fraction := if m < twoPow 52 then m else m - twoPow 52
  if hb : biased < 2047 then
    if hf : fraction < 4503599627370496 then .finite negative ⟨biased, hb⟩ ⟨fraction, hf⟩
    else .infinite negative
  else .infinite negative

/-- The fraction `num / (den · 2 ^ q)` rounded to the nearest natural number. -/
def scaledRound (num den : Nat) (q : Int) : Nat :=
  if 0 ≤ q then roundHalfEven num (den * twoPow q.toNat)
  else roundHalfEven (num * twoPow (-q).toNat) den

/-- Whether `num / den` is below `2 ^ k`. -/
def belowPow (num den : Nat) (k : Int) : Bool :=
  if 0 ≤ k then num < den * twoPow k.toNat else num * twoPow (-k).toNat < den

/-- The double nearest to `± num / den`. -/
def ofRatio (negative : Bool) (num den : Nat) : Double :=
  if num = 0 then zero negative
  else
    let guess : Int := (num.log2 : Int) - den.log2
    let top := if belowPow num den guess then guess - 1 else guess
    let q := max (top - 52) (-1074)
    let m := scaledRound num den q
    if m = twoPow 53 then ofParts negative (twoPow 52) (q + 1) else ofParts negative m q

/-- The double nearest to an integer. -/
def ofInt (n : Int) : Double := ofRatio (n < 0) n.natAbs 1

/-- Largest decimal exponent, counted from the first digit, at which a number can be finite. -/
def maxDecimalExponent : Int := 310

/-- Smallest decimal exponent, counted from the first digit, at which a number can differ from
zero. -/
def minDecimalExponent : Int := -330

/-- The double nearest to `± n · 10 ^ e`, where `n` has `digits` decimal digits at most. -/
def ofDecimal (negative : Bool) (n digits : Nat) (e : Int) : Double :=
  if n = 0 then zero negative
  else if maxDecimalExponent < (Nat.log2 n : Int) / 4 + e then .infinite negative
  else if (digits : Int) + e < minDecimalExponent then zero negative
  else if 0 ≤ e then ofRatio negative (n * tenPow e.toNat) 1
  else ofRatio negative n (tenPow (-e).toNat)

/-- Whether a number is one of the finite ones. -/
def isFinite : Double → Bool
  | .finite .. => true
  | _ => false

/-- The fraction `numerator / denominator` of the size of a finite number, `none` for the others. -/
def ratio? : Double → Option (Bool × Nat × Nat)
  | .finite negative biased fraction =>
    let m := mantissaOf biased fraction
    let q := exponentOf biased
    some (if 0 ≤ q then (negative, m * twoPow q.toNat, 1) else (negative, m, twoPow (-q).toNat))
  | _ => none

/-- An integer from its sign and its size. -/
def signed (negative : Bool) (n : Nat) : Int := if negative then -n else n

/-- The integer that a number is equal to, if it is one. -/
def toInt? (x : Double) : Option Int :=
  match x.ratio? with
  | some (negative, num, den) => if num % den = 0 then some (signed negative (num / den)) else none
  | none => none

/-- The integer between zero and a finite number that is nearest to it. -/
def truncate? (x : Double) : Option Int :=
  x.ratio?.map fun (negative, num, den) => signed negative (num / den)

/-- The largest integer that is not above a finite number. -/
def floor? (x : Double) : Option Int :=
  x.ratio?.map fun (negative, num, den) =>
    if negative then -((num + den - 1) / den : Nat) else (num / den : Nat)

/-- Multiplication by a natural number, rounded once. -/
def scale (x : Double) (k : Nat) : Double :=
  match x with
  | .finite negative _ _ =>
    match x.ratio? with
    | some (_, num, den) => ofRatio negative (num * k) den
    | none => x
  | .infinite negative => if k = 0 then .nan else .infinite negative
  | .nan => .nan

/-- Whether a number is below zero. -/
def isNegative : Double → Bool
  | .nan => false
  | .infinite negative => negative
  | .finite negative biased fraction => negative && mantissaOf biased fraction != 0

/-- Whether the sign of a number is written: negative zero counts. -/
def hasMinus : Double → Bool
  | .nan => false
  | .infinite negative => negative
  | .finite negative _ _ => negative

/-- One. -/
def one : Double := ofInt 1

/-- The number with its sign set. -/
def withSign (negative : Bool) : Double → Double
  | .finite _ biased fraction => .finite negative biased fraction
  | .infinite _ => .infinite negative
  | .nan => .nan

end Double

end Pigeonhole
