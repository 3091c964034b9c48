import Pigeonhole.Number.Double
import Pigeonhole.Text.Digit

/-!
# Shortest decimal digits

A positive finite double stands for every real number that rounds to it, an interval whose ends
belong to it if its mantissa is even.  `shortestDigits` is the decimal with the fewest digits in
that interval, and of several the one nearest to the double.
-/

namespace Pigeonhole.Double

/-- A decimal number `digits · 10 ^ scale`. -/
structure Decimal where
  /-- The digits as one natural number. -/
  digits : Nat
  /-- The power of ten of the last digit. -/
  scale : Int
deriving DecidableEq, Repr, Inhabited

/-- The reals that round to a positive double: its own value and the two ends, over one
denominator. -/
structure Interval where
  low : Nat
  value : Nat
  high : Nat
  den : Nat
  /-- Whether the ends themselves round to the double. -/
  closed : Bool
deriving Repr

/-- The interval of `m · 2 ^ q`; below a power of two the spacing is halved, except at the bottom of
the format. -/
def intervalOf (m : Nat) (q : Int) : Interval :=
  let narrow := m = twoPow 52 ∧ -1074 < q
  let value := 4 * m
  let low := if narrow then value - 1 else value - 2
  let high := value + 2
  if 2 ≤ q then
    let k := twoPow (q - 2).toNat
    ⟨low * k, value * k, high * k, 1, m % 2 = 0⟩
  else ⟨low, value, high, twoPow (2 - q).toNat, m % 2 = 0⟩

/-- Whether the decimal `n · 10 ^ e` lies in the interval. -/
def Interval.holds (i : Interval) (n : Nat) (e : Int) : Bool :=
  let x := if 0 ≤ e then n * tenPow e.toNat * i.den else n * i.den
  let k := if 0 ≤ e then 1 else tenPow (-e).toNat
  if i.closed then i.low * k ≤ x && x ≤ i.high * k else i.low * k < x && x < i.high * k

/-- The multiple of `10 ^ e` just below the value or at it. -/
def Interval.floorAt (i : Interval) (e : Int) : Nat :=
  if 0 ≤ e then i.value / (i.den * tenPow e.toNat) else i.value * tenPow (-e).toNat / i.den

/-- Whether the multiple of `10 ^ e` after `n` is nearer to the value than `n` is, or as near with
`n` odd. -/
def Interval.nextIsNearer (i : Interval) (n : Nat) (e : Int) : Bool :=
  let unit := if 0 ≤ e then i.den * tenPow e.toNat else i.den
  let value := if 0 ≤ e then i.value else i.value * tenPow (-e).toNat
  let below := 2 * (value - n * unit)
  below > unit || (below == unit && n % 2 == 1)

/-- The decimal of the grid `10 ^ e` in the interval that is nearest to the value. -/
def Interval.onGrid? (i : Interval) (e : Int) : Option Decimal :=
  let n := i.floorAt e
  let here := n != 0 && i.holds n e
  let next := i.holds (n + 1) e
  if here && next then some ⟨if i.nextIsNearer n e then n + 1 else n, e⟩
  else if here then some ⟨n, e⟩
  else if next then some ⟨n + 1, e⟩
  else none

/-- The first grid with a hit, from coarse to fine. -/
def Interval.search (i : Interval) : Nat → Int → Decimal
  | 0, e => ⟨i.floorAt e, e⟩
  | fuel + 1, e => (i.onGrid? e).getD (i.search fuel (e - 1))

/-- The decimal exponent of the first digit of `num / den`, or one above it. -/
def leadingExponent (num den : Nat) : Int :=
  ((num.log2 : Int) - den.log2) * 30103 / 100000 + 1

/-- Removes trailing zeros of the digits. -/
def Decimal.trim (fuel : Nat) (d : Decimal) : Decimal :=
  match fuel with
  | 0 => d
  | fuel + 1 =>
    if d.digits ≠ 0 ∧ d.digits % 10 = 0 then Decimal.trim fuel ⟨d.digits / 10, d.scale + 1⟩ else d

/-- The decimal with the fewest digits that reads back as `m · 2 ^ q`. -/
def shortestDigits (m : Nat) (q : Int) : Decimal :=
  if m = 0 then ⟨0, 0⟩
  else
    let i := intervalOf m q
    (i.search 20 (leadingExponent i.value i.den)).trim 20

end Pigeonhole.Double
