import Mathlib.Algebra.Order.Field.Power
import Mathlib.Data.Rat.Cast.Order
import Mathlib.Tactic.FieldSimp
import Mathlib.Tactic.Linarith
import Mathlib.Tactic.NormNum
import Mathlib.Tactic.Positivity
import Mathlib.Tactic.Ring
import Pigeonhole.Number.Shortest

/-!
# Intervals of doubles

The mantissas and exponents of finite doubles (`InFormat`) are spaced so that the numbers which
round to one double do not round to another one: a rational number lies in the interval of one
mantissa and exponent at most, if they are normalized as doubles are (`eq_of_contains`).  In particular a double is known from its value.
-/

namespace Pigeonhole.Double

/-! ## The format -/

/-- The mantissas and exponents of finite doubles. -/
structure InFormat (m : Nat) (q : Int) : Prop where
  lt : m < twoPow 53
  least : -1074 ≤ q
  greatest : q ≤ 971
  normal : -1074 < q → twoPow 52 ≤ m

/-- Mantissas and exponents that are the only ones of their value, also beyond the greatest exponent
of the format. -/
structure Normalized (m : Nat) (q : Int) : Prop where
  lt : m < twoPow 53
  least : -1074 ≤ q
  normal : -1074 < q → twoPow 52 ≤ m

theorem InFormat.normalized {m : Nat} {q : Int} (h : InFormat m q) : Normalized m q :=
  ⟨h.lt, h.least, h.normal⟩

theorem twoPow_fifty_two : twoPow 52 = 4503599627370496 := by decide +kernel

theorem twoPow_fifty_three : twoPow 53 = 9007199254740992 := by decide +kernel

theorem inFormat (biased : Fin 2047) (fraction : Fin 4503599627370496) :
    InFormat (mantissaOf biased fraction) (exponentOf biased) := by
  have hb := biased.isLt
  have hf := fraction.isLt
  constructor <;> simp only [mantissaOf, exponentOf, twoPow_fifty_two, twoPow_fifty_three] <;> grind

theorem InFormat.exponent_of_zero {m : Nat} {q : Int} (h : InFormat m q) (hm : m = 0) :
    q = -1074 := by
  have hleast := h.least
  have hnormal := h.normal
  rw [twoPow_fifty_two] at hnormal
  omega

/-- The mantissa and the exponent determine a finite double up to its sign. -/
theorem parts_inj {biased biased' : Fin 2047} {fraction fraction' : Fin 4503599627370496}
    (hm : mantissaOf biased fraction = mantissaOf biased' fraction')
    (hq : exponentOf biased = exponentOf biased') : biased = biased' ∧ fraction = fraction' := by
  simp only [mantissaOf, exponentOf, twoPow_fifty_two] at hm hq
  constructor <;> apply Fin.ext <;> grind

/-! ## Membership -/

/-- The value of a decimal. -/
def Decimal.value (d : Decimal) : ℚ := d.digits * (10 : ℚ) ^ d.scale

/-- The least number of an interval. -/
def Interval.lowEnd (i : Interval) : ℚ := i.low / i.den

/-- The greatest number of an interval. -/
def Interval.highEnd (i : Interval) : ℚ := i.high / i.den

/-- A number lies in an interval; the ends only count for a closed one. -/
structure Interval.Contains (i : Interval) (r : ℚ) : Prop where
  low_le : i.lowEnd ≤ r
  le_high : r ≤ i.highEnd
  low_lt : i.closed = false → i.lowEnd < r
  lt_high : i.closed = false → r < i.highEnd

theorem Interval.contains_of_lt {i : Interval} {r : ℚ} (hlow : i.lowEnd < r) (hhigh : r < i.highEnd) :
    i.Contains r := ⟨hlow.le, hhigh.le, fun _ => hlow, fun _ => hhigh⟩

theorem cast_tenPow (k : Nat) : (tenPow k : ℚ) = (10 : ℚ) ^ (k : ℤ) := by
  rw [tenPow, zpow_natCast]
  exact Nat.cast_pow 10 k

theorem cast_twoPow (k : Nat) : (twoPow k : ℚ) = (2 : ℚ) ^ (k : ℤ) := by
  rw [twoPow, zpow_natCast]
  exact Nat.cast_pow 2 k

theorem tenPow_cast_pos (k : Nat) : (0 : ℚ) < tenPow k := Nat.cast_pos.2 (tenPow_pos k)

/-- The test on natural numbers decides membership. -/
theorem Interval.contains_of_holds {i : Interval} (hden : 0 < i.den) {n : Nat} {e : Int}
    (h : i.holds n e = true) : i.Contains (Decimal.value ⟨n, e⟩) := by
  have hd : (0 : ℚ) < i.den := Nat.cast_pos.2 hden
  obtain ⟨x, k, hk, hx, hvalue⟩ : ∃ x k : Nat, (0 : ℚ) < k ∧ (i.holds n e =
      if i.closed then i.low * k ≤ x && x ≤ i.high * k else i.low * k < x && x < i.high * k) ∧
      (x : ℚ) = Decimal.value ⟨n, e⟩ * i.den * k := by
    by_cases he : 0 ≤ e
    · refine ⟨n * tenPow e.toNat * i.den, 1, by norm_num, ?_, ?_⟩
      · simp only [Interval.holds, if_pos he]
      · rw [Decimal.value, Nat.cast_mul, Nat.cast_mul, cast_tenPow, Int.toNat_of_nonneg he,
          Nat.cast_one, mul_one]
    · refine ⟨n * i.den, tenPow (-e).toNat, tenPow_cast_pos _, ?_, ?_⟩
      · simp only [Interval.holds, if_neg he]
      · rw [Decimal.value, Nat.cast_mul, cast_tenPow, Int.toNat_of_nonneg (by omega), zpow_neg]
        field_simp
  have hlow : i.lowEnd * i.den * k = (i.low * k : Nat) := by
    rw [Interval.lowEnd, div_mul_cancel₀ _ hd.ne', Nat.cast_mul]
  have hhigh : i.highEnd * i.den * k = (i.high * k : Nat) := by
    rw [Interval.highEnd, div_mul_cancel₀ _ hd.ne', Nat.cast_mul]
  rw [hx] at h
  have hscale : ∀ a b : ℚ, a * i.den * k < b * i.den * k ↔ a < b := fun a b => by
    rw [mul_lt_mul_iff_left₀ hk, mul_lt_mul_iff_left₀ hd]
  have hscale' : ∀ a b : ℚ, a * i.den * k ≤ b * i.den * k ↔ a ≤ b := fun a b => by
    rw [mul_le_mul_iff_left₀ hk, mul_le_mul_iff_left₀ hd]
  cases hclosed : i.closed with
  | true =>
    simp only [hclosed, if_true, Bool.and_eq_true, decide_eq_true_eq] at h
    refine ⟨?_, ?_, fun hopen => ?_, fun hopen => ?_⟩
    · rw [← hscale', hlow, ← hvalue]
      exact Nat.cast_le.2 h.1
    · rw [← hscale', hhigh, ← hvalue]
      exact Nat.cast_le.2 h.2
    all_goals rw [hclosed] at hopen; cases hopen
  | false =>
    simp only [hclosed, Bool.false_eq_true, if_false, Bool.and_eq_true, decide_eq_true_eq] at h
    apply Interval.contains_of_lt
    · rw [← hscale, hlow, ← hvalue]
      exact Nat.cast_lt.2 h.1
    · rw [← hscale, hhigh, ← hvalue]
      exact Nat.cast_lt.2 h.2

/-! ## The interval of a double -/

/-- A quarter of the spacing at a double with this exponent. -/
def unit (q : Int) : ℚ := 2 ^ (q - 2)

/-- The distance to the lower end in quarters of the spacing. -/
def reach (m : Nat) (q : Int) : Nat := if m = twoPow 52 ∧ -1074 < q then 1 else 2

theorem unit_pos (q : Int) : 0 < unit q := zpow_pos (by norm_num) _

theorem two_mul_unit_le {q q' : Int} (h : q < q') : 2 * unit q ≤ unit q' := by
  have hsplit : unit q' = 2 * unit q * 2 ^ (q' - q - 1) := by
    have htwo : (2 : ℚ) ≠ 0 := by norm_num
    rw [unit, unit, ← zpow_one_add₀ htwo, ← zpow_add₀ htwo]
    congr 1
    omega
  rw [hsplit]
  have hone : (1 : ℚ) ≤ 2 ^ (q' - q - 1) := one_le_zpow₀ (by norm_num) (by omega)
  exact le_mul_of_one_le_right (by have := unit_pos q; positivity) hone

section

variable {m m' : Nat} {q q' : Int} {r : ℚ}

theorem reach_le (m : Nat) (q : Int) : reach m q ≤ 2 := by
  rw [reach]
  split <;> omega

theorem reach_pos (m : Nat) (q : Int) : 0 < reach m q := by
  rw [reach]
  split <;> omega

/-- The parts of the interval in quarters of the spacing. -/
theorem exists_intervalOf (m : Nat) (q : Int) :
    ∃ k den : Nat, 0 < den ∧ (k : ℚ) / den = unit q ∧ intervalOf m q =
      ⟨(4 * m - reach m q) * k, 4 * m * k, (4 * m + 2) * k, den, decide (m % 2 = 0)⟩ := by
  have hlow : (if m = twoPow 52 ∧ -1074 < q then 4 * m - 1 else 4 * m - 2) = 4 * m - reach m q := by
    rw [reach]
    split <;> rfl
  by_cases hq : 2 ≤ q
  · refine ⟨twoPow (q - 2).toNat, 1, by decide, ?_, ?_⟩
    · rw [cast_twoPow, Int.toNat_of_nonneg (by omega), Nat.cast_one, div_one, unit]
    · simp only [intervalOf, if_pos hq, hlow]
  · refine ⟨1, twoPow (2 - q).toNat, twoPow_pos _, ?_, ?_⟩
    · rw [cast_twoPow, Int.toNat_of_nonneg (by omega), unit, Nat.cast_one, one_div, ← zpow_neg,
        neg_sub]
    · simp only [intervalOf, if_neg hq, hlow, Nat.mul_one]

theorem den_intervalOf_pos (m : Nat) (q : Int) : 0 < (intervalOf m q).den := by
  obtain ⟨k, den, hden, -, heq⟩ := exists_intervalOf m q
  rw [heq]
  exact hden

theorem closed_intervalOf (m : Nat) (q : Int) : (intervalOf m q).closed = decide (m % 2 = 0) := by
  obtain ⟨k, den, -, -, heq⟩ := exists_intervalOf m q
  rw [heq]

theorem value_intervalOf (m : Nat) (q : Int) :
    ((intervalOf m q).value : ℚ) / (intervalOf m q).den = (4 * m : Nat) * unit q := by
  obtain ⟨k, den, -, hunit, heq⟩ := exists_intervalOf m q
  rw [heq, ← hunit, Nat.cast_mul, mul_div_assoc]

theorem lowEnd_intervalOf (m : Nat) (q : Int) :
    (intervalOf m q).lowEnd = (4 * m - reach m q : Nat) * unit q := by
  obtain ⟨k, den, -, hunit, heq⟩ := exists_intervalOf m q
  rw [Interval.lowEnd, heq, ← hunit, Nat.cast_mul, mul_div_assoc]

theorem highEnd_intervalOf (m : Nat) (q : Int) :
    (intervalOf m q).highEnd = (4 * m + 2 : Nat) * unit q := by
  obtain ⟨k, den, -, hunit, heq⟩ := exists_intervalOf m q
  rw [Interval.highEnd, heq, ← hunit, Nat.cast_mul, mul_div_assoc]

/-- A double lies in its interval. -/
theorem contains_self (hm : 0 < m) (q : Int) : (intervalOf m q).Contains ((4 * m : Nat) * unit q) := by
  have hu := unit_pos q
  have hreach := reach_pos m q
  apply Interval.contains_of_lt
  · rw [lowEnd_intervalOf]
    exact mul_lt_mul_of_pos_right (Nat.cast_lt.2 (by omega)) hu
  · rw [highEnd_intervalOf]
    exact mul_lt_mul_of_pos_right (Nat.cast_lt.2 (by omega)) hu

theorem pos_of_contains (hm : 0 < m) (hr : (intervalOf m q).Contains r) : 0 < r := by
  have hlow := hr.low_le
  have hreach := reach_le m q
  rw [lowEnd_intervalOf] at hlow
  have hpos : (0 : ℚ) < (4 * m - reach m q : Nat) := Nat.cast_pos.2 (by omega)
  exact lt_of_lt_of_le (mul_pos hpos (unit_pos q)) hlow

/-- Two intervals share no number if the first ends before the second begins, or where the second
begins and one of them is open. -/
theorem not_contains_of_le {i i' : Interval} (hle : i.highEnd ≤ i'.lowEnd)
    (h : i.closed = false ∨ i'.closed = false ∨ i.highEnd < i'.lowEnd) (hr : i.Contains r) :
    ¬ i'.Contains r := by
  intro hr'
  have hhigh := hr.le_high
  have hlow := hr'.low_le
  rcases h with hopen | hopen | hlt
  · linarith [hr.lt_high hopen]
  · linarith [hr'.low_lt hopen]
  · linarith

theorem not_contains_of_mantissa_lt (hlt : m < m') (hr : (intervalOf m q).Contains r) :
    ¬ (intervalOf m' q).Contains r := by
  have hu := unit_pos q
  have hreach := reach_le m' q
  refine not_contains_of_le ?_ ?_ hr
  · rw [highEnd_intervalOf, lowEnd_intervalOf]
    exact mul_le_mul_of_nonneg_right (Nat.cast_le.2 (by omega)) hu.le
  · rw [highEnd_intervalOf, lowEnd_intervalOf, closed_intervalOf, closed_intervalOf,
      decide_eq_false_iff_not, decide_eq_false_iff_not, mul_lt_mul_iff_left₀ hu, Nat.cast_lt]
    omega

theorem not_contains_of_exponent_lt (h : Normalized m q) (h' : Normalized m' q') (hlt : q < q')
    (hr : (intervalOf m q).Contains r) : ¬ (intervalOf m' q').Contains r := by
  have hu := unit_pos q
  have hm := h.lt
  have hleast := h.least
  have hm' := h'.normal (by omega)
  rw [twoPow_fifty_three] at hm
  rw [twoPow_fifty_two] at hm'
  -- below a power of two the reach is halved, which is what the next power needs
  have hreach : 18014398509481983 ≤ 4 * m' - reach m' q' := by
    by_cases hnarrow : m' = twoPow 52
    · rw [reach, if_pos ⟨hnarrow, by omega⟩]
      omega
    · rw [reach, if_neg fun hn => hnarrow hn.1]
      rw [twoPow_fifty_two] at hnarrow
      omega
  have hlow : (36028797018963966 : Nat) * unit q ≤ (intervalOf m' q').lowEnd := by
    have hcast : (18014398509481983 : Nat) ≤ ((4 * m' - reach m' q' : Nat) : ℚ) :=
      Nat.cast_le.2 hreach
    calc ((36028797018963966 : Nat) : ℚ) * unit q
        = (18014398509481983 : Nat) * (2 * unit q) := by push_cast; ring
      _ ≤ (18014398509481983 : Nat) * unit q' :=
          mul_le_mul_of_nonneg_left (two_mul_unit_le hlt) (Nat.cast_nonneg _)
      _ ≤ (4 * m' - reach m' q' : Nat) * unit q' :=
          mul_le_mul_of_nonneg_right hcast (unit_pos q').le
      _ = (intervalOf m' q').lowEnd := (lowEnd_intervalOf m' q').symm
  have hhigh : (intervalOf m q).highEnd ≤ (36028797018963966 : Nat) * unit q := by
    rw [highEnd_intervalOf]
    exact mul_le_mul_of_nonneg_right (Nat.cast_le.2 (by omega)) hu.le
  refine not_contains_of_le (hhigh.trans hlow) ?_ hr
  by_cases hodd : m % 2 = 0
  · refine .inr (.inr (lt_of_lt_of_le ?_ hlow))
    rw [highEnd_intervalOf]
    exact mul_lt_mul_of_pos_right (Nat.cast_lt.2 (by omega)) hu
  · exact .inl (by rw [closed_intervalOf, decide_eq_false hodd])

/-- A number rounds to one double. -/
theorem eq_of_contains (h : Normalized m q) (h' : Normalized m' q') (hr : (intervalOf m q).Contains r)
    (hr' : (intervalOf m' q').Contains r) : m = m' ∧ q = q' := by
  rcases lt_trichotomy q q' with hq | rfl | hq
  · exact absurd hr' (not_contains_of_exponent_lt h h' hq hr)
  · rcases lt_trichotomy m m' with hm | rfl | hm
    · exact absurd hr' (not_contains_of_mantissa_lt hm hr)
    · exact ⟨rfl, rfl⟩
    · exact absurd hr (not_contains_of_mantissa_lt hm hr')
  · exact absurd hr (not_contains_of_exponent_lt h' h hq hr')

end

end Pigeonhole.Double
