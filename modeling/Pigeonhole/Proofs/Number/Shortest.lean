import Mathlib.Data.Nat.Cast.Order.Field
import Pigeonhole.Proofs.Number.Interval

/-!
# The shortest digits stand for their double

Every grid that `Interval.search` stops at has a point in the interval, and the finest one, where it
stops in any case, is finer than the interval is wide (`tenPow_leadingExponent_le`).  So the shortest
digits of a double lie in its interval, and no two doubles have digits of one value.
-/

namespace Pigeonhole.Double

/-! ## The search -/

theorem Interval.contains_of_onGrid? {i : Interval} (hden : 0 < i.den) {e : Int} {d : Decimal}
    (h : i.onGrid? e = some d) : i.Contains d.value := by
  simp only [Interval.onGrid?] at h
  split at h
  case isTrue hboth =>
    rw [Bool.and_eq_true, Bool.and_eq_true] at hboth
    cases h
    split
    · exact contains_of_holds hden hboth.2
    · exact contains_of_holds hden hboth.1.2
  case isFalse =>
    split at h
    case isTrue hhere =>
      rw [Bool.and_eq_true] at hhere
      cases h
      exact contains_of_holds hden hhere.2
    case isFalse =>
      split at h
      case isTrue hnext =>
        cases h
        exact contains_of_holds hden hnext
      case isFalse => cases h

theorem Interval.search_contains {i : Interval} (hden : 0 < i.den) {fuel : Nat} {e : Int}
    (h : i.Contains (Decimal.value ⟨i.floorAt (e - fuel), e - fuel⟩)) :
    i.Contains (i.search fuel e).value := by
  induction fuel generalizing e with
  | zero =>
    rw [Nat.cast_zero, sub_zero] at h
    exact h
  | succ fuel ih =>
    rw [search]
    cases hgrid : i.onGrid? e with
    | some d => exact contains_of_onGrid? hden hgrid
    | none =>
      apply ih
      rwa [show e - 1 - fuel = e - (fuel + 1 : Nat) by push_cast; ring]

theorem Decimal.value_trim (fuel : Nat) (d : Decimal) : (d.trim fuel).value = d.value := by
  induction fuel generalizing d with
  | zero => rfl
  | succ fuel ih =>
    rw [trim]
    split
    case isTrue h =>
      have hdigits : (d.digits : ℚ) = (d.digits / 10 : Nat) * 10 := by
        exact_mod_cast (Nat.div_mul_cancel (Nat.dvd_of_mod_eq_zero h.2)).symm
      rw [ih, value, value, hdigits, zpow_add_one₀ (by norm_num)]
      ring
    case isFalse => rfl

/-- The grid point below a value is less than one unit of the grid away. -/
theorem Interval.floorAt_bounds {i : Interval} (hden : 0 < i.den) (e : Int) :
    Decimal.value ⟨i.floorAt e, e⟩ ≤ i.value / i.den ∧
      (i.value : ℚ) / i.den < Decimal.value ⟨i.floorAt e, e⟩ + 10 ^ e := by
  have hd : (0 : ℚ) < i.den := Nat.cast_pos.2 hden
  obtain ⟨x, k, hk, hfloor, hx, hvalue⟩ : ∃ x k : Nat, 0 < k ∧ i.floorAt e = x / k ∧
      (x : ℚ) / k * 10 ^ e = i.value / i.den ∧ ∀ n : Nat, Decimal.value ⟨n, e⟩ = n * 10 ^ e := by
    by_cases he : 0 ≤ e
    · refine ⟨i.value, i.den * tenPow e.toNat, Nat.mul_pos hden (tenPow_pos _), ?_, ?_, fun n => rfl⟩
      · rw [floorAt, if_pos he]
      · rw [Nat.cast_mul, cast_tenPow, Int.toNat_of_nonneg he]
        field_simp
    · refine ⟨i.value * tenPow (-e).toNat, i.den, hden, ?_, ?_, fun n => rfl⟩
      · rw [floorAt, if_neg he]
      · rw [Nat.cast_mul, cast_tenPow, Int.toNat_of_nonneg (by omega), zpow_neg]
        field_simp
  have hpow : (0 : ℚ) < 10 ^ e := zpow_pos (by norm_num) e
  rw [hvalue, ← hx, hfloor, ← add_one_mul]
  constructor
  · exact mul_le_mul_of_nonneg_right Nat.cast_div_le hpow.le
  · refine mul_lt_mul_of_pos_right ?_ hpow
    rw [div_lt_iff₀ (Nat.cast_pos.2 hk)]
    have hlt : x < (x / k + 1) * k := by
      rw [Nat.mul_comm]
      exact Nat.lt_mul_div_succ x hk
    exact_mod_cast hlt

/-! ## The finest grid -/

section

variable {m : Nat} {q : Int}

theorem tenPow_le_checked : ∀ j ∈ List.range 2046,
    tenPow ((j * 30103 + 34734) / 100000) * twoPow 1076 ≤ twoPow j * tenPow 327 := by
  decide +kernel

/-- The finest grid that is searched for the largest doubles with an exponent of the format. -/
theorem tenPow_le_unit (hleast : -1074 ≤ q) (hgreatest : q ≤ 971) :
    (10 : ℚ) ^ ((52 + q) * 30103 / 100000 - 19) ≤ unit q := by
  obtain ⟨j, rfl⟩ : ∃ j : Nat, q = j - 1074 := ⟨(q + 1074).toNat, by omega⟩
  have hchecked := tenPow_le_checked j (List.mem_range.2 (by omega))
  have hten : (52 + ((j : Int) - 1074)) * 30103 / 100000 - 19 =
      ((j * 30103 + 34734) / 100000 : Nat) - (327 : Nat) := by omega
  have htwo : (j : Int) - 1074 - 2 = j - (1076 : Nat) := by omega
  rw [hten, unit, htwo, zpow_sub₀ (by norm_num), zpow_sub₀ (by norm_num), ← cast_tenPow,
    ← cast_tenPow, ← cast_twoPow, ← cast_twoPow,
    div_le_div_iff₀ (tenPow_cast_pos _) (Nat.cast_pos.2 (twoPow_pos _))]
  exact_mod_cast hchecked

theorem log2_value_intervalOf (hm : 0 < m) (hlt : m < twoPow 53) (q : Int) :
    ((intervalOf m q).value.log2 : Int) - (intervalOf m q).den.log2 ≤ 52 + q := by
  by_cases hq : 2 ≤ q
  · simp only [intervalOf, if_pos hq]
    have hlog : (4 * m * twoPow (q - 2).toNat).log2 < 55 + (q - 2).toNat := by
      rw [Nat.log2_lt (by have := twoPow_pos (q - 2).toNat; positivity)]
      calc 4 * m * twoPow (q - 2).toNat < 4 * 2 ^ 53 * twoPow (q - 2).toNat :=
            Nat.mul_lt_mul_of_pos_right (Nat.mul_lt_mul_of_pos_left hlt (by omega)) (twoPow_pos _)
        _ = 2 ^ (55 + (q - 2).toNat) := by
            rw [pow_add]
            rfl
    have hone : (1 : Nat).log2 = 0 := by decide
    omega
  · simp only [intervalOf, if_neg hq]
    have hlog : (4 * m).log2 < 55 := by
      rw [Nat.log2_lt (by omega)]
      calc 4 * m < 4 * 2 ^ 53 := Nat.mul_lt_mul_of_pos_left hlt (by omega)
        _ = 2 ^ 55 := by norm_num
    have hden : (twoPow (2 - q).toNat).log2 = (2 - q).toNat := Nat.log2_two_pow
    omega

theorem tenPow_leadingExponent_le (hm : 0 < m) (h : InFormat m q) :
    (10 : ℚ) ^ (leadingExponent (intervalOf m q).value (intervalOf m q).den - 20) ≤ unit q := by
  have hlog := log2_value_intervalOf hm h.lt q
  refine le_trans (zpow_le_zpow_right₀ (by norm_num) ?_) (tenPow_le_unit h.least h.greatest)
  rw [leadingExponent]
  omega

/-! ## The digits -/

/-- A grid that is not coarser than the unit has a point in the interval just below the double. -/
theorem contains_floorAt (hm : 0 < m) {e : Int} (he : (10 : ℚ) ^ e ≤ unit q) :
    (intervalOf m q).Contains (Decimal.value ⟨(intervalOf m q).floorAt e, e⟩) := by
  have hu := unit_pos q
  have hreach := reach_pos m q
  obtain ⟨hle, hlt⟩ := Interval.floorAt_bounds (den_intervalOf_pos m q) e
  rw [value_intervalOf] at hle hlt
  have hlow : (intervalOf m q).lowEnd + unit q ≤ (4 * m : Nat) * unit q := by
    rw [lowEnd_intervalOf, ← add_one_mul]
    exact mul_le_mul_of_nonneg_right (by exact_mod_cast (by omega)) hu.le
  have hend : (4 * m : Nat) * unit q < (intervalOf m q).highEnd := by
    rw [highEnd_intervalOf]
    exact mul_lt_mul_of_pos_right (Nat.cast_lt.2 (by omega)) hu
  exact Interval.contains_of_lt (by linarith) (by linarith)

/-- The shortest digits of a double round to it. -/
theorem contains_shortestDigits (hm : 0 < m) (h : InFormat m q) :
    (intervalOf m q).Contains (shortestDigits m q).value := by
  rw [shortestDigits, if_neg hm.ne', Decimal.value_trim]
  exact Interval.search_contains (den_intervalOf_pos m q)
    (contains_floorAt hm (tenPow_leadingExponent_le hm h))

theorem value_shortestDigits_eq_zero_iff (h : InFormat m q) :
    (shortestDigits m q).value = 0 ↔ m = 0 := by
  constructor
  · intro hzero
    by_contra hm
    have hpos := pos_of_contains (Nat.pos_of_ne_zero hm)
      (contains_shortestDigits (Nat.pos_of_ne_zero hm) h)
    exact hpos.ne' hzero
  · rintro rfl
    rw [shortestDigits, if_pos rfl, Decimal.value, Nat.cast_zero, zero_mul]

/-- Digits of one value belong to one double. -/
theorem shortestDigits_inj {m' : Nat} {q' : Int} (h : InFormat m q) (h' : InFormat m' q')
    (hvalue : (shortestDigits m q).value = (shortestDigits m' q').value) : m = m' ∧ q = q' := by
  have hzero : m = 0 ↔ m' = 0 := by
    rw [← value_shortestDigits_eq_zero_iff h, ← value_shortestDigits_eq_zero_iff h', hvalue]
  by_cases hm : m = 0
  · have hleast := h.exponent_of_zero hm
    have hleast' := h'.exponent_of_zero (hzero.1 hm)
    exact ⟨by rw [hm, hzero.1 hm], by rw [hleast, hleast']⟩
  · have hm' : m' ≠ 0 := fun hn => hm (hzero.2 hn)
    refine eq_of_contains h.normalized h'.normalized (contains_shortestDigits (Nat.pos_of_ne_zero hm) h) ?_
    rw [hvalue]
    exact contains_shortestDigits (Nat.pos_of_ne_zero hm') h'

end

end Pigeonhole.Double
