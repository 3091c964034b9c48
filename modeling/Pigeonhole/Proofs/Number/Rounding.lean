import Mathlib.Algebra.Order.Field.Power
import Pigeonhole.Proofs.Number.Place
import Pigeonhole.Proofs.Number.Shortest

/-!
# Rounding to doubles

The nearest double of a fraction is the one in whose interval it lies (`ofRatio_of_contains`): the
parts that are rounded to are normalized and their interval has the fraction in it, and there are no
two such.  So a decimal in the interval of a double is read as this double
(`ofDecimal_of_contains`).
-/

namespace Pigeonhole.Double

/-! ## Natural numbers -/

/-- The natural number nearest to a rational one; a tie goes to the even number. -/
structure Nearest (n : Nat) (r : ℚ) : Prop where
  low : (n : ℚ) - 1 / 2 ≤ r
  high : r ≤ n + 1 / 2
  lt_of_odd : n % 2 = 1 → (n : ℚ) - 1 / 2 < r ∧ r < n + 1 / 2

theorem nearest_roundHalfEven {num den : Nat} (hden : 0 < den) :
    Nearest (roundHalfEven num den) (num / den) := by
  have hd : (0 : ℚ) < den := Nat.cast_pos.2 hden
  have hsplit : (num : ℚ) / den = (num / den : Nat) + (num % den : Nat) / den := by
    have hdiv : (num : ℚ) = (num / den : Nat) * den + (num % den : Nat) := by
      exact_mod_cast (Nat.div_add_mod' num den).symm
    rw [div_eq_iff hd.ne', add_mul, div_mul_cancel₀ _ hd.ne']
    exact hdiv
  have hrest : (0 : ℚ) ≤ (num % den : Nat) / den := by positivity
  have hone : ((num % den : Nat) : ℚ) / den < 1 := by
    rw [div_lt_one hd]
    exact_mod_cast Nat.mod_lt num hden
  have hsucc : ((num / den + 1 : Nat) : ℚ) = (num / den : Nat) + 1 := Nat.cast_succ _
  rw [hsplit]
  unfold roundHalfEven
  simp only
  by_cases hlt : 2 * (num % den) < den
  · rw [if_pos hlt]
    have hhalf : ((num % den : Nat) : ℚ) / den < 1 / 2 := by
      rw [div_lt_iff₀ hd]
      have hcast : (2 : ℚ) * (num % den : Nat) < den := by exact_mod_cast hlt
      linarith
    exact ⟨by linarith, by linarith, fun _ => ⟨by linarith, by linarith⟩⟩
  rw [if_neg hlt]
  by_cases hgt : den < 2 * (num % den)
  · rw [if_pos hgt]
    have hhalf : (1 : ℚ) / 2 < (num % den : Nat) / den := by
      rw [lt_div_iff₀ hd]
      have hcast : (den : ℚ) < 2 * (num % den : Nat) := by exact_mod_cast hgt
      linarith
    exact ⟨by linarith, by linarith, fun _ => ⟨by linarith, by linarith⟩⟩
  · rw [if_neg hgt]
    -- a tie
    have hhalf : ((num % den : Nat) : ℚ) / den = 1 / 2 := by
      rw [div_eq_iff hd.ne']
      have hcast : (2 : ℚ) * (num % den : Nat) = den := by
        exact_mod_cast (show 2 * (num % den) = den by omega)
      linarith
    rw [hhalf]
    rcases Nat.mod_two_eq_zero_or_one (num / den) with heven | hodd
    · rw [heven, Nat.add_zero]
      exact ⟨by linarith, by linarith, fun h => by omega⟩
    · rw [hodd]
      exact ⟨by linarith, by linarith, fun h => by omega⟩

theorem nearest_scaledRound {num den : Nat} (hden : 0 < den) (q : Int) :
    Nearest (scaledRound num den q) ((num : ℚ) / den / 2 ^ q) := by
  unfold scaledRound
  by_cases hq : 0 ≤ q
  · rw [if_pos hq]
    have hscale : (num : ℚ) / den / 2 ^ q = num / (den * twoPow q.toNat : Nat) := by
      rw [Nat.cast_mul, cast_twoPow, Int.toNat_of_nonneg hq, div_div]
    rw [hscale]
    exact nearest_roundHalfEven (Nat.mul_pos hden (twoPow_pos _))
  · rw [if_neg hq]
    have hscale : (num : ℚ) / den / 2 ^ q = (num * twoPow (-q).toNat : Nat) / den := by
      rw [Nat.cast_mul, cast_twoPow, Int.toNat_of_nonneg (by omega), zpow_neg]
      field_simp
    rw [hscale]
    exact nearest_roundHalfEven hden

section Nearest

variable {m n : Nat} {x : ℚ}

theorem Nearest.le_of_lt (h : Nearest m x) (hx : x < n) : m ≤ n := by
  have hcast : (m : ℚ) < (n + 1 : Nat) := by
    push_cast
    linarith [h.low]
  exact Nat.lt_succ_iff.1 (Nat.cast_lt.1 hcast)

theorem Nearest.le_of_le (h : Nearest m x) (hx : (n : ℚ) ≤ x) : n ≤ m := by
  have hcast : (n : ℚ) < (m + 1 : Nat) := by
    push_cast
    linarith [h.high]
  exact Nat.lt_succ_iff.1 (Nat.cast_lt.1 hcast)

end Nearest

/-! ## The exponent -/

theorem belowPow_iff {num den : Nat} (hden : 0 < den) (k : Int) :
    belowPow num den k = true ↔ (num : ℚ) / den < 2 ^ k := by
  have hd : (0 : ℚ) < den := Nat.cast_pos.2 hden
  unfold belowPow
  by_cases hk : 0 ≤ k
  · have hpow : (2 : ℚ) ^ k = twoPow k.toNat := by rw [cast_twoPow, Int.toNat_of_nonneg hk]
    rw [if_pos hk, decide_eq_true_iff, hpow, div_lt_iff₀ hd, mul_comm]
    exact_mod_cast Iff.rfl
  · have hpow : (2 : ℚ) ^ k = (twoPow (-k).toNat : ℚ)⁻¹ := by
      rw [cast_twoPow, Int.toNat_of_nonneg (by omega), zpow_neg, inv_inv]
    have hp : (0 : ℚ) < twoPow (-k).toNat := Nat.cast_pos.2 (twoPow_pos _)
    rw [if_neg hk, decide_eq_true_iff, hpow, div_lt_iff₀ hd, inv_mul_eq_div, lt_div_iff₀ hp]
    exact_mod_cast Iff.rfl

/-- The exponent of the first binary digit of a fraction. -/
def leadingBit (num den : Nat) : Int :=
  let guess : Int := (num.log2 : Int) - den.log2
  if belowPow num den guess then guess - 1 else guess

theorem zpow_log2_le {n : Nat} (hn : n ≠ 0) : (2 : ℚ) ^ (n.log2 : Int) ≤ n := by
  rw [zpow_natCast]
  exact_mod_cast Nat.log2_self_le hn

theorem lt_zpow_log2 (n : Nat) : (n : ℚ) < 2 ^ ((n.log2 : Int) + 1) := by
  rw [← Nat.cast_succ, zpow_natCast]
  exact_mod_cast Nat.lt_log2_self

theorem leadingBit_bounds {num den : Nat} (hnum : num ≠ 0) (hden : 0 < den) :
    (2 : ℚ) ^ leadingBit num den ≤ num / den ∧ (num : ℚ) / den < 2 ^ (leadingBit num den + 1) := by
  have hd : (0 : ℚ) < den := Nat.cast_pos.2 hden
  have hbelow := @belowPow_iff num den hden ((num.log2 : Int) - den.log2)
  unfold leadingBit
  simp only
  by_cases h : belowPow num den ((num.log2 : Int) - den.log2) = true
  · rw [if_pos h]
    refine ⟨?_, by rw [sub_add_cancel]; exact hbelow.1 h⟩
    have hsplit : (num.log2 : Int) - den.log2 - 1 = num.log2 - (den.log2 + 1) := by ring
    rw [hsplit, zpow_sub₀ (by norm_num)]
    exact div_le_div₀ (Nat.cast_nonneg _) (zpow_log2_le hnum) hd (lt_zpow_log2 den).le
  · rw [if_neg h]
    refine ⟨not_lt.1 fun hlt => h (hbelow.2 hlt), ?_⟩
    have hsplit : (num.log2 : Int) - den.log2 + 1 = (num.log2 + 1) - den.log2 := by ring
    have hpos : (0 : ℚ) < 2 ^ (den.log2 : Int) := zpow_pos (by norm_num) _
    rw [hsplit, zpow_sub₀ (by norm_num)]
    exact div_lt_div₀ (lt_zpow_log2 num) (zpow_log2_le hden.ne') (by positivity) hpos

/-- The exponent that a fraction is rounded at: 53 binary digits are kept, or fewer at the bottom of
the format. -/
def roundingExponent (num den : Nat) : Int := max (leadingBit num den - 52) (-1074)

section Scaled

variable {num den : Nat} (hnum : num ≠ 0) (hden : 0 < den)

include hnum hden

theorem scaled_lt : (num : ℚ) / den / 2 ^ roundingExponent num den < twoPow 53 := by
  rw [div_lt_iff₀ (zpow_pos (by norm_num) _), cast_twoPow, ← zpow_add₀ (by norm_num)]
  refine (leadingBit_bounds hnum hden).2.trans_le (zpow_le_zpow_right₀ (by norm_num) ?_)
  rw [roundingExponent]
  omega

theorem le_scaled (h : -1074 < roundingExponent num den) :
    (twoPow 52 : ℚ) ≤ (num : ℚ) / den / 2 ^ roundingExponent num den := by
  have hexponent : (52 : Nat) + roundingExponent num den = leadingBit num den := by
    rw [roundingExponent] at h ⊢
    omega
  rw [le_div_iff₀ (zpow_pos (by norm_num) _), cast_twoPow, ← zpow_add₀ (by norm_num), hexponent]
  exact (leadingBit_bounds hnum hden).1

end Scaled

theorem ofRatio_eq {num : Nat} (hnum : num ≠ 0) (den : Nat) (negative : Bool) :
    ofRatio negative num den =
      if scaledRound num den (roundingExponent num den) = twoPow 53 then
        ofParts negative (twoPow 52) (roundingExponent num den + 1)
      else ofParts negative (scaledRound num den (roundingExponent num den))
        (roundingExponent num den) := by
  rw [ofRatio, if_neg hnum]
  rfl

/-! ## Fractions -/

theorem mul_zpow_eq (x : ℚ) (q : Int) : x * 2 ^ q = 4 * x * unit q := by
  rw [unit, zpow_sub₀ (by norm_num)]
  ring

/-- What is nearest to a mantissa lies in its interval; below a power of two the interval is
narrower, but nothing there has its exponent. -/
theorem contains_of_nearest {m : Nat} {q : Int} {x : ℚ} (h : Nearest m x) (hx : 0 ≤ x)
    (hnarrow : m = twoPow 52 → -1074 < q → (m : ℚ) ≤ x) :
    (intervalOf m q).Contains (x * 2 ^ q) := by
  have hu := unit_pos q
  have hlow : ((4 * m - reach m q : Nat) : ℚ) ≤ 4 * x ∧
      (m % 2 = 1 → ((4 * m - reach m q : Nat) : ℚ) < 4 * x) := by
    rcases Nat.eq_zero_or_pos m with rfl | hm
    · refine ⟨?_, fun hodd => absurd hodd (by decide)⟩
      rw [Nat.mul_zero, Nat.zero_sub, Nat.cast_zero]
      linarith
    have hreach := reach_le m q
    rw [Nat.cast_sub (by omega)]
    push_cast
    by_cases hbottom : m = twoPow 52 ∧ -1074 < q
    · have hle := hnarrow hbottom.1 hbottom.2
      have hone : (reach m q : ℚ) = 1 := by rw [reach, if_pos hbottom, Nat.cast_one]
      rw [hone]
      exact ⟨by linarith, fun _ => by linarith⟩
    · have htwo : (reach m q : ℚ) = 2 := by rw [reach, if_neg hbottom]; norm_num
      have hnear := h.low
      rw [htwo]
      exact ⟨by linarith, fun hodd => by linarith [(h.lt_of_odd hodd).1]⟩
  have hodd : (intervalOf m q).closed = false → m % 2 = 1 := by
    rw [closed_intervalOf, decide_eq_false_iff_not]
    omega
  rw [mul_zpow_eq]
  refine ⟨?_, ?_, fun hopen => ?_, fun hopen => ?_⟩
  · rw [lowEnd_intervalOf]
    exact mul_le_mul_of_nonneg_right hlow.1 hu.le
  · rw [highEnd_intervalOf]
    refine mul_le_mul_of_nonneg_right ?_ hu.le
    push_cast
    linarith [h.high]
  · rw [lowEnd_intervalOf]
    exact mul_lt_mul_of_pos_right (hlow.2 (hodd hopen)) hu
  · rw [highEnd_intervalOf]
    refine mul_lt_mul_of_pos_right ?_ hu
    push_cast
    linarith [(h.lt_of_odd (hodd hopen)).2]

/-- What is rounded up to one digit more lies in the interval of the power of two. -/
theorem contains_of_carry {q : Int} {x : ℚ} (h : Nearest (twoPow 53) x) (hlt : x < twoPow 53)
    (hq : -1074 ≤ q) : (intervalOf (twoPow 52) (q + 1)).Contains (x * 2 ^ q) := by
  have hu := unit_pos (q + 1)
  have hlow := h.low
  have hreach : reach (twoPow 52) (q + 1) = 1 := if_pos ⟨rfl, by omega⟩
  have hhalf : x * 2 ^ q = 2 * x * unit (q + 1) := by
    rw [mul_zpow_eq, unit, unit, show q + 1 - 2 = q - 2 + 1 by ring, zpow_add_one₀ (by norm_num)]
    ring
  rw [twoPow_fifty_three] at hlow hlt
  push_cast at hlow hlt
  have hclosed : (intervalOf (twoPow 52) (q + 1)).closed = true := by
    rw [closed_intervalOf, twoPow_fifty_two]
    rfl
  rw [hhalf]
  refine ⟨?_, ?_, fun hopen => ?_, fun hopen => ?_⟩
  · rw [lowEnd_intervalOf, hreach, twoPow_fifty_two]
    refine mul_le_mul_of_nonneg_right ?_ hu.le
    norm_num
    linarith
  · rw [highEnd_intervalOf, twoPow_fifty_two]
    refine mul_le_mul_of_nonneg_right ?_ hu.le
    norm_num
    linarith
  all_goals
    rw [hclosed] at hopen
    cases hopen

/-- A fraction is rounded to normalized parts that have it in their interval. -/
theorem exists_ofParts {num den : Nat} (hnum : num ≠ 0) (hden : 0 < den) (negative : Bool) :
    ∃ m q, ofRatio negative num den = ofParts negative m q ∧ Normalized m q ∧
      (intervalOf m q).Contains (num / den) := by
  have hnear := @nearest_scaledRound num den hden (roundingExponent num den)
  have hlt := scaled_lt hnum hden
  have hle := le_scaled hnum hden
  have hleast : -1074 ≤ roundingExponent num den := le_max_right _ _
  have hvalue : (num : ℚ) / den = num / den / 2 ^ roundingExponent num den *
      2 ^ roundingExponent num den := by
    rw [div_mul_cancel₀ _ (zpow_ne_zero _ (by norm_num))]
  rw [ofRatio_eq hnum, hvalue]
  by_cases hcarry : scaledRound num den (roundingExponent num den) = twoPow 53
  · rw [if_pos hcarry]
    refine ⟨_, _, rfl, ⟨?_, by omega, fun _ => Nat.le_refl _⟩, ?_⟩
    · rw [twoPow_fifty_two, twoPow_fifty_three]
      decide
    · rw [hcarry] at hnear
      exact contains_of_carry hnear hlt hleast
  · rw [if_neg hcarry]
    refine ⟨_, _, rfl, ⟨lt_of_le_of_ne (hnear.le_of_lt hlt) hcarry, hleast,
      fun hbottom => hnear.le_of_le (hle hbottom)⟩, ?_⟩
    refine contains_of_nearest hnear (by positivity) fun hmin hbottom => ?_
    rw [hmin]
    exact hle hbottom

variable {biased : Fin 2047} {fraction : Fin 4503599627370496}

theorem ofParts_mantissaOf (negative : Bool) (biased : Fin 2047)
    (fraction : Fin 4503599627370496) :
    ofParts negative (mantissaOf biased fraction) (exponentOf biased) =
      .finite negative biased fraction := by
  have hb := biased.isLt
  have hf := fraction.isLt
  by_cases hzero : biased.val = 0
  · have hbiased : biased = 0 := Fin.ext hzero
    subst hbiased
    simp [ofParts, mantissaOf, twoPow_fifty_two, hf]
  · have hexponent : (exponentOf biased + 1075).toNat = biased.val := by
      rw [exponentOf]
      omega
    simp [ofParts, mantissaOf, twoPow_fifty_two, hzero, hexponent, hb]

/-- A fraction in the interval of a double is rounded to it. -/
theorem ofRatio_of_contains {num den : Nat} (hden : 0 < den) (hm : 0 < mantissaOf biased fraction)
    (h : (intervalOf (mantissaOf biased fraction) (exponentOf biased)).Contains (num / den))
    (negative : Bool) : ofRatio negative num den = .finite negative biased fraction := by
  have hpos := pos_of_contains hm h
  have hnum : num ≠ 0 := by
    rintro rfl
    simp at hpos
  obtain ⟨m, q, hround, hnormalized, hcontains⟩ := exists_ofParts hnum hden negative
  obtain ⟨rfl, rfl⟩ := eq_of_contains hnormalized (inFormat biased fraction).normalized hcontains h
  rw [hround, ofParts_mantissaOf]

/-! ## Decimals -/

theorem twoPow_lt_checked : twoPow 1024 < tenPow 311 := by decide +kernel

theorem twoPow_le_checked : twoPow 1075 ≤ tenPow 330 := by decide +kernel

/-- What is rounded to a finite double that is not zero is neither too large nor too small. -/
theorem bounds_of_contains {m : Nat} {q : Int} {r : ℚ} (hm : 0 < m) (h : InFormat m q)
    (hr : (intervalOf m q).Contains r) : ((tenPow 330 : Nat) : ℚ)⁻¹ ≤ r ∧ r < (tenPow 311 : Nat) := by
  have hu := unit_pos q
  have hreach := reach_le m q
  have hlt := h.lt
  rw [twoPow_fifty_three] at hlt
  constructor
  · have hsmall : ((tenPow 330 : Nat) : ℚ)⁻¹ ≤ ((twoPow 1075 : Nat) : ℚ)⁻¹ :=
      inv_anti₀ (Nat.cast_pos.2 (twoPow_pos _)) (Nat.cast_le.2 twoPow_le_checked)
    have hleast : ((twoPow 1075 : Nat) : ℚ)⁻¹ ≤ 2 * unit q := by
      have hunit : 2 * unit q = 2 ^ (q - 1) := by
        rw [unit, ← zpow_one_add₀ (by norm_num)]
        congr 1
        omega
      rw [hunit, cast_twoPow, ← zpow_neg]
      exact zpow_le_zpow_right₀ (by norm_num) (by have := h.least; omega)
    calc ((tenPow 330 : Nat) : ℚ)⁻¹ ≤ 2 * unit q := hsmall.trans hleast
      _ ≤ (4 * m - reach m q : Nat) * unit q := by
          refine mul_le_mul_of_nonneg_right ?_ hu.le
          exact_mod_cast (show 2 ≤ 4 * m - reach m q by omega)
      _ = (intervalOf m q).lowEnd := (lowEnd_intervalOf m q).symm
      _ ≤ r := hr.low_le
  · calc r ≤ (intervalOf m q).highEnd := hr.le_high
      _ = (4 * m + 2 : Nat) * unit q := highEnd_intervalOf m q
      _ ≤ (twoPow 55 : Nat) * unit q := by
          refine mul_le_mul_of_nonneg_right (Nat.cast_le.2 ?_) hu.le
          rw [show twoPow 55 = 36028797018963968 by decide +kernel]
          omega
      _ = 2 ^ (53 + q) := by
          rw [unit, cast_twoPow, ← zpow_add₀ (by norm_num)]
          congr 1
          push_cast
          ring
      _ ≤ (twoPow 1024 : Nat) := by
          rw [cast_twoPow]
          exact zpow_le_zpow_right₀ (by norm_num) (by have := h.greatest; omega)
      _ < (tenPow 311 : Nat) := Nat.cast_lt.2 twoPow_lt_checked

/-- A natural number has a decimal digit for every four binary ones at least. -/
theorem tenPow_log2_le {n : Nat} (hn : n ≠ 0) : tenPow (n.log2 / 4) ≤ n := by
  calc tenPow (n.log2 / 4) ≤ 16 ^ (n.log2 / 4) := Nat.pow_le_pow_left (by decide) _
    _ = 2 ^ (4 * (n.log2 / 4)) := by rw [Nat.pow_mul]
    _ ≤ 2 ^ n.log2 := Nat.pow_le_pow_right (by decide) (by omega)
    _ ≤ n := Nat.log2_self_le hn

/-- A decimal in the interval of a double is read as it. -/
theorem ofDecimal_of_contains {n digits : Nat} {e : Int} (hdigits : n < tenPow digits)
    (hm : 0 < mantissaOf biased fraction)
    (h : (intervalOf (mantissaOf biased fraction) (exponentOf biased)).Contains (n * 10 ^ e))
    (negative : Bool) : ofDecimal negative n digits e = .finite negative biased fraction := by
  have hpos := pos_of_contains hm h
  obtain ⟨hlow, hhigh⟩ := bounds_of_contains hm (inFormat biased fraction) h
  have hn : n ≠ 0 := by
    rintro rfl
    simp at hpos
  have hpow : (0 : ℚ) < 10 ^ e := zpow_pos (by norm_num) e
  have hlarge : ¬ maxDecimalExponent < (Nat.log2 n : Int) / 4 + e := by
    intro hlarge
    have hbound : ((tenPow 311 : Nat) : ℚ) ≤ n * 10 ^ e := by
      calc ((tenPow 311 : Nat) : ℚ) = 10 ^ (311 : Int) := cast_tenPow 311
        _ ≤ 10 ^ (((n.log2 / 4 : Nat) : Int) + e) := by
            refine zpow_le_zpow_right₀ (by norm_num) ?_
            rw [maxDecimalExponent] at hlarge
            push_cast
            omega
        _ = (tenPow (n.log2 / 4) : Nat) * 10 ^ e := by
            rw [cast_tenPow, ← zpow_add₀ (by norm_num)]
        _ ≤ n * 10 ^ e :=
            mul_le_mul_of_nonneg_right (Nat.cast_le.2 (tenPow_log2_le hn)) hpow.le
    linarith
  have hsmall : ¬ (digits : Int) + e < minDecimalExponent := by
    intro hsmall
    have hbound : (n : ℚ) * 10 ^ e < ((tenPow 330 : Nat) : ℚ)⁻¹ := by
      calc (n : ℚ) * 10 ^ e < (tenPow digits : Nat) * 10 ^ e :=
            mul_lt_mul_of_pos_right (Nat.cast_lt.2 hdigits) hpow
        _ = 10 ^ ((digits : Int) + e) := by rw [cast_tenPow, ← zpow_add₀ (by norm_num)]
        _ ≤ 10 ^ (-330 : Int) := by
            refine zpow_le_zpow_right₀ (by norm_num) ?_
            rw [minDecimalExponent] at hsmall
            omega
        _ = ((tenPow 330 : Nat) : ℚ)⁻¹ := by rw [zpow_neg, cast_tenPow]; rfl
    linarith
  rw [ofDecimal, if_neg hn, if_neg hlarge, if_neg hsmall]
  by_cases he : 0 ≤ e
  · rw [if_pos he]
    refine ofRatio_of_contains Nat.one_pos hm ?_ negative
    rwa [Nat.cast_one, div_one, Nat.cast_mul, cast_tenPow, Int.toNat_of_nonneg he]
  · rw [if_neg he]
    refine ofRatio_of_contains (tenPow_pos _) hm ?_ negative
    rwa [cast_tenPow, Int.toNat_of_nonneg (by omega), zpow_neg, div_inv_eq_mul]

end Pigeonhole.Double
