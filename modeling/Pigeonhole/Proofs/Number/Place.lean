import Mathlib.Algebra.Order.Ring.Abs
import Mathlib.Data.Nat.Cast.Field
import Pigeonhole.Number.Basic
import Pigeonhole.Proofs.Number.Interval

/-!
# The place of a number

A number stands at an exact rational place on the line, at one of its two ends, or nowhere.  Numbers
stand at the same place exactly when they are the same once integral doubles are replaced by integers
(`Number.normalize_eq_iff`): of the doubles at one place only the two zeros are different.  Nothing but
its place decides how a number is ordered (`Number.compare?_congr`), and the order is that of the places
on the line (`Number.exists_compare?`).
-/

namespace Pigeonhole

/-- Where a number stands: all values that are not a number stand apart. -/
inductive Place where
  | apart
  | bottom
  | ratio (r : ℚ)
  | top
deriving DecidableEq

namespace Double

/-- The value of a finite double. -/
def finiteValue (negative : Bool) (biased : Fin 2047) (fraction : Fin 4503599627370496) : ℚ :=
  (if negative then -1 else 1) * ((mantissaOf biased fraction : ℚ) * 2 ^ exponentOf biased)

def place : Double → Place
  | nan => .apart
  | infinite negative => if negative then .bottom else .top
  | finite negative biased fraction => .ratio (finiteValue negative biased fraction)

variable {negative negative' : Bool} {biased biased' : Fin 2047}
  {fraction fraction' : Fin 4503599627370496}

/-! ## Integral doubles -/

/-- The value of a finite double as a fraction of natural numbers. -/
theorem ratio?_finite (negative : Bool) (biased : Fin 2047) (fraction : Fin 4503599627370496) :
    ∃ num den : Nat, 0 < den ∧ (finite negative biased fraction).ratio? = some (negative, num, den) ∧
      finiteValue negative biased fraction = (if negative then -1 else 1) * ((num : ℚ) / den) := by
  by_cases hq : 0 ≤ exponentOf biased
  · refine ⟨mantissaOf biased fraction * twoPow (exponentOf biased).toNat, 1, by decide, ?_, ?_⟩
    · simp only [ratio?, if_pos hq]
    · rw [finiteValue, Nat.cast_mul, cast_twoPow, Int.toNat_of_nonneg hq, Nat.cast_one, div_one]
  · refine ⟨mantissaOf biased fraction, twoPow (-exponentOf biased).toNat, twoPow_pos _, ?_, ?_⟩
    · simp only [ratio?, if_neg hq]
    · rw [finiteValue, cast_twoPow, Int.toNat_of_nonneg (by omega), zpow_neg, div_inv_eq_mul]

theorem abs_sign_mul (negative : Bool) {r : ℚ} (hr : 0 ≤ r) :
    |(if negative then -1 else 1) * r| = r := by
  cases negative <;> simp [abs_of_nonneg hr]

theorem cast_signed (negative : Bool) (n : Nat) :
    (signed negative n : ℚ) = (if negative then -1 else 1) * (n : ℚ) := by
  cases negative <;> simp [signed]

/-- The integer that a double is found equal to is the one whose place it has. -/
theorem toInt?_eq_some_iff (x : Double) (k : Int) : x.toInt? = some k ↔ x.place = .ratio k := by
  cases x with
  | nan => simp [toInt?, ratio?, place]
  | infinite negative => cases negative <;> simp [toInt?, ratio?, place]
  | finite negative biased fraction =>
    obtain ⟨num, den, hden, hratio, hvalue⟩ := ratio?_finite negative biased fraction
    have hd : (den : ℚ) ≠ 0 := Nat.cast_ne_zero.2 hden.ne'
    rw [toInt?, hratio, place, hvalue, Place.ratio.injEq]
    by_cases hmod : num % den = 0
    · have hdiv : (num : ℚ) / den = (num / den : Nat) := by
        rw [Nat.cast_div (Nat.dvd_of_mod_eq_zero hmod) hd]
      simp only [if_pos hmod, Option.some.injEq]
      rw [hdiv, ← cast_signed, Int.cast_inj]
    · simp only [if_neg hmod, reduceCtorEq, false_iff]
      intro hk
      have hsize : (num : ℚ) / den = k.natAbs := by
        have habs := congrArg abs hk
        rw [abs_sign_mul negative (by positivity)] at habs
        rw [habs, Nat.cast_natAbs, Int.cast_abs]
      rw [div_eq_iff hd, ← Nat.cast_mul, Nat.cast_inj] at hsize
      rw [hsize, Nat.mul_mod_left] at hmod
      exact hmod rfl

/-! ## Doubles at one place -/

theorem size_eq (m : Nat) (q : Int) : (m : ℚ) * 2 ^ q = (4 * m : Nat) * unit q := by
  rw [unit, zpow_sub₀ (by norm_num)]
  push_cast
  ring

/-- Finite doubles that are not zero are known from their value. -/
theorem finiteValue_inj (hm : 0 < mantissaOf biased fraction)
    (h : finiteValue negative biased fraction = finiteValue negative' biased' fraction') :
    finite negative biased fraction = finite negative' biased' fraction' := by
  have hsize := congrArg abs h
  rw [finiteValue, finiteValue, abs_sign_mul negative (by positivity),
    abs_sign_mul negative' (by positivity), size_eq, size_eq] at hsize
  have hpos : (0 : ℚ) < (4 * mantissaOf biased fraction : Nat) * unit (exponentOf biased) :=
    mul_pos (Nat.cast_pos.2 (by omega)) (unit_pos _)
  have hm' : 0 < mantissaOf biased' fraction' := by
    by_contra hzero
    rw [hsize, Nat.eq_zero_of_not_pos hzero, Nat.mul_zero, Nat.cast_zero, zero_mul] at hpos
    exact hpos.false
  have hself := contains_self hm (exponentOf biased)
  rw [hsize] at hself
  obtain ⟨hmantissa, hexponent⟩ := eq_of_contains (inFormat biased fraction).normalized
    (inFormat biased' fraction').normalized hself (contains_self hm' _)
  obtain ⟨rfl, rfl⟩ := parts_inj hmantissa hexponent
  have hne : (mantissaOf biased fraction : ℚ) * 2 ^ exponentOf biased ≠ 0 := by
    rw [size_eq]
    exact hpos.ne'
  have hsign : negative = negative' := by
    rw [finiteValue, finiteValue] at h
    have hfactor := mul_right_cancel₀ hne h
    cases negative <;> cases negative' <;> first | rfl | norm_num at hfactor
  rw [hsign]

theorem natAbs_signed (negative : Bool) (n : Nat) : (signed negative n).natAbs = n := by
  cases negative <;> simp [signed]

/-- The integers that doubles are equal to are no larger than the largest double. -/
theorem natAbs_lt_of_toInt? {x : Double} {k : Int} (h : x.toInt? = some k) :
    k.natAbs < twoPow 1024 := by
  cases x with
  | nan => cases h
  | infinite negative => cases h
  | finite negative biased fraction =>
    have hformat := inFormat biased fraction
    have hlt := hformat.lt
    by_cases hq : 0 ≤ exponentOf biased
    · have hpow := twoPow_le (Int.toNat_le.2 hformat.greatest)
      have hk : signed negative (mantissaOf biased fraction * twoPow (exponentOf biased).toNat) =
          k := by simpa [toInt?, ratio?, hq, Nat.mod_one] using h
      rw [← hk, natAbs_signed, show 1024 = 53 + 971 from rfl, twoPow_add]
      exact Nat.mul_lt_mul_of_lt_of_le hlt hpow (twoPow_pos 971)
    · have hpow : twoPow 53 ≤ twoPow 1024 := twoPow_le (by decide)
      simp only [toInt?, ratio?, if_neg hq] at h
      split at h
      · rw [← Option.some.inj h, natAbs_signed]
        exact (Nat.div_le_self _ _).trans_lt (hlt.trans_le hpow)
      · cases h

/-- Doubles at one place are equal unless they are integral. -/
theorem eq_of_place {x y : Double} (hx : x.toInt? = none) (h : x.place = y.place) : x = y := by
  cases x with
  | nan =>
    cases y with
    | nan => rfl
    | infinite negative => cases negative <;> simp [place] at h
    | finite => simp [place] at h
  | infinite negative =>
    cases y with
    | nan => cases negative <;> simp [place] at h
    | infinite negative' => cases negative <;> cases negative' <;> simp [place] at h ⊢
    | finite => cases negative <;> simp [place] at h
  | finite negative biased fraction =>
    cases y with
    | nan => simp [place] at h
    | infinite negative => cases negative <;> simp [place] at h
    | finite negative' biased' fraction' =>
      rw [place, place, Place.ratio.injEq] at h
      refine finiteValue_inj ?_ h
      by_contra hzero
      have hplace : (finite negative biased fraction).place = .ratio (0 : Int) := by
        rw [place, finiteValue, Nat.eq_zero_of_not_pos hzero]
        simp
      rw [(toInt?_eq_some_iff _ 0).2 hplace] at hx
      cases hx

end Double

namespace Number

def place : Number → Place
  | int n => .ratio n
  | double x => x.place

theorem normalize_double_of_some {x : Double} {k : Int} (h : x.toInt? = some k) :
    (double x).normalize = int k := by rw [normalize, h]

theorem normalize_double_of_none {x : Double} (h : x.toInt? = none) :
    (double x).normalize = double x := by rw [normalize, h]

theorem place_normalize (n : Number) : n.normalize.place = n.place := by
  cases n with
  | int n => rfl
  | double x =>
    cases hx : x.toInt? with
    | none => rw [normalize_double_of_none hx]
    | some k =>
      rw [normalize_double_of_some hx]
      exact ((x.toInt?_eq_some_iff k).1 hx).symm

/-- Numbers are the same up to integral doubles exactly if they stand at one place. -/
theorem normalize_eq_iff (a b : Number) : a.normalize = b.normalize ↔ a.place = b.place := by
  constructor
  · intro h
    rw [← place_normalize a, ← place_normalize b, h]
  · intro h
    cases a with
    | int m =>
      cases b with
      | int n => exact congrArg int (Int.cast_inj.1 (Place.ratio.inj h))
      | double y => exact (normalize_double_of_some ((y.toInt?_eq_some_iff m).2 h.symm)).symm
    | double x =>
      cases b with
      | int n => exact normalize_double_of_some ((x.toInt?_eq_some_iff n).2 h)
      | double y =>
        cases hx : x.toInt? with
        | none => rw [Double.eq_of_place hx h]
        | some k =>
          have hy := (y.toInt?_eq_some_iff k).2 (h.symm.trans ((x.toInt?_eq_some_iff k).1 hx))
          rw [normalize_double_of_some hx, normalize_double_of_some hy]

theorem normalize_normalize (n : Number) : n.normalize.normalize = n.normalize :=
  (normalize_eq_iff _ _).2 (place_normalize n)

end Number

/-! ## Order -/

/-- Whether a place is below another one on the line. -/
def Place.Below : Place → Place → Prop
  | bottom, ratio _ | bottom, top | ratio _, top => True
  | ratio r, ratio s => r < s
  | _, _ => False

namespace Extent

def place : Extent → Place
  | bottom => .bottom
  | ratio num den => .ratio (num / den)
  | top => .top

/-- Whether the denominator of a fraction is positive. -/
def Proper : Extent → Prop
  | ratio _ den => 0 < den
  | bottom | top => True

theorem compare_ratio (a c : Int) {b d : Nat} (hb : 0 < b) (hd : 0 < d) :
    (ratio a b).compare (ratio c d) = Ord.compare ((a : ℚ) / b) ((c : ℚ) / d) := by
  have hb' : (0 : ℚ) < b := Nat.cast_pos.2 hb
  have hd' : (0 : ℚ) < d := Nat.cast_pos.2 hd
  rw [compare]
  rcases lt_trichotomy ((a : ℚ) / b) ((c : ℚ) / d) with h | h | h
  · rw [compare_lt_iff_lt.2 h, compare_lt_iff_lt]
    rw [div_lt_div_iff₀ hb' hd'] at h
    exact_mod_cast h
  · rw [compare_eq_iff_eq.2 h, compare_eq_iff_eq]
    rw [div_eq_div_iff hb'.ne' hd'.ne'] at h
    exact_mod_cast h
  · rw [compare_gt_iff_gt.2 h, compare_gt_iff_gt]
    rw [div_lt_div_iff₀ hd' hb'] at h
    exact_mod_cast h

theorem compare_eq_iff {a b : Extent} (ha : a.Proper) (hb : b.Proper) :
    a.compare b = .eq ↔ a.place = b.place := by
  cases a with
  | bottom => cases b <;> simp [compare, place]
  | top => cases b <;> simp [compare, place]
  | ratio m d =>
    cases b with
    | bottom | top => simp [compare, place]
    | ratio n e => rw [compare_ratio m n ha hb, compare_eq_iff_eq, place, place, Place.ratio.injEq]

theorem compare_lt_iff {a b : Extent} (ha : a.Proper) (hb : b.Proper) :
    a.compare b = .lt ↔ a.place.Below b.place := by
  cases a with
  | bottom => cases b <;> simp [compare, place, Place.Below]
  | top => cases b <;> simp [compare, place, Place.Below]
  | ratio m d =>
    cases b with
    | bottom | top => simp [compare, place, Place.Below]
    | ratio n e => rw [compare_ratio m n ha hb, compare_lt_iff_lt, place, place, Place.Below]

theorem compare_gt_iff {a b : Extent} (ha : a.Proper) (hb : b.Proper) :
    a.compare b = .gt ↔ b.place.Below a.place := by
  cases a with
  | bottom => cases b <;> simp [compare, place, Place.Below]
  | top => cases b <;> simp [compare, place, Place.Below]
  | ratio m d =>
    cases b with
    | bottom | top => simp [compare, place, Place.Below]
    | ratio n e => rw [compare_ratio m n ha hb, compare_gt_iff_gt, place, place, Place.Below]

/-- Only the place of a value decides its order. -/
theorem compare_congr {x y z : Extent} (hx : x.Proper) (hy : y.Proper) (hz : z.Proper)
    (h : y.place = z.place) : x.compare y = x.compare z := by
  cases y with
  | ratio c d =>
    cases z with
    | ratio c' d' =>
      cases x with
      | ratio a b => rw [compare_ratio a c hx hy, compare_ratio a c' hx hz, Place.ratio.inj h]
      | _ => rfl
    | _ => cases h
  | _ => cases z <;> first | rfl | cases h

theorem place_ne_apart (a : Extent) : a.place ≠ .apart := by
  cases a <;> simp [place]

end Extent

theorem Double.place_of_extent? (x : Double) :
    x.extent? = none ∧ x.place = .apart ∨
      ∃ e, x.extent? = some e ∧ e.Proper ∧ x.place = e.place := by
  cases x with
  | nan => exact .inl ⟨rfl, rfl⟩
  | infinite negative => cases negative <;> exact .inr ⟨_, rfl, trivial, rfl⟩
  | finite negative biased fraction =>
    obtain ⟨num, den, hden, hratio, hvalue⟩ := ratio?_finite negative biased fraction
    refine .inr ⟨.ratio (if negative then -num else num) den, ?_, hden, ?_⟩
    · simp only [extent?, hratio, Option.map_some]
    · rw [place, hvalue, Extent.place]
      cases negative <;> simp [neg_div]

namespace Number

theorem place_of_extent? (n : Number) :
    n.extent? = none ∧ n.place = .apart ∨
      ∃ e, n.extent? = some e ∧ e.Proper ∧ n.place = e.place := by
  cases n with
  | int n => exact .inr ⟨_, rfl, Nat.one_pos, by simp [place, Extent.place]⟩
  | double x => exact x.place_of_extent?

theorem ne_apart {n : Number} (h : n ≠ .double .nan) : n.place ≠ .apart := by
  intro hplace
  cases n with
  | int n => cases hplace
  | double x =>
    cases x with
    | nan => exact h rfl
    | infinite negative => cases negative <;> cases hplace
    | finite => cases hplace

/-- Two numbers have an order, and it is the order of their places. -/
theorem exists_compare? {a b : Number} (ha : a ≠ .double .nan) (hb : b ≠ .double .nan) :
    ∃ o, a.compare? b = some o ∧ (o = .lt ↔ a.place.Below b.place) ∧
      (o = .eq ↔ a.place = b.place) ∧ (o = .gt ↔ b.place.Below a.place) := by
  obtain ⟨x, hx, hxproper, hxplace⟩ := a.place_of_extent?.resolve_left fun h => ne_apart ha h.2
  obtain ⟨y, hy, hyproper, hyplace⟩ := b.place_of_extent?.resolve_left fun h => ne_apart hb h.2
  refine ⟨x.compare y, ?_, ?_, ?_, ?_⟩
  · rw [compare?, hx, hy]
    rfl
  · rw [hxplace, hyplace, Extent.compare_lt_iff hxproper hyproper]
  · rw [hxplace, hyplace, Extent.compare_eq_iff hxproper hyproper]
  · rw [hxplace, hyplace, Extent.compare_gt_iff hxproper hyproper]

/-- What is not a number has no order. -/
theorem compare?_of_nan {a b : Number} (h : a = .double .nan ∨ b = .double .nan) :
    a.compare? b = none := by
  rcases h with rfl | rfl
  · rfl
  · rw [compare?]
    cases a.extent? <;> rfl

theorem compare?_congr {a b c : Number} (h : b.place = c.place) : a.compare? b = a.compare? c := by
  unfold compare?
  obtain ⟨hb, hb'⟩ | ⟨y, hb, hy, hb'⟩ := b.place_of_extent? <;>
    obtain ⟨hc, hc'⟩ | ⟨z, hc, hz, hc'⟩ := c.place_of_extent?
  · rw [hb, hc]
  · exact absurd (hc'.symm.trans (h.symm.trans hb')) z.place_ne_apart
  · exact absurd (hb'.symm.trans (h.trans hc')) y.place_ne_apart
  · obtain ⟨ha, -⟩ | ⟨x, ha, hx, -⟩ := a.place_of_extent?
    · rw [ha]
      rfl
    · rw [ha, hb, hc]
      simp only [Option.bind_eq_bind, Option.bind_some]
      rw [Extent.compare_congr hx hy hz (hb'.symm.trans (h.trans hc'))]

end Number

end Pigeonhole
