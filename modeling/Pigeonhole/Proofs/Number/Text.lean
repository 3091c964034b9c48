import Pigeonhole.Number.Numeral
import Pigeonhole.Proofs.Number.Rounding
import Pigeonhole.Proofs.Text.Class
import Pigeonhole.Proofs.Text.Decimal

/-!
# Texts of numbers

Whatever the layout, the text of a decimal is written in one of the forms of `Written`, and from such
a text the reader of numerals gets the value back (`decimalText?_of_written`).  With the shortest
digits this makes the text of a number its own (`Number.text_inj`): integers are written with digits
only, finite doubles with a point or an exponent, and the others by name.
-/

namespace Pigeonhole

open Text

/-! ## Reading digits -/

namespace Numeral

theorem asciiDigitValue?_digitChar {d : Nat} (h : d < 10) :
    asciiDigitValue? (digitChar d) = some d := by
  have checked : ∀ d < 10, asciiDigitValue? (digitChar d) = some d := by decide
  exact checked d h

theorem isAsciiDigit_digitChar {d : Nat} (h : d < 10) : isAsciiDigit (digitChar d) = true := by
  have checked : ∀ d < 10, isAsciiDigit (digitChar d) = true := by decide
  exact checked d h

theorem spanDigits_append {ds : List Nat} (h : ∀ d ∈ ds, d < 10) {rest : List Char}
    (hrest : ∀ c ∈ rest.head?, isAsciiDigit c = false) :
    spanDigits (ds.map digitChar ++ rest) = (ds, rest) := by
  induction ds with
  | nil =>
    cases rest with
    | nil => rfl
    | cons c rest => simp [spanDigits, asciiDigitValue?, hrest c rfl]
  | cons d ds ih =>
    have hd := asciiDigitValue?_digitChar (h d List.mem_cons_self)
    rw [List.map_cons, List.cons_append, spanDigits, hd,
      ih fun e he => h e (List.mem_cons_of_mem d he)]

theorem spanDigits_map {ds : List Nat} (h : ∀ d ∈ ds, d < 10) :
    spanDigits (ds.map digitChar) = (ds, []) := by
  have hspan : spanDigits (ds.map digitChar ++ []) = (ds, []) := spanDigits_append h (by simp)
  rwa [List.append_nil] at hspan

theorem natDigits_inj {m n : Nat} (h : natDigits m = natDigits n) : m = n := by
  obtain ⟨ds, hds, hlt, -, hvalue⟩ := exists_digits m
  obtain ⟨es, hes, hlt', -, hvalue'⟩ := exists_digits n
  have hspan : (ds, ([] : List Char)) = (es, []) := by
    rw [← spanDigits_map hlt, ← spanDigits_map hlt', ← hds, ← hes, h]
  rw [← hvalue, ← hvalue', (Prod.mk.inj hspan).1]

theorem takeSign_sign (negative : Bool) (s : List Char) :
    takeSign ((if negative then '-' else '+') :: s) = (negative, s) := by
  cases negative <;> rfl

theorem takeExponent_exponentText (width : Nat) (e : Int) {rest : List Char}
    (hrest : ∀ c ∈ rest.head?, isAsciiDigit c = false) :
    takeExponent ('e' :: (Double.exponentText width e ++ rest)) = (e, rest) := by
  obtain ⟨ds, hds, hlt, hne, hvalue⟩ := exists_digits e.natAbs
  obtain ⟨digits, hdigits⟩ : ∃ digits, List.replicate (width - ds.length) 0 ++ ds = digits :=
    ⟨_, rfl⟩
  have htext : Double.exponentText width e =
      (if decide (e < 0) then '-' else '+') :: digits.map digitChar := by
    rw [Double.exponentText, hds, List.length_map, ← hdigits, List.map_append, List.map_replicate]
    simp only [decide_eq_true_eq]
    rfl
  have hspan : spanDigits (digits.map digitChar ++ rest) = (digits, rest) := by
    refine spanDigits_append (fun d hd => ?_) hrest
    rw [← hdigits, List.mem_append] at hd
    rcases hd with hd | hd
    · rw [List.eq_of_mem_replicate hd]
      decide
    · exact hlt d hd
  have hdigitsValue : digitsValue digits = e.natAbs := by
    rw [← hdigits, digitsValue_append, digitsValue_replicate_zero, hvalue, Nat.zero_mul,
      Nat.zero_add]
  obtain ⟨d, more, rfl⟩ : ∃ d more, digits = d :: more :=
    List.exists_cons_of_ne_nil (by simp [← hdigits, hne])
  simp only [htext, List.cons_append, takeExponent, takeSign_sign]
  simp only [List.cons_append, List.map_cons] at hspan
  simp only [List.map_cons, List.cons_append, hspan, true_or, if_true, hdigitsValue]
  simp only [decide_eq_true_eq, Prod.mk.injEq, and_true]
  omega

end Numeral

/-! ## Written forms -/

/-- The number that digits and an exponent stand for. -/
def DecimalText.value (t : DecimalText) : ℚ :=
  digitsValue (t.whole ++ t.fraction) * (10 : ℚ) ^ (t.exponent - t.fraction.length)

/-- What stands after the digits: nothing or an exponent. -/
inductive ExponentMark : Int → List Char → Prop
  | absent : ExponentMark 0 []
  | mark (width : Nat) (e : Int) : ExponentMark e ('e' :: Double.exponentText width e)

/-- A decimal in digits: with a point and digits after it, or with an exponent alone. -/
inductive Written : DecimalText → List Char → Prop
  | point {t : DecimalText} {mark : List Char} (hne : t.fraction ≠ [])
      (h : ExponentMark t.exponent mark) :
      Written t (t.whole.map digitChar ++ '.' :: (t.fraction.map digitChar ++ mark))
  | whole {t : DecimalText} (width : Nat) (h : t.fraction = []) :
      Written t (t.whole.map digitChar ++ 'e' :: Double.exponentText width t.exponent)

/-- The digits of a decimal are digits, and there are some before the point, with no zero in front
of them. -/
structure DecimalText.IsDecimal (t : DecimalText) : Prop where
  whole_lt : ∀ d ∈ t.whole, d < 10
  whole_ne : t.whole ≠ []
  whole_lead : t.whole.head? = some 0 → t.whole = [0]
  fraction_lt : ∀ d ∈ t.fraction, d < 10

namespace Numeral

variable {t : DecimalText} {s : List Char}

theorem isAsciiDigit_head?_of_exponentMark {e : Int} (h : ExponentMark e s) :
    ∀ c ∈ s.head?, isAsciiDigit c = false := by
  cases h with
  | absent => simp
  | mark width e =>
    intro c hc
    cases hc
    decide

/-- No numeral goes on with what follows. -/
def Stops (rest : List Char) : Prop :=
  ∀ c ∈ rest.head?, isAsciiDigit c = false ∧ c ≠ '.' ∧ c ≠ 'e' ∧ c ≠ 'E'

theorem stops_nil : Stops [] := by simp [Stops]

theorem Stops.takeExponent {rest : List Char} (h : Stops rest) : takeExponent rest = (0, rest) := by
  cases rest with
  | nil => rfl
  | cons c rest =>
    obtain ⟨-, -, he, hE⟩ := h c rfl
    simp [Numeral.takeExponent, he, hE]

theorem Stops.head? {rest : List Char} (h : Stops rest) :
    ∀ c ∈ rest.head?, isAsciiDigit c = false := fun c hc => (h c hc).1

theorem takeExponent_of_exponentMark {e : Int} (h : ExponentMark e s) {rest : List Char}
    (hrest : Stops rest) : takeExponent (s ++ rest) = (e, rest) := by
  cases h with
  | absent => exact hrest.takeExponent
  | mark width e => exact takeExponent_exponentText width e hrest.head?

/-- A written decimal is read back. -/
theorem decimalText?_of_written (ht : t.IsDecimal) (h : Written t s) : decimalText? s = some t := by
  have hne : t.whole.isEmpty = false := by simp [ht.whole_ne]
  cases h with
  | @point mark _ hmark =>
    have hwhole : spanDigits (t.whole.map digitChar ++ '.' :: (t.fraction.map digitChar ++ mark)) =
        (t.whole, '.' :: (t.fraction.map digitChar ++ mark)) :=
      spanDigits_append ht.whole_lt (by simp; decide)
    have hfraction : spanDigits (t.fraction.map digitChar ++ mark) = (t.fraction, mark) :=
      spanDigits_append ht.fraction_lt (isAsciiDigit_head?_of_exponentMark hmark)
    have hexponent := takeExponent_of_exponentMark hmark stops_nil
    rw [List.append_nil] at hexponent
    simp [decimalText?, hwhole, hfraction, hexponent, hne]
  | whole width hfraction =>
    have hwhole : spanDigits (t.whole.map digitChar ++ 'e' :: Double.exponentText width t.exponent) =
        (t.whole, 'e' :: Double.exponentText width t.exponent) :=
      spanDigits_append ht.whole_lt (by simp; decide)
    have hexponent := takeExponent_of_exponentMark (.mark width t.exponent) stops_nil
    rw [List.append_nil] at hexponent
    simp [decimalText?, hwhole, hexponent, hne, ← hfraction]

/-- The characters of numbers: digits, signs, the point, the mark of an exponent, and the letters of
the names. -/
def isNumberChar (c : Char) : Bool := isAsciiDigit c || c ∈ "+-.eNaInfity".toList

theorem isNumberChar_of_mem_map {ds : List Nat} (h : ∀ d ∈ ds, d < 10) {c : Char}
    (hc : c ∈ ds.map digitChar) : isNumberChar c = true := by
  obtain ⟨d, hd, rfl⟩ := List.mem_map.1 hc
  rw [isNumberChar, isAsciiDigit_digitChar (h d hd), Bool.true_or]

theorem isAsciiDigit_of_mem_natDigits {n : Nat} {c : Char} (hc : c ∈ natDigits n) :
    isAsciiDigit c = true := by
  obtain ⟨ds, hds, hlt, -, -⟩ := exists_digits n
  rw [hds] at hc
  obtain ⟨d, hd, rfl⟩ := List.mem_map.1 hc
  exact isAsciiDigit_digitChar (hlt d hd)

theorem exists_digit_natDigits (n : Nat) :
    ∃ c rest, natDigits n = c :: rest ∧ isAsciiDigit c = true := by
  obtain ⟨ds, hds, hlt, hne, -⟩ := exists_digits n
  obtain ⟨d, digits, rfl⟩ := List.exists_cons_of_ne_nil hne
  exact ⟨digitChar d, _, hds, isAsciiDigit_digitChar (hlt d List.mem_cons_self)⟩

theorem isNumberChar_of_mem_natDigits {n : Nat} {c : Char} (hc : c ∈ natDigits n) :
    isNumberChar c = true := by
  rw [isNumberChar, isAsciiDigit_of_mem_natDigits hc, Bool.true_or]

theorem isNumberChar_of_exponentMark {e : Int} (h : ExponentMark e s) {c : Char} (hc : c ∈ s) :
    isNumberChar c = true := by
  cases h with
  | absent => cases hc
  | mark width e =>
    simp only [Double.exponentText, List.mem_cons, List.mem_append] at hc
    rcases hc with rfl | rfl | hc | hc
    · decide
    · split <;> decide
    · rw [List.eq_of_mem_replicate hc]
      decide
    · exact isNumberChar_of_mem_natDigits hc

theorem isNumberChar_of_written (ht : t.IsDecimal) (h : Written t s) {c : Char} (hc : c ∈ s) :
    isNumberChar c = true := by
  cases h with
  | point _ hmark =>
    simp only [List.mem_append, List.mem_cons] at hc
    rcases hc with hc | rfl | hc | hc
    · exact isNumberChar_of_mem_map ht.whole_lt hc
    · decide
    · exact isNumberChar_of_mem_map ht.fraction_lt hc
    · exact isNumberChar_of_exponentMark hmark hc
  | whole width hfraction =>
    rcases List.mem_append.1 hc with hc | hc
    · exact isNumberChar_of_mem_map ht.whole_lt hc
    · exact isNumberChar_of_exponentMark (.mark width t.exponent) hc

theorem exists_digit_of_written (ht : t.IsDecimal) (h : Written t s) :
    ∃ c rest, s = c :: rest ∧ isAsciiDigit c = true := by
  obtain ⟨d, digits, hwhole⟩ := List.exists_cons_of_ne_nil ht.whole_ne
  have hd := isAsciiDigit_digitChar (ht.whole_lt d (by simp [hwhole]))
  cases h <;> exact ⟨digitChar d, _, by rw [hwhole]; rfl, hd⟩

theorem exists_sign_of_written (h : Written t s) : ∃ c ∈ s, isAsciiDigit c = false := by
  cases h with
  | point => exact ⟨'.', by simp, by decide⟩
  | whole => exact ⟨'e', by simp, by decide⟩

end Numeral

/-! ## Texts of decimals -/

namespace Double

/-- A text is a written form of the value of a decimal. -/
def Writes (s : List Char) (d : Decimal) : Prop :=
  ∃ t : DecimalText, t.IsDecimal ∧ Written t s ∧ t.value = d.value

theorem value_of_digits {t : DecimalText} {d : Decimal} {k : Nat}
    (hdigits : digitsValue (t.whole ++ t.fraction) = d.digits * tenPow k)
    (hscale : t.exponent - t.fraction.length = d.scale - k) : t.value = d.value := by
  have hpow : (10 : ℚ) ^ (k : Int) ≠ 0 := zpow_ne_zero _ (by norm_num)
  rw [DecimalText.value, Decimal.value, hdigits, hscale, Nat.cast_mul, cast_tenPow,
    zpow_sub₀ (by norm_num), mul_assoc, mul_div_cancel₀ _ hpow]

theorem lt_ten_of_mem_replicate {k z : Nat} (h : z ∈ List.replicate k 0) : z < 10 := by
  rw [List.eq_of_mem_replicate h]
  decide

section

variable {ds : List Nat} (hlt : ∀ d ∈ ds, d < 10) (hne : ds ≠ [])

include hlt hne

theorem writes_integral (hlead : ds.head? ≠ some 0) (k : Nat) :
    Writes (ds.map digitChar ++ List.replicate k '0' ++ ".0".toList) ⟨digitsValue ds, k⟩ := by
  have htext : ds.map digitChar ++ List.replicate k '0' ++ ".0".toList =
      (ds ++ List.replicate k 0).map digitChar ++ '.' :: ([0].map digitChar ++ []) := by
    rw [List.map_append, List.map_replicate]
    rfl
  refine ⟨⟨ds ++ List.replicate k 0, [0], 0⟩, ⟨?_, by simp [hne], ?_, by simp⟩, ?_, ?_⟩
  · intro d hd
    exact (List.mem_append.1 hd).elim (hlt d) lt_ten_of_mem_replicate
  · obtain ⟨d, rest, rfl⟩ := List.exists_cons_of_ne_nil hne
    exact fun hzero => absurd hzero hlead
  · rw [htext]
    exact .point (by simp) .absent
  · apply value_of_digits (k := k + 1)
    · show digitsValue (ds ++ List.replicate k 0 ++ [0]) = digitsValue ds * tenPow (k + 1)
      rw [List.append_assoc, ← List.replicate_succ', digitsValue_append, digitsValue_replicate_zero,
        List.length_replicate, Nat.add_zero]
    · simp only [List.length_singleton]
      omega

theorem writes_cut (hlead : ds.head? ≠ some 0) {k : Nat} (hpos : 0 < k) (hk : k < ds.length) :
    Writes ((ds.map digitChar).take k ++ '.' :: (ds.map digitChar).drop k)
      ⟨digitsValue ds, k - ds.length⟩ := by
  refine ⟨⟨ds.take k, ds.drop k, 0⟩, ⟨?_, ?_, ?_, ?_⟩, ?_, ?_⟩
  · intro d hd
    exact hlt d (List.mem_of_mem_take hd)
  · simp [hne]
    omega
  · rw [List.head?_take, if_neg (by omega)]
    exact fun hzero => absurd hzero hlead
  · intro d hd
    exact hlt d (List.mem_of_mem_drop hd)
  · rw [← List.map_take, ← List.map_drop, ← List.append_nil ((ds.drop k).map digitChar)]
    exact .point (by simp; omega) .absent
  · apply value_of_digits (k := 0)
    · show digitsValue (ds.take k ++ ds.drop k) = digitsValue ds * 1
      rw [List.take_append_drop, Nat.mul_one]
    · simp only [List.length_drop]
      omega

theorem writes_small (k : Nat) :
    Writes ("0.".toList ++ List.replicate k '0' ++ ds.map digitChar)
      ⟨digitsValue ds, -(k + ds.length : Nat)⟩ := by
  have htext : "0.".toList ++ List.replicate k '0' ++ ds.map digitChar =
      [0].map digitChar ++ '.' :: ((List.replicate k 0 ++ ds).map digitChar ++ []) := by
    rw [List.map_append, List.map_replicate, List.append_nil]
    rfl
  refine ⟨⟨[0], List.replicate k 0 ++ ds, 0⟩, ⟨by simp, by simp, by simp, ?_⟩, ?_, ?_⟩
  · intro d hd
    exact (List.mem_append.1 hd).elim lt_ten_of_mem_replicate (hlt d)
  · rw [htext]
    exact .point (by simp [hne]) .absent
  · apply value_of_digits (k := 0)
    · show digitsValue ([0] ++ (List.replicate k 0 ++ ds)) = digitsValue ds * 1
      have hzero : digitsValue [0] = 0 := rfl
      rw [digitsValue_append, digitsValue_append, digitsValue_replicate_zero, hzero, Nat.zero_mul,
        Nat.zero_mul, Nat.zero_add, Nat.zero_add, Nat.mul_one]
    · simp only [List.length_append, List.length_replicate]
      omega

theorem writes_scientific (hlead : ds.head? ≠ some 0) (width : Nat) (first : Int) :
    Writes
      (match ds.map digitChar with
      | [] => []
      | [c] => c :: 'e' :: exponentText width first
      | c :: rest => c :: '.' :: rest ++ 'e' :: exponentText width first)
      ⟨digitsValue ds, first - (ds.length - 1 : Nat)⟩ := by
  match ds, hne with
  | [d], _ =>
    refine ⟨⟨[d], [], first⟩, ⟨hlt, by simp, fun h => absurd h hlead, by simp⟩, .whole width rfl, ?_⟩
    apply value_of_digits (k := 0)
    · exact (Nat.mul_one _).symm
    · simp
  | d :: e :: rest, _ =>
    refine ⟨⟨[d], e :: rest, first⟩, ⟨?_, by simp, fun h => absurd h hlead, ?_⟩,
      .point (by simp) (.mark width first), ?_⟩
    · intro z hz
      rw [List.mem_singleton.1 hz]
      exact hlt d (by simp)
    · intro z hz
      exact hlt z (List.mem_cons_of_mem d hz)
    · apply value_of_digits (k := 0)
      · exact (Nat.mul_one _).symm
      · simp

end

/-- The text of a decimal is a written form of it in every layout. -/
theorem writes_text (layout : Layout) (d : Decimal) : Writes (d.text layout) d := by
  obtain ⟨n, scale⟩ := d
  obtain ⟨ds, hds, hlt, hne, rfl⟩ := exists_digits n
  have hlength : 0 < ds.length := List.length_pos_of_ne_nil hne
  simp only [Decimal.text, hds, List.length_map]
  by_cases hzero : digitsValue ds = 0
  · rw [if_pos hzero]
    refine ⟨⟨[0], [0], 0⟩, ⟨by simp, by simp, by simp, by simp⟩, .point (by simp) .absent, ?_⟩
    rw [DecimalText.value, Decimal.value, hzero]
    simp [digitsValue]
  rw [if_neg hzero]
  have hlead : ds.head? ≠ some 0 := by
    intro hhead
    exact hzero (by rw [eq_zero_of_natDigits hds hhead]; rfl)
  by_cases hpositional : layout.leastPositional ≤ (ds.length : Int) + scale - 1 ∧
      (ds.length : Int) + scale - 1 < layout.firstScientific
  · rw [if_pos hpositional]
    by_cases hscale : 0 ≤ scale
    · have hwrites := writes_integral hlt hne hlead scale.toNat
      rw [Int.toNat_of_nonneg hscale] at hwrites
      rwa [if_pos hscale]
    rw [if_neg hscale]
    by_cases hfirst : 0 ≤ (ds.length : Int) + scale - 1
    · obtain ⟨k, hk⟩ : ∃ k : Nat, ((ds.length : Int) + scale - 1 + 1).toNat = k := ⟨_, rfl⟩
      have hwrites := @writes_cut ds hlt hne hlead k (by omega) (by omega)
      rw [show (k : Int) - ds.length = scale by omega] at hwrites
      rwa [if_pos hfirst, hk]
    · obtain ⟨k, hk⟩ : ∃ k : Nat, (-((ds.length : Int) + scale - 1) - 1).toNat = k := ⟨_, rfl⟩
      have hwrites := writes_small hlt hne k
      rw [show -((k + ds.length : Nat) : Int) = scale by omega] at hwrites
      rwa [if_neg hfirst, hk]
  · rw [if_neg hpositional]
    have hwrites := writes_scientific hlt hne hlead layout.exponentWidth (ds.length + scale - 1)
    rwa [show (ds.length : Int) + scale - 1 - (ds.length - 1 : Nat) = scale by omega] at hwrites

/-! ## Texts of doubles -/

/-- The text of a double without its sign. -/
def body : Double → List Char
  | .nan => jsonLayout.nan
  | .infinite _ => jsonLayout.infinity
  | .finite _ biased fraction =>
    (shortestDigits (mantissaOf biased fraction) (exponentOf biased)).text jsonLayout

theorem text_eq (x : Double) :
    x.text jsonLayout = (if x.hasMinus then ['-'] else []) ++ x.body := by
  cases x with
  | nan => rfl
  | infinite negative => cases negative <;> rfl
  | finite negative biased fraction => cases negative <;> rfl

theorem written_body (negative : Bool) (biased : Fin 2047) (fraction : Fin 4503599627370496) :
    ∃ t : DecimalText, t.IsDecimal ∧ Written t (finite negative biased fraction).body ∧
      t.value = (shortestDigits (mantissaOf biased fraction) (exponentOf biased)).value :=
  writes_text jsonLayout _

theorem eq_zero_of_mantissaOf {biased : Fin 2047} {fraction : Fin 4503599627370496}
    (h : mantissaOf biased fraction = 0) (negative : Bool) :
    finite negative biased fraction = zero negative := by
  have hpos := twoPow_pos 52
  unfold mantissaOf at h
  split at h
  case isTrue hb =>
    obtain rfl : biased = 0 := Fin.ext hb
    obtain rfl : fraction = 0 := Fin.ext h
    rfl
  case isFalse => omega

/-- A decimal with the value of the shortest digits of a double is the double. -/
theorem toDouble_of_value {t : DecimalText} (ht : t.IsDecimal) {biased : Fin 2047}
    {fraction : Fin 4503599627370496}
    (h : t.value = (shortestDigits (mantissaOf biased fraction) (exponentOf biased)).value)
    (negative : Bool) : t.toDouble negative = finite negative biased fraction := by
  have hformat := inFormat biased fraction
  have hlt : digitsValue (t.whole ++ t.fraction) < tenPow (t.whole ++ t.fraction).length := by
    apply digitsValue_lt
    intro d hd
    exact (List.mem_append.1 hd).elim (ht.whole_lt d) (ht.fraction_lt d)
  rcases Nat.eq_zero_or_pos (mantissaOf biased fraction) with hm | hm
  · rw [(value_shortestDigits_eq_zero_iff hformat).2 hm, DecimalText.value, mul_eq_zero,
      or_iff_left (zpow_ne_zero _ (by norm_num)), Nat.cast_eq_zero] at h
    rw [eq_zero_of_mantissaOf hm, DecimalText.toDouble, h, ofDecimal, if_pos rfl]
  · have hcontains := contains_shortestDigits hm hformat
    rw [← h] at hcontains
    exact ofDecimal_of_contains hlt hm hcontains negative

theorem body_nan : nan.body = 'N' :: "aN".toList := by decide

theorem body_infinite (negative : Bool) : (infinite negative).body = 'I' :: "nfinity".toList := by
  cases negative <;> decide

theorem body_finite_ne {c : Char} (hc : isAsciiDigit c = false) (s : List Char) (negative : Bool)
    (biased : Fin 2047) (fraction : Fin 4503599627370496) :
    (finite negative biased fraction).body ≠ c :: s := by
  obtain ⟨t, ht, hwritten, -⟩ := written_body negative biased fraction
  obtain ⟨d, rest, hd, hdigit⟩ := Numeral.exists_digit_of_written ht hwritten
  intro hbody
  rw [hd] at hbody
  rw [(List.cons.inj hbody).1, hc] at hdigit
  cases hdigit

theorem exists_sign_of_body (x : Double) : ∃ c ∈ x.body, isAsciiDigit c = false := by
  cases x with
  | nan => exact ⟨'N', by rw [body_nan]; exact List.mem_cons_self, by decide⟩
  | infinite negative => exact ⟨'I', by rw [body_infinite]; exact List.mem_cons_self, by decide⟩
  | finite negative biased fraction =>
    obtain ⟨t, ht, hwritten, -⟩ := written_body negative biased fraction
    exact Numeral.exists_sign_of_written hwritten

theorem isNumberChar_of_mem_body {x : Double} {c : Char} (hc : c ∈ x.body) :
    Numeral.isNumberChar c = true := by
  cases x with
  | nan =>
    have checked : ∀ c ∈ nan.body, Numeral.isNumberChar c = true := by decide
    exact checked c hc
  | infinite negative =>
    have checked : ∀ c ∈ (infinite true).body, Numeral.isNumberChar c = true := by decide
    exact checked c hc
  | finite negative biased fraction =>
    obtain ⟨t, ht, hwritten, -⟩ := written_body negative biased fraction
    exact Numeral.isNumberChar_of_written ht hwritten hc

theorem body_ne_minus (x : Double) (s : List Char) : x.body ≠ '-' :: s := by
  cases x with
  | nan => simp [body_nan]
  | infinite negative => simp [body_infinite]
  | finite negative biased fraction => exact body_finite_ne (by decide) s negative biased fraction

/-- Finite doubles with one text but for the sign have one mantissa and one exponent. -/
theorem finite_of_body {negative negative' : Bool} {biased biased' : Fin 2047}
    {fraction fraction' : Fin 4503599627370496}
    (h : (finite negative biased fraction).body = (finite negative' biased' fraction').body) :
    biased = biased' ∧ fraction = fraction' := by
  obtain ⟨t, ht, hwritten, hvalue⟩ := written_body negative biased fraction
  obtain ⟨t', ht', hwritten', hvalue'⟩ := written_body negative' biased' fraction'
  have hread : some t = some t' := by
    rw [← Numeral.decimalText?_of_written ht hwritten,
      ← Numeral.decimalText?_of_written ht' hwritten', h]
  rw [← Option.some.inj hread, hvalue] at hvalue'
  obtain ⟨hm, hq⟩ := shortestDigits_inj (inFormat biased fraction) (inFormat biased' fraction') hvalue'
  exact parts_inj hm hq

theorem body_inj {x y : Double} (hminus : x.hasMinus = y.hasMinus) (h : x.body = y.body) :
    x = y := by
  have hnames : nan.body ≠ (infinite true).body := by decide
  cases x with
  | nan =>
    cases y with
    | nan => rfl
    | infinite => exact absurd h hnames
    | finite => exact absurd (h.symm.trans body_nan) (body_finite_ne (by decide) _ _ _ _)
  | infinite negative =>
    cases y with
    | nan => exact absurd h hnames.symm
    | infinite negative' => exact congrArg infinite hminus
    | finite =>
      exact absurd (h.symm.trans (body_infinite negative)) (body_finite_ne (by decide) _ _ _ _)
  | finite negative biased fraction =>
    cases y with
    | nan => exact absurd (h.trans body_nan) (body_finite_ne (by decide) _ _ _ _)
    | infinite => exact absurd (h.trans (body_infinite _)) (body_finite_ne (by decide) _ _ _ _)
    | finite negative' biased' fraction' =>
      obtain ⟨rfl, rfl⟩ := finite_of_body h
      exact congrArg (finite · biased fraction) hminus

end Double

/-! ## Texts of numbers -/

namespace Number

/-- Whether the text of a number begins with a minus. -/
def hasMinus : Number → Bool
  | int n => n < 0
  | double x => x.hasMinus

/-- The text of a number without its sign. -/
def body : Number → List Char
  | int n => natDigits n.natAbs
  | double x => x.body

theorem text_eq (n : Number) :
    n.text Double.jsonLayout = (if n.hasMinus then ['-'] else []) ++ n.body := by
  cases n with
  | int n =>
    rw [text, intDigits, hasMinus, body]
    by_cases hn : n < 0 <;> simp [hn]
  | double x => exact x.text_eq

theorem isNumberChar_of_mem_text {n : Number} {c : Char} (hc : c ∈ n.text Double.jsonLayout) :
    Numeral.isNumberChar c = true := by
  rw [text_eq, List.mem_append] at hc
  rcases hc with hc | hc
  · split at hc
    · rw [List.mem_singleton.1 hc]
      decide
    · cases hc
  · cases n with
    | int n => exact Numeral.isNumberChar_of_mem_natDigits hc
    | double x => exact Double.isNumberChar_of_mem_body hc

theorem body_ne_minus (n : Number) (s : List Char) : n.body ≠ '-' :: s := by
  cases n with
  | int n =>
    intro h
    have hdigit := Numeral.isAsciiDigit_of_mem_natDigits (n := n.natAbs) (c := '-')
      (by rw [body] at h; simp [h])
    exact absurd hdigit (by decide)
  | double x => exact x.body_ne_minus s

theorem text_ne_nil (n : Number) : n.text Double.jsonLayout ≠ [] := by
  intro h
  rw [text_eq, List.append_eq_nil_iff] at h
  cases n with
  | int n =>
    obtain ⟨c, rest, hdigits, -⟩ := Numeral.exists_digit_natDigits n.natAbs
    rw [body, hdigits] at h
    cases h.2
  | double x =>
    obtain ⟨c, hc, -⟩ := x.exists_sign_of_body
    rw [show x.body = [] from h.2] at hc
    cases hc

/-- The digits of an integer are no text of a double. -/
theorem natDigits_ne_body (n : Nat) (x : Double) : natDigits n ≠ x.body := by
  intro h
  obtain ⟨c, hc, hsign⟩ := x.exists_sign_of_body
  rw [← h] at hc
  rw [Numeral.isAsciiDigit_of_mem_natDigits hc] at hsign
  cases hsign

theorem body_inj {a b : Number} (hminus : a.hasMinus = b.hasMinus) (h : a.body = b.body) :
    a = b := by
  cases a with
  | int m =>
    cases b with
    | int n =>
      have habs := Numeral.natDigits_inj h
      rw [hasMinus, hasMinus, decide_eq_decide] at hminus
      exact congrArg int (by omega)
    | double y => exact absurd h (natDigits_ne_body m.natAbs y)
  | double x =>
    cases b with
    | int n => exact absurd h.symm (natDigits_ne_body n.natAbs x)
    | double y => exact congrArg double (Double.body_inj hminus h)

/-- The text of a number is the text of no other number. -/
theorem text_inj {a b : Number} (h : a.text Double.jsonLayout = b.text Double.jsonLayout) :
    a = b := by
  rw [text_eq, text_eq] at h
  cases ha : a.hasMinus <;> cases hb : b.hasMinus <;> simp only [ha, hb] at h
  · exact body_inj (ha.trans hb.symm) h
  · exact absurd h (body_ne_minus a _)
  · exact absurd h.symm (body_ne_minus b _)
  · exact body_inj (ha.trans hb.symm) (List.cons.inj h).2

end Number

end Pigeonhole
