import Mathlib.Data.List.Induction
import Mathlib.Tactic.Ring
import Pigeonhole.Number.Power
import Pigeonhole.Query.Statement

/-!
# Numbers in decimal digits

`natDigits` writes the digits of a number (`exists_digits`), and a reader of digits gets them back
from the beginning of a text (`spanDecimals_append`).  A property of all decimal digits is checked on
the table of their zeros (`forall_of_isDecimal`).
-/

namespace Pigeonhole

namespace Text

theorem digitsValue_append_singleton (ds : List Nat) (d : Nat) :
    digitsValue (ds ++ [d]) = 10 * digitsValue ds + d := by
  rw [digitsValue, List.foldl_append]
  rfl

theorem digitsValue_append (ds es : List Nat) :
    digitsValue (ds ++ es) = digitsValue ds * tenPow es.length + digitsValue es := by
  induction es using List.reverseRecOn with
  | nil => rw [List.append_nil]; exact (Nat.mul_one _).symm
  | append_singleton es e ih =>
    rw [← List.append_assoc, digitsValue_append_singleton, digitsValue_append_singleton, ih,
      List.length_append, List.length_singleton, tenPow_succ]
    ring

theorem digitsValue_replicate_zero (k : Nat) : digitsValue (List.replicate k 0) = 0 := by
  induction k with
  | zero => rfl
  | succ k ih => rw [List.replicate_succ', digitsValue_append_singleton, ih]

/-- The text of a number is that of digits with its value. -/
theorem exists_digits (n : Nat) :
    ∃ ds : List Nat, natDigits n = ds.map digitChar ∧ (∀ d ∈ ds, d < 10) ∧ ds ≠ [] ∧
      digitsValue ds = n := by
  induction n using natDigits.induct with
  | case1 n hn =>
    refine ⟨[n], ?_, ?_, List.cons_ne_nil n [], Nat.zero_add n⟩
    · rw [natDigits, dif_pos hn]
      rfl
    · intro d hd
      rwa [List.mem_singleton.1 hd]
  | case2 n hn ih =>
    obtain ⟨ds, htext, hlt, -, hvalue⟩ := ih
    refine ⟨ds ++ [n % 10], ?_, ?_, List.concat_ne_nil _ _, ?_⟩
    · rw [natDigits, dif_neg hn, htext, List.map_append]
      rfl
    · intro d hd
      rcases List.mem_append.1 hd with hd | hd
      · exact hlt d hd
      · rw [List.mem_singleton.1 hd]
        omega
    · rw [digitsValue_append_singleton, hvalue]
      omega

theorem lt_tenPow_length (n : Nat) : n < tenPow (natDigits n).length := by
  induction n using natDigits.induct with
  | case1 n hn =>
    rw [natDigits, dif_pos hn]
    exact hn
  | case2 n hn ih =>
    rw [natDigits, dif_neg hn, List.length_append, List.length_singleton, tenPow_succ]
    omega

theorem digitsValue_lt {ds : List Nat} (h : ∀ d ∈ ds, d < 10) : digitsValue ds < tenPow ds.length := by
  induction ds using List.reverseRecOn with
  | nil => exact Nat.one_pos
  | append_singleton ds d ih =>
    have hds := ih fun e he => h e (List.mem_append_left _ he)
    have hd := h d (List.mem_append_right _ (List.mem_singleton.2 rfl))
    rw [digitsValue_append_singleton, List.length_append, List.length_singleton, tenPow_succ]
    omega

/-- The text of a number other than zero does not begin with a zero. -/
theorem head?_natDigits_ne {n : Nat} (h : n ≠ 0) : (natDigits n).head? ≠ some '0' := by
  induction n using natDigits.induct with
  | case1 n hn =>
    have checked : ∀ n < 10, n ≠ 0 → digitChar n ≠ '0' := by decide
    rw [natDigits, dif_pos hn, List.head?_cons]
    exact fun hzero => checked n hn h (Option.some.inj hzero)
  | case2 n hn ih =>
    obtain ⟨ds, hds, -, hne, -⟩ := exists_digits (n / 10)
    obtain ⟨c, rest, hcons⟩ := List.exists_cons_of_ne_nil (l := natDigits (n / 10)) (by simpa [hds])
    have hhead := ih (by omega)
    rw [hcons] at hhead
    rw [natDigits, dif_neg hn, hcons]
    exact hhead

/-- Zero is the only number that is written with a zero in front. -/
theorem eq_zero_of_natDigits {n : Nat} {ds : List Nat} (h : natDigits n = ds.map digitChar)
    (hhead : ds.head? = some 0) : ds = [0] := by
  by_cases hn : n = 0
  · rw [hn, natDigits, dif_pos (by decide)] at h
    obtain ⟨d, rfl⟩ := List.length_eq_one_iff.1 (by simpa using (congrArg List.length h).symm)
    rw [Option.some.inj hhead]
  · have hne := head?_natDigits_ne hn
    rw [h, List.head?_map, hhead] at hne
    exact absurd rfl hne

theorem length_natDigits_le {n k : Nat} (hk : 0 < k) (h : n < tenPow k) :
    (natDigits n).length ≤ k := by
  induction n using natDigits.induct generalizing k with
  | case1 n hn =>
    rw [natDigits, dif_pos hn]
    exact hk
  | case2 n hn ih =>
    obtain ⟨k, rfl⟩ : ∃ j, k = j + 1 := ⟨k - 1, by omega⟩
    rw [natDigits, dif_neg hn, List.length_append, List.length_singleton]
    rw [tenPow_succ] at h
    have hpos : 0 < k := by
      by_contra hzero
      obtain rfl : k = 0 := by omega
      exact hn (by rwa [show tenPow 0 = 1 from rfl, Nat.one_mul] at h)
    have hlength := ih hpos (by omega)
    omega

theorem lt_length_natDigits_tenPow (k : Nat) : k < (natDigits (tenPow k)).length := by
  by_contra hle
  have hlt := lt_tenPow_length (tenPow k)
  have hmono : tenPow (natDigits (tenPow k)).length ≤ tenPow k :=
    Nat.pow_le_pow_right (by omega) (Nat.le_of_not_lt hle)
  omega

theorem digitValue?_digitChar {d : Nat} (h : d < 10) : digitValue? (digitChar d) = some d := by
  have checked : ∀ d < 10, digitValue? (digitChar d) = some d := by decide +kernel
  exact checked d h

/-- What holds of every digit that the table of zeros stands for holds of every decimal digit. -/
theorem forall_of_isDecimal {p : Char → Bool}
    (checked : ∀ z ∈ decimalZeros, ∀ k < 10, p (Char.ofNat (z + k)) = true) {c : Char}
    (h : isDecimal c = true) : p c = true := by
  rw [isDecimal, digitValue?, Option.isSome_map, List.find?_isSome] at h
  obtain ⟨z, hz, hrange⟩ := h
  rw [Bool.and_eq_true, decide_eq_true_iff, decide_eq_true_iff] at hrange
  have hchecked := checked z hz (c.toNat - z) (by omega)
  rwa [Nat.add_sub_cancel' hrange.1, Char.ofNat_toNat] at hchecked

end Text

namespace Query

open Text

theorem spanDecimals_append_of_values {values : List Nat} {s : List Char}
    (hs : s.map digitValue? = values.map some) {rest : List Char}
    (hrest : ∀ c ∈ rest.head?, digitValue? c = none) :
    spanDecimals (s ++ rest) = (values, rest) := by
  induction s generalizing values with
  | nil =>
    obtain rfl := List.map_eq_nil_iff.1 hs.symm
    cases rest with
    | nil => rfl
    | cons c rest => rw [List.nil_append, spanDecimals, hrest c rfl]
  | cons c s ih =>
    cases values with
    | nil => cases hs
    | cons v values =>
      obtain ⟨hv, hvalues⟩ := List.cons.inj hs
      rw [List.cons_append, spanDecimals, hv, ih hvalues]

theorem spanDecimals_append {ds : List Nat} (h : ∀ d ∈ ds, d < 10) {rest : List Char}
    (hrest : ∀ c ∈ rest.head?, digitValue? c = none) :
    spanDecimals (ds.map digitChar ++ rest) = (ds, rest) := by
  refine spanDecimals_append_of_values ?_ hrest
  rw [List.map_map]
  exact List.map_congr_left fun d hd => digitValue?_digitChar (h d hd)

end Query

end Pigeonhole
