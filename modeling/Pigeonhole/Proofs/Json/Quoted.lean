import Pigeonhole.Json.Parser

/-!
# Quoted texts

The reader of JSON strings gets back what was written between quotes, and what follows the closing
quote (`stringBody_encode`).  So no quoted text begins another one.  Where characters outside ASCII
are escaped, one beyond the first 65536 is written as two halves that the reader joins again.
-/

namespace Pigeonhole

open Json

namespace Quoted

/-! ## Escapes -/

theorem hexValue?_hexDigit {k : Nat} (h : k < 16) : hexValue? (Text.hexDigit k) = some k := by
  have checked : ∀ k < 16, hexValue? (Text.hexDigit k) = some k := by decide
  exact checked k h

theorem stringUnits?_unitEscape {n : Nat} (h : n < 0x10000) (s : List Char) :
    stringUnits? (unitEscape n ++ s) = (stringUnits? s).map fun p => (n :: p.1, p.2) := by
  have hunit : hexUnit? (Text.hexDigit (n / 16 / 16 / 16 % 16)) (Text.hexDigit (n / 16 / 16 % 16))
      (Text.hexDigit (n / 16 % 16)) (Text.hexDigit (n % 16)) = some n := by
    have hvalue : ∀ k, hexValue? (Text.hexDigit (k % 16)) = some (k % 16) :=
      fun k => hexValue?_hexDigit (Nat.mod_lt k (by decide))
    simp only [hexUnit?, hvalue, Option.pure_def, Option.bind_eq_bind, Option.bind_some,
      Option.some.injEq]
    omega
  simp [unitEscape, Text.hexDigits, stringUnits?, hunit]

theorem stringUnits?_singleton {c : Char} (hquote : c ≠ '\x22') (hslash : c ≠ '\\')
    (hprint : 0x20 ≤ c.toNat) (s : List Char) :
    stringUnits? (c :: s) = (stringUnits? s).map fun p => (c.toNat :: p.1, p.2) := by
  have hplain : ¬ (c = '\\' ∨ c.toNat < 0x20) := by
    rintro (h | h)
    · exact hslash h
    · omega
  rw [stringUnits?.eq_def]
  split
  case h_5 heq =>
    obtain ⟨rfl, rfl⟩ := List.cons.inj heq
    exact if_neg hplain
  all_goals simp_all

theorem valid_toNat (c : Char) : c.toNat < 0xd800 ∨ 0xdfff < c.toNat ∧ c.toNat < 0x110000 := c.valid

/-- The first half of a character beyond the first 65536. -/
def highHalf (c : Char) : Nat := 0xd800 + (c.toNat - 0x10000) / 0x400

/-- The second half of a character beyond the first 65536. -/
def lowHalf (c : Char) : Nat := 0xdc00 + (c.toNat - 0x10000) % 0x400

/-- The units that a character inside quotes is read as. -/
def unitsOf (ascii : Bool) (c : Char) : List Nat :=
  if ascii && 0x10000 ≤ c.toNat then [highHalf c, lowHalf c] else [c.toNat]

theorem unitsOf_of_lt {c : Char} (h : c.toNat < 0x10000) (ascii : Bool) :
    unitsOf ascii c = [c.toNat] := by
  rw [unitsOf, decide_eq_false (by omega), Bool.and_false]
  rfl

theorem stringUnits?_charEscape (c : Char) (s : List Char) :
    stringUnits? (charEscape c ++ s) =
      (stringUnits? s).map fun p => (unitsOf true c ++ p.1, p.2) := by
  by_cases hsmall : c.toNat < 0x10000
  · rw [charEscape, if_pos hsmall, unitsOf_of_lt hsmall, stringUnits?_unitEscape hsmall]
    rfl
  · have hvalid := valid_toNat c
    have hunits : unitsOf true c = [highHalf c, lowHalf c] := by
      rw [unitsOf, decide_eq_true (by omega), Bool.and_true, if_pos rfl]
    have hescape : charEscape c = unitEscape (highHalf c) ++ unitEscape (lowHalf c) :=
      if_neg hsmall
    have hhigh : highHalf c < 0x10000 := by
      rw [highHalf]
      omega
    have hlow : lowHalf c < 0x10000 := by
      rw [lowHalf]
      omega
    rw [hescape, hunits, List.append_assoc, stringUnits?_unitEscape hhigh,
      stringUnits?_unitEscape hlow, Option.map_map]
    rfl

/-- A character inside quotes is read as its units. -/
theorem stringUnits?_encodeChar (ascii : Bool) (c : Char) (s : List Char) :
    stringUnits? (encodeChar ascii c ++ s) =
      (stringUnits? s).map fun p => (unitsOf ascii c ++ p.1, p.2) := by
  by_cases hshort : c ∈ ['\x22', '\\', '\n', '\r', '\t', '\x08', '\x0c']
  · simp only [List.mem_cons, List.not_mem_nil, or_false] at hshort
    cases ascii <;> rcases hshort with rfl | rfl | rfl | rfl | rfl | rfl | rfl <;> rfl
  · simp only [List.mem_cons, List.not_mem_nil, or_false, not_or] at hshort
    obtain ⟨hquote, hslash, hn, hr, ht, hb, hf⟩ := hshort
    rw [encodeChar, if_neg hquote, if_neg hslash, if_neg hn, if_neg hr, if_neg ht, if_neg hb,
      if_neg hf]
    by_cases hcontrol : c.toNat < 0x20
    · rw [if_pos hcontrol, unitsOf_of_lt (by omega), stringUnits?_unitEscape (by omega)]
      rfl
    · rw [if_neg hcontrol]
      by_cases hescape : (ascii && decide (0x7e < c.toNat)) = true
      · obtain rfl : ascii = true := (Bool.and_eq_true_iff.1 hescape).1
        rw [if_pos hescape, stringUnits?_charEscape]
      · have hplain : unitsOf ascii c = [c.toNat] := by
          rw [unitsOf, if_neg]
          rw [Bool.and_eq_true, decide_eq_true_iff] at hescape ⊢
          exact fun h => hescape ⟨h.1, by omega⟩
        rw [if_neg hescape, hplain]
        exact stringUnits?_singleton hquote hslash (by omega) s

theorem stringUnits?_encode (ascii : Bool) (text rest : List Char) :
    stringUnits? (encode ascii text ++ '\x22' :: rest) =
      some (text.flatMap (unitsOf ascii), rest) := by
  induction text with
  | nil => rfl
  | cons c text ih =>
    have hencode : encode ascii (c :: text) ++ '\x22' :: rest =
        encodeChar ascii c ++ (encode ascii text ++ '\x22' :: rest) := by simp [encode]
    rw [hencode, stringUnits?_encodeChar, ih]
    rfl

/-! ## Characters from their units -/

theorem pointChar?_toNat (c : Char) : pointChar? c.toNat = some c := by
  have hvalid := valid_toNat c
  have hpoint : ¬ (decide (0xd800 ≤ c.toNat) && decide (c.toNat < 0xe000)) = true := by
    rw [Bool.and_eq_true, decide_eq_true_iff, decide_eq_true_iff]
    omega
  rw [pointChar?, if_neg hpoint, Char.ofNat_toNat]

theorem pointChars?_map_toNat (text : List Char) : pointChars? (text.map Char.toNat) = some text := by
  induction text with
  | nil => rfl
  | cons c text ih => simp only [List.map_cons, pointChars?, pointChar?_toNat, ih]

theorem joinPairs_cons {n : Nat} (h : isHighUnit n = false) (units : List Nat) :
    joinPairs (n :: units) = n :: joinPairs units := by
  cases units with
  | nil => rfl
  | cons m units => rw [joinPairs, h, Bool.false_and, if_neg (by decide)]

theorem joinPairs_halves {c : Char} (h : 0x10000 ≤ c.toNat) (units : List Nat) :
    joinPairs (highHalf c :: lowHalf c :: units) = c.toNat :: joinPairs units := by
  have hvalid := valid_toNat c
  have hhalves : (isHighUnit (highHalf c) && isLowUnit (lowHalf c)) = true := by
    rw [isHighUnit, isLowUnit, highHalf, lowHalf, Bool.and_eq_true, Bool.and_eq_true,
      Bool.and_eq_true, decide_eq_true_iff, decide_eq_true_iff, decide_eq_true_iff,
      decide_eq_true_iff]
    omega
  have hpoint : 0x10000 + (highHalf c - 0xd800) * 0x400 + (lowHalf c - 0xdc00) = c.toNat := by
    simp only [highHalf, lowHalf]
    omega
  rw [joinPairs, if_pos hhalves, hpoint]

theorem joinPairs_unitsOf (ascii : Bool) (c : Char) (units : List Nat) :
    joinPairs (unitsOf ascii c ++ units) = c.toNat :: joinPairs units := by
  by_cases hsplit : (ascii && decide (0x10000 ≤ c.toNat)) = true
  · rw [unitsOf, if_pos hsplit]
    exact joinPairs_halves (of_decide_eq_true (Bool.and_eq_true_iff.1 hsplit).2) units
  · rw [unitsOf, if_neg hsplit]
    refine joinPairs_cons ?_ units
    have hvalid := valid_toNat c
    rw [isHighUnit, Bool.and_eq_false_iff, decide_eq_false_iff_not, decide_eq_false_iff_not]
    omega

theorem textOfUnits?_unitsOf (ascii : Bool) (text : List Char) :
    textOfUnits? (text.flatMap (unitsOf ascii)) = some text := by
  have hjoin : joinPairs (text.flatMap (unitsOf ascii)) = text.map Char.toNat := by
    induction text with
    | nil => rfl
    | cons c text ih => rw [List.flatMap_cons, joinPairs_unitsOf, ih, List.map_cons]
  rw [textOfUnits?, hjoin, pointChars?_map_toNat]

variable {ascii : Bool}

theorem quote_append (text rest : List Char) :
    quote ascii text ++ rest = '\x22' :: (encode ascii text ++ '\x22' :: rest) := by
  simp [quote]

/-- A text between quotes is read back. -/
theorem stringBody_encode (text rest : List Char) :
    stringBody (encode ascii text ++ '\x22' :: rest) = .ok (text, rest) := by
  simp only [stringBody, stringUnits?_encode, textOfUnits?_unitsOf]

theorem quote_append_inj {a b s t : List Char} (h : quote ascii a ++ s = quote ascii b ++ t) :
    a = b ∧ s = t := by
  rw [quote_append, quote_append] at h
  have hread := congrArg stringBody (List.cons.inj h).2
  rw [stringBody_encode, stringBody_encode] at hread
  exact Prod.mk.inj (Except.ok.inj hread)

end Quoted

end Pigeonhole
