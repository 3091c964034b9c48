import Pigeonhole.Proofs.Number.Text
import Pigeonhole.Proofs.Query.Conditions
import Pigeonhole.Proofs.Query.Literal

/-!
# Values of operands

The operand of a form is a parameter, a quoted text, a number or a constant (`operand_of_form`), and
each of them has a value when its parameter has one (`resolveOperand_cases`):

* digits of any script are read, the integers up to the most digits that are read;
* `true` and `null` stand for their values in any letter case, `false` as long as its fourth letter
  is no long s (`IsLongFalse`): the form takes a long s for an s, lower case does not.
-/

namespace Pigeonhole

open Text

/-! ## Lower case -/

namespace Text

theorem lowerAfter_eq_map {s : List Char} (h : ∀ c ∈ s, c ≠ 'Σ' ∧ c ≠ 'İ') (before : List Char) :
    lowerAfter before s = s.map lowerChar := by
  induction s generalizing before with
  | nil => rfl
  | cons c s ih =>
    obtain ⟨⟨hsigma, hdot⟩, hs⟩ := List.forall_mem_cons.1 h
    rw [lowerAfter, if_neg hsigma, if_neg hdot, ih hs]
    rfl

/-- The letters of the constants. -/
def constantLetters : List Char := "truefalsn".toList

/-- A letter of a constant is written with an ASCII letter, but an s with the long s, too. -/
theorem ascii_of_foldLetter {c : Char} (h : foldLetter c ∈ constantLetters) :
    c = 'ſ' ∨ c.toNat < 128 := by
  unfold foldLetter at h
  split at h
  next hcapital =>
    rw [Bool.and_eq_true, decide_eq_true_iff, decide_eq_true_iff] at hcapital
    have hle : c.toNat ≤ 'Z'.toNat := hcapital.2
    have hz : 'Z'.toNat = 90 := rfl
    exact .inr (by omega)
  next =>
    split at h
    next hlong => exact .inl hlong
    next =>
      split at h
      next => exact absurd h (by decide)
      next =>
        split at h
        next => exact absurd h (by decide)
        next =>
          have checked : ∀ k ∈ constantLetters, k.toNat < 128 := by decide
          exact .inr (checked c h)

theorem lowerChar_of_ascii {c : Char} (hascii : c.toNat < 128)
    (h : foldLetter c ∈ constantLetters) : lowerChar c = foldLetter c :=
  forall_of_ascii (p := fun c => foldLetter c ∈ constantLetters → lowerChar c = foldLetter c)
    (by decide) hascii h

/-- A word of such letters in lower case is the word, but for the long s. -/
theorem lower_of_foldLetter {s : List Char} (h : ∀ c ∈ s, foldLetter c ∈ constantLetters) :
    lower s = s.map fun c => if c = 'ſ' then 'ſ' else foldLetter c := by
  have hplain : ∀ c ∈ s, c ≠ 'Σ' ∧ c ≠ 'İ' := by
    intro c hc
    constructor <;> rintro rfl <;> exact absurd (h _ hc) (by decide)
  rw [lower, lowerAfter_eq_map hplain]
  refine List.map_congr_left fun c hc => ?_
  rcases ascii_of_foldLetter (h c hc) with rfl | hascii
  · decide
  · rw [lowerChar_of_ascii hascii (h c hc), if_neg]
    rintro rfl
    exact absurd hascii (by decide)

end Text

/-! ## Numbers -/

namespace Numeral

open Query

theorem numeralText_eq {s : List Char} (h : ∀ c ∈ s, isBlank c = false) :
    numeralText s = plainDigits s := by
  have hmargin : ∀ t : List Char, (∀ c ∈ t, isBlank c = false) → t.dropWhile isMargin = t := by
    intro t ht
    cases t with
    | nil => rfl
    | cons c t =>
      refine List.dropWhile_cons_of_neg ?_
      rw [isMargin, ht c List.mem_cons_self, Bool.false_and]
      exact Bool.false_ne_true
  have hreverse : ∀ c ∈ s.reverse, isBlank c = false := fun c hc => h c (List.mem_reverse.1 hc)
  rw [numeralText, trimMargins, hmargin s h, hmargin _ hreverse, List.reverse_reverse]

theorem dropUnderscores_eq {s : List Char} (h : '_' ∉ s) (before : Option Char) :
    dropUnderscores before s = some s := by
  induction s generalizing before with
  | nil => cases before <;> rfl
  | cons c s ih =>
    obtain ⟨hc, hs⟩ := not_or.1 (fun hor => h (List.mem_cons.2 hor))
    rw [dropUnderscores, ih hs]
    · rfl
    · exact fun heq => hc heq.symm

/-- The values of the digits of any script, and their plain text. -/
theorem exists_values {s : List Char} (h : ∀ c ∈ s, isDecimal c = true) :
    ∃ ds : List Nat, plainDigits s = ds.map digitChar ∧ (∀ d ∈ ds, d < 10) ∧ ds.length = s.length := by
  induction s with
  | nil => exact ⟨[], rfl, List.forall_mem_nil _, rfl⟩
  | cons c s ih =>
    obtain ⟨hc, hs⟩ := List.forall_mem_cons.1 h
    obtain ⟨ds, hds, hlt, hlength⟩ := ih hs
    obtain ⟨v, hv⟩ := Option.isSome_iff_exists.1 hc
    refine ⟨v :: ds, ?_, List.forall_mem_cons.2 ⟨digitValue?_lt hv, hlt⟩, ?_⟩
    · rw [List.map_cons, ← hds, plainDigits, List.map_cons, hv]
      rfl
    · rw [List.length_cons, hlength, List.length_cons]

theorem plainDigits_append (s t : List Char) : plainDigits (s ++ t) = plainDigits s ++ plainDigits t :=
  List.map_append

theorem takeSign_of_ne {c : Char} (hminus : c ≠ '-') (hplus : c ≠ '+') (s : List Char) :
    takeSign (c :: s) = (false, c :: s) := by
  unfold takeSign
  split
  · rename_i heq
    exact absurd (List.cons.inj heq).1 hminus
  · rename_i heq
    exact absurd (List.cons.inj heq).1 hplus
  · rfl

theorem takeSign_minus (negative : Bool) {d : Nat} (hd : d < 10) (s : List Char) :
    takeSign (minus negative ++ digitChar d :: s) = (negative, digitChar d :: s) := by
  cases negative with
  | true => rfl
  | false =>
    have checked : ∀ d < 10, digitChar d ≠ '-' ∧ digitChar d ≠ '+' := by decide
    obtain ⟨hminus, hplus⟩ := checked d hd
    exact takeSign_of_ne hminus hplus s

theorem signedInt_digits (negative : Bool) {ds : List Nat} (hne : ds ≠ []) (h : ∀ d ∈ ds, d < 10) :
    signedInt (minus negative ++ ds.map digitChar) =
      (ofDigits ds).map fun n => if negative then -(n : Int) else n := by
  obtain ⟨d, ds, rfl⟩ := List.exists_cons_of_ne_nil hne
  have hd : d < 10 := h d List.mem_cons_self
  rw [signedInt, List.map_cons, takeSign_minus negative hd, ← List.map_cons, spanDigits_map h]

theorem signedDouble?_digits (negative : Bool) {ds es : List Nat} (hne : ds ≠ [])
    (h : ∀ d ∈ ds, d < 10) (he : ∀ e ∈ es, e < 10) :
    (signedDouble? (minus negative ++ (ds.map digitChar ++ '.' :: es.map digitChar))).isSome := by
  obtain ⟨d, ds, rfl⟩ := List.exists_cons_of_ne_nil hne
  have hd : d < 10 := h d List.mem_cons_self
  have hpoint : ∀ c ∈ ('.' :: es.map digitChar).head?, isAsciiDigit c = false := by
    intro c hc
    obtain rfl := Option.some.inj hc
    decide
  have hdecimal : decimalText? ((d :: ds).map digitChar ++ '.' :: es.map digitChar) =
      some { whole := d :: ds, fraction := es } := by
    rw [decimalText?, spanDigits_append h hpoint]
    simp only [spanDigits_map he]
    rfl
  rw [signedDouble?, List.map_cons, List.cons_append, takeSign_minus negative hd, ← List.cons_append,
    ← List.map_cons]
  simp only [hdecimal]
  split
  · rfl
  · split <;> rfl

end Numeral

namespace Query

theorem IsDigits.isBlank {s : List Char} (h : IsDigits s) : ∀ c ∈ s, Text.isBlank c = false :=
  fun c hc => isBlank_of_isBareChar (h.isBareChar c hc)

theorem IsDigits.ne_of_mem {s : List Char} (h : IsDigits s) {d : Char} (hd : Text.isDecimal d = false) :
    d ∉ s := by
  intro hmem
  rw [h.isDecimal d hmem] at hd
  cases hd

theorem IsDigits.exists_values {s : List Char} (h : IsDigits s) :
    ∃ ds : List Nat, Numeral.plainDigits s = ds.map digitChar ∧ (∀ d ∈ ds, d < 10) ∧ ds ≠ [] ∧
      ds.length = s.length := by
  obtain ⟨ds, hds, hlt, hlength⟩ := Numeral.exists_values h.isDecimal
  refine ⟨ds, hds, hlt, ?_, hlength⟩
  rintro rfl
  exact h.ne_nil (List.length_eq_zero_iff.1 hlength.symm)

theorem plainDigits_minus (negative : Bool) :
    Numeral.plainDigits (minus negative) = minus negative := by
  cases negative <;> decide

theorem not_mem_map_digitChar {ds : List Nat} (h : ∀ d ∈ ds, d < 10) : '_' ∉ ds.map digitChar := by
  intro hmem
  obtain ⟨d, hd, heq⟩ := List.mem_map.1 hmem
  have checked : ∀ d < 10, digitChar d ≠ '_' := by decide
  exact checked d (h d hd) heq

/-- A sign and digits of any script are read by the values of the digits. -/
theorem readInt_digits (negative : Bool) {whole : List Char} (h : IsDigits whole) {ds : List Nat}
    (hds : Numeral.plainDigits whole = ds.map digitChar) (hlt : ∀ d ∈ ds, d < 10) (hne : ds ≠ []) :
    Numeral.readInt (minus negative ++ whole) =
      (Numeral.ofDigits ds).map fun n => if negative then -(n : Int) else n := by
  have hblank : ∀ c ∈ minus negative ++ whole, Text.isBlank c = false := by
    rw [List.forall_mem_append]
    exact ⟨by cases negative <;> decide, h.isBlank⟩
  have hunderscore : '_' ∉ minus negative ++ ds.map digitChar := by
    rw [List.mem_append, not_or]
    exact ⟨by cases negative <;> decide, not_mem_map_digitChar hlt⟩
  rw [Numeral.readInt, Numeral.numeralText_eq hblank, Numeral.plainDigits_append, plainDigits_minus,
    hds, Numeral.dropUnderscores_eq hunderscore]
  exact Numeral.signedInt_digits negative hne hlt

theorem readInt_integer (negative : Bool) {whole : List Char} (h : IsDigits whole) :
    (∃ n, Numeral.readInt (minus negative ++ whole) = .ok n) ∨
      ∃ digits, Numeral.maxDigits < digits ∧
        Numeral.readInt (minus negative ++ whole) = .error (.tooLong digits) := by
  obtain ⟨ds, hds, hlt, hne, -⟩ := h.exists_values
  rw [readInt_digits negative h hds hlt hne]
  by_cases hfits : ds.length ≤ Numeral.maxDigits
  · rw [Numeral.ofDigits, if_pos hfits]
    exact .inl ⟨_, rfl⟩
  · rw [Numeral.ofDigits, if_neg hfits]
    exact .inr ⟨ds.length, Nat.lt_of_not_le hfits, rfl⟩

/-- There is no point in an integer. -/
theorem contains_point_integer (negative : Bool) {whole : List Char} (h : IsDigits whole) :
    (minus negative ++ whole).contains '.' = false := by
  rw [← Bool.not_eq_true, List.contains_iff_mem, List.mem_append, not_or]
  exact ⟨by cases negative <;> decide, h.ne_of_mem (by decide)⟩

theorem readDouble?_decimal (negative : Bool) {whole fraction : List Char} (h : IsDigits whole)
    (hfraction : IsDigits fraction) :
    (Numeral.readDouble? (minus negative ++ (whole ++ '.' :: fraction))).isSome := by
  obtain ⟨ds, hds, hlt, hne, -⟩ := h.exists_values
  obtain ⟨es, hes, hlt', -, -⟩ := hfraction.exists_values
  have hblank : ∀ c ∈ minus negative ++ (whole ++ '.' :: fraction),
      Text.isBlank c = false := by
    rw [List.forall_mem_append, List.forall_mem_append, List.forall_mem_cons]
    exact ⟨by cases negative <;> decide, h.isBlank, by decide, hfraction.isBlank⟩
  have hpoint : Numeral.plainDigits ('.' :: fraction) = '.' :: es.map digitChar := by
    rw [← hes]
    have hdot : digitValue? '.' = none := by decide
    simp only [Numeral.plainDigits, List.map_cons, hdot, Option.map_none, Option.getD_none]
  have hunderscore : '_' ∉ minus negative ++ (ds.map digitChar ++ '.' :: es.map digitChar) := by
    rw [List.mem_append, List.mem_append, List.mem_cons, not_or, not_or, not_or]
    exact ⟨by cases negative <;> decide, not_mem_map_digitChar hlt, by decide,
      not_mem_map_digitChar hlt'⟩
  rw [Numeral.readDouble?, Numeral.numeralText_eq hblank, Numeral.plainDigits_append,
    Numeral.plainDigits_append, plainDigits_minus, hds, hpoint,
    Numeral.dropUnderscores_eq hunderscore, Option.bind_some]
  exact Numeral.signedDouble?_digits negative hne hlt hlt'

/-- A number has a value, or it is an integer with too many digits. -/
theorem numeral_of_isNumeral {token : List Char} (h : IsNumeral token) :
    (∃ n, numeral token = .ok n) ∨
      ∃ digits, Numeral.maxDigits < digits ∧ numeral token = .error (.longInteger digits) := by
  cases h with
  | @integer negative whole hwhole =>
    rw [numeral, contains_point_integer negative hwhole]
    simp only [Bool.false_eq_true, if_false]
    rcases readInt_integer negative hwhole with ⟨n, hn⟩ | ⟨digits, hlong, hdigits⟩
    · rw [hn]
      exact .inl ⟨_, rfl⟩
    · rw [hdigits]
      exact .inr ⟨digits, hlong, rfl⟩
  | @decimal negative whole fraction hwhole hfraction =>
    have hpoint : (minus negative ++ (whole ++ '.' :: fraction)).contains '.' = true := by
      rw [List.contains_iff_mem]
      simp
    obtain ⟨x, hx⟩ := Option.isSome_iff_exists.1 (readDouble?_decimal negative hwhole hfraction)
    rw [numeral, if_pos hpoint, hx]
    exact .inl ⟨_, rfl⟩

/-! ## Constants -/

/-- The constant `false` with a long s. -/
def IsLongFalse (token : List Char) : Prop := token.map foldLetter = "false".toList ∧ 'ſ' ∈ token

theorem IsConstant.letters {token : List Char} (h : IsConstant token) :
    ∀ c ∈ token, foldLetter c ∈ constantLetters := by
  obtain ⟨word, hword, htoken⟩ := h
  intro c hc
  have hmem : foldLetter c ∈ word.toList := htoken ▸ List.mem_map_of_mem hc
  have checked : ∀ word ∈ ["true", "false", "null"], ∀ k ∈ word.toList, k ∈ constantLetters := by
    decide
  exact checked word hword _ hmem

theorem IsLongFalse.isConstant {token : List Char} (h : IsLongFalse token) : IsConstant token :=
  ⟨"false", by decide, h.1⟩

/-- A character that is no blank, no digit and no sign of another operand. -/
structure Wordy (c : Char) : Prop where
  isBlank : isBlank c = false
  digitValue? : digitValue? c = none
  asciiDigitValue? : asciiDigitValue? c = none
  isQuote : isQuote c = false
  sign : c ∉ ['@', '_', '.', '-', '+']

theorem wordy_of_foldLetter {c : Char} (h : foldLetter c ∈ constantLetters) : Wordy c := by
  rcases ascii_of_foldLetter h with rfl | hascii
  · constructor <;> decide
  · obtain ⟨hblank, hdigit, hasciiDigit, hquote, hsign⟩ := forall_of_ascii
      (p := fun c => foldLetter c ∈ constantLetters → isBlank c = false ∧ digitValue? c = none ∧
        asciiDigitValue? c = none ∧ isQuote c = false ∧ c ∉ ['@', '_', '.', '-', '+'])
      (by decide) hascii h
    exact ⟨hblank, hdigit, hasciiDigit, hquote, hsign⟩

theorem constant?_of_isConstant {α : Type} {token : List Char} (h : IsConstant token) :
    (∃ v : Tree α, constant? token = some v) ∨ IsLongFalse token := by
  have hlower := lower_of_foldLetter h.letters
  obtain ⟨word, hword, htoken⟩ := h
  by_cases hlong : 'ſ' ∈ token
  · right
    have hs : 's' ∈ word.toList := by
      rw [← htoken]
      exact List.mem_map.2 ⟨'ſ', hlong, by decide⟩
    have checked : ∀ word ∈ ["true", "false", "null"], 's' ∈ word.toList → word = "false" := by
      decide
    rw [checked word hword hs] at htoken
    exact ⟨htoken, hlong⟩
  · left
    have hsame : lower token = word.toList := by
      rw [hlower, ← htoken]
      refine List.map_congr_left fun c hc => if_neg ?_
      rintro rfl
      exact hlong hc
    rw [constant?, hsame]
    simp only [List.mem_cons, List.not_mem_nil, or_false] at hword
    rcases hword with rfl | rfl | rfl
    · exact ⟨_, if_pos rfl⟩
    · exact ⟨_, rfl⟩
    · exact ⟨_, rfl⟩

theorem readInt_of_letters {token : List Char} (h : ∀ c ∈ token, foldLetter c ∈ constantLetters) :
    Numeral.readInt token = .error .malformed := by
  have hblank : ∀ c ∈ token, isBlank c = false := fun c hc => (wordy_of_foldLetter (h c hc)).isBlank
  have hplain : Numeral.plainDigits token = token := by
    conv_rhs => rw [← List.map_id token]
    refine List.map_congr_left fun c hc => ?_
    rw [(wordy_of_foldLetter (h c hc)).digitValue?]
    rfl
  have hsigns : ∀ c ∈ token, c ∉ ['@', '_', '.', '-', '+'] := fun c hc =>
    (wordy_of_foldLetter (h c hc)).sign
  have hunderscore : '_' ∉ token := fun hmem => hsigns '_' hmem (by decide)
  rw [Numeral.readInt, Numeral.numeralText_eq hblank, hplain, Numeral.dropUnderscores_eq hunderscore]
  show Numeral.signedInt token = .error .malformed
  cases token with
  | nil => rfl
  | cons c token =>
    have hdigit : asciiDigitValue? c = none :=
      (wordy_of_foldLetter (h c List.mem_cons_self)).asciiDigitValue?
    have hc := hsigns c List.mem_cons_self
    have hminus : c ≠ '-' := by
      rintro rfl
      exact hc (by decide)
    have hplus : c ≠ '+' := by
      rintro rfl
      exact hc (by decide)
    have hsign := Numeral.takeSign_of_ne hminus hplus token
    rw [Numeral.signedInt, hsign, Numeral.spanDigits, hdigit]

theorem unquote?_of_head {token : List Char} (h : ∀ c ∈ token.head?, isQuote c = false) :
    unquote? token = none := by
  unfold unquote?
  split
  next quote c s => exact if_neg (by rw [h quote rfl, Bool.false_and]; exact Bool.false_ne_true)
  next => rfl

/-- The form takes a long s for an s, lower case does not, and no number begins with a letter. -/
theorem literal_of_isLongFalse {α : Type} {token : List Char} (h : IsLongFalse token) :
    (literal token : Except QueryError (Tree α)) =
      .error (.malformedLiteral (String.ofList token)) := by
  have hletters := h.isConstant.letters
  have hunquote : unquote? token = none := unquote?_of_head fun c hc =>
    (wordy_of_foldLetter (hletters c (List.mem_of_mem_head? hc))).isQuote
  have hconstant : (constant? token : Option (Tree α)) = none := by
    have hmem : 'ſ' ∈ lower token := by
      rw [lower_of_foldLetter hletters]
      exact List.mem_map.2 ⟨'ſ', h.2, if_pos rfl⟩
    have hne : ∀ word ∈ ["true", "false", "null"], lower token ≠ word.toList := by
      intro word hword heq
      have checked : ∀ word ∈ ["true", "false", "null"], 'ſ' ∉ word.toList := by decide
      exact checked word hword (heq ▸ hmem)
    rw [constant?, if_neg (hne "true" (by decide)), if_neg (hne "false" (by decide)),
      if_neg (hne "null" (by decide))]
  have hpoint : token.contains '.' = false := by
    rw [← Bool.not_eq_true, List.contains_iff_mem]
    intro hmem
    exact (wordy_of_foldLetter (hletters '.' hmem)).sign (by decide)
  rw [literal, hunquote, hconstant, numeral, hpoint, readInt_of_letters hletters]
  rfl

/-! ## Operands of forms -/

/-- A parameter or a quoted text. -/
inductive IsReading : List Char → Prop
  | parameter (name : List Char) : IsReading ('@' :: name)
  | quoted {quote : Char} (hquote : isQuote quote = true) (body : List Char) :
      IsReading (quote :: (body ++ [quote]))

/-- An operand of a comparison. -/
inductive IsOperand (token : List Char) : Prop
  | reading (h : IsReading token)
  | numeral (h : IsNumeral token)
  | constant (h : IsConstant token)

theorem isReading_of_mem {s : List Char} {reading : List Char × List Char}
    (h : reading ∈ operandReadings s) : IsReading reading.1 := by
  unfold operandReadings at h
  split at h
  next s =>
    simp only at h
    split at h
    · cases h
    · obtain rfl := List.mem_singleton.1 h
      exact .parameter _
  next c s _ =>
    split at h
    next hquote =>
      obtain ⟨⟨body, rest⟩, -, rfl⟩ := List.mem_map.1 h
      exact .quoted (isQuote_iff.2 hquote) body
    next => cases h
  next => cases h

theorem bare_dropLineEnd {s : List Char} (h : isBareLiteral s = true) :
    IsNumeral (dropLineEnd s) ∨ IsConstant (dropLineEnd s) := by
  obtain ⟨token, rest, rfl, hend, htoken⟩ := exists_token_of_isBareLiteral h
  rw [atEnd, Bool.or_eq_true, decide_eq_true_iff, decide_eq_true_iff] at hend
  rcases hend with rfl | rfl
  · have hlast : token.getLast? ≠ some '\n' := by
      intro hlast
      have hbare := (isBareToken_of_or htoken).chars '\n' (List.mem_of_getLast? hlast)
      exact absurd (isBlank_of_isBareChar hbare) (by decide)
    rwa [List.append_nil, dropLineEnd, if_neg hlast]
  · rwa [dropLineEnd, List.getLast?_concat, if_pos rfl, List.dropLast_concat]

theorem isOperand_of_wholeOperand? {s token : List Char} (h : wholeOperand? s = some token) :
    IsOperand token := by
  unfold wholeOperand? at h
  split at h
  next reading rest hfind =>
    obtain rfl := Option.some.inj h
    exact .reading (isReading_of_mem (List.mem_of_find?_eq_some hfind))
  next =>
    split at h
    next hbare =>
      obtain rfl := Option.some.inj h
      rcases bare_dropLineEnd hbare with h | h
      · exact .numeral h
      · exact .constant h
    next => cases h

/-- A text search is a keyword, a field, a comma and an operand behind which it ends. -/
theorem containsForm?_eq_some {s : List Char} {form : Form} (h : containsForm? s = some form) :
    ∃ t path v w token rest, dropKeyword "contains(".toList s = some t ∧
      field? (stripLeft t) = some (path, v) ∧ stripLeft v = ',' :: w ∧
      ((operandReadings (stripLeft w)).find? fun reading => endsContains reading.2) =
        some (token, rest) ∧ form = .contains path token := by
  unfold containsForm? at h
  obtain ⟨t, ht, h⟩ := Option.bind_eq_some_iff.1 h
  obtain ⟨⟨path, v⟩, hv, h⟩ := Option.bind_eq_some_iff.1 h
  simp only at h
  split at h
  next w hw =>
    obtain ⟨⟨token, rest⟩, hfind, h⟩ := Option.bind_eq_some_iff.1 h
    exact ⟨t, path, v, w, token, rest, ht, hv, hw, hfind, (Option.some.inj h).symm⟩
  next => cases h

/-- A comparison is a field, a sign and an operand that is the rest of the text. -/
theorem comparesForm?_eq_some {s : List Char} {form : Form} (h : comparesForm? s = some form) :
    ∃ path v relation w token, field? s = some (path, v) ∧
      relation? (stripLeft v) = some (relation, w) ∧ wholeOperand? (stripLeft w) = some token ∧
      form = .compares path relation token := by
  unfold comparesForm? at h
  obtain ⟨⟨path, v⟩, hv, h⟩ := Option.bind_eq_some_iff.1 h
  obtain ⟨⟨relation, w⟩, hw, h⟩ := Option.bind_eq_some_iff.1 h
  obtain ⟨token, htoken, h⟩ := Option.bind_eq_some_iff.1 h
  exact ⟨path, v, relation, w, token, hv, hw, htoken, (Option.some.inj h).symm⟩

/-- A text search has a parameter or a quoted text, a comparison any operand. -/
theorem operand_of_form {s : List Char} {form : Form} (h : Form.ofFragment? s = some form) :
    (∃ path token, form = .contains path token ∧ IsReading token) ∨
      ∃ path relation token, form = .compares path relation token ∧ IsOperand token := by
  rcases Option.or_eq_some_iff.1 h with h | ⟨-, h⟩
  · obtain ⟨_, path, _, _, token, _, -, -, -, hfind, rfl⟩ := containsForm?_eq_some h
    exact .inl ⟨path, token, rfl, isReading_of_mem (List.mem_of_find?_eq_some hfind)⟩
  · obtain ⟨path, _, relation, _, token, -, -, htoken, rfl⟩ := comparesForm?_eq_some h
    exact .inr ⟨path, relation, token, rfl, isOperand_of_wholeOperand? htoken⟩

/-! ## Their values -/

/-- The errors that the sender of a query is told of; an integer has too many digits only beyond the
most that are read. -/
inductive Documented : QueryError → Prop
  | query (text : String) : Documented (.unsupportedQuery text)
  | condition (fragment : String) : Documented (.unsupportedCondition fragment)
  | parameter (name : String) : Documented (.missingParameter name)
  | long {digits : Nat} (h : Numeral.maxDigits < digits) : Documented (.longInteger digits)

section Values

variable {α : Type} {token : List Char}

theorem literal_of_isNumeral (h : IsNumeral token) :
    (∃ v : Tree α, literal token = .ok v) ∨
      ∃ e, Documented e ∧ (literal token : Except QueryError (Tree α)) = .error e := by
  unfold literal
  split
  next body hbody => exact .inl ⟨_, rfl⟩
  next =>
    split
    next v hv => exact .inl ⟨v, rfl⟩
    next =>
      rcases numeral_of_isNumeral h with ⟨n, hn⟩ | ⟨digits, hlong, hdigits⟩
      · rw [hn]
        exact .inl ⟨_, rfl⟩
      · rw [hdigits]
        exact .inr ⟨_, .long hlong, rfl⟩

theorem literal_of_isConstant (h : IsConstant token) :
    (∃ v : Tree α, literal token = .ok v) ∨ IsLongFalse token := by
  rcases constant?_of_isConstant (α := α) h with ⟨v, hv⟩ | hlong
  · left
    unfold literal
    split
    next body hbody => exact ⟨_, rfl⟩
    next => exact ⟨v, by rw [hv]⟩
  · exact .inr hlong

theorem IsReading.not_isLongFalse (h : IsReading token) : ¬ IsLongFalse token := by
  intro hlong
  have hletters := hlong.isConstant.letters
  cases h with
  | parameter name =>
    exact (wordy_of_foldLetter (hletters '@' List.mem_cons_self)).sign (by decide)
  | quoted hquote body =>
    rw [(wordy_of_foldLetter (hletters _ List.mem_cons_self)).isQuote] at hquote
    cases hquote

theorem resolveOperand_of_isLongFalse (h : IsLongFalse token) (bindings : List (String × Tree α)) :
    resolveOperand bindings token = .error (.malformedLiteral (String.ofList token)) := by
  have hhead : token.head? ≠ some '@' := by
    intro hhead
    have hletter := h.isConstant.letters '@' (List.mem_of_mem_head? hhead)
    exact (wordy_of_foldLetter hletter).sign (by decide)
  rw [resolveOperand, if_neg hhead, literal_of_isLongFalse h]

/-- An operand has a value or is refused with an error that is told, but for the long s. -/
theorem resolveOperand_cases (h : IsOperand token) (bindings : List (String × Tree α)) :
    (∃ v, resolveOperand bindings token = .ok v) ∨
      (∃ e, Documented e ∧ resolveOperand bindings token = .error e) ∨ IsLongFalse token := by
  unfold resolveOperand
  split
  next =>
    cases hlookup : bindings.lookup (String.ofList token) with
    | some v => exact .inl ⟨v, by simp only [hlookup]⟩
    | none => exact .inr (.inl ⟨_, .parameter (String.ofList token), by simp only [hlookup]⟩)
  next hhead =>
    cases h with
    | reading h =>
      cases h with
      | parameter name => exact absurd rfl hhead
      | quoted hquote body =>
        rw [literal, unquote?_quote hquote]
        exact .inl ⟨_, rfl⟩
    | numeral h =>
      rcases literal_of_isNumeral (α := α) h with hok | herror
      · exact .inl hok
      · exact .inr (.inl herror)
    | constant h =>
      rcases literal_of_isConstant (α := α) h with hok | hlong
      · exact .inl hok
      · exact .inr (.inr hlong)

end Values

end Query

end Pigeonhole
