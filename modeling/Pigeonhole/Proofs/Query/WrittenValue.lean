import Pigeonhole.Proofs.Query.Operands
import Pigeonhole.Proofs.Query.Swallowed
import Pigeonhole.Proofs.Query.Prolonged
import Pigeonhole.Proofs.Query.Words

/-!
# Values written out in fragments

The value that a fragment compares with is bound to a parameter, or it is written out: an integer in
decimal digits, a constant in any letter case, or a text between quotes (`WrittenValue`).  Both ways
lead to the same condition, whatever the text holds (`compile_written`).  Only an integer with more
digits than are read cannot be written out, where a parameter may have it as its value.
-/

namespace Pigeonhole

open Text

/-! ## Letters and digits in lower case -/

namespace Text

/-- Only letters of ASCII become letters of the constants by the case of ASCII, so the long s does
not. -/
theorem foldLetter_of_toLower {c : Char} (h : c.toLower ∈ constantLetters) :
    foldLetter c = c.toLower ∧ c ≠ 'ſ' := by
  have hascii : c.toNat < 128 := by
    unfold Char.toLower at h
    split at h
    next hcapital =>
      have hle : c.toNat ≤ 'Z'.toNat := hcapital.2
      have hz : 'Z'.toNat = 90 := rfl
      omega
    next =>
      have checked : ∀ k ∈ constantLetters, k.toNat < 128 := by decide
      exact checked c h
  refine ⟨forall_of_ascii (p := fun c => c.toLower ∈ constantLetters → foldLetter c = c.toLower)
    (by decide) hascii h, ?_⟩
  rintro rfl
  exact absurd hascii (by decide)

/-- A word in capitals and small letters of ASCII is the word in lower case. -/
theorem lower_of_toLower {s w : List Char} (hw : ∀ k ∈ w, k ∈ constantLetters)
    (h : s.map Char.toLower = w) : s.map foldLetter = w ∧ lower s = w := by
  have hletter : ∀ c ∈ s, foldLetter c = c.toLower ∧ c ≠ 'ſ' := fun c hc =>
    foldLetter_of_toLower (hw _ (h ▸ List.mem_map_of_mem hc))
  have hfold : s.map foldLetter = w :=
    (List.map_congr_left fun c hc => (hletter c hc).1).trans h
  have hmem : ∀ c ∈ s, foldLetter c ∈ constantLetters := fun c hc =>
    hw _ (hfold ▸ List.mem_map_of_mem hc)
  refine ⟨hfold, ?_⟩
  rw [lower_of_foldLetter hmem, ← hfold]
  exact List.map_congr_left fun c hc => if_neg (hletter c hc).2

/-- Digits and the minus have no case. -/
theorem lower_minus_digits (negative : Bool) {ds : List Nat} (h : ∀ d ∈ ds, d < 10) :
    lower (Query.minus negative ++ ds.map digitChar) = Query.minus negative ++ ds.map digitChar := by
  have checked : ∀ d < 10, lowerChar (digitChar d) = digitChar d ∧ digitChar d ≠ 'Σ' ∧
      digitChar d ≠ 'İ' := by decide
  have hall : ∀ c ∈ Query.minus negative ++ ds.map digitChar,
      lowerChar c = c ∧ c ≠ 'Σ' ∧ c ≠ 'İ' := by
    rw [List.forall_mem_append, List.forall_mem_map]
    exact ⟨by cases negative <;> decide, fun d hd => checked d (h d hd)⟩
  rw [lower, lowerAfter_eq_map fun c hc => (hall c hc).2]
  exact (List.map_congr_left fun c hc => (hall c hc).1).trans (List.map_id _)

end Text

namespace Query

/-! ## Integers -/

theorem intDigits_eq (n : Int) : intDigits n = minus (n < 0) ++ natDigits n.natAbs := by
  unfold intDigits
  split
  next h => rw [decide_eq_true h]; rfl
  next h => rw [decide_eq_false h]; rfl

theorem isDigits_natDigits (n : Nat) : IsDigits (natDigits n) := by
  obtain ⟨ds, hds, hlt, hne, -⟩ := exists_digits n
  rw [hds]
  refine ⟨mt List.map_eq_nil_iff.1 hne, List.forall_mem_map.2 fun d hd => ?_⟩
  rw [isDecimal, digitValue?_digitChar (hlt d hd)]
  rfl

theorem plainDigits_map {ds : List Nat} (h : ∀ d ∈ ds, d < 10) :
    Numeral.plainDigits (ds.map digitChar) = ds.map digitChar := by
  rw [Numeral.plainDigits, List.map_map]
  refine List.map_congr_left fun d hd => ?_
  rw [Function.comp_apply, digitValue?_digitChar (h d hd)]
  rfl

/-- The text of an integer is read as the integer, unless it has too many digits. -/
theorem readInt_intDigits (n : Int) :
    Numeral.readInt (intDigits n) =
      if (natDigits n.natAbs).length ≤ Numeral.maxDigits then .ok n
      else .error (.tooLong (natDigits n.natAbs).length) := by
  obtain ⟨ds, hds, hlt, hne, hvalue⟩ := exists_digits n.natAbs
  have hplain : Numeral.plainDigits (natDigits n.natAbs) = ds.map digitChar := by
    rw [hds, plainDigits_map hlt]
  have hlength : (natDigits n.natAbs).length = ds.length := by rw [hds, List.length_map]
  rw [intDigits_eq, readInt_digits _ (isDigits_natDigits n.natAbs) hplain hlt hne, hlength,
    Numeral.ofDigits, hvalue]
  by_cases hfits : ds.length ≤ Numeral.maxDigits
  · rw [if_pos hfits, if_pos hfits]
    refine congrArg Except.ok ?_
    show (if decide (n < 0) = true then -(n.natAbs : Int) else n.natAbs) = n
    by_cases hn : n < 0
    · rw [decide_eq_true hn, if_pos rfl]
      omega
    · rw [decide_eq_false hn, if_neg Bool.false_ne_true]
      omega
  · rw [if_neg hfits, if_neg hfits]
    rfl

theorem dropNumber?_digits {s : List Char} (h : IsDigits s) : dropNumber? s = some [] := by
  have htake : s.takeWhile isDecimal = s := List.takeWhile_eq_self_iff.2 h.isDecimal
  have hdrop : s.dropWhile isDecimal = [] := List.dropWhile_eq_nil_iff.2 h.isDecimal
  simp only [dropNumber?, htake, hdrop, List.isEmpty_iff, if_neg h.ne_nil]

theorem isBareLiteral_integer (negative : Bool) {whole : List Char} (h : IsDigits whole) :
    isBareLiteral (minus negative ++ whole) = true := by
  have hnumber : dropNumber? whole = some [] := dropNumber?_digits h
  unfold isBareLiteral
  cases negative with
  | true => simp only [minus, if_true, List.singleton_append, hnumber]; rfl
  | false =>
    have hminus : '-' ∉ whole := h.ne_of_mem (by decide)
    simp only [minus, Bool.false_eq_true, if_false, List.nil_append]
    -- without a sign the text must not be taken for one with a sign
    split
    · exact absurd List.mem_cons_self hminus
    · rw [hnumber]; rfl

/-! ## Values and their texts -/

/-- A value that is written out. -/
inductive WrittenValue where
  | integer (n : Int)
  | truth (b : Bool) (token : List Char)
      (htoken : token.map Char.toLower = (if b then "true" else "false").toList)
  | null (token : List Char) (htoken : token.map Char.toLower = "null".toList)
  | quoted (quote : Char) (body : List Char) (hquote : isQuote quote = true) (hline : '\n' ∉ body)

namespace WrittenValue

/-- The value as it is written. -/
def text : WrittenValue → List Char
  | integer n => intDigits n
  | truth _ token _ => token
  | null token _ => token
  | quoted quote body .. => quote :: (body ++ [quote])

/-- What is written out. -/
def value {α : Type} : WrittenValue → Tree α
  | integer n => .int n
  | truth b .. => .bool b
  | null .. => .null
  | quoted _ body .. => Tree.ofString body

/-- The digits of an integer. -/
def digits : WrittenValue → Nat
  | integer n => (natDigits n.natAbs).length
  | _ => 0

end WrittenValue

/-! ## Written values as operands -/

/-- A constant in capitals and small letters of ASCII. -/
theorem constant_of_toLower {word : String} (hword : word ∈ ["true", "false", "null"])
    {token : List Char} (h : token.map Char.toLower = word.toList) :
    IsConstant token ∧ lower token = word.toList := by
  have checked : ∀ word ∈ ["true", "false", "null"], ∀ k ∈ word.toList, k ∈ constantLetters := by
    decide
  obtain ⟨hfold, hlower⟩ := lower_of_toLower (checked word hword) h
  exact ⟨⟨word, hword, hfold⟩, hlower⟩

theorem isBareLiteral_of_isConstant {token : List Char} (h : IsConstant token) :
    isBareLiteral token = true := by
  obtain ⟨word, hword, htoken⟩ := h
  have hkeyword : (dropKeyword word.toList token).any atEnd = true := by
    have hdrop := dropKeyword_spelled htoken []
    rw [List.append_nil] at hdrop
    rw [hdrop]
    rfl
  simp only [List.mem_cons, List.not_mem_nil, or_false] at hword
  unfold isBareLiteral
  simp only [Bool.or_eq_true]
  rcases hword with rfl | rfl | rfl
  · exact .inl (.inl (.inr hkeyword))
  · exact .inl (.inr hkeyword)
  · exact .inr hkeyword

/-- A number or a constant is an operand as a whole. -/
theorem wholeOperand?_of_isBareLiteral {token : List Char} (h : IsBareToken token)
    (hbare : isBareLiteral token = true) : wholeOperand? token = some token := by
  obtain ⟨c, s, rfl⟩ := List.exists_cons_of_ne_nil h.ne_nil
  have hc := h.chars c List.mem_cons_self
  have hat : c ≠ '@' := ne_of_isBareChar hc (by decide)
  have hend : (c :: s).getLast? ≠ some '\n' := by
    intro hlast
    have hblank := isBlank_of_isBareChar (h.chars '\n' (List.mem_of_getLast? hlast))
    exact absurd hblank (by decide)
  rw [wholeOperand?_bare hat (isQuote_of_isBareChar hc), if_pos hbare, dropLineEnd, if_neg hend]

theorem unquote?_of_isBareToken {token : List Char} (h : IsBareToken token) :
    unquote? token = none :=
  unquote?_of_head fun c hc => isQuote_of_isBareChar (h.chars c (List.mem_of_mem_head? hc))

/-- There is a digit in the text of an integer, but none in a constant. -/
theorem constant?_intDigits {α : Type} (n : Int) :
    (constant? (intDigits n) : Option (Tree α)) = none := by
  have hlower : lower (intDigits n) = intDigits n := by
    obtain ⟨ds, hds, hlt, -⟩ := exists_digits n.natAbs
    rw [intDigits_eq, hds, lower_minus_digits _ hlt]
  have hdigits := isDigits_natDigits n.natAbs
  obtain ⟨c, hc⟩ := List.exists_mem_of_ne_nil _ hdigits.ne_nil
  have hne : ∀ word ∈ ["true", "false", "null"], intDigits n ≠ word.toList := by
    intro word hword heq
    have checked : ∀ word ∈ ["true", "false", "null"], ∀ k ∈ word.toList, isDecimal k = false := by
      decide
    -- lower case has kept the digits, so one of them would stand in the constant
    have hmem : c ∈ word.toList := by
      rw [← heq, intDigits_eq]
      exact List.mem_append_right _ hc
    exact absurd (hdigits.isDecimal c hc) (by rw [checked word hword c hmem]; decide)
  rw [constant?, hlower, if_neg (hne "true" (by decide)), if_neg (hne "false" (by decide)),
    if_neg (hne "null" (by decide))]

theorem isBareToken_intDigits (n : Int) : IsBareToken (intDigits n) := by
  rw [intDigits_eq]
  exact (IsNumeral.integer _ (isDigits_natDigits n.natAbs)).isBareToken

/-- An integer is read as a literal, unless it has too many digits. -/
theorem literal_intDigits {α : Type} (n : Int) :
    (literal (intDigits n) : Except QueryError (Tree α)) =
      if (natDigits n.natAbs).length ≤ Numeral.maxDigits then .ok (.int n)
      else .error (.longInteger (natDigits n.natAbs).length) := by
  have hunquote := unquote?_of_isBareToken (isBareToken_intDigits n)
  have hpoint : (intDigits n).contains '.' = false := by
    rw [intDigits_eq]
    exact contains_point_integer _ (isDigits_natDigits n.natAbs)
  simp only [literal, hunquote, constant?_intDigits, numeral, hpoint, readInt_intDigits,
    Bool.false_eq_true, if_false]
  by_cases hfits : (natDigits n.natAbs).length ≤ Numeral.maxDigits
  · rw [if_pos hfits, if_pos hfits]
    rfl
  · rw [if_neg hfits, if_neg hfits]
    rfl

theorem literal_constant {α : Type} {token : List Char} (h : IsConstant token) {v : Tree α}
    (hv : constant? token = some v) : (literal token : Except QueryError (Tree α)) = .ok v := by
  simp only [literal, unquote?_of_isBareToken h.isBareToken, hv]

namespace WrittenValue

theorem wholeOperand?_text (w : WrittenValue) : wholeOperand? w.text = some w.text := by
  have hconstant : ∀ {token}, IsConstant token → wholeOperand? token = some token := fun h =>
    wholeOperand?_of_isBareLiteral h.isBareToken (isBareLiteral_of_isConstant h)
  cases w with
  | integer n =>
    have hbare : isBareLiteral (intDigits n) = true := by
      rw [intDigits_eq]
      exact isBareLiteral_integer _ (isDigits_natDigits n.natAbs)
    exact wholeOperand?_of_isBareLiteral (isBareToken_intDigits n) hbare
  | truth b token htoken => exact hconstant (constant_of_toLower (by cases b <;> decide) htoken).1
  | null token htoken => exact hconstant (constant_of_toLower (by decide) htoken).1
  | quoted quote body hquote hline => exact wholeOperand?_quoted hquote hline

/-- A written value begins like no sign and no parameter. -/
theorem head?_text (w : WrittenValue) : ∀ c ∈ w.text.head?, isBlank c = false ∧ c ≠ '=' ∧ c ≠ '@' := by
  have hbare : ∀ {token}, IsBareToken token →
      ∀ c ∈ token.head?, isBlank c = false ∧ c ≠ '=' ∧ c ≠ '@' := by
    intro token htoken c hc
    have hchar := htoken.chars c (List.mem_of_mem_head? hc)
    exact ⟨isBlank_of_isBareChar hchar, ne_of_isBareChar hchar (by decide),
      ne_of_isBareChar hchar (by decide)⟩
  cases w with
  | integer n => exact hbare (isBareToken_intDigits n)
  | truth b token htoken =>
    exact hbare (constant_of_toLower (by cases b <;> decide) htoken).1.isBareToken
  | null token htoken => exact hbare (constant_of_toLower (by decide) htoken).1.isBareToken
  | quoted quote body hquote hline =>
    intro c hc
    obtain rfl := Option.some.inj hc
    rcases isQuote_iff.1 hquote with rfl | rfl <;> decide

theorem resolveOperand_text {α : Type} (w : WrittenValue) (bindings : List (String × Tree α)) :
    resolveOperand bindings w.text =
      if w.digits ≤ Numeral.maxDigits then .ok w.value else .error (.longInteger w.digits) := by
  have hat : w.text.head? ≠ some '@' := fun h => (w.head?_text '@' h).2.2 rfl
  rw [resolveOperand, if_neg hat]
  cases w with
  | integer n => exact literal_intDigits n
  | truth b token htoken =>
    obtain ⟨hconstant, hlower⟩ := constant_of_toLower (by cases b <;> decide) htoken
    refine literal_constant hconstant ?_
    rw [constant?, hlower]
    cases b <;> rfl
  | null token htoken =>
    obtain ⟨hconstant, hlower⟩ := constant_of_toLower (by decide) htoken
    refine literal_constant hconstant ?_
    rw [constant?, hlower]
    rfl
  | quoted quote body hquote hline =>
    show literal (quote :: (body ++ [quote])) = .ok (Tree.ofString body)
    rw [literal, unquote?_quote hquote]

end WrittenValue

/-! ## Fragments with a written value -/

/-- A comparison of a field, with blanks around its sign. -/
def comparing (field : String) (before : List Char) (relation : Relation)
    (after operand : List Char) : List Char :=
  'c' :: '.' :: (field.toList ++ (before ++ (relation.symbol.toList ++ (after ++ operand))))

/-- A search of a field for a text. -/
def containing (field : String) (operand : List Char) : List Char :=
  "CONTAINS(c.".toList ++ (field.toList ++ ", ".toList ++ (operand ++ ", true)".toList))

section Fragments

variable {α : Type} {field name : String} {before after operand : List Char}

theorem compile_comparing (hfield : IsFieldPath field) (hbefore : ∀ c ∈ before, isBlank c = true)
    (hafter : ∀ c ∈ after, isBlank c = true) (relation : Relation)
    (hhead : ∀ c ∈ operand.head?, isBlank c = false ∧ c ≠ '=')
    (hwhole : wholeOperand? operand = some operand) (bindings : List (String × Tree α)) :
    Condition.compile bindings (comparing field before relation after operand) =
      (resolveOperand bindings operand).map (.compares field relation) := by
  have hform : Form.ofFragment? (comparing field before relation after operand) =
      some (.compares field.toList relation operand) := by
    have hfold : foldLetter 'c' = 'c' := by decide
    rw [comparing, ofFragment?_comparison hfold hfield.1 hfield.2 hbefore hafter relation hhead,
      hwhole, Option.map_some]
  rw [Condition.compile, hform]
  simp only [Form.resolve, String.ofList_toList]
  cases resolveOperand bindings operand <;> rfl

theorem compile_containing (hfield : IsFieldPath field)
    (hhead : ∀ c ∈ operand.head?, isBlank c = false) (hne : operand ≠ [])
    (hfind : ((operandReadings (operand ++ ", true)".toList)).find? fun reading =>
      endsContains reading.2) = some (operand, ", true)".toList))
    (bindings : List (String × Tree α)) :
    Condition.compile bindings (containing field operand) =
      (resolveOperand bindings operand).map (.contains field) := by
  have hstart : ∀ c ∈ (operand ++ ", true)".toList).head?, isBlank c = false := by
    rwa [List.head?_append_of_ne_nil _ hne]
  have hform : Form.ofFragment? (containing field operand) =
      some (.contains field.toList operand) := by
    have hlead := containsForm?_lead hfield hstart
    rw [hfind, Option.map_some] at hlead
    unfold containing Form.ofFragment?
    rw [hlead, Option.some_or]
  rw [Condition.compile, hform]
  simp only [Form.resolve, String.ofList_toList]
  cases resolveOperand bindings operand <;> rfl

/-- A comparison with a parameter compares with its value. -/
theorem compile_comparing_parameter (hfield : IsFieldPath field) (hname : IsParameterName name)
    (hbefore : ∀ c ∈ before, isBlank c = true) (hafter : ∀ c ∈ after, isBlank c = true)
    (relation : Relation) (v : Tree α) :
    Condition.compile [(name, v)] (comparing field before relation after name.toList) =
      .ok (.compares field relation v) := by
  rw [compile_comparing hfield hbefore hafter relation hname.head?_toList
    (wholeOperand?_parameter hname), resolveOperand_parameter hname List.lookup_cons_self]
  rfl

/-- A comparison with a written value compares with it, unless it has too many digits. -/
theorem compile_comparing_text (hfield : IsFieldPath field)
    (hbefore : ∀ c ∈ before, isBlank c = true) (hafter : ∀ c ∈ after, isBlank c = true)
    (relation : Relation) (w : WrittenValue) (bindings : List (String × Tree α)) :
    Condition.compile bindings (comparing field before relation after w.text) =
      if w.digits ≤ Numeral.maxDigits then .ok (.compares field relation w.value)
      else .error (.longInteger w.digits) := by
  have hhead : ∀ c ∈ w.text.head?, isBlank c = false ∧ c ≠ '=' := fun c hc =>
    ⟨(w.head?_text c hc).1, (w.head?_text c hc).2.1⟩
  rw [compile_comparing hfield hbefore hafter relation hhead w.wholeOperand?_text,
    w.resolveOperand_text]
  split <;> rfl

theorem compile_containing_parameter (hfield : IsFieldPath field) (hname : IsParameterName name)
    (v : Tree α) :
    Condition.compile [(name, v)] (containing field name.toList) = .ok (.contains field v) := by
  have hresolve : resolveOperand [(name, v)] name.toList = .ok v :=
    resolveOperand_parameter hname List.lookup_cons_self
  have hhead := hname.head?_toList
  obtain ⟨word, hword, hne, hmem⟩ := hname
  have hfind : ((operandReadings (name.toList ++ ", true)".toList)).find? fun reading =>
      endsContains reading.2) = some (name.toList, ", true)".toList) := by
    have hends : endsContains ", true)".toList = true := by decide
    have htake : ", true)".toList.takeWhile isWord = [] := by decide
    have hdrop : ", true)".toList.dropWhile isWord = ", true)".toList := by decide
    rw [hword, List.cons_append, operandReadings_parameter hne hmem htake, hdrop]
    exact List.find?_cons_of_pos hends
  rw [compile_containing hfield (fun c hc => (hhead c hc).1) (hword ▸ List.cons_ne_nil _ _) hfind,
    hresolve]
  rfl

theorem compile_containing_quoted (hfield : IsFieldPath field) {quote : Char}
    (hquote : isQuote quote = true) {body : List Char} (hline : '\n' ∉ body)
    (bindings : List (String × Tree α)) :
    Condition.compile bindings (containing field (quote :: (body ++ [quote]))) =
      .ok (.contains field (Tree.ofString body)) := by
  have hhead : ∀ c ∈ (quote :: (body ++ [quote])).head?, isBlank c = false := by
    intro c hc
    obtain rfl := Option.some.inj hc
    exact isBlank_of_isQuote hquote
  have hfind : ((operandReadings (quote :: (body ++ [quote]) ++ ", true)".toList)).find?
      fun reading => endsContains reading.2) =
      some (quote :: (body ++ [quote]), ", true)".toList) := by
    have hends : (Form.contains [] []).ends ", true)".toList = true := by decide
    rw [List.cons_append, List.append_assoc]
    exact find?_operandReadings_quote hquote hends hline
  rw [compile_containing hfield hhead (List.cons_ne_nil _ _) hfind, resolveOperand_quoted hquote]
  rfl

/-- A value that is written out gives the condition that a parameter with this value gives, exactly
if it is no integer with too many digits; a text also where it is searched for. -/
theorem compile_written (hfield : IsFieldPath field) (hname : IsParameterName name)
    (hbefore : ∀ c ∈ before, isBlank c = true) (hafter : ∀ c ∈ after, isBlank c = true)
    (relation : Relation) (w : WrittenValue) :
    let written := comparing field before relation after w.text
    let bound := comparing field before relation after name.toList
    (Condition.compile (α := α) [] written = Condition.compile [(name, w.value)] bound ↔
      w.digits ≤ Numeral.maxDigits) ∧
    Condition.compile (α := α) [(name, w.value)] bound = .ok (.compares field relation w.value) ∧
    (Numeral.maxDigits < w.digits →
      Condition.compile (α := α) [] written = .error (.longInteger w.digits)) ∧
    ∀ quote body, isQuote quote = true → '\n' ∉ body →
      Condition.compile (α := α) [] (containing field (quote :: (body ++ [quote]))) =
          .ok (.contains field (Tree.ofString body)) ∧
        Condition.compile (α := α) [(name, Tree.ofString body)] (containing field name.toList) =
          .ok (.contains field (Tree.ofString body)) := by
  intro written bound
  have hwritten := compile_comparing_text (α := α) hfield hbefore hafter relation w []
  have hbound := compile_comparing_parameter (α := α) hfield hname hbefore hafter relation w.value
  refine ⟨?_, hbound, fun hlong => ?_, fun quote body hquote hline => ?_⟩
  · rw [hwritten, hbound]
    by_cases hfits : w.digits ≤ Numeral.maxDigits
    · rw [if_pos hfits]
      exact iff_of_true rfl hfits
    · rw [if_neg hfits]
      exact iff_of_false (fun h => by cases h) hfits
  · rw [hwritten, if_neg (Nat.not_le_of_lt hlong)]
  · exact ⟨compile_containing_quoted hfield hquote hline [],
      compile_containing_parameter hfield hname _⟩

end Fragments

/-- A text with quotes, a conjunction, a parenthesis and a comma. -/
theorem compile_written_quoted :
    let text := "it's AND (so, on)".toList
    Condition.compile (α := Empty) [] (comparing "a.b" "\t ".toList .le [] ("\"".toList ++ text ++ "\"".toList)) =
      Condition.compile [("@x", Tree.ofString text)] (comparing "a.b" "\t ".toList .le [] "@x".toList) :=
  (compile_written (α := Empty) (by decide : IsFieldPath "a.b")
    (⟨['x'], rfl, by decide, by decide⟩ : IsParameterName "@x") (by decide)
    (List.forall_mem_nil _) .le
    (.quoted '\x22' "it's AND (so, on)".toList (by decide) (by decide))).1.2 (Nat.zero_le _)

theorem refused_of_long {n : Nat} (hlong : Numeral.maxDigits < (natDigits n).length) :
    Condition.compile (α := Empty) [] (comparing "a" [' '] .lt [' '] (intDigits n)) =
        .error (.longInteger (natDigits n).length) ∧
      Condition.compile (α := Empty) [("@x", .int n)] (comparing "a" [' '] .lt [' '] "@x".toList) =
        .ok (.compares "a" .lt (.int n)) := by
  have hfield : IsFieldPath "a" := by decide
  have hspace : ∀ c ∈ [' '], isBlank c = true := by decide
  have hwritten := compile_comparing_text (α := Empty) hfield hspace hspace .lt (.integer n) []
  have hdigits : ¬ (WrittenValue.integer n).digits ≤ Numeral.maxDigits := Nat.not_le_of_lt hlong
  rw [if_neg hdigits] at hwritten
  exact ⟨hwritten, compile_comparing_parameter hfield ⟨['x'], rfl, by decide, by decide⟩
    hspace hspace .lt _⟩

/-- An integer with more digits than are read is refused, though a parameter may have it as its
value. -/
theorem long_integer_refused :
    let n := tenPow Numeral.maxDigits
    Condition.compile (α := Empty) [] (comparing "a" [' '] .lt [' '] (intDigits n)) =
        .error (.longInteger (natDigits n).length) ∧
      Condition.compile (α := Empty) [("@x", .int n)] (comparing "a" [' '] .lt [' '] "@x".toList) =
        .ok (.compares "a" .lt (.int n)) :=
  refused_of_long (lt_length_natDigits_tenPow Numeral.maxDigits)

end Query

end Pigeonhole
