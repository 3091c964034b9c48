import Mathlib.Data.List.Basic
import Mathlib.Data.List.TakeWhile
import Pigeonhole.Proofs.Text.Decimal
import Pigeonhole.Proofs.Text.Keyword
import Pigeonhole.Query.Operand

/-!
# Literal operands

What the operand at the end of a comparison can be when it is no parameter.  A number or a constant
has no blank inside (`isBlank_of_isBareLiteral`).  A text that begins with a quote is one quoted
operand exactly if it ends with the same quote and has no line break: quotes, words and blanks in
between are part of it (`wholeOperand?_quote`).
-/

namespace Pigeonhole.Query

open Text

/-! ## Numbers and constants -/

/-- The characters of numbers and of constants. -/
def isBareChar (c : Char) : Bool :=
  isDecimal c || c = '.' || c = '-' || foldLetter c ∈ "truefalsn".toList

theorem isBlank_of_isBareChar {c : Char} (h : isBareChar c = true) : isBlank c = false := by
  rw [Bool.eq_false_iff]
  intro hblank
  have hbare : (!isBareChar c) = true :=
    forall_of_isBlank (p := fun c => !isBareChar c) (by decide) hblank
  rw [h] at hbare
  cases hbare

/-- A sign that stands in no number or constant is another character than each of theirs. -/
theorem ne_of_isBareChar {c d : Char} (h : isBareChar c = true) (hd : isBareChar d = false) :
    c ≠ d := by
  rintro rfl
  rw [h] at hd
  cases hd

/-- The first characters of numbers and of constants. -/
def isBareStart (c : Char) : Bool := isDecimal c || c = '-' || foldLetter c ∈ "tfn".toList

theorem foldLetter_ne_of_isBareStart {c : Char} (h : isBareStart c = true) : foldLetter c ≠ 'a' := by
  rw [isBareStart, Bool.or_eq_true, Bool.or_eq_true, decide_eq_true_iff, decide_eq_true_iff] at h
  rcases h with (h | rfl) | h
  · have hletter : (foldLetter c != 'a') = true :=
      forall_of_isDecimal (p := fun c => foldLetter c != 'a') (by decide) h
    exact bne_iff_ne.1 hletter
  · decide
  · intro heq
    rw [heq] at h
    exact absurd h (by decide)

/-- A text of such characters that begins as a number or a constant does. -/
structure IsBareToken (token : List Char) : Prop where
  ne_nil : token ≠ []
  chars : ∀ c ∈ token, isBareChar c = true
  start : ∀ c ∈ token.head?, isBareStart c = true

theorem IsBareToken.cons_minus {token : List Char} (h : IsBareToken token) :
    IsBareToken ('-' :: token) where
  ne_nil := List.cons_ne_nil '-' token
  chars := List.forall_mem_cons.2 ⟨by decide, h.chars⟩
  start := by
    intro c hc
    obtain rfl := Option.some.inj hc
    decide

theorem isBareToken_of_keyword {k : Char} {w token : List Char} (hfirst : k ∈ "tfn".toList)
    (hletters : ∀ l ∈ k :: w, l ∈ "truefalsn".toList) (h : token.map foldLetter = k :: w) :
    IsBareToken token := by
  refine ⟨?_, fun c hc => ?_, fun c hc => ?_⟩
  · rintro rfl
    cases h
  · have hmem : foldLetter c ∈ k :: w := h ▸ List.mem_map_of_mem hc
    rw [isBareChar, decide_eq_true (hletters _ hmem), Bool.or_true]
  · have hhead : (token.map foldLetter).head? = some (foldLetter c) := by
      rw [List.head?_map, hc, Option.map_some]
    rw [h, List.head?_cons] at hhead
    rw [isBareStart, ← Option.some.inj hhead, decide_eq_true hfirst, Bool.or_true]

/-- Digits of any script, at least one. -/
structure IsDigits (s : List Char) : Prop where
  ne_nil : s ≠ []
  isDecimal : ∀ c ∈ s, isDecimal c = true

/-- The minus of a negative number. -/
def minus (negative : Bool) : List Char := if negative then ['-'] else []

/-- The numbers of the query language. -/
inductive IsNumeral : List Char → Prop
  | integer (negative : Bool) {whole : List Char} (h : IsDigits whole) :
      IsNumeral (minus negative ++ whole)
  | decimal (negative : Bool) {whole fraction : List Char} (h : IsDigits whole)
      (hfraction : IsDigits fraction) : IsNumeral (minus negative ++ (whole ++ '.' :: fraction))

/-- The constants in any letter case. -/
def IsConstant (token : List Char) : Prop :=
  ∃ word ∈ ["true", "false", "null"], token.map foldLetter = word.toList

theorem IsDigits.isBareChar {s : List Char} (h : IsDigits s) : ∀ c ∈ s, isBareChar c = true := by
  intro c hc
  rw [Query.isBareChar, h.isDecimal c hc, Bool.true_or, Bool.true_or, Bool.true_or]

theorem IsDigits.isBareToken {digits more : List Char} (h : IsDigits digits)
    (hmore : ∀ c ∈ more, Query.isBareChar c = true) : IsBareToken (digits ++ more) where
  ne_nil := List.append_ne_nil_of_left_ne_nil h.ne_nil more
  chars := List.forall_mem_append.2 ⟨h.isBareChar, hmore⟩
  start := by
    intro c hc
    rw [List.head?_append_of_ne_nil _ h.ne_nil] at hc
    rw [isBareStart, h.isDecimal c (List.mem_of_mem_head? hc), Bool.true_or, Bool.true_or]

theorem IsNumeral.isBareToken {token : List Char} (h : IsNumeral token) : IsBareToken token := by
  have hminus : ∀ negative {t}, IsBareToken t → IsBareToken (minus negative ++ t) := by
    intro negative t ht
    cases negative with
    | true => exact ht.cons_minus
    | false => exact ht
  cases h with
  | integer negative hwhole =>
    have htoken := hwhole.isBareToken (List.forall_mem_nil _)
    rw [List.append_nil] at htoken
    exact hminus negative htoken
  | decimal negative hwhole hfraction =>
    refine hminus negative (hwhole.isBareToken ?_)
    exact List.forall_mem_cons.2 ⟨by decide, hfraction.isBareChar⟩

theorem IsConstant.isBareToken {token : List Char} (h : IsConstant token) : IsBareToken token := by
  obtain ⟨word, hword, htoken⟩ := h
  simp only [List.mem_cons, List.not_mem_nil, or_false] at hword
  rcases hword with rfl | rfl | rfl
  · exact isBareToken_of_keyword (by decide) (by decide) htoken
  · exact isBareToken_of_keyword (by decide) (by decide) htoken
  · exact isBareToken_of_keyword (by decide) (by decide) htoken

theorem exists_numeral_of_dropNumber? {s rest : List Char} (h : dropNumber? s = some rest) :
    ∃ number, s = number ++ rest ∧ ∀ negative, IsNumeral (minus negative ++ number) := by
  have hdigits : ∀ t : List Char, ¬ (t.takeWhile isDecimal).isEmpty = true →
      IsDigits (t.takeWhile isDecimal) := fun t hne =>
    ⟨fun hnil => hne (by rw [hnil]; rfl), fun c hc => List.mem_takeWhile_imp hc⟩
  have hsplit := (List.takeWhile_append_dropWhile (p := isDecimal) (l := s)).symm
  unfold dropNumber? at h
  simp only at h
  split at h
  next => cases h
  next hne =>
    split at h
    next t hrest =>
      obtain rfl := Option.some.inj h
      split
      next => exact ⟨_, hsplit, fun negative => .integer negative (hdigits s hne)⟩
      next hfraction =>
        refine ⟨s.takeWhile isDecimal ++ '.' :: t.takeWhile isDecimal, ?_,
          fun negative => .decimal negative (hdigits s hne) (hdigits t hfraction)⟩
        rw [List.append_assoc, List.cons_append, List.takeWhile_append_dropWhile, ← hrest]
        exact hsplit
    next =>
      obtain rfl := Option.some.inj h
      exact ⟨_, hsplit, fun negative => .integer negative (hdigits s hne)⟩

/-- A number or a constant stands up to the end of the text, or to a line break there. -/
theorem exists_token_of_isBareLiteral {s : List Char} (h : isBareLiteral s = true) :
    ∃ token rest, s = token ++ rest ∧ atEnd rest = true ∧ (IsNumeral token ∨ IsConstant token) := by
  have hkeyword : ∀ word ∈ ["true", "false", "null"],
      (dropKeyword word.toList s).any atEnd = true →
      ∃ token rest, s = token ++ rest ∧ atEnd rest = true ∧
        (IsNumeral token ∨ IsConstant token) := by
    intro word hword hany
    obtain ⟨rest, hrest, hend⟩ := (Option.any_eq_true _ _).1 hany
    obtain ⟨token, hs, htoken⟩ := exists_append_of_dropKeyword hrest
    exact ⟨token, rest, hs, hend, .inr ⟨word, hword, htoken⟩⟩
  unfold isBareLiteral at h
  simp only [Bool.or_eq_true] at h
  rcases h with ((h | h) | h) | h
  · obtain ⟨rest, hrest, hend⟩ := (Option.any_eq_true _ _).1 h
    split at hrest
    · obtain ⟨number, rfl, hnumber⟩ := exists_numeral_of_dropNumber? hrest
      exact ⟨'-' :: number, rest, rfl, hend, .inl (hnumber true)⟩
    · obtain ⟨number, hs, hnumber⟩ := exists_numeral_of_dropNumber? hrest
      exact ⟨number, rest, hs, hend, .inl (hnumber false)⟩
  · exact hkeyword "true" (by decide) h
  · exact hkeyword "false" (by decide) h
  · exact hkeyword "null" (by decide) h

theorem isBareToken_of_or {token : List Char} (h : IsNumeral token ∨ IsConstant token) :
    IsBareToken token :=
  h.elim IsNumeral.isBareToken IsConstant.isBareToken

/-- A number or a constant consists of its characters up to a line break at its end. -/
theorem exists_append_of_isBareLiteral {s : List Char} (h : isBareLiteral s = true) :
    ∃ token rest : List Char, s = token ++ rest ∧ atEnd rest = true ∧ IsBareToken token := by
  obtain ⟨token, rest, hs, hend, htoken⟩ := exists_token_of_isBareLiteral h
  exact ⟨token, rest, hs, hend, isBareToken_of_or htoken⟩

theorem isBareToken_of_isBareLiteral {s : List Char} (h : isBareLiteral s = true)
    (hblank : ∀ c ∈ s, isBlank c = false) : IsBareToken s := by
  obtain ⟨token, rest, rfl, hend, htoken⟩ := exists_append_of_isBareLiteral h
  rw [atEnd, Bool.or_eq_true, decide_eq_true_iff, decide_eq_true_iff] at hend
  rcases hend with rfl | rfl
  · rwa [List.append_nil]
  · have hline := hblank '\n' (List.mem_append_right token List.mem_cons_self)
    exact absurd hline (by decide)

/-- Numbers and constants have no blanks but a line break at their end. -/
theorem isBlank_of_isBareLiteral {s : List Char} (h : isBareLiteral s = true) :
    ∀ c ∈ s.dropLast, isBlank c = false := by
  obtain ⟨token, rest, rfl, hend, htoken⟩ := exists_append_of_isBareLiteral h
  rw [atEnd, Bool.or_eq_true, decide_eq_true_iff, decide_eq_true_iff] at hend
  intro c hc
  rcases hend with rfl | rfl
  · rw [List.append_nil] at hc
    exact isBlank_of_isBareChar (htoken.chars c (List.dropLast_subset _ hc))
  · rw [List.dropLast_concat] at hc
    exact isBlank_of_isBareChar (htoken.chars c hc)

theorem closings_cons (quote c : Char) (u : List Char) :
    closings quote (c :: u) =
      (if c = quote then [([], u)] else []) ++
        (if c = '\n' then []
         else (closings quote u).map fun reading => (c :: reading.1, reading.2)) := by
  rw [closings]
  split <;> rfl

theorem mem_closings {quote : Char} {u body rest : List Char} :
    (body, rest) ∈ closings quote u ↔ u = body ++ quote :: rest ∧ '\n' ∉ body := by
  induction u generalizing body with
  | nil => simp [closings]
  | cons c u ih =>
    rw [closings_cons, List.mem_append]
    cases body with
    | nil =>
      have hlater : ([], rest) ∉ (if c = '\n' then []
          else (closings quote u).map fun reading => (c :: reading.1, reading.2)) := by
        split
        · exact List.not_mem_nil
        · intro h
          obtain ⟨reading, -, heq⟩ := List.mem_map.1 h
          cases heq
      rw [or_iff_left hlater]
      by_cases hq : c = quote
      · simp [hq, eq_comm]
      · simp [hq]
    | cons d body =>
      have hfirst : (d :: body, rest) ∉ (if c = quote then [([], u)] else []) := by
        split
        · intro h
          cases List.mem_singleton.1 h
        · exact List.not_mem_nil
      rw [or_iff_right hfirst]
      by_cases hc : c = '\n'
      · rw [if_pos hc, hc]
        refine ⟨fun h => absurd h List.not_mem_nil, ?_⟩
        rintro ⟨hu, hline⟩
        rw [(List.cons.inj hu).1] at hline
        exact absurd List.mem_cons_self hline
      · rw [if_neg hc]
        constructor
        · intro h
          obtain ⟨reading, hmem, heq⟩ := List.mem_map.1 h
          obtain ⟨hbody, rfl⟩ := Prod.mk.inj heq
          obtain ⟨rfl, rfl⟩ := List.cons.inj hbody
          obtain ⟨rfl, hline⟩ := ih.1 hmem
          exact ⟨rfl, List.not_mem_cons_of_ne_of_not_mem (Ne.symm hc) hline⟩
        · rintro ⟨hu, hline⟩
          obtain ⟨rfl, htail⟩ := List.cons.inj hu
          have hmem : (body, rest) ∈ closings quote u :=
            ih.2 ⟨htail, fun h => hline (List.mem_cons_of_mem c h)⟩
          exact List.mem_map.2 ⟨(body, rest), hmem, rfl⟩

/-- Of the readings of a quoted text that does not end with a line break only that up to the last
character is complete. -/
theorem find?_closings {quote : Char} {u : List Char} (hend : u.getLast? ≠ some '\n') :
    ((closings quote u).find? fun reading => atEnd reading.2) =
      if u.getLast? = some quote ∧ '\n' ∉ u.dropLast then some (u.dropLast, []) else none := by
  have honly : ∀ reading ∈ closings quote u, atEnd reading.2 = true →
      u.getLast? = some quote ∧ '\n' ∉ u.dropLast ∧ reading = (u.dropLast, []) := by
    rintro ⟨body, rest⟩ hmem hrest
    obtain ⟨rfl, hline⟩ := mem_closings.1 hmem
    rw [atEnd, Bool.or_eq_true, decide_eq_true_iff, decide_eq_true_iff] at hrest
    rcases hrest with rfl | rfl
    · rw [List.getLast?_concat, List.dropLast_concat]
      exact ⟨rfl, hline, rfl⟩
    · rw [List.append_cons, List.getLast?_concat] at hend
      exact absurd rfl hend
  cases hfind : (closings quote u).find? fun reading => atEnd reading.2 with
  | some reading =>
    have hat : atEnd reading.2 = true := by simpa using List.find?_some hfind
    obtain ⟨hlast, hline, hreading⟩ := honly reading (List.mem_of_find?_eq_some hfind) hat
    rw [if_pos ⟨hlast, hline⟩, hreading]
  | none =>
    rw [if_neg]
    rintro ⟨hlast, hline⟩
    have hu : u = u.dropLast ++ [quote] := by
      rw [List.dropLast_append_getLast? quote hlast]
    have hmem : (u.dropLast, []) ∈ closings quote u := mem_closings.2 ⟨hu, hline⟩
    rw [List.find?_eq_none] at hfind
    exact hfind _ hmem rfl

/-! ## Operands that are the rest of a fragment -/

theorem isQuote_iff {q : Char} : isQuote q = true ↔ q = '\x27' ∨ q = '\x22' := by
  rw [isQuote, Bool.or_eq_true, decide_eq_true_iff, decide_eq_true_iff]

theorem isBlank_of_isQuote {q : Char} (h : isQuote q = true) : isBlank q = false := by
  rcases isQuote_iff.1 h with rfl | rfl <;> decide

theorem isQuote_of_isBareChar {c : Char} (h : isBareChar c = true) : isQuote c = false := by
  rw [Bool.eq_false_iff]
  intro hquote
  rcases isQuote_iff.1 hquote with rfl | rfl <;> exact absurd h (by decide)

theorem isBareLiteral_quote {quote : Char} (hquote : isQuote quote = true) (u : List Char) :
    isBareLiteral (quote :: u) = false := by
  rw [Bool.eq_false_iff]
  intro h
  obtain ⟨token, rest, hs, -, htoken⟩ := exists_append_of_isBareLiteral h
  obtain ⟨c, token, rfl⟩ := List.exists_cons_of_ne_nil htoken.ne_nil
  have hbare := htoken.chars c List.mem_cons_self
  rw [← (List.cons.inj hs).1] at hbare
  rw [isQuote_of_isBareChar hbare] at hquote
  cases hquote

theorem operandReadings_quote {quote : Char} (hquote : isQuote quote = true) (u : List Char) :
    operandReadings (quote :: u) =
      (closings quote u).map fun reading => (quote :: reading.1 ++ [quote], reading.2) := by
  rcases isQuote_iff.1 hquote with rfl | rfl <;> rfl

/-- A text that begins with a quote is an operand if it ends with the same one and has no line
break. -/
theorem wholeOperand?_quote {quote : Char} (hquote : isQuote quote = true) {u : List Char}
    (hend : u.getLast? ≠ some '\n') :
    wholeOperand? (quote :: u) =
      if u.getLast? = some quote ∧ '\n' ∉ u.dropLast then some (quote :: u) else none := by
  have hfind : ((operandReadings (quote :: u)).find? fun reading => atEnd reading.2) =
      ((closings quote u).find? fun reading => atEnd reading.2).map
        fun reading => (quote :: reading.1 ++ [quote], reading.2) := by
    rw [operandReadings_quote hquote, List.find?_map]
    rfl
  rw [find?_closings hend] at hfind
  by_cases hclosed : u.getLast? = some quote ∧ '\n' ∉ u.dropLast
  · rw [if_pos hclosed, Option.map_some] at hfind
    rw [if_pos hclosed, wholeOperand?, hfind, List.cons_append,
      List.dropLast_append_getLast? quote hclosed.1]
  · rw [if_neg hclosed, Option.map_none] at hfind
    rw [if_neg hclosed, wholeOperand?, hfind, isBareLiteral_quote hquote]
    rfl

theorem operandReadings_bare {c : Char} (hat : c ≠ '@') (hquote : isQuote c = false)
    (s : List Char) : operandReadings (c :: s) = [] := by
  rw [isQuote, Bool.or_eq_false_iff, decide_eq_false_iff_not, decide_eq_false_iff_not] at hquote
  unfold operandReadings
  split
  · rename_i heq
    exact absurd (List.cons.inj heq).1 hat
  · rename_i heq
    obtain ⟨rfl, rfl⟩ := List.cons.inj heq
    exact if_neg (not_or.2 hquote)
  · rfl

/-- A text that begins neither as a parameter nor as a quoted text is an operand if it is a number or
a constant. -/
theorem wholeOperand?_bare {c : Char} (hat : c ≠ '@') (hquote : isQuote c = false) (s : List Char) :
    wholeOperand? (c :: s) =
      if isBareLiteral (c :: s) then some (dropLineEnd (c :: s)) else none := by
  rw [wholeOperand?, operandReadings_bare hat hquote, List.find?_nil]

theorem unquote?_quote {quote : Char} (hquote : isQuote quote = true) (body : List Char) :
    unquote? (quote :: (body ++ [quote])) = some body := by
  cases hbody : body ++ [quote] with
  | nil => exact absurd hbody (List.append_ne_nil_of_right_ne_nil _ (List.cons_ne_nil _ _))
  | cons c s =>
    have hlast : (c :: s).getLast? = some quote := by rw [← hbody, List.getLast?_concat]
    have hclosed : (isQuote quote && (c :: s).getLast? = some quote) = true := by
      rw [hquote, decide_eq_true hlast, Bool.and_self]
    rw [unquote?, if_pos hclosed, ← hbody, List.dropLast_concat]

/-- The quoted text is read whole if it has no line break. -/
theorem wholeOperand?_quoted {quote : Char} (hquote : isQuote quote = true) {body : List Char}
    (hline : '\n' ∉ body) :
    wholeOperand? (quote :: (body ++ [quote])) = some (quote :: (body ++ [quote])) := by
  have hend : (body ++ [quote]).getLast? ≠ some '\n' := by
    rw [List.getLast?_concat]
    rcases isQuote_iff.1 hquote with rfl | rfl <;> decide
  have hclosed : (body ++ [quote]).getLast? = some quote ∧ '\n' ∉ (body ++ [quote]).dropLast := by
    rw [List.getLast?_concat, List.dropLast_concat]
    exact ⟨rfl, hline⟩
  rw [wholeOperand?_quote hquote hend, if_pos hclosed]

end Pigeonhole.Query
