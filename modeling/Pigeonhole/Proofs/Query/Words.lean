import Pigeonhole.Proofs.Query.Literal

/-!
# Words of statements

A statement is written in words with blanks before each of them (`Words`): keywords in letters of any
case and digits of any script.  The readers of the statement drop exactly such texts from its
beginning (`dropWords_append`, `exists_of_dropWords`), and a word that begins with another letter is
not dropped (`dropWord_words_of_ne`).
-/

namespace Pigeonhole

namespace Query

open Text

/-! ## Words -/

/-- A word of a statement: a keyword, or digits with these values. -/
inductive Token where
  | word (text : String)
  | digits (values : List Nat)

/-- The ways to write a word: a keyword in letters of any case, digits of any script. -/
def Token.Spelled : Token → List Char → Prop
  | word text, s => s.map foldLetter = text.toList
  | digits values, s => s.map digitValue? = values.map some ∧ values ≠ []

/-- Words with blanks before each of them. -/
inductive Words : List Token → List Char → Prop
  | nil : Words [] []
  | cons {token : Token} {tokens : List Token} {blanks s rest : List Char} (hblanks : Blanks blanks)
      (hs : token.Spelled s) (hrest : Words tokens rest) :
      Words (token :: tokens) (blanks ++ (s ++ rest))

/-- The small letter with which a keyword begins. -/
def first (text : String) : Char := text.toList.headD ' '

/-- A keyword does not begin with a blank. -/
def IsKeyword (text : String) : Prop := isBlank (first text) = false

instance (text : String) : Decidable (IsKeyword text) := instDecidableEqBool _ _

theorem IsKeyword.cons_of_spelled {text : String} (h : IsKeyword text) {s : List Char}
    (hs : (Token.word text).Spelled s) :
    ∃ c rest, s = c :: rest ∧ foldLetter c = first text ∧ isBlank c = false := by
  unfold IsKeyword first at *
  cases s with
  | nil =>
    have hnil : text.toList = [] := hs.symm
    rw [hnil] at h
    exact absurd h (by decide)
  | cons c rest =>
    have htext : text.toList = foldLetter c :: rest.map foldLetter := hs.symm
    rw [htext, List.headD_cons] at h ⊢
    refine ⟨c, rest, rfl, rfl, ?_⟩
    rw [Bool.eq_false_iff]
    intro hc
    rw [foldLetter_of_isBlank hc, hc] at h
    cases h

theorem dropWord_append {text : String} (h : IsKeyword text) {b s : List Char} (hb : Blanks b)
    (hs : (Token.word text).Spelled s) (rest : List Char) :
    dropWord text (b ++ (s ++ rest)) = some rest := by
  have hleft : stripLeft (s ++ rest) = s ++ rest := by
    obtain ⟨c, t, rfl, -, hc⟩ := h.cons_of_spelled hs
    exact stripLeft_cons_of_not_isBlank hc _
  rw [dropWord, dropBlanks1_append hb, hleft, Option.bind_some, dropKeyword_spelled hs]

/-- A word that begins with another letter is not dropped. -/
theorem dropWord_of_ne {text other : String} (h : IsKeyword text) (ho : IsKeyword other)
    (hne : first text ≠ first other) {b s : List Char} (hb : Blanks b)
    (hs : (Token.word text).Spelled s) (rest : List Char) :
    dropWord other (b ++ (s ++ rest)) = none := by
  obtain ⟨c, t, rfl, hfold, hc⟩ := h.cons_of_spelled hs
  have hother : ∃ w, other.toList = first other :: w := by
    unfold IsKeyword first at *
    cases hlist : other.toList with
    | nil =>
      rw [hlist] at ho
      exact absurd ho (by decide)
    | cons k w => exact ⟨w, rfl⟩
  obtain ⟨w, hw⟩ := hother
  rw [dropWord, dropBlanks1_append hb, List.cons_append, stripLeft_cons_of_not_isBlank hc,
    Option.bind_some, hw, dropKeyword, if_neg (by rwa [hfold])]

theorem exists_of_dropWord {text : String} {s rest : List Char} (h : dropWord text s = some rest) :
    ∃ b w, s = b ++ (w ++ rest) ∧ Blanks b ∧ (Token.word text).Spelled w := by
  obtain ⟨t, ht, hword⟩ := Option.bind_eq_some_iff.1 h
  obtain ⟨b, rfl, hb, -⟩ := exists_blanks_of_dropBlanks1 ht
  obtain ⟨w, rfl, hw⟩ := exists_append_of_dropKeyword hword
  exact ⟨b, w, rfl, hb, hw⟩

/-- The rest after keywords with blanks before each of them. -/
def dropWords (texts : List String) (s : List Char) : Option (List Char) :=
  texts.foldlM (fun s text => dropWord text s) s

theorem dropWords_cons (text : String) (texts : List String) (s : List Char) :
    dropWords (text :: texts) s = (dropWord text s).bind (dropWords texts) := rfl

theorem dropWords_append {texts : List String} (h : ∀ text ∈ texts, IsKeyword text)
    {p : List Char} (hp : Words (texts.map .word) p) (rest : List Char) :
    dropWords texts (p ++ rest) = some rest := by
  induction texts generalizing p with
  | nil => cases hp; rfl
  | cons text texts ih =>
    cases hp with
    | cons hblanks hs hrest =>
      obtain ⟨htext, htexts⟩ := List.forall_mem_cons.1 h
      rw [dropWords_cons, List.append_assoc, List.append_assoc, dropWord_append htext hblanks hs,
        Option.bind_some, ih htexts hrest]

theorem exists_of_dropWords {texts : List String} {s rest : List Char}
    (h : dropWords texts s = some rest) : ∃ p, s = p ++ rest ∧ Words (texts.map .word) p := by
  induction texts generalizing s with
  | nil => exact ⟨[], Option.some.inj h, .nil⟩
  | cons text texts ih =>
    rw [dropWords_cons] at h
    obtain ⟨t, ht, hrest⟩ := Option.bind_eq_some_iff.1 h
    obtain ⟨b, w, rfl, hb, hw⟩ := exists_of_dropWord ht
    obtain ⟨p, rfl, hp⟩ := ih hrest
    exact ⟨b ++ (w ++ p), by simp only [List.append_assoc], .cons hb hw hp⟩

theorem dropWord_words_of_ne {text other : String} (htext : IsKeyword text)
    (hother : IsKeyword other) (hne : first text ≠ first other) {tokens : List Token}
    {p : List Char} (hp : Words (.word text :: tokens) p) (rest : List Char) :
    dropWord other (p ++ rest) = none := by
  cases hp with
  | cons hblanks hs hrest =>
    rw [List.append_assoc, List.append_assoc, dropWord_of_ne htext hother hne hblanks hs]

theorem Words.append {tokens more : List Token} {p q : List Char} (hp : Words tokens p)
    (hq : Words more q) : Words (tokens ++ more) (p ++ q) := by
  induction hp with
  | nil => exact hq
  | cons hblanks hs _ ih =>
    rw [List.append_assoc, List.append_assoc]
    exact .cons hblanks hs ih

theorem Words.split {tokens more : List Token} {p : List Char}
    (hp : Words (tokens ++ more) p) :
    ∃ q r, p = q ++ r ∧ Words tokens q ∧ Words more r := by
  induction tokens generalizing p with
  | nil => exact ⟨[], p, rfl, .nil, hp⟩
  | cons token tokens ih =>
    cases hp with
    | cons hblanks hs hrest =>
      obtain ⟨q, r, rfl, hq, hr⟩ := ih hrest
      exact ⟨_, r, by simp only [List.append_assoc], .cons hblanks hs hq, hr⟩

theorem Words.head?_isBlank {token : Token} {tokens : List Token} {p : List Char}
    (hp : Words (token :: tokens) p) (rest : List Char) :
    ∀ c ∈ (p ++ rest).head?, isBlank c = true := by
  cases hp with
  | @cons _ _ blanks s _ hblanks hs hrest =>
    intro c hc
    obtain ⟨d, b, rfl⟩ := List.exists_cons_of_ne_nil hblanks.ne_nil
    obtain rfl := Option.some.inj hc
    exact hblanks.isBlank d List.mem_cons_self

/-! ## Digits -/

theorem exists_of_spanDecimals (s : List Char) :
    ∃ t, s = t ++ (spanDecimals s).2 ∧ t.map digitValue? = (spanDecimals s).1.map some := by
  induction s with
  | nil => exact ⟨[], rfl, rfl⟩
  | cons c s ih =>
    rw [spanDecimals]
    cases hc : digitValue? c with
    | none => exact ⟨[], rfl, rfl⟩
    | some v =>
      obtain ⟨t, hs, ht⟩ := ih
      refine ⟨c :: t, ?_, ?_⟩
      · rw [List.cons_append, ← hs]
      · rw [List.map_cons, List.map_cons, hc, ht]

theorem digitValue?_of_isBlank {c : Char} (h : isBlank c = true) : digitValue? c = none := by
  have hnone : (digitValue? c == none) = true :=
    forall_of_isBlank (p := fun c => digitValue? c == none) (by decide +kernel) h
  exact beq_iff_eq.1 hnone

section Digits

variable {values : List Nat} {s : List Char}

theorem isDecimal_of_spelled (hs : (Token.digits values).Spelled s) :
    ∀ c ∈ s, isDecimal c = true := by
  intro c hc
  have hmem : digitValue? c ∈ values.map some := hs.1 ▸ List.mem_map_of_mem hc
  obtain ⟨v, -, hv⟩ := List.mem_map.1 hmem
  rw [isDecimal, ← hv, Option.isSome_some]

theorem isBlank_of_spelled_digits (hs : (Token.digits values).Spelled s) :
    ∀ c ∈ s, isBlank c = false := by
  intro c hc
  have hdecimal := isDecimal_of_spelled hs c hc
  rw [Bool.eq_false_iff]
  intro hblank
  rw [isDecimal, digitValue?_of_isBlank hblank] at hdecimal
  cases hdecimal

theorem exists_cons_of_spelled_digits (hs : (Token.digits values).Spelled s) :
    ∃ c rest, s = c :: rest := by
  refine List.exists_cons_of_ne_nil ?_
  rintro rfl
  exact hs.2 (List.map_eq_nil_iff.1 hs.1.symm)

theorem lt_of_spelled (hs : (Token.digits values).Spelled s) : ∀ v ∈ values, v < 10 := by
  intro v hv
  have hmem : some v ∈ s.map digitValue? := hs.1 ▸ List.mem_map_of_mem hv
  obtain ⟨c, -, hc⟩ := List.mem_map.1 hmem
  exact digitValue?_lt hc

end Digits

/-- Digits are given by their number and by the number that they denote. -/
theorem digitsValue_inj {ds es : List Nat} (hds : ∀ d ∈ ds, d < 10) (hes : ∀ e ∈ es, e < 10)
    (hlength : ds.length = es.length) (h : digitsValue ds = digitsValue es) : ds = es := by
  induction ds using List.reverseRecOn generalizing es with
  | nil => exact (List.length_eq_zero_iff.1 hlength.symm).symm
  | append_singleton ds d ih =>
    obtain rfl | ⟨es, e, rfl⟩ := List.eq_nil_or_concat es
    · simp at hlength
    · rw [List.concat_eq_append] at *
      rw [digitsValue_append_singleton, digitsValue_append_singleton] at h
      rw [List.length_append, List.length_append, List.length_singleton, List.length_singleton]
        at hlength
      have hd : d < 10 := hds d (by simp)
      have he : e < 10 := hes e (by simp)
      have hlast : d = e := by omega
      have hinit : ds = es := ih (fun x hx => hds x (List.mem_append_left _ hx))
        (fun x hx => hes x (List.mem_append_left _ hx)) (by omega) (by omega)
      rw [hinit, hlast]

end Query

end Pigeonhole
