import Pigeonhole.Proofs.Query.Operands
import Pigeonhole.Proofs.Query.RawClause

/-!
# Fragments that go on

A fragment is read from its beginning: the field and the sign are the same whatever follows
(`exists_parts`), and only the operand depends on it (`Form.read?`).
-/

namespace Pigeonhole.Query

open Text

/-! ## Readers on longer texts -/

section Readers

variable {s u path : List Char}

/-- Blanks are skipped as before if they are not all there is. -/
theorem stripLeft_append (h : stripLeft s ≠ []) (m : List Char) :
    stripLeft (s ++ m) = stripLeft s ++ m := by
  unfold stripLeft at *
  rw [List.dropWhile_append, List.isEmpty_eq_false_iff.2 h]
  rfl

theorem stripLeft_eq_append (s : List Char) :
    ∃ blanks : List Char, s = blanks ++ stripLeft s ∧ ∀ c ∈ blanks, isBlank c = true :=
  ⟨s.takeWhile isBlank, List.takeWhile_append_dropWhile.symm, fun _ hc => List.mem_takeWhile_imp hc⟩

theorem field?_eq_some (h : field? s = some (path, u)) :
    ∃ token, s = token ++ (path ++ u) ∧ token.map foldLetter = "c.".toList ∧
      ∀ c ∈ path, isPathChar c = true := by
  unfold field? at h
  split at h
  next rest hrest =>
    obtain ⟨token, rfl, htoken⟩ := exists_append_of_dropKeyword hrest
    simp only at h
    split at h
    · cases h
    · obtain ⟨rfl, rfl⟩ := Prod.mk.inj (Option.some.inj h)
      refine ⟨token, ?_, htoken, fun c hc => List.mem_takeWhile_imp hc⟩
      rw [List.takeWhile_append_dropWhile]
  next => cases h

theorem field?_append_right (h : field? s = some (path, u)) (hu : u ≠ []) (m : List Char) :
    field? (s ++ m) = some (path, u ++ m) := by
  unfold field? at h
  split at h
  next rest hrest =>
    simp only at h
    split at h
    · cases h
    next hne =>
      obtain ⟨rfl, rfl⟩ := Prod.mk.inj (Option.some.inj h)
      have hdrop : (rest ++ m).dropWhile isPathChar = rest.dropWhile isPathChar ++ m := by
        rw [List.dropWhile_append, List.isEmpty_eq_false_iff.2 hu]
        rfl
      have htake : (rest ++ m).takeWhile isPathChar = rest.takeWhile isPathChar := by
        have hwhole := List.takeWhile_append_dropWhile (p := isPathChar) (l := rest ++ m)
        rw [hdrop, ← List.append_assoc] at hwhole
        have hcancel := List.append_cancel_right hwhole
        nth_rewrite 3 [← List.takeWhile_append_dropWhile (p := isPathChar) (l := rest)] at hcancel
        exact List.append_cancel_right hcancel
      rw [field?, dropKeyword_append_of_eq_some hrest m]
      simp only [htake, hdrop, hne, Bool.false_eq_true, if_false]
  next => cases h

theorem relation?_eq_some {relation : Relation} (h : relation? s = some (relation, u)) :
    s = relation.symbol.toList ++ u := by
  unfold relation? at h
  split at h
  all_goals first
    | (obtain ⟨rfl, rfl⟩ := Prod.mk.inj (Option.some.inj h); rfl)
    | cases h

theorem relation?_append_right {relation : Relation} (h : relation? s = some (relation, u))
    (hu : u ≠ []) (m : List Char) : relation? (s ++ m) = some (relation, u ++ m) := by
  have hs := relation?_eq_some h
  have hhead : relation = .lt ∨ relation = .gt → ∀ c ∈ u.head?, c ≠ '=' := by
    rintro hsign c hc rfl
    obtain ⟨u, rfl⟩ : ∃ v, u = '=' :: v := by
      cases u with
      | nil => cases hc
      | cons d v => exact ⟨v, by rw [Option.some.inj hc]⟩
    rw [hs] at h
    rcases hsign with rfl | rfl <;> cases h
  obtain ⟨c, u, rfl⟩ := List.exists_cons_of_ne_nil hu
  rw [hs, List.append_assoc]
  cases relation with
  | eq => rfl
  | le => rfl
  | ge => rfl
  | lt => exact relation?_symbol .lt (hhead (.inl rfl))
  | gt => exact relation?_symbol .gt (hhead (.inr rfl))

end Readers

/-! ## Texts without quotes -/

/-- A text without quotes of either kind. -/
def Unquoted (s : List Char) : Prop := ∀ c ∈ s, isQuote c = false

theorem unquoted_append {s t : List Char} : Unquoted (s ++ t) ↔ Unquoted s ∧ Unquoted t :=
  List.forall_mem_append

theorem Unquoted.not_mem {s : List Char} (h : Unquoted s) {quote : Char}
    (hquote : isQuote quote = true) : quote ∉ s := by
  intro hmem
  rw [h quote hmem] at hquote
  cases hquote

theorem unquoted_of_isBlank {s : List Char} (h : ∀ c ∈ s, isBlank c = true) : Unquoted s := by
  intro c hc
  rw [Bool.eq_false_iff]
  intro hquote
  have hblank := isBlank_of_isQuote hquote
  rw [h c hc] at hblank
  cases hblank

theorem unquoted_of_isPathChar {s : List Char} (h : ∀ c ∈ s, isPathChar c = true) : Unquoted s := by
  intro c hc
  rw [Bool.eq_false_iff, ne_eq, isQuote_iff, not_or]
  exact ⟨ne_of_isPathChar (h c hc) (by decide), ne_of_isPathChar (h c hc) (by decide)⟩

/-- A keyword has no quotes, in whatever letters it is written. -/
theorem unquoted_of_spelled {s w : List Char} (h : s.map foldLetter = w) (hw : Unquoted w) :
    Unquoted s := by
  intro c hc
  rw [Bool.eq_false_iff]
  intro hquote
  have hfold : foldLetter c = c := by
    rcases isQuote_iff.1 hquote with rfl | rfl <;> decide
  have hmem : foldLetter c ∈ w := h ▸ List.mem_map_of_mem hc
  rw [hfold] at hmem
  rw [hw c hmem] at hquote
  cases hquote

/-- Only a point is written for a point in a keyword. -/
theorem eq_of_foldLetter_point {c : Char} (h : foldLetter c = '.') : c = '.' := by
  by_cases hascii : c.toNat < 128
  · exact forall_of_ascii (p := fun c => foldLetter c = '.' → c = '.') (by decide) hascii h
  · unfold foldLetter at h
    split at h
    next hcapital =>
      rw [Bool.and_eq_true, decide_eq_true_iff, decide_eq_true_iff] at hcapital
      have hle : c.toNat ≤ 'Z'.toNat := hcapital.2
      have hz : 'Z'.toNat = 90 := rfl
      omega
    next =>
      split at h
      · cases h
      · split at h
        · cases h
        · split at h
          · cases h
          · exact h

/-! ## Operands in front of more text -/

namespace Form

/-- The form with another operand. -/
def withOperand : Form → List Char → Form
  | contains path _, token => .contains path token
  | compares path relation _, token => .compares path relation token

/-- Whether a text is what may follow the operand. -/
def ends : Form → List Char → Bool
  | contains _ _ => endsContains
  | compares _ _ _ => atEnd

/-- The operand at the beginning of a text, if the text ends as the form does. -/
def read? : Form → List Char → Option (List Char)
  | contains _ _, u => ((operandReadings u).find? fun reading => endsContains reading.2).map (·.1)
  | compares _ _ _, u => wholeOperand? u

end Form

/-- A fragment cut in front of its operand. -/
structure Parts (form : Form) (s lead u : List Char) : Prop where
  text_eq : s = lead ++ u
  lead_unquoted : Unquoted lead
  point : '.' ∈ lead
  ne_nil : u ≠ []
  read : form.read? u = some form.operand
  extend : ∀ m, Form.ofFragment? (s ++ m) = (form.read? (u ++ m)).map form.withOperand

section Parts

variable {s : List Char} {form : Form}

theorem exists_point {token : List Char} (h : token.map foldLetter = "c.".toList) : '.' ∈ token := by
  have hmem : '.' ∈ token.map foldLetter := h ▸ by decide
  obtain ⟨c, hc, hfold⟩ := List.mem_map.1 hmem
  rwa [← eq_of_foldLetter_point hfold]

/-- A text does not begin with two keywords that differ in the first two letters. -/
theorem dropKeyword_of_other {w w' t : List Char} (h : dropKeyword w s = some t)
    (hw : 2 ≤ w.length) (hw' : 2 ≤ w'.length) (hne : w.take 2 ≠ w'.take 2) (m : List Char) :
    dropKeyword w' (s ++ m) = none := by
  obtain ⟨token, rfl, htoken⟩ := exists_append_of_dropKeyword h
  by_contra hsome
  obtain ⟨rest, hrest⟩ := Option.ne_none_iff_exists'.1 hsome
  obtain ⟨token', heq, htoken'⟩ := exists_append_of_dropKeyword hrest
  have hmap := congrArg (fun s => (s.map foldLetter).take 2) heq
  simp only [List.append_assoc, List.map_append, htoken, htoken'] at hmap
  rw [List.take_append_of_le_length hw, List.take_append_of_le_length hw'] at hmap
  exact hne hmap

theorem comparesForm?_of_contains {t : List Char} (h : dropKeyword "contains(".toList s = some t)
    (m : List Char) : comparesForm? (s ++ m) = none := by
  rw [comparesForm?, field?, dropKeyword_of_other h (by decide) (by decide) (by decide) m]
  rfl

theorem containsForm?_of_field? {reading : List Char × List Char} (h : field? s = some reading)
    (m : List Char) : containsForm? (s ++ m) = none := by
  unfold field? at h
  split at h
  next rest hrest =>
    rw [containsForm?, dropKeyword_of_other hrest (by decide) (by decide) (by decide) m]
    rfl
  next => cases h

theorem exists_parts_of_containsForm? (h : containsForm? s = some form) :
    ∃ lead u, Parts form s lead u := by
  obtain ⟨t, path, v, w, token, rest, ht, hv, hw, hfind, rfl⟩ := containsForm?_eq_some h
  have hu : stripLeft w ≠ [] := by
    intro hnil
    rw [hnil] at hfind
    cases hfind
  have hne : v ≠ [] := by
    rintro rfl
    cases hw
  have hne' : stripLeft t ≠ [] := by
    intro hnil
    rw [hnil] at hv
    cases hv
  have hcomma : stripLeft v ≠ [] := hw ▸ List.cons_ne_nil _ _
  obtain ⟨keyword, hs, hkeyword⟩ := exists_append_of_dropKeyword ht
  obtain ⟨b, hb, hblank⟩ := stripLeft_eq_append t
  obtain ⟨field, hfield, htoken, hpath⟩ := field?_eq_some hv
  obtain ⟨b', hb', hblank'⟩ := stripLeft_eq_append v
  obtain ⟨b'', hb'', hblank''⟩ := stripLeft_eq_append w
  refine ⟨keyword ++ (b ++ (field ++ (path ++ (b' ++ ',' :: b'')))), stripLeft w,
    ?_, ?_, ?_, hu, ?_, fun m => ?_⟩
  · rw [hs]
    nth_rewrite 1 [hb]
    rw [hfield]
    nth_rewrite 1 [hb']
    rw [hw]
    nth_rewrite 1 [hb'']
    simp only [List.append_assoc, List.cons_append]
  · simp only [unquoted_append]
    refine ⟨unquoted_of_spelled hkeyword (by unfold Unquoted; decide), unquoted_of_isBlank hblank,
      unquoted_of_spelled htoken (by unfold Unquoted; decide), unquoted_of_isPathChar hpath,
      unquoted_of_isBlank hblank', ?_⟩
    exact List.forall_mem_cons.2 ⟨by decide, unquoted_of_isBlank hblank''⟩
  · have hpoint := exists_point htoken
    simp [hpoint]
  · rw [Form.read?, hfind]
    rfl
  · rw [Form.ofFragment?, comparesForm?_of_contains ht, Option.or_none, containsForm?,
      dropKeyword_append_of_eq_some ht m]
    simp only [Option.bind_eq_bind, Option.bind_some, stripLeft_append hne',
      field?_append_right hv hne, stripLeft_append hcomma, hw, List.cons_append,
      stripLeft_append hu, Form.read?]
    cases (operandReadings (stripLeft w ++ m)).find? fun reading => endsContains reading.2 <;> rfl

theorem exists_parts_of_comparesForm? (h : comparesForm? s = some form) :
    ∃ lead u, Parts form s lead u := by
  obtain ⟨path, v, relation, w, token, hv, hw, htoken, rfl⟩ := comparesForm?_eq_some h
  have hu : stripLeft w ≠ [] := by
    intro hnil
    rw [hnil] at htoken
    cases htoken
  have hw' : w ≠ [] := by
    rintro rfl
    exact hu rfl
  have hsign : stripLeft v ≠ [] := by
    intro hnil
    rw [hnil] at hw
    cases hw
  have hv' : v ≠ [] := by
    rintro rfl
    exact hsign rfl
  obtain ⟨field, hfield, hfield', hpath⟩ := field?_eq_some hv
  obtain ⟨b, hb, hblank⟩ := stripLeft_eq_append v
  obtain ⟨b', hb', hblank'⟩ := stripLeft_eq_append w
  refine ⟨field ++ (path ++ (b ++ (relation.symbol.toList ++ b'))), stripLeft w,
    ?_, ?_, ?_, hu, ?_, fun m => ?_⟩
  · rw [hfield]
    nth_rewrite 1 [hb]
    rw [relation?_eq_some hw]
    nth_rewrite 1 [hb']
    simp only [List.append_assoc]
  · simp only [unquoted_append]
    refine ⟨unquoted_of_spelled hfield' (by unfold Unquoted; decide), unquoted_of_isPathChar hpath,
      unquoted_of_isBlank hblank, ?_, unquoted_of_isBlank hblank'⟩
    unfold Unquoted
    cases relation <;> decide
  · have hpoint := exists_point hfield'
    simp [hpoint]
  · exact htoken
  · rw [Form.ofFragment?, containsForm?_of_field? hv, Option.none_or, comparesForm?]
    simp only [Option.bind_eq_bind, Option.bind_some, field?_append_right hv hv',
      stripLeft_append hsign, relation?_append_right hw hw', stripLeft_append hu, Form.read?]
    cases wholeOperand? (stripLeft w ++ m) <;> rfl

/-- Every fragment has its parts: what stands in front of the operand is read alike in all texts that
begin with the fragment. -/
theorem exists_parts (h : Form.ofFragment? s = some form) : ∃ lead u, Parts form s lead u := by
  rcases Option.or_eq_some_iff.1 h with h | ⟨-, h⟩
  · exact exists_parts_of_containsForm? h
  · exact exists_parts_of_comparesForm? h

end Parts

/-! ## What follows an operand -/

/-- The characters that stand behind an operand. -/
def isEnding (c : Char) : Bool :=
  isBlank c || c = ',' || c = ')' || foldLetter c ∈ "true".toList

theorem isEnding_of_isBlank {c : Char} (h : isBlank c = true) : isEnding c = true := by
  rw [isEnding, h, Bool.true_or, Bool.true_or, Bool.true_or]

theorem isEnding_of_atEnd {s : List Char} (h : atEnd s = true) : ∀ c ∈ s, isEnding c = true := by
  rw [atEnd, Bool.or_eq_true, decide_eq_true_iff, decide_eq_true_iff] at h
  rcases h with rfl | rfl
  · exact List.forall_mem_nil _
  · exact List.forall_mem_singleton.2 (by decide)

/-- There is a comma in front of the end of a text search. -/
theorem isEnding_of_endsContains {s : List Char} (h : endsContains s = true) :
    (∀ c ∈ s, isEnding c = true) ∧ ',' ∈ s := by
  unfold endsContains at h
  split at h
  next t ht =>
    split at h
    next v hv =>
      split at h
      next w hw =>
        obtain ⟨b, hb, hblank⟩ := stripLeft_eq_append s
        obtain ⟨b', hb', hblank'⟩ := stripLeft_eq_append t
        obtain ⟨token, htoken, hfold⟩ := exists_append_of_dropKeyword hv
        obtain ⟨b'', hb'', hblank''⟩ := stripLeft_eq_append v
        rw [ht] at hb
        rw [htoken] at hb'
        rw [hw] at hb''
        have hletters : ∀ c ∈ token, isEnding c = true := by
          intro c hc
          have hmem : foldLetter c ∈ "true".toList := hfold ▸ List.mem_map_of_mem hc
          rw [isEnding, decide_eq_true hmem, Bool.or_true]
        rw [hb, hb', hb'']
        refine ⟨?_, List.mem_append_right _ List.mem_cons_self⟩
        simp only [List.forall_mem_append, List.forall_mem_cons]
        exact ⟨fun c hc => isEnding_of_isBlank (hblank c hc), by decide,
          fun c hc => isEnding_of_isBlank (hblank' c hc), hletters,
          fun c hc => isEnding_of_isBlank (hblank'' c hc), by decide, isEnding_of_atEnd h⟩
      next => cases h
    next => cases h
  next => cases h

theorem Form.isEnding_of_ends {form : Form} {s : List Char} (h : form.ends s = true) :
    ∀ c ∈ s, isEnding c = true := by
  cases form with
  | contains path operand => exact (isEnding_of_endsContains h).1
  | compares path relation operand => exact isEnding_of_atEnd h

theorem isQuote_of_isEnding {c : Char} (h : isEnding c = true) : isQuote c = false := by
  rw [Bool.eq_false_iff]
  intro hquote
  rcases isQuote_iff.1 hquote with rfl | rfl <;> exact absurd h (by decide)

theorem Form.unquoted_of_ends {form : Form} {s : List Char} (h : form.ends s = true) : Unquoted s :=
  fun c hc => isQuote_of_isEnding (form.isEnding_of_ends h c hc)

/-- The first letter of `OR` stands neither behind an operand nor in a number or a constant. -/
theorem not_isEnding_of_foldLetter {c : Char} (h : foldLetter c = 'o') : isEnding c = false := by
  rw [Bool.eq_false_iff]
  intro hending
  simp only [isEnding, Bool.or_eq_true, decide_eq_true_iff] at hending
  rcases hending with ((hblank | rfl) | rfl) | hletter
  · rw [foldLetter_of_isBlank hblank] at h
    rw [h] at hblank
    exact absurd hblank (by decide)
  · exact absurd h (by decide)
  · exact absurd h (by decide)
  · rw [h] at hletter
    exact absurd hletter (by decide)

theorem not_isBareChar_of_foldLetter {c : Char} (h : foldLetter c = 'o') : isBareChar c = false := by
  rw [Bool.eq_false_iff]
  intro hbare
  simp only [isBareChar, Bool.or_eq_true, decide_eq_true_iff] at hbare
  rcases hbare with ((hdigit | rfl) | rfl) | hletter
  · have hother : (foldLetter c != 'o') = true :=
      forall_of_isDecimal (p := fun c => foldLetter c != 'o') (by decide) hdigit
    exact bne_iff_ne.1 hother h
  · exact absurd h (by decide)
  · exact absurd h (by decide)
  · rw [h] at hletter
    exact absurd hletter (by decide)

/-! ## Ways to read an operand -/

/-- A reading is a parameter up to the first character that is no word character, or a text up to a
quote. -/
theorem cases_of_mem_operandReadings {u token rest : List Char}
    (h : (token, rest) ∈ operandReadings u) :
    (∃ word, u = '@' :: (word ++ rest) ∧ token = '@' :: word ∧ ∀ c ∈ word, isWord c = true) ∨
      ∃ quote body, isQuote quote = true ∧ u = quote :: (body ++ quote :: rest) ∧
        token = quote :: (body ++ [quote]) := by
  unfold operandReadings at h
  split at h
  next s =>
    simp only at h
    split at h
    · cases h
    · obtain ⟨rfl, rfl⟩ := Prod.mk.inj (List.mem_singleton.1 h)
      refine .inl ⟨s.takeWhile isWord, ?_, rfl, fun c hc => List.mem_takeWhile_imp hc⟩
      rw [List.takeWhile_append_dropWhile]
  next quote s _ =>
    split at h
    next hquote =>
      obtain ⟨⟨body, rest'⟩, hmem, heq⟩ := List.mem_map.1 h
      obtain ⟨rfl, rfl⟩ := Prod.mk.inj heq
      obtain ⟨rfl, -⟩ := mem_closings.1 hmem
      exact .inr ⟨quote, body, isQuote_iff.2 hquote, rfl, rfl⟩
    next => cases h
  next => cases h

/-- An operand is a parameter or a quoted text and the form ends behind it, or it is a number or a
constant. -/
theorem Form.cases_of_read? {form : Form} {u token : List Char} (h : form.read? u = some token) :
    (∃ rest, (token, rest) ∈ operandReadings u ∧ form.ends rest = true) ∨
      isBareLiteral u = true := by
  cases form with
  | contains path operand =>
    obtain ⟨⟨token, rest⟩, hfind, rfl⟩ := Option.map_eq_some_iff.1 h
    have hends : endsContains rest = true := by simpa using List.find?_some hfind
    exact .inl ⟨rest, List.mem_of_find?_eq_some hfind, hends⟩
  | compares path relation operand =>
    rw [read?, wholeOperand?] at h
    split at h
    next token' rest hfind =>
      obtain rfl := Option.some.inj h
      have hends : atEnd rest = true := by simpa using List.find?_some hfind
      exact .inl ⟨rest, List.mem_of_find?_eq_some hfind, hends⟩
    next =>
      split at h
      next hbare => exact .inr hbare
      next => cases h

/-- In front of the first letter of `OR` there is no number or constant. -/
theorem Form.read?_of_letter (form : Form) {u : List Char} (h : ∃ c ∈ u, foldLetter c = 'o') :
    form.read? u = ((operandReadings u).find? fun reading => form.ends reading.2).map (·.1) := by
  have hbare : isBareLiteral u = false := by
    rw [Bool.eq_false_iff]
    intro hbare
    obtain ⟨c, hc, hletter⟩ := h
    obtain ⟨token, rest, rfl, hend, htoken⟩ := exists_append_of_isBareLiteral hbare
    rcases List.mem_append.1 hc with hc | hc
    · have hchar := htoken.chars c hc
      rw [not_isBareChar_of_foldLetter hletter] at hchar
      cases hchar
    · have hending := isEnding_of_atEnd hend c hc
      rw [not_isEnding_of_foldLetter hletter] at hending
      cases hending
  cases form with
  | contains path operand => rfl
  | compares path relation operand =>
    rw [read?, wholeOperand?, hbare]
    simp only [Bool.false_eq_true, if_false]
    cases hfind : (operandReadings u).find? fun reading => atEnd reading.2 <;>
      simp only [ends, hfind, Option.map_none, Option.map_some]

/-! ## The last quote -/

/-- A text is cut at the last place of a character in one way. -/
theorem append_cons_inj_of_last {q : Char} {a b a' b' : List Char}
    (h : a ++ q :: b = a' ++ q :: b') (hb : q ∉ b) (hb' : q ∉ b') : a = a' ∧ b = b' := by
  rcases List.append_eq_append_iff.1 h with ⟨t, rfl, ht⟩ | ⟨t, rfl, ht⟩
  · cases t with
    | nil => exact ⟨(List.append_nil a).symm, (List.cons.inj ht).2⟩
    | cons d t =>
      rw [(List.cons.inj ht).2] at hb
      exact absurd (List.mem_append_right t List.mem_cons_self) hb
  · cases t with
    | nil => exact ⟨List.append_nil a', (List.cons.inj ht).2.symm⟩
    | cons d t =>
      rw [(List.cons.inj ht).2] at hb'
      exact absurd (List.mem_append_right t List.mem_cons_self) hb'

theorem append_cons_inj_of_first {q : Char} {a b a' b' : List Char}
    (h : a ++ q :: b = a' ++ q :: b') (ha : q ∉ a) (ha' : q ∉ a') : a = a' ∧ b = b' := by
  have hreverse := congrArg List.reverse h
  simp only [List.reverse_append, List.reverse_cons, List.append_assoc, List.singleton_append] at hreverse
  obtain ⟨hb, ha⟩ := append_cons_inj_of_last hreverse (mt List.mem_reverse.1 ha)
    (mt List.mem_reverse.1 ha')
  exact ⟨List.reverse_inj.1 ha, List.reverse_inj.1 hb⟩

section Quoted

variable {form : Form} {quote : Char} {u body rest : List Char}

/-- A quoted text goes up to the last quote. -/
theorem find?_operandReadings_quote (hquote : isQuote quote = true)
    (hends : form.ends rest = true) (hline : '\n' ∉ body) :
    ((operandReadings (quote :: (body ++ quote :: rest))).find? fun reading =>
      form.ends reading.2) = some (quote :: (body ++ [quote]), rest) := by
  have hmem : (quote :: (body ++ [quote]), rest) ∈ operandReadings (quote :: (body ++ quote :: rest)) := by
    rw [operandReadings_quote hquote]
    exact List.mem_map.2 ⟨(body, rest), mem_closings.2 ⟨rfl, hline⟩, rfl⟩
  cases hfind : (operandReadings (quote :: (body ++ quote :: rest))).find? fun reading =>
      form.ends reading.2 with
  | none => exact absurd hends (List.find?_eq_none.1 hfind _ hmem)
  | some reading =>
    have hreading := List.mem_of_find?_eq_some hfind
    have hends' : form.ends reading.2 = true := by simpa using List.find?_some hfind
    rw [operandReadings_quote hquote] at hreading
    obtain ⟨⟨body', rest'⟩, hclosing, rfl⟩ := List.mem_map.1 hreading
    obtain ⟨htext, -⟩ := mem_closings.1 hclosing
    obtain ⟨rfl, rfl⟩ := append_cons_inj_of_last htext
      ((Form.unquoted_of_ends hends).not_mem hquote) ((Form.unquoted_of_ends hends').not_mem hquote)
    rfl

theorem find?_operandReadings_eq_none (hquote : isQuote quote = true)
    (h : ∀ body rest, u = body ++ quote :: rest → form.ends rest = true → '\n' ∈ body) :
    ((operandReadings (quote :: u)).find? fun reading => form.ends reading.2) = none := by
  rw [List.find?_eq_none, operandReadings_quote hquote]
  intro reading hreading hends
  obtain ⟨⟨body, rest⟩, hclosing, rfl⟩ := List.mem_map.1 hreading
  obtain ⟨htext, hline⟩ := mem_closings.1 hclosing
  exact hline (h body rest htext hends)

end Quoted

end Pigeonhole.Query
