import Pigeonhole.Proofs.Query.Prolonged
import Pigeonhole.Proofs.Query.Swallowed

/-!
# Fragments with `OR` between them

The language has no `OR`, and two fragments with that word between them are no fragment, but for one
case: if both are of one kind and end with texts in the same quotes, all between the first quote and
the last one may be read as one text (`Stretched`).  Then the first fragment is compared with that
text; a line break in it prevents this (`compile_disjunction`).
-/

namespace Pigeonhole.Query

open Text

/-! ## The end of a fragment -/

/-- A fragment without quotes.  Text that goes on with a point and the first letter of `OR` makes it
no fragment. -/
structure Plain (form : Form) (s : List Char) : Prop where
  unquoted : Unquoted s
  operand_unquoted : ∀ c ∈ form.operand.head?, isQuote c = false
  extend : ∀ m : List Char, '.' ∈ m → (∃ c ∈ m, foldLetter c = 'o') →
    Form.ofFragment? (s ++ m) = none

/-- A fragment that ends with a quoted text. -/
structure Quoting (form : Form) (s : List Char) (quote : Char) (lead body rest : List Char) :
    Prop where
  isQuote : isQuote quote = true
  text_eq : s = lead ++ quote :: (body ++ quote :: rest)
  lead_unquoted : Unquoted lead
  ends : form.ends rest = true
  operand_eq : form.operand = quote :: (body ++ [quote])
  extend : ∀ m : List Char, Form.ofFragment? (s ++ m) =
    (form.read? (quote :: (body ++ quote :: (rest ++ m)))).map form.withOperand

section Cases

variable {form : Form} {s lead u : List Char}

/-- A parameter ends in front of a point, and so does not end the fragment. -/
theorem Parts.plain_of_parameter (h : Parts form s lead u) {word rest : List Char}
    (hu : u = '@' :: (word ++ rest)) (hoperand : form.operand = '@' :: word)
    (hword : ∀ c ∈ word, isWord c = true) (hends : form.ends rest = true) : Plain form s where
  unquoted := by
    have hunquoted : Unquoted word := by
      refine unquoted_of_isPathChar fun c hc => ?_
      rw [isPathChar, hword c hc, Bool.true_or]
    rw [h.text_eq, hu, unquoted_append]
    exact ⟨h.lead_unquoted, List.forall_mem_cons.2
      ⟨by decide, unquoted_append.2 ⟨hunquoted, Form.unquoted_of_ends hends⟩⟩⟩
  operand_unquoted := by
    intro c hc
    rw [hoperand] at hc
    obtain rfl := Option.some.inj hc
    decide
  extend m hpoint hletter := by
    have hlonger : ∃ c ∈ u ++ m, foldLetter c = 'o' :=
      hletter.imp fun c hc => ⟨List.mem_append_right u hc.1, hc.2⟩
    have hdrop : '.' ∈ (word ++ rest ++ m).dropWhile isWord :=
      mem_dropWhile (by decide +kernel) (List.mem_append_right _ hpoint)
    have hnot : form.ends ((word ++ rest ++ m).dropWhile isWord) = false := by
      rw [Bool.eq_false_iff]
      intro hends
      exact absurd (form.isEnding_of_ends hends '.' hdrop) (by decide +kernel)
    have hread : form.read? (u ++ m) = none := by
      rw [form.read?_of_letter hlonger, hu, List.cons_append, operandReadings]
      split
      · rfl
      · simp only [List.find?_cons, hnot, List.find?_nil, Option.map_none]
    rw [h.extend, hread, Option.map_none]

/-- A number or a constant does not go on with a letter of `OR`. -/
theorem Parts.plain_of_bare (h : Parts form s lead u) (hbare : isBareLiteral u = true) :
    Plain form s := by
  obtain ⟨token, rest, hu, hend, htoken⟩ := exists_append_of_isBareLiteral hbare
  have hunquoted : Unquoted u := by
    rw [hu, unquoted_append]
    exact ⟨fun c hc => isQuote_of_isBareChar (htoken.chars c hc),
      fun c hc => isQuote_of_isEnding (isEnding_of_atEnd hend c hc)⟩
  obtain ⟨c, token, rfl⟩ := List.exists_cons_of_ne_nil htoken.ne_nil
  have hc := htoken.chars c List.mem_cons_self
  have hat : c ≠ '@' := ne_of_isBareChar hc (by decide +kernel)
  have hnone : ∀ t, operandReadings (c :: t) = [] := operandReadings_bare hat (isQuote_of_isBareChar hc)
  refine ⟨?_, ?_, fun m _ hletter => ?_⟩
  · rw [h.text_eq, unquoted_append]
    exact ⟨h.lead_unquoted, hunquoted⟩
  · intro d hd
    have hread := h.read
    cases form with
    | contains path operand =>
      rw [Form.read?, hu, List.cons_append, hnone] at hread
      cases hread
    | compares path relation operand =>
      rw [Form.read?, wholeOperand?, hu, List.cons_append, hnone, ← List.cons_append, ← hu] at hread
      simp only [List.find?_nil, hbare, if_true, Option.some.injEq] at hread
      have hmem : d ∈ dropLineEnd u := by
        rw [hread]
        exact List.mem_of_mem_head? hd
      refine hunquoted d ?_
      unfold dropLineEnd at hmem
      split at hmem
      · exact List.dropLast_subset u hmem
      · exact hmem
  · have hlonger : ∃ c ∈ u ++ m, foldLetter c = 'o' :=
      hletter.imp fun c hc => ⟨List.mem_append_right u hc.1, hc.2⟩
    rw [h.extend, form.read?_of_letter hlonger, hu, List.cons_append, List.cons_append, hnone]
    rfl

/-- A fragment has no quotes, or it ends with a quoted text. -/
theorem cases_of_form (h : Form.ofFragment? s = some form) :
    '.' ∈ s ∧ (Plain form s ∨ ∃ quote lead body rest, Quoting form s quote lead body rest) := by
  obtain ⟨lead, u, hparts⟩ := exists_parts h
  refine ⟨hparts.text_eq ▸ List.mem_append_left u hparts.point, ?_⟩
  rcases Form.cases_of_read? hparts.read with ⟨rest, hmem, hends⟩ | hbare
  · rcases cases_of_mem_operandReadings hmem with
      ⟨word, hu, hoperand, hword⟩ | ⟨quote, body, hquote, hu, hoperand⟩
    · exact .inl (hparts.plain_of_parameter hu hoperand hword hends)
    · refine .inr ⟨quote, lead, body, rest, hquote, ?_, hparts.lead_unquoted, hends, hoperand,
        fun m => ?_⟩
      · rw [hparts.text_eq, hu]
      · rw [hparts.extend, hu]
        simp only [List.cons_append, List.append_assoc]
  · exact .inl (hparts.plain_of_bare hbare)

end Cases

/-! ## Disjunctions -/

/-- Whether two forms are of one kind. -/
def Form.SameKind : Form → Form → Prop
  | contains _ _, contains _ _ => True
  | compares _ _ _, compares _ _ _ => True
  | _, _ => False

/-- The forms of one kind end alike. -/
theorem Form.ends_iff_sameKind {f g : Form} {s : List Char} (h : g.ends s = true) :
    f.ends s = true ↔ f.SameKind g := by
  have hnot : ¬ (endsContains s = true ∧ atEnd s = true) := by
    rintro ⟨hcontains, hend⟩
    have hcomma := (isEnding_of_endsContains hcontains).2
    rw [atEnd, Bool.or_eq_true, decide_eq_true_iff, decide_eq_true_iff] at hend
    rcases hend with rfl | rfl
    · cases hcomma
    · exact absurd hcomma (by decide)
  cases f <;> cases g <;> simp only [ends, SameKind] at *
  · simp only [h]
  · exact iff_of_false (fun hc => hnot ⟨hc, h⟩) id
  · exact iff_of_false (fun hc => hnot ⟨h, hc⟩) id
  · simp only [h]

/-- The word `OR` with any blanks around it. -/
structure OrWord where
  before : List Char
  word : List Char
  after : List Char
  before_blank : ∀ c ∈ before, isBlank c = true
  after_blank : ∀ c ∈ after, isBlank c = true
  word_eq : word.map foldLetter = "or".toList

namespace OrWord

variable (w : OrWord)

/-- The word as it is written. -/
def text : List Char := w.before ++ (w.word ++ w.after)

theorem unquoted : Unquoted w.text := by
  rw [text, unquoted_append, unquoted_append]
  exact ⟨unquoted_of_isBlank w.before_blank,
    unquoted_of_spelled w.word_eq (by unfold Unquoted; decide), unquoted_of_isBlank w.after_blank⟩

theorem exists_letter : ∃ c ∈ w.text, foldLetter c = 'o' := by
  have hmem : 'o' ∈ w.word.map foldLetter := w.word_eq ▸ List.mem_cons_self
  obtain ⟨c, hc, hletter⟩ := List.mem_map.1 hmem
  exact ⟨c, List.mem_append_right _ (List.mem_append_left _ hc), hletter⟩

end OrWord

/-- A fragment that has a condition under some parameters, with no quotes inside a quoted text. -/
structure Accepted (s : List Char) (form : Form) : Prop where
  form_eq : Form.ofFragment? s = some form
  compiles : ∃ (bindings : List Binding) (c : Condition Empty), Condition.compile bindings s = .ok c
  body_unquoted : ∀ (quote : Char) (body : List Char), isQuote quote = true →
    form.operand = quote :: (body ++ [quote]) → Unquoted body

theorem accepted_of_compile {s : List Char} {form : Form} {c : Condition Empty}
    (hform : Form.ofFragment? s = some form) (hcompile : Condition.compile [] s = .ok c)
    (hbody : Unquoted form.operand.tail.dropLast) : Accepted s form where
  form_eq := hform
  compiles := ⟨[], c, hcompile⟩
  body_unquoted quote body _ hoperand := by
    rwa [hoperand, List.tail_cons, List.dropLast_concat] at hbody

/-- Two forms of one kind whose operands are in the same quotes, in a text without a line break
between its first and its last such quote.  The inner text is what stands between them. -/
def Stretched (f g : Form) (whole inner : List Char) : Prop :=
  f.SameKind g ∧ ∃ (quote : Char) (before after : List Char), isQuote quote = true ∧
    f.operand.head? = some quote ∧ g.operand.head? = some quote ∧
    whole = before ++ quote :: (inner ++ quote :: after) ∧ quote ∉ before ∧ quote ∉ after ∧
    '\n' ∉ inner

section Quotes

variable {f g lead body rest lead' body' rest' : List Char} {F G : Form} {quote : Char}

/-- Behind a quoted text no form ends if its quote does not stand in the second fragment. -/
theorem Quoting.ofFragment?_of_not_mem (hf : Quoting F f quote lead body rest) (w : OrWord)
    (hg : quote ∉ g) : Form.ofFragment? (f ++ (w.text ++ g)) = none := by
  have hletter : ∃ c ∈ rest ++ (w.text ++ g), foldLetter c = 'o' :=
    w.exists_letter.imp fun c hc =>
      ⟨List.mem_append_right rest (List.mem_append_left g hc.1), hc.2⟩
  have hbehind : quote ∉ rest ++ (w.text ++ g) := by
    simp only [List.mem_append, not_or]
    exact ⟨(Form.unquoted_of_ends hf.ends).not_mem hf.isQuote, w.unquoted.not_mem hf.isQuote, hg⟩
  have hnone : ((operandReadings (quote :: (body ++ quote :: (rest ++ (w.text ++ g))))).find?
      fun reading => F.ends reading.2) = none := by
    refine find?_operandReadings_eq_none hf.isQuote fun inner after heq hends => ?_
    obtain ⟨-, rfl⟩ := append_cons_inj_of_last heq hbehind
      ((Form.unquoted_of_ends hends).not_mem hf.isQuote)
    obtain ⟨c, hc, hfold⟩ := hletter
    have hending := F.isEnding_of_ends hends c hc
    rw [not_isEnding_of_foldLetter hfold] at hending
    cases hending
  have hlonger : ∃ c ∈ quote :: (body ++ quote :: (rest ++ (w.text ++ g))), foldLetter c = 'o' :=
    hletter.imp fun c hc => ⟨List.mem_cons_of_mem quote
      (List.mem_append_right body (List.mem_cons_of_mem quote hc.1)), hc.2⟩
  rw [hf.extend, F.read?_of_letter hlonger, hnone]
  rfl

/-- What stands between the first and the last quote of two quoted texts is the only text that the
operand can be. -/
theorem Quoting.exists_inner (hf : Quoting F f quote lead body rest)
    (hg : Quoting G g quote lead' body' rest') (w : OrWord) :
    ∃ inner, f ++ (w.text ++ g) = lead ++ quote :: (inner ++ quote :: rest') ∧
      (F.SameKind G ∧ '\n' ∉ inner → Form.ofFragment? (f ++ (w.text ++ g)) =
        some (F.withOperand (quote :: (inner ++ [quote])))) ∧
      (¬ (F.SameKind G ∧ '\n' ∉ inner) → Form.ofFragment? (f ++ (w.text ++ g)) = none) := by
  have hbehind : quote ∉ rest' := (Form.unquoted_of_ends hg.ends).not_mem hf.isQuote
  have hkind := Form.ends_iff_sameKind (f := F) hg.ends
  have htext : body ++ quote :: (rest ++ (w.text ++ g)) =
      (body ++ quote :: (rest ++ (w.text ++ (lead' ++ quote :: body')))) ++ quote :: rest' := by
    rw [hg.text_eq]
    simp only [List.append_assoc, List.cons_append]
  have hlonger : ∃ c ∈ quote :: (body ++ quote :: (rest ++ (w.text ++ g))), foldLetter c = 'o' :=
    w.exists_letter.imp fun c hc => ⟨by simp [hc.1], hc.2⟩
  refine ⟨body ++ quote :: (rest ++ (w.text ++ (lead' ++ quote :: body'))), ?_, ?_, ?_⟩
  · rw [← htext, hf.text_eq]
    simp only [List.append_assoc, List.cons_append]
  · rintro ⟨hsame, hline⟩
    rw [hf.extend, F.read?_of_letter hlonger, htext,
      find?_operandReadings_quote hf.isQuote (hkind.2 hsame) hline]
    rfl
  · intro hnot
    rw [hf.extend, F.read?_of_letter hlonger, htext, find?_operandReadings_eq_none hf.isQuote]
    · rfl
    · intro inner after heq hends
      obtain ⟨rfl, rfl⟩ := append_cons_inj_of_last heq hbehind
        ((Form.unquoted_of_ends hends).not_mem hf.isQuote)
      by_contra hline
      exact hnot ⟨hkind.1 hends, hline⟩

end Quotes

/-! ## Conditions -/

/-- The condition of a form on a value. -/
def Form.condition {α : Type} : Form → Tree α → Condition α
  | contains path _, v => .contains (String.ofList path) v
  | compares path relation _, v => .compares (String.ofList path) relation v

theorem compile_withOperand {s body : List Char} {form : Form} {quote : Char}
    (hquote : isQuote quote = true)
    (h : Form.ofFragment? s = some (form.withOperand (quote :: (body ++ [quote]))))
    (bindings : List Binding) :
    Condition.compile bindings s = .ok (form.condition (Tree.ofString body)) := by
  rw [Condition.compile, h]
  cases form <;> simp only [Form.withOperand, Form.resolve, resolveOperand_quoted hquote] <;> rfl

theorem compile_of_none {s : List Char} (h : Form.ofFragment? s = none) (bindings : List Binding) :
    Condition.compile bindings s = .error (.unsupportedCondition (String.ofList s)) := by
  rw [Condition.compile, h]

section

variable {f g : List Char} {F G : Form}

theorem ofFragment?_of_plain (hf : Plain F f) (hg : '.' ∈ g) (w : OrWord) :
    Form.ofFragment? (f ++ (w.text ++ g)) = none :=
  hf.extend _ (List.mem_append_right _ hg) <|
    w.exists_letter.imp fun _ hc => ⟨List.mem_append_left g hc.1, hc.2⟩

/-- The first quote and the last one are those of the two operands. -/
theorem Stretched.eq_of_text {whole lead inner rest other : List Char} {quote : Char}
    (h : Stretched F G whole other) (hquote : F.operand.head? = some quote)
    (htext : whole = lead ++ quote :: (inner ++ quote :: rest)) (hlead : quote ∉ lead)
    (hrest : quote ∉ rest) : other = inner := by
  obtain ⟨-, quote', before, after, -, hfirst, -, htext', hbefore, hafter, -⟩ := h
  rw [hquote] at hfirst
  obtain rfl := Option.some.inj hfirst
  rw [htext] at htext'
  obtain ⟨rfl, heq⟩ := append_cons_inj_of_first htext' hlead hbefore
  exact (append_cons_inj_of_last heq hrest hafter).1.symm

/-- Two fragments with `OR` between them are no fragment, or they are stretched to one. -/
theorem ofFragment?_disjunction (hf : Accepted f F) (hg : Accepted g G) (w : OrWord) :
    (Form.ofFragment? (f ++ (w.text ++ g)) = none ∧
      ∀ inner, ¬ Stretched F G (f ++ (w.text ++ g)) inner) ∨
    ∃ quote inner, isQuote quote = true ∧
      Form.ofFragment? (f ++ (w.text ++ g)) = some (F.withOperand (quote :: (inner ++ [quote]))) ∧
      ∀ other, Stretched F G (f ++ (w.text ++ g)) other ↔ other = inner := by
  obtain ⟨hpoint, hg'⟩ := cases_of_form hg.form_eq
  obtain ⟨-, hplain | ⟨quote, lead, body, rest, hquoting⟩⟩ := cases_of_form hf.form_eq
  · left
    refine ⟨ofFragment?_of_plain hplain hpoint w, ?_⟩
    rintro inner ⟨-, quote, before, after, hquote, hhead, -⟩
    rw [hplain.operand_unquoted quote hhead] at hquote
    cases hquote
  have hhead : F.operand.head? = some quote := by rw [hquoting.operand_eq, List.head?_cons]
  rcases hg' with hplain | ⟨quote', lead', body', rest', hquoting'⟩
  · left
    refine ⟨hquoting.ofFragment?_of_not_mem w (hplain.unquoted.not_mem hquoting.isQuote), ?_⟩
    rintro inner ⟨-, other, before, after, hquote, -, hsecond, -⟩
    rw [hplain.operand_unquoted other hsecond] at hquote
    cases hquote
  have hhead' : G.operand.head? = some quote' := by rw [hquoting'.operand_eq, List.head?_cons]
  by_cases hsame : quote' = quote
  · subst hsame
    obtain ⟨inner, htext, hread, hnone⟩ := hquoting.exists_inner hquoting' w
    have hlead : quote' ∉ lead := hquoting.lead_unquoted.not_mem hquoting.isQuote
    have hrest : quote' ∉ rest' := (Form.unquoted_of_ends hquoting'.ends).not_mem hquoting.isQuote
    by_cases hstretched : F.SameKind G ∧ '\n' ∉ inner
    · refine .inr ⟨quote', inner, hquoting.isQuote, hread hstretched, fun other => ?_⟩
      refine ⟨fun h => h.eq_of_text hhead htext hlead hrest, ?_⟩
      rintro rfl
      exact ⟨hstretched.1, quote', lead, rest', hquoting.isQuote, hhead, hhead', htext, hlead, hrest,
        hstretched.2⟩
    · refine .inl ⟨hnone hstretched, fun other h => hstretched ?_⟩
      obtain rfl := h.eq_of_text hhead htext hlead hrest
      obtain ⟨hkind, -, -, -, -, -, -, -, -, -, hline⟩ := h
      exact ⟨hkind, hline⟩
  · left
    have hnot : quote ∉ g := by
      have hbody := (hg.body_unquoted quote' body' hquoting'.isQuote hquoting'.operand_eq).not_mem
        hquoting.isQuote
      rw [hquoting'.text_eq]
      simp only [List.mem_append, List.mem_cons, not_or]
      exact ⟨hquoting'.lead_unquoted.not_mem hquoting.isQuote, Ne.symm hsame, hbody, Ne.symm hsame,
        (Form.unquoted_of_ends hquoting'.ends).not_mem hquoting.isQuote⟩
    refine ⟨hquoting.ofFragment?_of_not_mem w hnot, ?_⟩
    rintro inner ⟨-, other, before, after, -, hfirst, hsecond, -⟩
    rw [hhead] at hfirst
    rw [hhead', ← hfirst] at hsecond
    exact hsame (Option.some.inj hsecond)

/-- Two accepted fragments with `OR` between them are refused, unless a quoted text of the first goes
on up to the last quote of the second.  Then the first fragment is compared with the text between. -/
theorem compile_disjunction (hf : Accepted f F) (hg : Accepted g G) (w : OrWord)
    (bindings : List Binding) :
    (Condition.compile bindings (f ++ (w.text ++ g)) =
        .error (.unsupportedCondition (String.ofList (f ++ (w.text ++ g)))) ↔
      ∀ inner, ¬ Stretched F G (f ++ (w.text ++ g)) inner) ∧
    ∀ inner, Stretched F G (f ++ (w.text ++ g)) inner →
      Condition.compile bindings (f ++ (w.text ++ g)) =
        .ok (F.condition (Tree.ofString inner)) := by
  rcases ofFragment?_disjunction hf hg w with ⟨hnone, hnot⟩ | ⟨quote, inner, hquote, hform, hinner⟩
  · exact ⟨iff_of_true (compile_of_none hnone bindings) hnot,
      fun inner hstretched => absurd hstretched (hnot inner)⟩
  · have hcompile := compile_withOperand hquote hform bindings
    refine ⟨iff_of_false (fun herror => ?_) fun h => h inner ((hinner inner).2 rfl), fun other h => ?_⟩
    · rw [hcompile] at herror
      cases herror
    · rw [(hinner other).1 h, hcompile]

end

/-- A comparison or a text search is refused, with the same quotes in both. -/
theorem compile_disjunction_of_kinds :
    Condition.compile (α := Empty) [] "c.a = 'x' oR\tCONTAINS(c.b, 'y', true)".toList =
      .error (.unsupportedCondition "c.a = 'x' oR\tCONTAINS(c.b, 'y', true)") := by
  have hf : Accepted "c.a = 'x'".toList (.compares ['a'] .eq "'x'".toList) :=
    accepted_of_compile (by decide +kernel) rfl (by unfold Unquoted; decide)
  have hg : Accepted "CONTAINS(c.b, 'y', true)".toList (.contains ['b'] "'y'".toList) :=
    accepted_of_compile (by decide +kernel) rfl (by unfold Unquoted; decide)
  have hrefused := (compile_disjunction hf hg
    ⟨[' '], "oR".toList, ['\t'], by decide, by decide, by decide⟩ []).1.2 fun _ h => h.1
  exact hrefused

/-- Two comparisons with texts in the same quotes become one comparison of the first field. -/
theorem disjunction_compiled :
    (∃ c, Condition.compile (α := Empty) [] "c.a = 'x'".toList = .ok c) ∧
    (∃ c, Condition.compile (α := Empty) [] "c.b = 'y'".toList = .ok c) ∧
    Condition.compile (α := Empty) [] "c.a = 'x' OR c.b = 'y'".toList =
      .ok (.compares "a" .eq (.str "x' OR c.b = 'y")) :=
  ⟨⟨_, rfl⟩, ⟨_, rfl⟩, rfl⟩

end Pigeonhole.Query
