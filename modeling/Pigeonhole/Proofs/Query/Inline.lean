import Pigeonhole.Proofs.Query.Shapes
import Pigeonhole.Proofs.Query.Swallowed
import Pigeonhole.Proofs.Query.Words

/-!
# Texts between quotes

A field may be compared with a text that stands in the statement between quotes (`quotedSpec`), or
with a parameter that has the text as its value (`boundSpec`).  The condition is cut before anything
in it is read, so the text is read whole only if it holds no `AND` between blanks
(`uncut_plainAnd_iff`).  Otherwise the first fragment breaks off inside the text and is refused
(`compile_broken`).  `run_quotedSpec_iff` puts both together: the two statements have one answer
exactly if the text holds no such word, whatever else stands in it.
-/

namespace Pigeonhole.Query

open Text

/-! ## Conjunctions inside a text -/

/-- The word `AND` stands in a text between blanks, in any letter case. -/
def HasConjunction (s : List Char) : Prop :=
  ∃ (before after : List Char) (j : Joint), s = before ++ (j.text ++ after)

theorem exists_joint_of_plainAnd {s rest : List Char} (h : plainAnd s = some rest) :
    ∃ j : Joint, s = j.text ++ rest := by
  unfold plainAnd at h
  obtain ⟨t, ht, hend⟩ := Option.bind_eq_some_iff.1 h
  obtain ⟨u, hu, hword⟩ := Option.bind_eq_some_iff.1 ht
  obtain ⟨before, rfl, hbefore, -⟩ := exists_blanks_of_dropBlanks1 hu
  obtain ⟨word, rfl, hfold⟩ := exists_append_of_dropKeyword hword
  obtain ⟨after, rfl, hafter, -⟩ := exists_blanks_of_dropBlanks1 hend
  have hand : dropKeyword "and".toList word = some [] := by
    simpa using dropKeyword_spelled hfold []
  refine ⟨⟨before, word, after, hbefore.ne_nil, hafter.ne_nil, hbefore.isBlank, hafter.isBlank,
    hand⟩, ?_⟩
  simp [Joint.text]

theorem plainAnd_joint (j : Joint) (rest : List Char) :
    plainAnd (j.text ++ rest) = some (stripLeft rest) := by
  have hblanks : ∀ c ∈ j.after ++ rest.takeWhile isBlank, isBlank c = true :=
    List.forall_mem_append.2 ⟨j.after_blank, fun c hc => List.mem_takeWhile_imp hc⟩
  have hne : j.after ++ rest.takeWhile isBlank ≠ [] :=
    List.append_ne_nil_of_left_ne_nil j.after_ne _
  -- the blanks behind the joint are cut out with it
  let wide : Joint :=
    { j with after := j.after ++ rest.takeWhile isBlank, after_ne := hne, after_blank := hblanks }
  have htext : j.text ++ rest = wide.text ++ stripLeft rest := by
    simp [Joint.text, wide, stripLeft, List.takeWhile_append_dropWhile]
  have hhead : ∀ c ∈ (stripLeft rest).head?, isBlank c = false := by
    intro c hc
    have hstrip := List.head?_dropWhile_not isBlank rest
    unfold stripLeft at hc
    rw [hc] at hstrip
    simpa using hstrip
  rw [htext, wide.plainAnd_append hhead]

theorem not_uncut_of_hasConjunction {s : List Char} (h : HasConjunction s) (tail : List Char) :
    ¬ Uncut plainAnd s tail := by
  obtain ⟨before, after, j, rfl⟩ := h
  intro huncut
  have hjoint := (uncut_append.1 (uncut_append.1 huncut).2).1
  obtain ⟨c, text, htext⟩ := List.exists_cons_of_ne_nil j.text_ne_nil
  have hcut := plainAnd_joint j (after ++ tail)
  rw [htext] at hjoint hcut
  rw [List.cons_append, hjoint.1] at hcut
  contradiction

theorem not_mem_joint {c : Char} (hc : isQuote c = true) (j : Joint) : c ∉ j.text := by
  obtain ⟨hblank, hletter⟩ : isBlank c = false ∧ foldLetter c ∉ "and".toList := by
    rcases isQuote_iff.1 hc with rfl | rfl <;> decide
  obtain ⟨word, hword, hfold⟩ := exists_append_of_dropKeyword j.word_eq
  rw [List.append_nil] at hword
  unfold Joint.text
  simp only [List.mem_append, not_or]
  refine ⟨fun h => ?_, fun h => ?_, fun h => ?_⟩
  · simp [j.before_blank c h] at hblank
  · rw [hword] at h
    exact hletter (hfold ▸ List.mem_map_of_mem h)
  · simp [j.after_blank c h] at hblank

/-- A text in front of a quote is cut exactly at a conjunction inside it. -/
theorem uncut_plainAnd_iff {s : List Char} {quote : Char} (hquote : isQuote quote = true) :
    Uncut plainAnd s [quote] ↔ ¬ HasConjunction s := by
  refine ⟨fun huncut h => not_uncut_of_hasConjunction h _ huncut, fun h => ?_⟩
  by_contra hcut
  obtain ⟨before, after, rest, rfl, -, hrest⟩ := exists_cut hcut
  obtain ⟨j, hj⟩ := exists_joint_of_plainAnd hrest
  -- the joint ends in front of the quote
  rcases List.append_eq_append_iff.1 hj with ⟨more, hmore, htail⟩ | ⟨more, hmore, -⟩
  · cases more with
    | nil => exact h ⟨before, [], j, by rw [hmore]; simp⟩
    | cons c more =>
      obtain rfl : quote = c := (List.cons.inj htail).1
      exact not_mem_joint hquote j (by simp [hmore])
  · exact h ⟨before, more, j, by rw [hmore]⟩

instance (s : List Char) : Decidable (HasConjunction s) :=
  decidable_of_iff (¬ Uncut plainAnd s ['\x27']) (by rw [uncut_plainAnd_iff rfl, not_not])

/-- Where no `AND` is cut, none is cut between parentheses. -/
theorem uncut_groupedAnd {piece tail : List Char} (h : Uncut plainAnd piece tail)
    (htail : plainAnd tail = none) : Uncut groupedAnd piece tail := by
  induction piece with
  | nil => trivial
  | cons c piece ih =>
    refine ⟨?_, ih h.2⟩
    by_cases hc : c = ')'
    · have hnext : plainAnd (piece ++ tail) = none := by
        cases piece with
        | nil => exact htail
        | cons d piece => exact h.2.1
      rw [hc, groupedAnd, hnext]
    · exact groupedAnd_of_ne hc _

theorem length_plainAnd_lt {s rest : List Char} (h : plainAnd s = some rest) :
    rest.length < s.length := by
  obtain ⟨j, rfl⟩ := exists_joint_of_plainAnd h
  have hpos := List.length_pos_iff.2 j.text_ne_nil
  rw [List.length_append]
  omega

theorem length_groupedAnd_lt {s rest : List Char} (h : groupedAnd s = some rest) :
    rest.length < s.length := by
  unfold groupedAnd at h
  split at h
  · split at h
    · rename_i hplain
      have hlength := length_plainAnd_lt hplain
      simp only [Option.some.injEq] at h
      simp only [List.length_cons, ← h] at hlength ⊢
      omega
    · contradiction
  · contradiction

/-! ## Comparisons with any operand -/

/-- What stands in front of the operand of a comparison. -/
def lead (field : String) : List Char := 'c' :: '.' :: (field.toList ++ " = ".toList)

/-- The comparison of a field with an operand. -/
def comparisonText (field operand : String) : String := "c." ++ field ++ " = " ++ operand

theorem toList_comparisonText (field operand : String) :
    (comparisonText field operand).toList = lead field ++ operand.toList := by
  have hstart : "c.".toList = ['c', '.'] := rfl
  rw [comparisonText, lead]
  simp only [String.toList_append, hstart, List.append_assoc, List.cons_append, List.nil_append]

theorem lead_ne_nil (field : String) : lead field ≠ [] := List.cons_ne_nil _ _

theorem ofFragment?_lead {field : String} (hfield : IsFieldPath field) {operand : List Char}
    (h : ∀ c ∈ operand.head?, isBlank c = false ∧ c ≠ '=') :
    Form.ofFragment? (lead field ++ operand) =
      (wholeOperand? operand).map (.compares field.toList .eq) := by
  have hspace : ∀ c ∈ [' '], isBlank c = true := by decide
  have htext : lead field ++ operand =
      'c' :: '.' :: (field.toList ++ ([' '] ++ (Relation.eq.symbol.toList ++ ([' '] ++ operand)))) := by
    simp [lead, Relation.symbol]
  rw [htext]
  exact ofFragment?_comparison (by decide) hfield.1 hfield.2 hspace hspace .eq h

theorem uncut_plainAnd_lead {field : String} (hfield : IsFieldPath field) {c : Char}
    (hblank : isBlank c = false) (hletter : foldLetter c ≠ 'a') (tail : List Char) :
    Uncut plainAnd (lead field ++ [c]) tail := by
  have hwords : lead field ++ [c] = ('c' :: '.' :: field.toList) ++ ([' ', '='] ++ [' ', c]) := by
    simp [lead]
  have hpath : ∀ d ∈ 'c' :: '.' :: field.toList, isBlank d = false := by
    simp only [List.forall_mem_cons]
    exact ⟨by decide, by decide, fun d hd => isBlank_of_isPathChar (hfield.2 d hd)⟩
  have hhead : ∀ e, foldLetter e ≠ 'a' → ∀ d ∈ [e].head?, foldLetter d ≠ 'a' := by
    intro e he d hd
    obtain rfl : e = d := Option.some.inj hd
    exact he
  rw [hwords, uncut_append, uncut_append]
  refine ⟨uncut_plainAnd_of_not_isBlank hpath _, ?_, ?_⟩
  · exact uncut_plainAnd_space (List.cons_ne_nil _ _) (hhead '=' (by decide)) (by decide) _
  · exact uncut_plainAnd_space (List.cons_ne_nil _ _) (hhead c hletter) (by simpa using hblank) _

/-! ## The first fragment -/

/-- Of a text that is cut, the first piece ends inside it. -/
theorem exists_splitBy_of_cut {separator : List Char → Option (List Char)}
    (hlength : ∀ s rest, separator s = some rest → rest.length < s.length) {start s tail : List Char}
    (hstart : ∀ t, Uncut separator start t) (hs : ¬ Uncut separator s tail) :
    ∃ part more, part <+: s ∧ splitBy separator (start ++ (s ++ tail)) = (start ++ part) :: more := by
  obtain ⟨part, after, rest, rfl, huncut, hrest⟩ := exists_cut hs
  obtain ⟨more, hmore⟩ := exists_splitBy (uncut_append.2 ⟨hstart _, huncut⟩) hrest (hlength _ _ hrest)
  refine ⟨part, more, List.prefix_append part after, ?_⟩
  rw [← hmore]
  simp only [List.append_assoc]

/-- A text that is neither blank nor a parenthesis at its ends. -/
structure Firm (s : List Char) : Prop where
  head : ∀ c ∈ s.head?, isBlank c = false ∧ c ≠ '('
  last : ∀ c ∈ s.getLast?, isBlank c = false ∧ c ≠ ')'
  ne_nil : s ≠ []

theorem Firm.neat {s : List Char} (h : Firm s) : Neat s where
  first_not_blank c hc := (h.head c hc).1
  first_ne hc := (h.head _ hc).2 rfl
  last_not_blank c hc := (h.last c hc).1

theorem Firm.unwrap_eq {s : List Char} (h : Firm s) : unwrap s = s := by
  have hnone : ∀ c ∈ ([] : List Char), isBlank c = true := List.forall_mem_nil _
  have hlast : s.getLast? ≠ some ')' := fun hc => (h.last _ hc).2 rfl
  simpa using unwrap_open (.inl rfl) hnone hnone h.neat h.ne_nil hlast

theorem stripRight_prefix (t : List Char) : stripRight t <+: t := by
  rw [← List.reverse_suffix, stripRight, List.reverse_reverse]
  exact List.dropWhile_suffix isBlank

theorem Firm.stripRight_append {s : List Char} (h : Firm s) (t : List Char) :
    ∃ part, part <+: t ∧ stripRight (s ++ t) = s ++ part := by
  by_cases hblank : ∀ c ∈ t, isBlank c = true
  · refine ⟨[], List.nil_prefix, ?_⟩
    rw [stripRight_append_of_isBlank s hblank, stripRight_eq_self h.neat.last_not_blank,
      List.append_nil]
  · simp only [not_forall, Bool.not_eq_true] at hblank
    obtain ⟨c, hc, hc'⟩ := hblank
    exact ⟨stripRight t, stripRight_prefix t, Text.stripRight_append hc' hc s⟩

theorem Firm.dropClosing_append {s : List Char} (h : Firm s) (t : List Char) :
    ∃ part, part <+: t ∧ dropClosing (s ++ t) = s ++ part := by
  by_cases ht : t = []
  · subst ht
    refine ⟨[], List.nil_prefix, ?_⟩
    rw [List.append_nil, dropClosing_of_ne fun hc => (h.last _ hc).2 rfl]
  · unfold dropClosing
    split
    · exact ⟨t.dropLast, List.dropLast_prefix t, List.dropLast_append_of_ne_nil ht⟩
    · exact ⟨t, List.prefix_rfl, rfl⟩

/-- Only what stands behind a firm text is trimmed. -/
theorem Firm.unwrap_append {s : List Char} (h : Firm s) (t : List Char) :
    ∃ part, part <+: t ∧ unwrap (s ++ t) = s ++ part := by
  have hleft : ∀ u, stripLeft (s ++ u) = s ++ u := fun u => stripLeft_eq_self fun c hc => by
    rw [List.head?_append_of_ne_nil _ h.ne_nil] at hc
    exact h.neat.first_not_blank c hc
  have hopen : ∀ u, dropOpening (s ++ u) = s ++ u := fun u => dropOpening_of_ne <| by
    rw [List.head?_append_of_ne_nil _ h.ne_nil]
    exact h.neat.first_ne
  obtain ⟨t₁, hprefix₁, h₁⟩ := h.stripRight_append t
  obtain ⟨t₂, hprefix₂, h₂⟩ := h.dropClosing_append t₁
  obtain ⟨t₃, hprefix₃, h₃⟩ := h.stripRight_append t₂
  refine ⟨t₃, hprefix₃.trans (hprefix₂.trans hprefix₁), ?_⟩
  rw [unwrap, strip, strip, hleft, h₁, hopen, h₂, hleft, h₃]

theorem firm_lead (field : String) {c : Char} (hblank : isBlank c = false) (hclosing : c ≠ ')')
    (s : List Char) : Firm (lead field ++ (s ++ [c])) where
  head c hc := by
    obtain rfl := Option.some.inj hc
    decide
  last c hc := by
    rw [← List.append_assoc, List.getLast?_concat] at hc
    obtain rfl := Option.some.inj hc
    exact ⟨hblank, hclosing⟩
  ne_nil := List.append_ne_nil_of_left_ne_nil (lead_ne_nil field) _

/-- A condition that is cut nowhere is its own fragment. -/
theorem fragments_of_uncut {s : List Char} (h : Firm s) (huncut : Uncut plainAnd s []) :
    fragments s = [s] := by
  have hgrouped : Uncut groupedAnd s [] := uncut_groupedAnd huncut rfl
  have hconjuncts : conjuncts s = [s] := by
    rw [conjuncts, h.neat.strip_eq, contains_groupMark_eq_false hgrouped]
    exact splitBy_of_uncut huncut
  simp [fragments, hconjuncts, h.unwrap_eq, h.ne_nil]

/-! ## A text that is broken off -/

section

variable {field : String} {s : List Char} {quote : Char}

theorem ne_of_isQuote (h : isQuote quote = true) :
    foldLetter quote ≠ 'a' ∧ quote ≠ ')' ∧ quote ≠ '=' := by
  rcases isQuote_iff.1 h with rfl | rfl <;> decide

theorem head?_quote (h : isQuote quote = true) (s : List Char) :
    ∀ c ∈ (quote :: s).head?, isBlank c = false ∧ c ≠ '=' := by
  intro c hc
  obtain rfl : quote = c := Option.some.inj hc
  exact ⟨isBlank_of_isQuote h, (ne_of_isQuote h).2.2⟩

theorem firm_quoted (h : isQuote quote = true) (field : String) (s : List Char) :
    Firm (lead field ++ quote :: (s ++ [quote])) :=
  firm_lead field (isBlank_of_isQuote h) (ne_of_isQuote h).2.1 (quote :: s)

/-- A text without its closing quote is no operand. -/
theorem compile_broken (hfield : IsFieldPath field) (hquote : isQuote quote = true)
    (hs : ∀ c ∈ s, isQuote c = false ∧ c ≠ '\n') {part : List Char} (hpart : part <+: s)
    (bindings : List Binding) :
    Condition.compile bindings (lead field ++ quote :: part) =
      .error (.unsupportedCondition (String.ofList (lead field ++ quote :: part))) := by
  have hlast : ∀ c ∈ part.getLast?, isQuote c = false ∧ c ≠ '\n' := fun c hc =>
    hs c (hpart.subset (List.mem_of_getLast? hc))
  have hend : part.getLast? ≠ some '\n' := fun h => (hlast _ h).2 rfl
  have hopen : ¬ (part.getLast? = some quote ∧ '\n' ∉ part.dropLast) := by
    rintro ⟨h, -⟩
    rw [(hlast _ h).1] at hquote
    cases hquote
  rw [Condition.compile, ofFragment?_lead hfield (head?_quote hquote part),
    wholeOperand?_quote hquote hend, if_neg hopen, Option.map_none]

theorem uncut_groupedAnd_lead (hfield : IsFieldPath field) (hquote : isQuote quote = true)
    (tail : List Char) : Uncut groupedAnd (lead field ++ [quote]) tail := by
  have hne : ∀ c ∈ lead field ++ [quote], c ≠ ')' := by
    simp only [lead, List.cons_append, List.append_assoc, List.forall_mem_cons,
      List.forall_mem_append]
    exact ⟨by decide, by decide, fun c hc => ne_of_isPathChar (hfield.2 c hc) (by decide),
      by decide, (ne_of_isQuote hquote).2.1, List.forall_mem_nil _⟩
  exact uncut_of_forall (fun c hc s => groupedAnd_of_ne (hne c hc) s) tail

/-- The first fragment of a comparison with a text that holds a conjunction breaks off inside it. -/
theorem exists_fragments_of_hasConjunction (hfield : IsFieldPath field)
    (hquote : isQuote quote = true) (h : HasConjunction s) :
    ∃ part more, part <+: s ∧
      fragments (lead field ++ quote :: (s ++ [quote])) = (lead field ++ quote :: part) :: more := by
  have hblank := isBlank_of_isQuote hquote
  obtain ⟨hletter, hclosing, -⟩ := ne_of_isQuote hquote
  have hplain := uncut_plainAnd_lead hfield hblank hletter
  have hgrouped := uncut_groupedAnd_lead hfield hquote
  have htext : lead field ++ quote :: (s ++ [quote]) = (lead field ++ [quote]) ++ (s ++ [quote]) := by
    rw [List.append_assoc, List.singleton_append]
  have hcut : ∃ part more, part <+: s ∧
      conjuncts (lead field ++ quote :: (s ++ [quote])) = ((lead field ++ [quote]) ++ part) :: more := by
    rw [conjuncts, (firm_quoted hquote field s).neat.strip_eq, htext]
    split
    · rename_i hmark
      refine exists_splitBy_of_cut (fun _ _ => length_groupedAnd_lt) hgrouped fun huncut => ?_
      have hpieces : Uncut groupedAnd ((lead field ++ [quote]) ++ (s ++ [quote])) [] := by
        refine uncut_append.2 ⟨hgrouped _, uncut_append.2 ⟨huncut, ?_, trivial⟩⟩
        exact groupedAnd_of_ne hclosing _
      rw [contains_groupMark_eq_false hpieces] at hmark
      cases hmark
    · exact exists_splitBy_of_cut (fun _ _ => length_plainAnd_lt) hplain
        (not_uncut_of_hasConjunction h _)
  obtain ⟨part, more, hpart, hconjuncts⟩ := hcut
  obtain ⟨part', hpart', hunwrap⟩ := (firm_lead field hblank hclosing []).unwrap_append part
  refine ⟨part', (more.map unwrap).filter (!·.isEmpty), hpart'.trans hpart, ?_⟩
  rw [List.nil_append] at hunwrap
  simp only [fragments, hconjuncts, List.map_cons, hunwrap]
  simp

end

/-! ## Statements -/

/-- The statement that compares a field with a text between quotes. -/
def quotedSpec (field : String) (quote : Char) (s : String) (parameters : List Binding) : Spec where
  text := (Shape.all none).statement
    (comparisonText field (String.ofList (quote :: (s.toList ++ [quote]))))
  parameters := parameters

/-- The statement that compares a field with a parameter, which has the text as its value. -/
def boundSpec (field s : String) : Spec where
  text := (Shape.all none).statement (comparisonText field "@p")
  parameters := [("@p", .str s)]

/-- The documents whose field is a text. -/
def withText (field s : String) (documents : List Json) : List Json :=
  documents.filter fun d => (d.resolve field).any (Json.same · (.str s))

theorem run_comparisonText {field operand : String} (h : Firm (lead field ++ operand.toList))
    (parameters : List Binding) (documents : List Json) :
    Spec.run { text := (Shape.all none).statement (comparisonText field operand), parameters }
        documents =
      found (assignAll parameters) (fragments (lead field ++ operand.toList)) documents := by
  have htext := toList_comparisonText field operand
  have hstrip : stripLeft (stripRight (comparisonText field operand).toList) =
      lead field ++ operand.toList := by
    rw [htext, stripRight_eq_self h.neat.last_not_blank, stripLeft_eq_self h.neat.first_not_blank]
  have hc : ∃ c ∈ (comparisonText field operand).toList, isBlank c = false := by
    rw [htext]
    exact ⟨'c', List.mem_append_left _ List.mem_cons_self, by decide⟩
  rw [run_statement hc (.all none) (Nat.zero_le _), hstrip]
  cases found (assignAll parameters) (fragments (lead field ++ operand.toList)) documents <;> rfl

theorem found_of_compile {bindings : List Binding} {fragment : List Char} {c : Condition Empty}
    (h : Condition.compile bindings fragment = .ok c) (documents : List Json) :
    found bindings [fragment] documents = meeting [c] documents := by
  refine found_of_compileAll ?_
  rw [compileAll, h]
  rfl

/-- A condition that is one comparison with a text selects the documents that have the text, unless
the field of a document cannot be written. -/
theorem meeting_text (field s : String) (documents : List Json) :
    meeting [.compares field .eq (.str s)] documents =
      if documents.all fun d => (d.resolve field).all Tree.isWritable then
        .ok (withText field s documents)
      else .error .unwritable := by
  have htold : isConclusive [.compares field .eq (.str s)] =
      fun d => (d.resolve field).all Tree.isWritable := by
    funext d
    simp [isConclusive, Condition.isComparable]
  rw [meeting, htold]
  simp [satisfying, withText, Condition.holds]

theorem run_boundSpec {field : String} (hfield : IsFieldPath field) (s : String)
    (documents : List Json) :
    (boundSpec field s).run documents = meeting [.compares field .eq (.str s)] documents := by
  have hoperand : lead field ++ "@p".toList = (lead field ++ ['@']) ++ ['p'] := by
    rw [List.append_assoc]
    rfl
  have hfirm : Firm (lead field ++ "@p".toList) := firm_lead field (by decide) (by decide) ['@']
  have huncut : Uncut plainAnd (lead field ++ "@p".toList) [] := by
    rw [hoperand, uncut_append]
    exact ⟨uncut_plainAnd_lead hfield (by decide) (by decide) _,
      uncut_plainAnd_of_not_isBlank (by decide) _⟩
  rw [boundSpec, run_comparisonText hfirm, fragments_of_uncut hfirm huncut]
  have hname : IsParameterName "@p" := ⟨['p'], rfl, by decide, by decide +kernel⟩
  have hhead : ∀ c ∈ "@p".toList.head?, isBlank c = false ∧ c ≠ '=' := by
    intro c hc
    obtain rfl : '@' = c := Option.some.inj hc
    decide
  have hform := ofFragment?_lead hfield hhead
  rw [wholeOperand?_parameter hname, Option.map_some] at hform
  refine found_of_compile ?_ documents
  have hlookup : (assignAll [("@p", Tree.str s)]).lookup "@p" = some (.str s : Json) := rfl
  simp only [Condition.compile, hform, Form.resolve, resolveOperand_parameter hname hlookup,
    String.ofList_toList]
  rfl

section

variable {field s : String} {quote : Char}

theorem run_quotedSpec_eq (hquote : isQuote quote = true) (parameters : List Binding)
    (documents : List Json) :
    (quotedSpec field quote s parameters).run documents =
      found (assignAll parameters) (fragments (lead field ++ quote :: (s.toList ++ [quote])))
        documents := by
  have hfirm := firm_quoted hquote field s.toList
  rw [quotedSpec, run_comparisonText (by rwa [String.toList_ofList]), String.toList_ofList]

theorem run_quotedSpec (hfield : IsFieldPath field) (hline : '\n' ∉ s.toList)
    (hquote : isQuote quote = true) (h : ¬ HasConjunction s.toList) (parameters : List Binding)
    (documents : List Json) :
    (quotedSpec field quote s parameters).run documents =
      meeting [.compares field .eq (.str s)] documents := by
  have hblank := isBlank_of_isQuote hquote
  have hletter := (ne_of_isQuote hquote).1
  have huncut : Uncut plainAnd (lead field ++ quote :: (s.toList ++ [quote])) [] := by
    rw [← List.singleton_append, ← List.append_assoc]
    refine uncut_append.2 ⟨uncut_plainAnd_lead hfield hblank hletter _, uncut_append.2 ⟨?_, ?_⟩⟩
    · exact (uncut_plainAnd_iff hquote).2 h
    · exact uncut_plainAnd_of_not_isBlank (by simpa using hblank) _
  have hform := ofFragment?_lead hfield (head?_quote hquote (s.toList ++ [quote]))
  rw [wholeOperand?_quoted hquote hline, Option.map_some] at hform
  rw [run_quotedSpec_eq hquote, fragments_of_uncut (firm_quoted hquote field s.toList) huncut]
  refine found_of_compile ?_ documents
  have hcompile := compile_quoted hquote hform (assignAll parameters)
  rwa [String.ofList_toList, Tree.ofString, String.ofList_toList] at hcompile

theorem run_quotedSpec_of_hasConjunction (hfield : IsFieldPath field)
    (hs : ∀ c ∈ s.toList, isQuote c = false ∧ c ≠ '\n') (hquote : isQuote quote = true)
    (h : HasConjunction s.toList) (parameters : List Binding) :
    ∃ part, part <+: s.toList ∧ ∀ documents,
      (quotedSpec field quote s parameters).run documents =
        .error (.unsupportedCondition (String.ofList (lead field ++ quote :: part))) := by
  obtain ⟨part, more, hpart, hfragments⟩ :=
    exists_fragments_of_hasConjunction hfield hquote h
  refine ⟨part, hpart, fun documents => ?_⟩
  rw [run_quotedSpec_eq hquote, hfragments]
  refine found_of_error ?_
  rw [compileAll, compile_broken hfield hquote hs hpart]
  rfl

/-- A text between quotes means what it means as the value of a parameter exactly if it holds no
conjunction.  With one the statement is refused, whatever the documents are: its first fragment ends
inside the text.  The parameter finds the documents that have the text, unless the field of a
document cannot be written. -/
theorem run_quotedSpec_iff (hfield : IsFieldPath field)
    (hs : ∀ c ∈ s.toList, isQuote c = false ∧ c ≠ '\n') (hquote : isQuote quote = true)
    (parameters : List Binding) (documents : List Json) :
    ((boundSpec field s).run documents =
      if documents.all fun d => (d.resolve field).all Tree.isWritable then
        .ok (withText field s documents)
      else .error .unwritable) ∧
    ((quotedSpec field quote s parameters).run documents = (boundSpec field s).run documents ↔
      ¬ HasConjunction s.toList) ∧
    (HasConjunction s.toList → ∃ part, part <+: s.toList ∧
      (quotedSpec field quote s parameters).run documents =
        .error (.unsupportedCondition (String.ofList (lead field ++ quote :: part)))) := by
  have hbound := run_boundSpec hfield s documents
  rw [meeting_text] at hbound
  have hrefused : HasConjunction s.toList → ∃ part, part <+: s.toList ∧
      (quotedSpec field quote s parameters).run documents =
        .error (.unsupportedCondition (String.ofList (lead field ++ quote :: part))) := by
    intro h
    obtain ⟨part, hpart, hrun⟩ :=
      run_quotedSpec_of_hasConjunction hfield hs hquote h parameters
    exact ⟨part, hpart, hrun documents⟩
  refine ⟨hbound, ⟨fun heq h => ?_, fun h => ?_⟩, hrefused⟩
  · obtain ⟨part, -, hrun⟩ := hrefused h
    rw [hrun, hbound] at heq
    split at heq <;> cases heq
  · have hline : '\n' ∉ s.toList := fun hmem => (hs _ hmem).2 rfl
    rw [hbound, run_quotedSpec hfield hline hquote h, meeting_text]

end

/-- Other words of the language, parentheses and an `AND` that touches one are read as they are. -/
theorem run_quoted_words :
    let s := " x WHERE (y) AND(c.b = 1 "
    let document : Json := .obj [("id", .str "1"), ("a.b", .str s), ("a", .obj [("b", .str s)])]
    IsFieldPath "a.b" ∧ (∀ c ∈ s.toList, isQuote c = false ∧ c ≠ '\n') ∧ isQuote '\x22' = true ∧
    (quotedSpec "a.b" '\x22' s []).run [document, .null] =
      (boundSpec "a.b" s).run [document, .null] := by
  intro s document
  have hfield : IsFieldPath "a.b" := by decide +kernel
  have hs : ∀ c ∈ s.toList, isQuote c = false ∧ c ≠ '\n' := by decide
  have hnone : ¬ HasConjunction s.toList := by decide +kernel
  exact ⟨hfield, hs, rfl, (run_quotedSpec_iff hfield hs rfl [] _).2.1.2 hnone⟩

/-- A text with a conjunction is refused between quotes, where the parameter finds the document. -/
theorem conjunction_in_text_refused :
    let document : Json := .obj [("id", .str "1"), ("a", .str "x AND y")]
    (boundSpec "a" "x AND y").run [document] = .ok [document] ∧
    ∃ fragment, (quotedSpec "a" '\x27' "x AND y" []).run [document] =
      .error (.unsupportedCondition fragment) := by
  intro document
  have hfield : IsFieldPath "a" := by decide +kernel
  have hconjunction : HasConjunction "x AND y".toList := by decide +kernel
  have hs : ∀ c ∈ "x AND y".toList, isQuote c = false ∧ c ≠ '\n' := by decide
  have hquote : isQuote '\x27' = true := rfl
  obtain ⟨part, -, hrun⟩ := run_quotedSpec_of_hasConjunction hfield hs hquote hconjunction []
  have hmeets : (document.resolve "a").any (Json.same · (.str "x AND y")) = true := by
    decide +kernel
  have hfound : withText "a" "x AND y" [document] = [document] := by simp [withText, hmeets]
  have hfields : [document].all (fun d => (d.resolve "a").all Tree.isWritable) = true := by
    decide +kernel
  refine ⟨?_, _, hrun _⟩
  rw [run_boundSpec hfield, meeting_text, if_pos hfields, hfound]

end Pigeonhole.Query
