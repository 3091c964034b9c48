import Pigeonhole.Proofs.Query.Conditions
import Pigeonhole.Proofs.Query.RawClause

/-!
# A clause as one fragment

What a clause means that is not cut.  A single comparison keeps its meaning (`meets_of_single`).  A
longer clause is no fragment (`compile_of_refused`), unless it is swallowed: its first operand begins
with the quote with which the clause ends, and all between is read as one text
(`compile_of_swallowed`), which no document has that meets the clause (`not_meets_and_reads`).
-/

namespace Pigeonhole.Query

open Text

namespace RawClause

/-- A clause with one comparison. -/
def Single (k : RawClause) : Prop := k.more = []

/-- A longer clause whose first operand begins with the quote with which the clause ends, without a
line break between them. -/
def Swallowed (k : RawClause) : Prop :=
  k.more ≠ [] ∧ ∃ quote, isQuote quote = true ∧ k.operand.head? = some quote ∧
    k.operand.getLast? = some quote ∧ '\n' ∉ k.operand

/-- Whether a document meets every comparison of a clause. -/
def meets (k : RawClause) (d : Json) : Bool :=
  k.comparisons.all fun c => fragmentHolds [] c.text d

/-- Whether a document meets a clause as one fragment. -/
def reads (k : RawClause) (d : Json) : Bool := fragmentHolds [] k.core d

variable {k : RawClause}

theorem core_of_single (h : k.Single) : k.core = k.first.text := by
  rw [core, h, moreText, List.append_nil]

theorem meets_of_single (h : k.Single) (d : Json) : k.meets d = k.reads d := by
  rw [meets, comparisons, h, reads, core_of_single h, List.map_nil, List.all_cons, List.all_nil,
    Bool.and_true]

end RawClause

/-! ## Operands of clauses -/

theorem Comparison.ofFragment?_lead (c : Comparison) {operand : List Char}
    (h : ∀ d ∈ operand.head?, isBlank d = false ∧ d ≠ '=') :
    Form.ofFragment? (c.lead ++ operand) =
      (wholeOperand? operand).map (.compares c.path c.relation) := by
  have hlead : c.lead ++ operand =
      c.head :: '.' :: (c.path ++ (c.before ++ (c.relation.symbol.toList ++ (c.after ++ operand)))) := by
    simp only [lead, List.cons_append, List.append_assoc]
  rw [hlead]
  exact ofFragment?_comparison c.head_eq c.path_ne c.path_char c.before_blank c.after_blank
    c.relation h

theorem resolveOperand_quoted {α : Type} {quote : Char} (hquote : isQuote quote = true)
    (body : List Char) (bindings : List (String × Tree α)) :
    resolveOperand bindings (quote :: (body ++ [quote])) = .ok (Tree.ofString body) := by
  have hat : (quote :: (body ++ [quote])).head? ≠ some '@' := by
    rw [List.head?_cons]
    rcases isQuote_iff.1 hquote with rfl | rfl <;> decide
  rw [resolveOperand, if_neg hat, literal, unquote?_quote hquote]

/-- A comparison with a quoted text compares with that text. -/
theorem compile_quoted {fragment path body : List Char} {relation : Relation} {quote : Char}
    (hquote : isQuote quote = true)
    (h : Form.ofFragment? fragment = some (.compares path relation (quote :: (body ++ [quote]))))
    (bindings : List Binding) :
    Condition.compile bindings fragment =
      .ok (.compares (String.ofList path) relation (Tree.ofString body)) := by
  rw [Condition.compile, h]
  simp only [Form.resolve, resolveOperand_quoted hquote]
  rfl

theorem Comparison.compile_lead (c : Comparison) {quote : Char} (hquote : isQuote quote = true)
    {body : List Char} (hline : '\n' ∉ body) :
    Condition.compile (α := Empty) [] (c.lead ++ quote :: (body ++ [quote])) =
      .ok (.compares (String.ofList c.path) c.relation (Tree.ofString body)) := by
  have hhead : ∀ d ∈ (quote :: (body ++ [quote])).head?, isBlank d = false ∧ d ≠ '=' := by
    intro d hd
    obtain rfl := Option.some.inj hd
    rcases isQuote_iff.1 hquote with rfl | rfl <;> decide
  have hform := c.ofFragment?_lead hhead
  rw [wholeOperand?_quoted hquote hline, Option.map_some] at hform
  exact compile_quoted hquote hform []

namespace RawClause

variable {k : RawClause}

theorem core_eq (k : RawClause) : k.core = k.first.lead ++ k.operand := by
  rw [core, Comparison.text, operand, List.append_assoc]

theorem head?_operand (k : RawClause) : k.operand.head? = k.first.literal.text.head? := by
  rw [operand, List.head?_append_of_ne_nil _ k.first.literal.text_ne_nil]

theorem ofFragment?_core (k : RawClause) :
    Form.ofFragment? k.core =
      (wholeOperand? k.operand).map (.compares k.first.path k.first.relation) := by
  rw [core_eq]
  refine k.first.ofFragment?_lead fun c hc => ?_
  rw [head?_operand] at hc
  obtain ⟨hblank, hne, -⟩ := k.first.literal.head?_text c hc
  exact ⟨hblank, hne⟩

theorem getLast?_operand (k : RawClause) : ∀ c ∈ k.operand.getLast?, isBlank c = false := by
  have hne : k.operand ≠ [] := List.append_ne_nil_of_left_ne_nil k.first.literal.text_ne_nil _
  have hlast := k.neat_core.last_not_blank
  rwa [core_eq, List.getLast?_append_of_ne_nil _ hne] at hlast

/-- Behind the first literal of a longer clause there is a blank, and more behind that. -/
theorem exists_blank (hmore : ¬ k.Single) :
    ∃ b rest, moreText k.more = b :: rest ∧ isBlank b = true ∧ rest ≠ [] := by
  obtain ⟨⟨j, c⟩, more, heq⟩ := List.exists_cons_of_ne_nil hmore
  obtain ⟨b, before, hbefore⟩ := List.exists_cons_of_ne_nil j.before_ne
  refine ⟨b, before ++ (j.word ++ j.after ++ (c.text ++ moreText more)), ?_, ?_, ?_⟩
  · rw [heq, moreText, Joint.text, hbefore]
    simp only [List.cons_append, List.append_assoc]
  · exact j.before_blank b (hbefore ▸ List.mem_cons_self)
  · refine List.append_ne_nil_of_right_ne_nil _ (List.append_ne_nil_of_right_ne_nil _ ?_)
    exact List.append_ne_nil_of_left_ne_nil c.text_ne_nil _

/-- What goes on behind a quoted text is an operand only if the clause is swallowed. -/
theorem wholeOperand?_of_quoted (hmore : ¬ k.Single) (h : ¬ k.Swallowed) {quote : Char}
    {body : List Char} (hquote : isQuote quote = true)
    (hliteral : k.first.literal.text = quote :: (body ++ [quote])) :
    wholeOperand? k.operand = none := by
  obtain ⟨b, rest, htext, -, -⟩ := exists_blank hmore
  have hoperand : k.operand = quote :: (body ++ quote :: (b :: rest)) := by
    rw [operand, hliteral, htext, List.cons_append, List.append_assoc]
    rfl
  have htail : k.operand.getLast? = (body ++ quote :: (b :: rest)).getLast? := by
    rw [hoperand, List.getLast?_cons_of_ne_nil]
    exact List.append_ne_nil_of_right_ne_nil _ (List.cons_ne_nil _ _)
  have hend : (body ++ quote :: (b :: rest)).getLast? ≠ some '\n' := by
    intro hline
    rw [← htail] at hline
    exact absurd (k.getLast?_operand '\n' hline) (by decide)
  rw [hoperand, wholeOperand?_quote hquote hend, if_neg]
  rintro ⟨hclosed, hline⟩
  refine h ⟨hmore, quote, hquote, ?_, htail.trans hclosed, ?_⟩
  · rw [hoperand, List.head?_cons]
  · have hsplit := List.dropLast_append_getLast? quote hclosed
    have hne : '\n' ≠ quote := by
      rcases isQuote_iff.1 hquote with rfl | rfl <;> decide
    rw [hoperand, ← hsplit, List.mem_cons, List.mem_append, List.mem_singleton]
    rintro (hmem | hmem | hmem)
    · exact hne hmem
    · exact hline hmem
    · exact hne hmem

/-- What goes on behind a number or a constant is no operand, for there is a blank in it. -/
theorem wholeOperand?_of_bare (hmore : ¬ k.Single) {token : List Char}
    (htoken : IsBareToken token) (hliteral : k.first.literal.text = token) :
    wholeOperand? k.operand = none := by
  obtain ⟨b, rest, htext, hb, hrest⟩ := exists_blank hmore
  obtain ⟨c, token, rfl⟩ := List.exists_cons_of_ne_nil htoken.ne_nil
  have hc := htoken.chars c List.mem_cons_self
  have hat : c ≠ '@' := ne_of_isBareChar hc (by decide +kernel)
  have hoperand : k.operand = c :: (token ++ b :: rest) := by
    rw [operand, hliteral, htext, List.cons_append]
  have hmem : b ∈ (c :: (token ++ b :: rest)).dropLast := by
    rw [← List.cons_append, List.dropLast_append_of_ne_nil (List.cons_ne_nil b rest),
      List.dropLast_cons_of_ne_nil hrest]
    exact List.mem_append_right _ List.mem_cons_self
  have hnot : isBareLiteral (c :: (token ++ b :: rest)) = false := by
    rw [Bool.eq_false_iff]
    intro hall
    rw [isBlank_of_isBareLiteral hall b hmem] at hb
    cases hb
  rw [hoperand, wholeOperand?_bare hat (isQuote_of_isBareChar hc), hnot]
  rfl

/-- A longer clause that is not swallowed is no fragment. -/
theorem ofFragment?_of_refused (hmore : ¬ k.Single) (h : ¬ k.Swallowed) :
    Form.ofFragment? k.core = none := by
  have hwhole : wholeOperand? k.operand = none := by
    cases hliteral : k.first.literal with
    | quoted quote body hquote hbody huncut =>
      exact wholeOperand?_of_quoted hmore h hquote (by rw [hliteral, Literal.text])
    | bare token hbare hblank =>
      exact wholeOperand?_of_bare hmore (isBareToken_of_isBareLiteral hbare hblank)
        (by rw [hliteral, Literal.text])
  rw [ofFragment?_core, hwhole, Option.map_none]

/-- The operand of a swallowed clause is one quoted text that goes on behind its first quoted
text. -/
theorem exists_of_swallowed (h : k.Swallowed) :
    ∃ (quote : Char) (body tail : List Char), isQuote quote = true ∧
      k.first.literal.text = quote :: (body ++ [quote]) ∧
      k.operand = quote :: ((body ++ quote :: tail) ++ [quote]) ∧
      '\n' ∉ body ++ quote :: tail := by
  obtain ⟨hmore, quote, hquote, hhead, hlast, hline⟩ := h
  obtain ⟨b, rest, htext, -, -⟩ := exists_blank hmore
  have hne : moreText k.more ≠ [] := htext ▸ List.cons_ne_nil b rest
  rw [head?_operand] at hhead
  rw [operand, List.getLast?_append_of_ne_nil _ hne] at hlast
  have htail := List.dropLast_append_getLast? quote hlast
  cases hliteral : k.first.literal with
  | quoted quote' body hquote' hbody huncut =>
    rw [hliteral] at hhead
    obtain rfl := Option.some.inj hhead
    have hoperand : k.operand =
        quote' :: ((body ++ quote' :: (moreText k.more).dropLast) ++ [quote']) := by
      rw [operand, hliteral, ← htail, List.dropLast_concat]
      simp only [Literal.text, List.cons_append, List.append_assoc, List.nil_append]
    refine ⟨quote', body, (moreText k.more).dropLast, hquote, rfl, hoperand, fun hmem => hline ?_⟩
    rw [hoperand]
    exact List.mem_cons_of_mem _ (List.mem_append_left _ hmem)
  | bare token hbare hblank =>
    rw [hliteral] at hhead
    have hc := (isBareToken_of_isBareLiteral hbare hblank).chars quote (List.mem_of_mem_head? hhead)
    rw [isQuote_of_isBareChar hc] at hquote
    cases hquote

end RawClause

/-! ## Swallowed clauses -/

theorem length_canonical_ofString (s : List Char) :
    (Json.canonical (Tree.ofString s)).length = (Quoted.encode false s).length + 2 := by
  have hcanonical : Json.canonical (Tree.ofString s) = Quoted.quote false s := by
    rw [Json.canonical, Json.write, Tree.ofString, Tree.normalize, Tree.print,
      String.toList_ofList]
    · rfl
    all_goals intro _ h; cases h
  rw [hcanonical, Quoted.quote, List.length_append, List.length_cons, List.length_singleton]

theorem encodeChar_ne_nil (c : Char) : Quoted.encodeChar false c ≠ [] := by
  unfold Quoted.encodeChar
  repeat' split
  all_goals first | exact List.cons_ne_nil _ _ | (rename_i h; cases h)

/-- A text that goes on has a longer canonical text. -/
theorem length_canonical_lt (s : List Char) (c : Char) (tail : List Char) :
    (Json.canonical (Tree.ofString s)).length <
      (Json.canonical (Tree.ofString (s ++ c :: tail))).length := by
  have hc := List.length_pos_iff.2 (encodeChar_ne_nil c)
  rw [length_canonical_ofString, length_canonical_ofString, Quoted.encode, Quoted.encode,
    List.flatMap_append, List.flatMap_cons, List.length_append, List.length_append]
  omega

/-- Nothing is in order with a text. -/
theorem inOrder_ofString (relation : Relation) (field : Option Json) (s : List Char) :
    Condition.inOrder relation field (Tree.ofString s) = false :=
  inOrder_eq_false fun _ _ _ h => by cases h

/-- Two comparisons with texts that hold of one document are comparisons with one text. -/
theorem canonical_eq_of_holds {path : String} {relation : Relation} {a b : List Char} {d : Json}
    (ha : (Condition.compares path relation (Tree.ofString a)).holds d = true)
    (hb : (Condition.compares path relation (Tree.ofString b)).holds d = true) :
    Json.canonical (Tree.ofString a) = Json.canonical (Tree.ofString b) := by
  cases relation with
  | eq =>
    rw [Condition.holds, Option.any_eq_true] at ha hb
    obtain ⟨v, hv, ha⟩ := ha
    obtain ⟨w, hw, hb⟩ := hb
    rw [hv] at hw
    obtain rfl := Option.some.inj hw
    rw [Json.same, beq_iff_eq] at ha hb
    rw [← ha, ← hb]
  | _ =>
    -- no other sign holds of a text
    have hnot := (inOrder_ofString _ (d.resolve path) a).symm.trans ha
    cases hnot

namespace RawClause

variable {k : RawClause}

/-- A swallowed clause has a condition, which is that of its first comparison with a text that goes
on. -/
theorem compile_of_swallowed (h : k.Swallowed) :
    ∃ (body : List Char) (c : Char) (tail : List Char),
      Condition.compile (α := Empty) [] k.first.text =
        .ok (.compares (String.ofList k.first.path) k.first.relation (Tree.ofString body)) ∧
      Condition.compile (α := Empty) [] k.core =
        .ok (.compares (String.ofList k.first.path) k.first.relation
          (Tree.ofString (body ++ c :: tail))) := by
  obtain ⟨quote, body, tail, hquote, hliteral, hoperand, hline⟩ := exists_of_swallowed h
  have hbody : '\n' ∉ body := fun hmem => hline (List.mem_append_left _ hmem)
  refine ⟨body, quote, tail, ?_, ?_⟩
  · rw [Comparison.text, hliteral]
    exact k.first.compile_lead hquote hbody
  · rw [core_eq, hoperand]
    exact k.first.compile_lead hquote hline

/-- No document meets both a swallowed clause and the fragment that is made of it. -/
theorem not_meets_and_reads (h : k.Swallowed) {d : Json} (hmeets : k.meets d = true)
    (hreads : k.reads d = true) : False := by
  obtain ⟨body, c, tail, hfirst, hcore⟩ := compile_of_swallowed h
  rw [meets, comparisons, List.all_cons, Bool.and_eq_true, fragmentHolds, hfirst] at hmeets
  rw [reads, fragmentHolds, hcore] at hreads
  have hlength := congrArg List.length (canonical_eq_of_holds hmeets.1 hreads)
  have hlonger := length_canonical_lt body c tail
  omega

theorem compile_of_refused (hmore : ¬ k.Single) (h : ¬ k.Swallowed) :
    Condition.compile (α := Empty) [] k.core =
      .error (.unsupportedCondition (String.ofList k.core)) := by
  rw [Condition.compile, ofFragment?_of_refused hmore h]

end RawClause

end Pigeonhole.Query
