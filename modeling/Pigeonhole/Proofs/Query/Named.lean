import Pigeonhole.Proofs.Query.Conditions
import Pigeonhole.Proofs.Query.Grouped

/-!
# Fragments that name a parameter

A `Named` fragment is a comparison or a `CONTAINS` of a field path with a parameter.  It is three
words (`Named.bare`), with a parenthesis behind them if it is a `CONTAINS`.  No cut begins inside it
(`uncut_plainAnd_text`, `tight_text`).  A piece loses one parenthesis at its end, so a `CONTAINS` is
left whole only if another one stands behind it (`unwrap_text`, `unwrap_text_closing`), and otherwise
it is no fragment any more (`compile_bare_of_contains`).
-/

namespace Pigeonhole.Query

open Text

/-- The comparison of a field with a parameter. -/
structure Named where
  path : String
  operator : Operator
  name : String
  isFieldPath : IsFieldPath path
  isParameterName : IsParameterName name

namespace Named

/-- The words of a fragment, but for a parenthesis at its end. -/
def words (n : Named) : List Char × List Char × List Char :=
  match n.operator with
  | .relation r => ("c.".toList ++ n.path.toList, r.symbol.toList, n.name.toList)
  | .contains =>
    ("CONTAINS(c.".toList ++ (n.path.toList ++ [',']), n.name.toList ++ [','], "true".toList)

/-- The words with one space between them. -/
def bare (n : Named) : List Char := n.words.1 ++ (' ' :: n.words.2.1 ++ ' ' :: n.words.2.2)

/-- A fragment as it is written. -/
def text (n : Named) : List Char :=
  (match n.operator with
  | .contains => "CONTAINS(c." ++ n.path ++ ", " ++ n.name ++ ", true)"
  | .relation r => "c." ++ n.path ++ " " ++ r.symbol ++ " " ++ n.name).toList

/-- The comparison of the field with a value. -/
def condition (n : Named) (v : Json) : Condition Empty :=
  match n.operator with
  | .relation r => .compares n.path r v
  | .contains => .contains n.path v

variable (n : Named)

/-! ## Words -/

theorem text_of_relation {r : Relation} (h : n.operator = .relation r) : n.text = n.bare := by
  simp only [text, bare, words, h, String.toList_append, List.append_assoc]
  rfl

theorem text_of_contains (h : n.operator = .contains) : n.text = n.bare ++ [')'] := by
  simp only [text, bare, words, h, String.toList_append, List.append_assoc, List.cons_append]
  rfl

/-- A fragment is its words, with or without a parenthesis. -/
theorem text_eq : n.text = n.bare ∨ n.text = n.bare ++ [')'] := by
  cases h : n.operator with
  | relation r => exact .inl (n.text_of_relation h)
  | contains => exact .inr (n.text_of_contains h)

/-- What holds of the characters of a path, and of those that are written besides, holds of all
characters of the words. -/
theorem forall_words {p : Char → Prop} (hpath : ∀ c, isPathChar c = true → p c)
    (hwritten : ∀ c ∈ "CONTAINS(c.,<=>@true".toList, p c) :
    (∀ c ∈ n.words.1, p c) ∧ (∀ c ∈ n.words.2.1, p c) ∧ ∀ c ∈ n.words.2.2, p c := by
  have hof : ∀ w : List Char, w ⊆ "CONTAINS(c.,<=>@true".toList → ∀ c ∈ w, p c :=
    fun w hw c hc => hwritten c (hw hc)
  have hfield : ∀ c ∈ n.path.toList, p c := fun c hc => hpath c (n.isFieldPath.2 c hc)
  have hname : ∀ c ∈ n.name.toList, p c := by
    intro c hc
    rcases n.isParameterName.eq_or_isWord hc with rfl | hc
    · exact hwritten _ (by decide)
    · exact hpath c (by rw [isPathChar, hc, Bool.true_or])
  cases h : n.operator with
  | relation r =>
    simp only [words, h, List.forall_mem_append]
    exact ⟨⟨hof _ (by decide), hfield⟩, hof _ (by cases r <;> decide), hname⟩
  | contains =>
    simp only [words, h, List.forall_mem_append]
    exact ⟨⟨hof _ (by decide), hfield, hof _ (by decide)⟩, ⟨hname, hof _ (by decide)⟩,
      hof _ (by decide)⟩

theorem words_not_blank :
    (∀ c ∈ n.words.1, isBlank c = false) ∧ (∀ c ∈ n.words.2.1, isBlank c = false) ∧
      ∀ c ∈ n.words.2.2, isBlank c = false :=
  n.forall_words (fun _ => isBlank_of_isPathChar) (by decide)

theorem words_ne_closing :
    (∀ c ∈ n.words.1, c ≠ ')') ∧ (∀ c ∈ n.words.2.1, c ≠ ')') ∧ ∀ c ∈ n.words.2.2, c ≠ ')' :=
  n.forall_words (fun _ hc => ne_of_isPathChar hc (by decide +kernel)) (by decide)

/-- The words after the first one do not begin as `AND` does. -/
theorem head?_words :
    (n.words.2.1 ≠ [] ∧ ∀ c ∈ n.words.2.1.head?, foldLetter c ≠ 'a') ∧
      n.words.2.2 ≠ [] ∧ ∀ c ∈ n.words.2.2.head?, foldLetter c ≠ 'a' := by
  obtain ⟨word, hname, -⟩ := n.isParameterName
  have hstart : ∀ {first : Char} {rest : List Char}, foldLetter first ≠ 'a' →
      first :: rest ≠ [] ∧ ∀ c ∈ (first :: rest).head?, foldLetter c ≠ 'a' := by
    refine fun hfirst => ⟨List.cons_ne_nil _ _, fun c hc => ?_⟩
    obtain rfl := Option.some.inj hc
    exact hfirst
  cases h : n.operator with
  | relation r =>
    simp only [words, h, hname]
    refine ⟨?_, hstart (by decide)⟩
    cases r <;> exact hstart (by decide)
  | contains =>
    simp only [words, h, hname]
    exact ⟨hstart (by decide), hstart (by decide)⟩

theorem head?_bare : n.bare.head? = some 'c' ∨ n.bare.head? = some 'C' := by
  cases h : n.operator with
  | relation r =>
    left
    simp only [bare, words, h]
    rfl
  | contains =>
    right
    simp only [bare, words, h]
    rfl

theorem bare_ne_nil : n.bare ≠ [] := List.append_ne_nil_of_right_ne_nil _ (List.cons_ne_nil _ _)

theorem text_ne_nil : n.text ≠ [] := by
  rcases n.text_eq with h | h <;> rw [h]
  · exact n.bare_ne_nil
  · exact List.append_ne_nil_of_left_ne_nil n.bare_ne_nil _

theorem bare_ne_closing : ∀ c ∈ n.bare, c ≠ ')' := by
  obtain ⟨hfirst, hsecond, hthird⟩ := n.words_ne_closing
  simp only [bare, List.forall_mem_append, List.forall_mem_cons]
  exact ⟨hfirst, ⟨by decide, hsecond⟩, by decide, hthird⟩

theorem neat_bare : Neat n.bare := by
  obtain ⟨-, -, hthird⟩ := n.words_not_blank
  obtain ⟨-, hne, -⟩ := n.head?_words
  have hfirst := n.head?_bare
  have hlast : n.bare.getLast? = n.words.2.2.getLast? := by
    have hsplit : n.bare = (n.words.1 ++ (' ' :: n.words.2.1 ++ [' '])) ++ n.words.2.2 := by
      simp only [bare, List.append_assoc, List.cons_append, List.nil_append]
    rw [hsplit, List.getLast?_append_of_ne_nil _ hne]
  refine ⟨?_, ?_, ?_⟩
  · intro c hc
    rcases hfirst with hfirst | hfirst <;> rw [hfirst] at hc <;> obtain rfl := Option.some.inj hc <;>
      decide
  · rcases hfirst with hfirst | hfirst <;> rw [hfirst] <;> decide
  · intro c hc
    rw [hlast] at hc
    exact hthird c (List.mem_of_getLast? hc)

theorem neat_text : Neat n.text := by
  rcases n.text_eq with h | h <;> rw [h]
  · exact n.neat_bare
  · exact n.neat_bare.append_closing n.bare_ne_nil []

/-! ## Cuts -/

/-- No cut between words begins inside the words of a fragment. -/
theorem uncut_plainAnd_bare (tail : List Char) : Uncut plainAnd n.bare tail := by
  obtain ⟨hfirst, hsecond, hthird⟩ := n.words_not_blank
  obtain ⟨⟨hne, hletter⟩, hne', hletter'⟩ := n.head?_words
  rw [bare, uncut_append, uncut_append]
  exact ⟨uncut_plainAnd_of_not_isBlank hfirst _, uncut_plainAnd_space hne hletter hsecond _,
    uncut_plainAnd_space hne' hletter' hthird tail⟩

theorem uncut_plainAnd_text (tail : List Char) : Uncut plainAnd n.text tail := by
  rcases n.text_eq with h | h <;> rw [h]
  · exact n.uncut_plainAnd_bare tail
  · exact uncut_append.2
      ⟨n.uncut_plainAnd_bare _, uncut_plainAnd_of_not_isBlank (by decide) tail⟩

theorem tight_text : Tight n.text := by
  have hbare : Tight n.bare := tight_of_forall_ne n.bare_ne_closing
  rcases n.text_eq with h | h <;> rw [h]
  · exact hbare
  · exact hbare.append_closing

/-! ## One parenthesis less -/

section Unwrap

variable {opening : List Char}

/-- A fragment that is cut off after its text loses a parenthesis of its own. -/
theorem unwrap_text (hopening : opening = [] ∨ opening = ['(']) :
    unwrap (opening ++ n.text) = n.bare := by
  have hblanks : ∀ c ∈ ([] : List Char), isBlank c = true := List.forall_mem_nil _
  rcases n.text_eq with h | h
  · have hlast : n.bare.getLast? ≠ some ')' := fun hlast =>
      n.bare_ne_closing ')' (List.mem_of_getLast? hlast) rfl
    have hunwrap := unwrap_open hopening hblanks hblanks n.neat_bare n.bare_ne_nil hlast
    rw [List.nil_append, List.append_nil] at hunwrap
    rw [h, hunwrap]
  · have hunwrap := unwrap_closed hopening hblanks hblanks n.neat_bare n.bare_ne_nil
    rw [List.nil_append, List.nil_append] at hunwrap
    rw [h, hunwrap]

theorem unwrap_text_closing (hopening : opening = [] ∨ opening = ['(']) :
    unwrap (opening ++ (n.text ++ [')'])) = n.text := by
  have hblanks : ∀ c ∈ ([] : List Char), isBlank c = true := List.forall_mem_nil _
  have hunwrap := unwrap_closed hopening hblanks hblanks n.neat_text n.text_ne_nil
  rwa [List.nil_append, List.nil_append] at hunwrap

end Unwrap

/-! ## Conditions -/

section Compile

variable {bindings : List Binding} {v : Json}

theorem compile_text (h : bindings.lookup n.name = some v) :
    Condition.compile bindings n.text = .ok (n.condition v) := by
  cases hop : n.operator with
  | relation r =>
    simp only [text, condition, hop]
    exact compile_compares n.isFieldPath n.isParameterName h r
  | contains =>
    simp only [text, condition, hop]
    exact compile_contains n.isFieldPath n.isParameterName h

theorem compile_bare (hop : n.operator ≠ .contains) (h : bindings.lookup n.name = some v) :
    Condition.compile bindings n.bare = .ok (n.condition v) := by
  cases hrelation : n.operator with
  | relation r =>
    rw [← n.text_of_relation hrelation]
    exact n.compile_text h
  | contains => exact absurd hrelation hop

/-- Without its closing parenthesis a `CONTAINS` is no fragment. -/
theorem compile_bare_of_contains (hop : n.operator = .contains) (bindings : List Binding) :
    Condition.compile bindings n.bare = .error (.unsupportedCondition (String.ofList n.bare)) := by
  have hnone := ofFragment?_contains_dropLast n.isFieldPath n.isParameterName
  have hdrop : n.bare = n.text.dropLast := by rw [n.text_of_contains hop, List.dropLast_concat]
  have htext : n.text = ("CONTAINS(c." ++ n.path ++ ", " ++ n.name ++ ", true)").toList := by
    simp only [text, hop]
  rw [← htext, ← hdrop] at hnone
  rw [Condition.compile, hnone]

end Compile

end Named

end Pigeonhole.Query
