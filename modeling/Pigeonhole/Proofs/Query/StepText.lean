import Pigeonhole.Proofs.Query.Named
import Pigeonhole.Proofs.Query.Run
import Pigeonhole.Proofs.Query.Steps

/-!
# Fragments of steps

The clause of a step is a fragment that names a parameter (`Step.named`): three words (`Step.bare`),
with a parenthesis behind them if it is a `CONTAINS`.  In the condition of a query it becomes the
fragment of the step again, except that a `CONTAINS` which is not the last step loses that
parenthesis to the cut between the clauses (`clauseFragments_steps`), and then it is no fragment.
-/

namespace Pigeonhole.Query

open Text

namespace Step

/-- The words of a clause, but for a parenthesis at its end. -/
def words (s : Step) : List Char × List Char × List Char :=
  match s.operator with
  | .relation r => ("c.".toList ++ s.field.toList, r.symbol.toList, s.parameter.toList)
  | .contains =>
    ("CONTAINS(c.".toList ++ (s.field.toList ++ [',']), s.parameter.toList ++ [','], "true".toList)

/-- The words with one space between them. -/
def bare (s : Step) : List Char := s.words.1 ++ (' ' :: s.words.2.1 ++ ' ' :: s.words.2.2)

variable {s : Step}

/-- The fragment that the clause of a step is. -/
def named (s : Step) (hfield : IsFieldPath s.field) : Named :=
  ⟨s.field, s.operator, s.parameter, hfield, hfield.parameterName⟩

theorem text_named (hfield : IsFieldPath s.field) : (s.named hfield).text = s.text := rfl

theorem text_of_contains (h : s.operator = .contains) : s.text = s.bare ++ [')'] := by
  simp only [text, bare, words, clause, Clause.ofField, h, parameter, String.toList_append,
    List.append_assoc, List.cons_append]
  rfl

end Step

/-! ## Fragments of steps -/

theorem map_unwrap_conjuncts_singleton {s : Step} (hfield : IsFieldPath s.field) :
    (conjuncts (groupedText [s.text])).map unwrap = [s.text] := by
  rw [← s.text_named hfield]
  have huncut : Uncut plainAnd (groupedText [(s.named hfield).text]) [] := by
    refine ⟨plainAnd_of_not_isBlank (by decide) _, uncut_append.2 ⟨?_, ?_⟩⟩
    · exact (s.named hfield).uncut_plainAnd_text _
    · exact uncut_plainAnd_of_not_isBlank (by decide) []
  have hunwrap := (s.named hfield).unwrap_text_closing (.inr rfl)
  rw [conjuncts_groupedText_singleton (s.named hfield).tight_text, splitBy_of_uncut huncut,
    List.map_singleton]
  exact congrArg (fun fragment => [fragment]) hunwrap

theorem map_unwrap_conjuncts_cons {first last : Step} {middle : List Step}
    (hinit : ∀ s ∈ first :: middle, IsFieldPath s.field) (hlast : IsFieldPath last.field) :
    (conjuncts (groupedText ((first :: (middle ++ [last])).map Step.text))).map unwrap =
      (first :: middle).map Step.bare ++ [last.text] := by
  have htight : ∀ s ∈ first :: (middle ++ [last]), Tight s.text := by
    rw [← List.cons_append, List.forall_mem_append, List.forall_mem_singleton]
    exact ⟨fun s hs => (s.named (hinit s hs)).tight_text, (last.named hlast).tight_text⟩
  have hclosed : unwrap ([] ++ (last.text ++ [')'])) = last.text :=
    (last.named hlast).unwrap_text_closing (.inl rfl)
  rw [List.nil_append] at hclosed
  exact map_unwrap_groupedText htight (fun s hs _ => (s.named (hinit s hs)).unwrap_text) hclosed

/-- The fragments of the condition of steps: the text of each, but a `CONTAINS` that is not the last
step loses its closing parenthesis. -/
theorem clauseFragments_steps {init : List Step} {last : Step} (hinit : ∀ s ∈ init, IsFieldPath s.field)
    (hlast : IsFieldPath last.field) :
    clauseFragments ((init ++ [last]).map Step.text) = init.map Step.bare ++ [last.text] := by
  have hne : (init ++ [last]).map Step.text ≠ [] := by
    rw [List.map_append]
    exact List.append_ne_nil_of_right_ne_nil _ (List.cons_ne_nil _ _)
  have hpieces : (conjuncts (groupedText ((init ++ [last]).map Step.text))).map unwrap =
      init.map Step.bare ++ [last.text] := by
    cases init with
    | nil => exact map_unwrap_conjuncts_singleton hlast
    | cons first middle => exact map_unwrap_conjuncts_cons hinit hlast
  refine clauseFragments_eq hne hpieces ?_
  rw [List.forall_mem_append, List.forall_mem_map, List.forall_mem_singleton]
  exact ⟨fun s hs => (s.named (hinit s hs)).bare_ne_nil, (last.named hlast).text_ne_nil⟩

/-! ## Conditions of steps -/

namespace Step

variable {s : Step} {bindings : List Binding} {v : Json}

theorem compile_text (hfield : IsFieldPath s.field) (h : bindings.lookup s.parameter = some v) :
    Condition.compile bindings s.text = .ok (s.conditionOn v) :=
  (s.named hfield).compile_text h

theorem compile_bare (hfield : IsFieldPath s.field) (hop : s.operator ≠ .contains)
    (h : bindings.lookup s.parameter = some v) :
    Condition.compile bindings s.bare = .ok (s.conditionOn v) :=
  (s.named hfield).compile_bare hop h

/-- The first `CONTAINS` without its closing parenthesis is the error of a list of fragments. -/
theorem compileAll_bare_of_contains {before after : List Step} {c : Step → Condition Empty}
    (hbefore : ∀ t ∈ before, Condition.compile bindings t.bare = .ok (c t))
    (hfield : IsFieldPath s.field) (hop : s.operator = .contains) (rest : List (List Char)) :
    compileAll bindings ((before ++ s :: after).map Step.bare ++ rest) =
      .error (.unsupportedCondition (String.ofList s.bare)) := by
  rw [List.map_append, List.map_cons, List.append_assoc, List.cons_append]
  exact compileAll_append_cons_of_error (compileAll_map hbefore)
    ((s.named hfield).compile_bare_of_contains hop bindings)

end Step

end Pigeonhole.Query
