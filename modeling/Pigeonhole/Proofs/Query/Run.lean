import Pigeonhole.Proofs.Query.Grouped
import Pigeonhole.Proofs.Query.Meeting

/-!
# Running the texts of builders

A query that a builder has written is answered from the fragments of its clauses, within its limit
(`run_text`), whatever the clauses are.
-/

namespace Pigeonhole.Query

/-- The documents within a limit. -/
def within (limit : Option Int) (documents : List Json) : List Json :=
  match limit with
  | some n => documents.take n.toNat
  | none => documents

theorem map_within_none (answer : Except QueryError (List Json)) :
    answer.map (within none) = answer := by
  cases answer <;> rfl

/-- The fragments of clauses that are written into one query. -/
def clauseFragments (clauses : List (List Char)) : List (List Char) :=
  if clauses = [] then [] else fragments (groupedText clauses)

theorem clauseFragments_eq {clauses cores : List (List Char)} (hne : clauses ≠ [])
    (hcores : (conjuncts (groupedText clauses)).map unwrap = cores)
    (hfilled : ∀ core ∈ cores, core ≠ []) : clauseFragments clauses = cores := by
  rw [clauseFragments, if_neg hne, fragments_of_map_unwrap hcores hfilled]

theorem exists_statement {limit : Option Int} (hlimit : ∀ n ∈ limit, 0 < n)
    (clauses : List String) :
    ∃ statement : Statement,
      Statement.parse? (Builder.text limit clauses).toList = some statement ∧
      statement.shape = .all (limit.map Int.toNat) ∧
      statement.limitDigits = limitLength limit ∧
      statement.fragments = clauseFragments (clauses.map String.toList) := by
  refine ⟨_, parse?_text hlimit clauses, rfl, rfl, ?_⟩
  rw [clauseFragments, Statement.fragments]
  cases clauses <;> rfl

theorem run_text {limit : Option Int} (hlimit : ∀ n ∈ limit, 0 < n)
    (hfits : limitLength limit ≤ Numeral.maxDigits) (clauses : List String)
    (parameters : List Binding) (documents : List Json) :
    Spec.run { text := Builder.text limit clauses, parameters } documents =
      (found (assignAll parameters) (clauseFragments (clauses.map String.toList)) documents).map
        (within limit) := by
  obtain ⟨statement, hparse, hshape, hdigits, hfragments⟩ := exists_statement hlimit clauses
  rw [← hdigits] at hfits
  simp only [Spec.run, Parsed.ofSpec, hparse, if_pos hfits, bind, Except.bind, Parsed.execute_eq,
    hfragments, hshape, Spec.bindings]
  cases limit <;> rfl

end Pigeonhole.Query
