import Pigeonhole.Proofs.Query.Run
import Pigeonhole.Proofs.Query.Swallowed

/-!
# Clauses beside each other

What a query does that was built from clauses given as text.  A clause is cut at its conjunctions if
it is the only one, and stays whole beside others.  Then it is met as one fragment if it is a single
comparison or swallowed (`run_rawSpec_of_read`), and refused otherwise (`run_rawSpec_of_refused`).
So clauses are met as each of them is alone only if all are single comparisons, or if nothing is
found either way (`run_clauses_iff`).
-/

namespace Pigeonhole.Query

open Text

/-- The builder of clauses. -/
def Builder.ofClauses (clauses : List RawClause) : Builder :=
  clauses.foldl (fun b k => b.add { text := String.ofList k.text }) {}

/-- The query that is built from clauses. -/
def rawSpec (clauses : List RawClause) : Spec where
  text := Builder.text none (clauses.map fun k => String.ofList k.text)
  parameters := []

theorem build_ofClauses (clauses : List RawClause) :
    (Builder.ofClauses clauses).build none = .ok (rawSpec clauses) := by
  have hfold : ∀ b : Builder,
      clauses.foldl (fun b k => b.add { text := String.ofList k.text }) b =
        { clauses := b.clauses ++ clauses.map fun k => String.ofList k.text
          bindings := b.bindings } := by
    induction clauses with
    | nil => exact fun b => by rw [List.map_nil, List.append_nil]; rfl
    | cons k clauses ih =>
      intro b
      rw [List.foldl_cons, ih, List.map_cons, List.append_cons]
      rfl
  rw [Builder.ofClauses, hfold]
  rfl

/-! ## Running clauses -/

theorem run_rawSpec (clauses : List RawClause) (documents : List Json) :
    (rawSpec clauses).run documents =
      found [] (clauseFragments (clauses.map RawClause.text)) documents := by
  have htexts : (clauses.map fun k => String.ofList k.text).map String.toList =
      clauses.map RawClause.text := by
    rw [List.map_map]
    exact List.map_congr_left fun k _ => String.toList_ofList
  have hlimit : ∀ n ∈ (none : Option Int), 0 < n := fun n hn => absurd hn (Option.not_mem_none n)
  rw [rawSpec, run_text hlimit (Nat.zero_le _), htexts, map_within_none]
  rfl

theorem clauseFragments_single (k : RawClause) :
    clauseFragments [k.text] = k.comparisons.map Comparison.text :=
  clauseFragments_eq (List.cons_ne_nil _ _) k.map_unwrap_single
    (List.forall_mem_map.2 fun c _ => c.text_ne_nil)

theorem clauseFragments_grouped {clauses : List RawClause} (htwo : 2 ≤ clauses.length) :
    clauseFragments (clauses.map RawClause.text) = clauses.map RawClause.core := by
  cases clauses with
  | nil => cases htwo
  | cons first rest =>
    have hrest : rest ≠ [] := by
      rintro rfl
      exact Nat.lt_irrefl 1 htwo
    rw [← List.dropLast_concat_getLast hrest]
    exact clauseFragments_eq (List.cons_ne_nil _ _) (map_unwrap_grouped first _ _)
      (List.forall_mem_map.2 fun k _ => k.core_ne_nil)

/-- A clause is answered alone if its comparisons have conditions by which all can be told. -/
theorem run_rawSpec_single_eq_ok_iff {k : RawClause} {documents answer : List Json} :
    (rawSpec [k]).run documents = .ok answer ↔
      ∃ cs, compileAll [] (k.comparisons.map Comparison.text) = .ok cs ∧
        (∀ d ∈ documents, isConclusive cs d = true) ∧ satisfying cs documents = answer := by
  rw [run_rawSpec, List.map_singleton, clauseFragments_single, found_eq_ok_iff]

theorem exists_run_alone {k : RawClause} {documents : List Json}
    (hcompile : ∀ c ∈ k.comparisons, ∃ condition : Condition Empty,
      Condition.compile [] c.text = .ok condition)
    (hdocuments : ∀ d ∈ documents, d.isWritable = true) :
    ∃ answer, (rawSpec [k]).run documents = .ok answer := by
  obtain ⟨cs, hcs⟩ := exists_compileAll_iff.2 (List.forall_mem_map.2 hcompile)
  exact ⟨_, run_rawSpec_single_eq_ok_iff.2 ⟨cs, hcs, fun d hd =>
    isConclusive_of_compileAll hcs (List.forall_mem_nil _) (hdocuments d hd), rfl⟩⟩

/-- A clause that is answered alone is answered with the documents that meet its comparisons. -/
theorem run_rawSpec_alone {k : RawClause} {documents : List Json}
    (h : ∃ answer, (rawSpec [k]).run documents = .ok answer) :
    (rawSpec [k]).run documents = .ok (documents.filter k.meets) := by
  obtain ⟨answer, hanswer⟩ := h
  obtain ⟨cs, hcs, -, rfl⟩ := run_rawSpec_single_eq_ok_iff.1 hanswer
  rw [hanswer, satisfying_compileAll hcs]
  simp only [List.all_map]
  rfl

/-! ## Clauses together -/

variable {clauses : List RawClause} {documents : List Json}

/-- What the first comparison of a clause that is answered alone asks for can be told. -/
theorem exists_compile_first {k : RawClause}
    (halone : ∃ answer, (rawSpec [k]).run documents = .ok answer) :
    ∃ condition : Condition Empty, Condition.compile [] k.first.text = .ok condition ∧
      ∀ d ∈ documents, condition.isComparable d = true := by
  obtain ⟨answer, hanswer⟩ := halone
  obtain ⟨cs, hcs, htold, -⟩ := run_rawSpec_single_eq_ok_iff.1 hanswer
  rw [RawClause.comparisons, List.map_cons, compileAll] at hcs
  cases hfirst : Condition.compile (α := Empty) [] k.first.text with
  | error e => rw [hfirst] at hcs; cases hcs
  | ok c =>
    rw [hfirst] at hcs
    cases hrest : compileAll (α := Empty) [] ((k.more.map (·.2)).map Comparison.text) with
    | error e => rw [hrest] at hcs; cases hcs
    | ok rest =>
      rw [hrest] at hcs
      obtain rfl := Except.ok.inj hcs
      refine ⟨c, rfl, fun d hd => ?_⟩
      exact (Bool.and_eq_true_iff.1 (htold d hd)).1

/-- What is a single comparison or swallowed is one fragment, if it is answered alone.  It asks for
the same field as the first comparison, so as much can be told. -/
theorem exists_compile_core {k : RawClause}
    (halone : ∃ answer, (rawSpec [k]).run documents = .ok answer) (h : k.Single ∨ k.Swallowed) :
    ∃ condition : Condition Empty, Condition.compile [] k.core = .ok condition ∧
      ∀ d ∈ documents, condition.isComparable d = true := by
  obtain ⟨condition, hcondition, htold⟩ := exists_compile_first halone
  rcases h with h | h
  · rw [RawClause.core_of_single h]
    exact ⟨condition, hcondition, htold⟩
  · obtain ⟨body, c, tail, hfirst, hcore⟩ := RawClause.compile_of_swallowed h
    rw [hfirst] at hcondition
    obtain rfl := Except.ok.inj hcondition
    refine ⟨_, hcore, fun d hd => Eq.trans ?_ (htold d hd)⟩
    cases k.first.relation <;> rfl

theorem exists_compileAll_core
    (halone : ∀ k ∈ clauses, ∃ answer, (rawSpec [k]).run documents = .ok answer)
    (h : ∀ k ∈ clauses, k.Single ∨ k.Swallowed) :
    ∃ conditions, compileAll (α := Empty) [] (clauses.map RawClause.core) = .ok conditions ∧
      ∀ d ∈ documents, isConclusive conditions d = true := by
  obtain ⟨cs, hcs, htold⟩ := exists_compileAll_forall (List.forall_mem_map.2 fun k hk =>
    exists_compile_core (halone k hk) (h k hk))
  exact ⟨cs, hcs, fun d hd => isConclusive_of_forall fun c hc => htold c hc d hd⟩

/-- Clauses that are single comparisons or swallowed are met as one fragment each. -/
theorem run_rawSpec_of_read (htwo : 2 ≤ clauses.length)
    (halone : ∀ k ∈ clauses, ∃ answer, (rawSpec [k]).run documents = .ok answer)
    (h : ∀ k ∈ clauses, k.Single ∨ k.Swallowed) :
    (rawSpec clauses).run documents =
      .ok (documents.filter fun d => clauses.all (·.reads d)) := by
  obtain ⟨conditions, hcompile, htold⟩ := exists_compileAll_core halone h
  rw [run_rawSpec, clauseFragments_grouped htwo, found_of_compileAll hcompile,
    meeting_of_conclusive htold, satisfying_compileAll hcompile]
  simp only [List.all_map]
  rfl

/-- The first clause that is neither a single comparison nor swallowed is not understood. -/
theorem run_rawSpec_of_refused {before after : List RawClause} {k : RawClause}
    (htwo : 2 ≤ (before ++ k :: after).length)
    (halone : ∀ j ∈ before, ∃ answer, (rawSpec [j]).run documents = .ok answer)
    (hbefore : ∀ j ∈ before, j.Single ∨ j.Swallowed) (hmore : ¬ k.Single) (hk : ¬ k.Swallowed) :
    (rawSpec (before ++ k :: after)).run documents =
      .error (.unsupportedCondition (String.ofList k.core)) := by
  obtain ⟨conditions, hcompile, -⟩ := exists_compileAll_core halone hbefore
  have herror : compileAll (α := Empty) []
      (before.map RawClause.core ++ k.core :: after.map RawClause.core) =
      .error (.unsupportedCondition (String.ofList k.core)) :=
    compileAll_append_cons_of_error hcompile (RawClause.compile_of_refused hmore hk)
  rw [run_rawSpec, clauseFragments_grouped htwo, List.map_append, List.map_cons,
    found_of_error herror]

/-- Clauses that are answered together are single comparisons or swallowed. -/
theorem single_or_swallowed_of_run (htwo : 2 ≤ clauses.length) {answer : List Json}
    (h : (rawSpec clauses).run documents = .ok answer) :
    ∀ k ∈ clauses, k.Single ∨ k.Swallowed := by
  intro k hk
  rw [run_rawSpec, clauseFragments_grouped htwo, found_eq_ok_iff] at h
  obtain ⟨conditions, hcompile, -⟩ := h
  obtain ⟨condition, hcondition⟩ :=
    exists_compileAll_iff.1 ⟨conditions, hcompile⟩ k.core (List.mem_map_of_mem hk)
  by_contra hneither
  rw [not_or] at hneither
  rw [RawClause.compile_of_refused hneither.1 hneither.2] at hcondition
  cases hcondition

theorem all_meets_of_single (h : ∀ k ∈ clauses, k.Single) (d : Json) :
    (clauses.all (·.meets d)) = clauses.all (·.reads d) := by
  rw [Bool.eq_iff_iff, List.all_eq_true, List.all_eq_true]
  exact forall₂_congr fun k hk => by rw [RawClause.meets_of_single (h k hk)]

/-- A comparison with one blank on either side of its sign. -/
def Comparison.ofField (field : String) (hfield : IsFieldPath field) (relation : Relation)
    (literal : Literal) : Comparison where
  head := 'c'
  path := field.toList
  before := [' ']
  relation
  after := [' ']
  literal
  head_eq := by decide
  path_ne := hfield.1
  path_char := hfield.2
  before_blank := by decide
  after_blank := by decide

/-- The word `AND` with one blank on either side. -/
def Joint.and : Joint where
  before := [' ']
  word := "AND".toList
  after := [' ']
  before_ne := by decide
  after_ne := by decide
  before_blank := by decide
  after_blank := by decide
  word_eq := by decide

/-- Comparisons with plain joints between them. -/
def RawClause.ofComparisons (first : Comparison) (more : List Comparison) : RawClause where
  left := []
  first
  more := more.map (Joint.and, ·)
  right := []
  left_blank := List.forall_mem_nil _
  right_blank := List.forall_mem_nil _

/-- Clauses that are answered one by one are answered together with the documents that meet all of
them exactly if each is a single comparison, or if some are swallowed and no document is found
either way.  Otherwise the first clause that is neither is reported as not understood. -/
theorem run_clauses_iff (htwo : 2 ≤ clauses.length)
    (halone : ∀ k ∈ clauses, ∃ answer, (rawSpec [k]).run documents = .ok answer) :
    (∀ ks, (Builder.ofClauses ks).build none = .ok (rawSpec ks)) ∧
    (∀ k ∈ clauses, (rawSpec [k]).run documents = .ok (documents.filter k.meets)) ∧
    ((rawSpec clauses).run documents =
        .ok (documents.filter fun d => clauses.all (·.meets d)) ↔
      (∀ k ∈ clauses, k.Single) ∨
        ((∀ k ∈ clauses, k.Single ∨ k.Swallowed) ∧ ∀ d ∈ documents,
          clauses.all (·.meets d) = false ∧ clauses.all (·.reads d) = false)) ∧
    (∀ before k after, clauses = before ++ k :: after →
      (∀ j ∈ before, j.Single ∨ j.Swallowed) → ¬ k.Single → ¬ k.Swallowed →
        (rawSpec clauses).run documents =
          .error (.unsupportedCondition (String.ofList k.core))) := by
  refine ⟨build_ofClauses, fun k hk => run_rawSpec_alone (halone k hk),
    ⟨fun hrun => ?_, ?_⟩, ?_⟩
  · have hread := single_or_swallowed_of_run htwo hrun
    rw [run_rawSpec_of_read htwo halone hread, Except.ok.injEq] at hrun
    have hsame : ∀ d ∈ documents,
        clauses.all (·.reads d) = true ↔ clauses.all (·.meets d) = true := by
      intro d hd
      have hmem := congrArg (d ∈ ·) hrun
      simpa only [List.mem_filter, hd, true_and, eq_iff_iff] using hmem
    by_cases hsingle : ∀ k ∈ clauses, k.Single
    · exact .inl hsingle
    · push Not at hsingle
      obtain ⟨k, hk, hmore⟩ := hsingle
      have hswallowed := (hread k hk).resolve_left hmore
      have hnot : ∀ d ∈ documents, clauses.all (·.meets d) = false := by
        intro d hd
        rw [Bool.eq_false_iff]
        intro hmeets
        have hreads := (hsame d hd).2 hmeets
        rw [List.all_eq_true] at hmeets hreads
        exact RawClause.not_meets_and_reads hswallowed (hmeets k hk) (hreads k hk)
      refine .inr ⟨hread, fun d hd => ⟨hnot d hd, ?_⟩⟩
      rw [Bool.eq_false_iff, Ne, hsame d hd, hnot d hd]
      exact Bool.false_ne_true
  · rintro (hsingle | ⟨hread, hnone⟩)
    · rw [run_rawSpec_of_read htwo halone fun k hk => .inl (hsingle k hk)]
      exact congrArg Except.ok (List.filter_congr fun d _ => (all_meets_of_single hsingle d).symm)
    · rw [run_rawSpec_of_read htwo halone hread]
      refine congrArg Except.ok (List.filter_congr fun d hd => ?_)
      rw [(hnone d hd).1, (hnone d hd).2]
  · rintro before k after rfl hbefore hmore hk
    exact run_rawSpec_of_refused htwo
      (fun j hj => halone j (List.mem_append_left _ hj)) hbefore hmore hk

/-- Two bounds, each a clause of its own, are answered together. -/
theorem run_clauses_bounds :
    let low : RawClause := .ofComparisons (.ofField "score" (by decide +kernel) .ge
      (.bare "5".toList (by decide +kernel) (by decide +kernel))) []
    let high : RawClause := .ofComparisons (.ofField "score" (by decide +kernel) .lt
      (.bare "9".toList (by decide +kernel) (by decide +kernel))) []
    let documents : List Json := [
      .obj [("id", .str "1"), ("score", Tree.int 3)],
      .obj [("id", .str "2"), ("score", Tree.int 8)],
      .obj [("id", .str "3"), ("score", Tree.int 9)]]
    (rawSpec [low, high]).run documents =
      .ok (documents.filter fun d => [low, high].all (·.meets d)) := by
  intro low high documents
  have hdocuments : ∀ d ∈ documents, d.isWritable = true := by decide +kernel
  have hcompile : ∀ k ∈ [low, high], ∀ c ∈ k.comparisons, ∃ condition : Condition Empty,
      Condition.compile [] c.text = .ok condition := by decide +kernel
  have halone : ∀ k ∈ [low, high], ∃ answer, (rawSpec [k]).run documents = .ok answer :=
    fun k hk => exists_run_alone (hcompile k hk) hdocuments
  have hsingle : ∀ k ∈ [low, high], k.Single := by
    rw [List.forall_mem_cons, List.forall_mem_singleton]
    exact ⟨rfl, rfl⟩
  obtain ⟨-, -, hrun, -⟩ := run_clauses_iff (by decide) halone
  exact hrun.2 (.inl hsingle)

/-- A clause of two comparisons is answered alone, and is refused as soon as another clause stands
beside it, though the document meets both. -/
theorem clause_beside_refused :
    let one : Literal := .bare "1".toList (by decide +kernel) (by decide +kernel)
    let two : Literal := .bare "2".toList (by decide +kernel) (by decide +kernel)
    let three : Literal := .bare "3".toList (by decide +kernel) (by decide +kernel)
    let pair : RawClause := .ofComparisons (.ofField "a" (by decide +kernel) .eq one)
      [.ofField "b" (by decide +kernel) .eq two]
    let single : RawClause := .ofComparisons (.ofField "d" (by decide +kernel) .eq three) []
    let document : Json :=
      .obj [("id", .str "1"), ("a", Tree.int 1), ("b", Tree.int 2), ("d", Tree.int 3)]
    (rawSpec [pair]).run [document] = .ok [document] ∧
    (rawSpec [single]).run [document] = .ok [document] ∧
    (rawSpec [pair, single]).run [document] =
      .error (.unsupportedCondition "c.a = 1 AND c.b = 2") := by
  intro one two three pair single document
  have hdocument : ∀ d ∈ [document], d.isWritable = true := by decide +kernel
  have hpair : ∃ answer, (rawSpec [pair]).run [document] = .ok answer :=
    exists_run_alone (by decide +kernel) hdocument
  have hsingle : ∃ answer, (rawSpec [single]).run [document] = .ok answer :=
    exists_run_alone (by decide +kernel) hdocument
  have hcore : String.ofList pair.core = "c.a = 1 AND c.b = 2" := by decide +kernel
  have hmore : ¬ pair.Single := List.cons_ne_nil _ _
  have hnot : ¬ pair.Swallowed := by
    rintro ⟨-, quote, hquote, hhead, -⟩
    obtain rfl := Option.some.inj hhead
    exact absurd hquote (by decide)
  refine ⟨?_, ?_, ?_⟩
  · rw [run_rawSpec_alone hpair]
    exact congrArg Except.ok (List.filter_eq_self.2
      (List.forall_mem_singleton.2 (by decide +kernel)))
  · rw [run_rawSpec_alone hsingle]
    exact congrArg Except.ok (List.filter_eq_self.2
      (List.forall_mem_singleton.2 (by decide +kernel)))
  · have hrun : (rawSpec ([] ++ pair :: [single])).run [document] =
        .error (.unsupportedCondition (String.ofList pair.core)) :=
      run_rawSpec_of_refused (Nat.le_refl 2) (List.forall_mem_nil _) (List.forall_mem_nil _)
        hmore hnot
    rw [List.nil_append, hcore] at hrun
    exact hrun

end Pigeonhole.Query
