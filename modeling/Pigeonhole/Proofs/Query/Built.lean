import Pigeonhole.Proofs.Query.Run
import Pigeonhole.Proofs.Query.StepText

/-!
# Running built queries

What a query does that was built from steps, in any number and order.  Building succeeds as long as
the limit can be written (`build_ofSteps`).  The query finds the documents that meet every step as
long as no `CONTAINS` stands in front of another step (`run_builtSpec`); the first that does is the
error (`run_builtSpec_of_contains`).  Comparisons are therefore answered whenever all can be told of
the documents (`run_comparisons`), and two of them whose fields share a parameter share its value.
Where the values and the documents can be written, all can be told
(`isConclusive_map_conditionOn`).
-/

namespace Pigeonhole.Query

/-- The query that is built from steps. -/
def builtSpec (steps : List Step) (limit : Option Int) : Spec where
  text := Builder.text limit (steps.map fun s => s.clause.text)
  parameters := boundValues steps

/-- The comparison of a step with the value that its parameter has after all steps. -/
def Step.boundCondition (steps : List Step) (s : Step) : Condition Empty :=
  s.conditionOn ((firstValue? steps s.parameter).getD s.value)

variable {steps : List Step} {limit : Option Int}

theorem build_ofSteps (steps : List Step) (hlimit : ∀ n ∈ limit, 0 < n) :
    ∃ b : Builder, Builder.ofSteps steps = .ok b ∧
      b.build limit =
        if limitLength limit ≤ Numeral.maxDigits then .ok (builtSpec steps limit)
        else .error .longLimit := by
  refine ⟨_, Builder.ofSteps_eq steps, ?_⟩
  have hpositive : limit.filter (· ≤ 0) = none := by
    cases limit with
    | none => rfl
    | some n =>
      have hn : decide (n ≤ 0) = false := by
        rw [decide_eq_false_iff_not, Int.not_le]
        exact hlimit n rfl
      rw [Option.filter_some, hn]
      rfl
  simp only [Builder.build, hpositive, Builder.jsonBindings?_map_ofJson]
  rfl

/-- The parameter of a step has a value. -/
theorem lookup_parameter {s : Step} (hs : s ∈ steps) :
    (boundValues steps).lookup s.parameter =
      some ((firstValue? steps s.parameter).getD s.value) := by
  rw [lookup_boundValues, firstValue?]
  cases hfind : steps.find? fun t => t.parameter = s.parameter with
  | some t => rfl
  | none =>
    rw [List.find?_eq_none] at hfind
    exact absurd (decide_eq_true rfl) (hfind s hs)

theorem Step.value_conditionOn (s : Step) (v : Json) : (s.conditionOn v).value = v := by
  cases hop : s.operator <;> simp only [Step.conditionOn, hop] <;> rfl

/-- Where the values of the steps and a document can be written, all can be told of the document. -/
theorem isConclusive_map_conditionOn {value : Step → Json}
    (hvalues : ∀ s ∈ steps, (value s).isWritable = true) {d : Json} (hd : d.isWritable = true) :
    isConclusive (steps.map fun s => s.conditionOn (value s)) d = true := by
  refine isConclusive_of_isWritable (List.forall_mem_map.2 fun s hs => ?_) hd
  rw [s.value_conditionOn]
  exact hvalues s hs

/-- The value that the parameter of a step has is that of a step. -/
theorem isWritable_firstValue? (hvalues : ∀ s ∈ steps, s.value.isWritable = true) :
    ∀ s ∈ steps, ((firstValue? steps s.parameter).getD s.value).isWritable = true := by
  intro s hs
  rw [firstValue?]
  cases hfind : steps.find? fun t => t.parameter = s.parameter with
  | none => exact hvalues s hs
  | some t => exact hvalues t (List.mem_of_find?_eq_some hfind)

/-! ## Fragments of a built query -/

/-- Within the digits that integers may have, the query is answered from the fragments of its
steps. -/
theorem run_builtSpec_eq (steps : List Step) (documents : List Json)
    (hlimit : ∀ n ∈ limit, 0 < n) (hfits : limitLength limit ≤ Numeral.maxDigits) :
    (builtSpec steps limit).run documents =
      (found (boundValues steps) (clauseFragments (steps.map Step.text)) documents).map
        (within limit) := by
  have htexts : (steps.map fun s => s.clause.text).map String.toList = steps.map Step.text :=
    List.map_map
  rw [builtSpec, run_text hlimit hfits, htexts, assignAll_of_nodup (nodup_boundValues steps)]

theorem compile_text_of_mem (hfields : ∀ s ∈ steps, IsFieldPath s.field) {s : Step}
    (hs : s ∈ steps) :
    Condition.compile (boundValues steps) s.text = .ok (s.boundCondition steps) :=
  Step.compile_text (hfields s hs) (lookup_parameter hs)

theorem compile_bare_of_mem (hfields : ∀ s ∈ steps, IsFieldPath s.field) {s : Step}
    (hs : s ∈ steps) (hop : s.operator ≠ .contains) :
    Condition.compile (boundValues steps) s.bare = .ok (s.boundCondition steps) :=
  Step.compile_bare (hfields s hs) hop (lookup_parameter hs)

/-- Every step is met on the value of its parameter if no `CONTAINS` stands in front of another
step. -/
theorem run_builtSpec (hfields : ∀ s ∈ steps, IsFieldPath s.field) (documents : List Json)
    (hlimit : ∀ n ∈ limit, 0 < n) (hfits : limitLength limit ≤ Numeral.maxDigits)
    (hlast : ∀ s ∈ steps.dropLast, s.operator ≠ .contains) :
    (builtSpec steps limit).run documents =
      (meeting (steps.map fun s => s.boundCondition steps) documents).map (within limit) := by
  have hcompile : compileAll (boundValues steps) (clauseFragments (steps.map Step.text)) =
      .ok (steps.map fun s => s.boundCondition steps) := by
    rcases List.eq_nil_or_concat steps with rfl | ⟨init, last, rfl⟩
    · rfl
    · rw [List.concat_eq_append] at hfields hlast ⊢
      rw [List.dropLast_concat] at hlast
      have hinit : ∀ s ∈ init, s ∈ init ++ [last] := fun s hs => List.mem_append_left _ hs
      have hmem : last ∈ init ++ [last] := List.mem_append_right _ List.mem_cons_self
      have hbare : compileAll (boundValues (init ++ [last])) (init.map Step.bare) =
          .ok (init.map fun s => s.boundCondition (init ++ [last])) :=
        compileAll_map fun s hs => compile_bare_of_mem hfields (hinit s hs) (hlast s hs)
      rw [clauseFragments_steps (fun s hs => hfields s (hinit s hs)) (hfields last hmem),
        compileAll_concat (compile_text_of_mem hfields hmem), hbare, List.map_append]
      rfl
  rw [run_builtSpec_eq steps documents hlimit hfits, found_of_compileAll hcompile]

/-- The first `CONTAINS` in front of another step is not understood. -/
theorem run_builtSpec_of_contains (hfields : ∀ s ∈ steps, IsFieldPath s.field)
    (documents : List Json) (hlimit : ∀ n ∈ limit, 0 < n)
    (hfits : limitLength limit ≤ Numeral.maxDigits) {s : Step}
    (hs : (steps.dropLast.find? fun t => t.operator = .contains) = some s) :
    (builtSpec steps limit).run documents =
      .error (.unsupportedCondition (String.ofList s.bare)) := by
  have hcompile : compileAll (boundValues steps) (clauseFragments (steps.map Step.text)) =
      .error (.unsupportedCondition (String.ofList s.bare)) := by
    rcases List.eq_nil_or_concat steps with rfl | ⟨init, last, rfl⟩
    · cases hs
    · rw [List.concat_eq_append] at hfields hs ⊢
      rw [List.dropLast_concat, List.find?_eq_some_iff_append] at hs
      obtain ⟨hop, before, after, hinit, hbefore⟩ := hs
      rw [decide_eq_true_iff] at hop
      have hall : ∀ t ∈ init, t ∈ init ++ [last] := fun t ht => List.mem_append_left _ ht
      have hmem : last ∈ init ++ [last] := List.mem_append_right _ List.mem_cons_self
      have hfirst : ∀ t ∈ before, Condition.compile (boundValues (init ++ [last])) t.bare =
          .ok (t.boundCondition (init ++ [last])) := by
        intro t ht
        have htmem : t ∈ init := hinit ▸ List.mem_append_left _ ht
        exact compile_bare_of_mem hfields (hall t htmem) (by simpa using hbefore t ht)
      have hsmem : s ∈ init := hinit ▸ List.mem_append_right _ List.mem_cons_self
      have herror : compileAll (boundValues (init ++ [last]))
          ((before ++ s :: after).map Step.bare ++ [last.text]) =
          .error (.unsupportedCondition (String.ofList s.bare)) :=
        Step.compileAll_bare_of_contains hfirst (hfields s (hall s hsmem)) hop [last.text]
      rw [← hinit] at herror
      rw [clauseFragments_steps (fun t ht => hfields t (hall t ht)) (hfields last hmem), herror]
  rw [run_builtSpec_eq steps documents hlimit hfits, found_of_error hcompile]
  rfl

/-- A query that was built from comparisons is answered with the first documents within its limit
that meet every comparison, each on the value of the first step with the same parameter, unless it
cannot be told of a document; it can where the values and the document can be written.  The
parameters of the query are those of the steps in the order of their first use, once each.  No query
is built if the limit has too many digits to be written. -/
theorem run_comparisons (hfields : ∀ s ∈ steps, IsFieldPath s.field)
    (hrelations : ∀ s ∈ steps, s.operator ≠ .contains) (hlimit : ∀ n ∈ limit, 0 < n) :
    let conditions :=
      steps.map fun s => s.conditionOn ((firstValue? steps s.parameter).getD s.value)
    ((∀ s ∈ steps, s.value.isWritable = true) →
      ∀ d : Json, d.isWritable = true → isConclusive conditions d = true) ∧
    ∃ b : Builder, Builder.ofSteps steps = .ok b ∧
      (Numeral.maxDigits < limitLength limit → b.build limit = .error .longLimit) ∧
      (limitLength limit ≤ Numeral.maxDigits → ∃ spec : Spec, b.build limit = .ok spec ∧
        spec.parameters.map (·.1) = (steps.map Step.parameter).eraseDups ∧
        (spec.parameters.map (·.1)).Nodup ∧
        (∀ name, spec.parameters.lookup name = firstValue? steps name) ∧
        ∀ documents : List Json,
          ((∀ d ∈ documents, isConclusive conditions d = true) → spec.run documents =
            .ok (within limit (documents.filter fun d => conditions.all (·.holds d)))) ∧
          ((∃ d ∈ documents, isConclusive conditions d = false) →
            spec.run documents = .error .unwritable)) := by
  intro conditions
  obtain ⟨b, hsteps, hbuild⟩ := build_ofSteps steps hlimit
  refine ⟨fun hvalues d hd => isConclusive_map_conditionOn (isWritable_firstValue? hvalues) hd,
    b, hsteps, fun hlong => ?_, fun hfits => ?_⟩
  · rw [hbuild, if_neg (Nat.not_le.2 hlong)]
  · rw [if_pos hfits] at hbuild
    have hlast : ∀ s ∈ steps.dropLast, s.operator ≠ .contains := fun s hs =>
      hrelations s (List.dropLast_subset steps hs)
    have hrun : ∀ documents, (builtSpec steps limit).run documents =
        (meeting conditions documents).map (within limit) := fun documents =>
      run_builtSpec hfields documents hlimit hfits hlast
    refine ⟨builtSpec steps limit, hbuild, map_fst_boundValues steps, nodup_boundValues steps,
      lookup_boundValues steps, fun documents => ⟨fun hall => ?_, fun hexists => ?_⟩⟩
    · rw [hrun, meeting_of_conclusive hall]
      rfl
    · rw [hrun, meeting_of_not_conclusive hexists]
      rfl

/-- Two fields that share a parameter are compared with the value of the first step, so the second
document is found although its second field is less than the second value. -/
theorem run_comparisons_shared_parameter :
    let steps : List Step := [
      ⟨"a.b", .relation .ge, Tree.int 1⟩, ⟨"a_b", .relation .ge, Tree.int 5⟩,
      ⟨"n", .relation .lt, Tree.int 9⟩]
    let entry (i b a n : Int) : Json := .obj [("id", Tree.int i), ("a", .obj [("b", Tree.int b)]),
      ("a_b", Tree.int a), ("n", Tree.int n)]
    let documents : List Json := [entry 1 0 9 0, entry 2 1 1 8, entry 3 1 0 0, entry 4 7 7 7]
    (∀ s ∈ steps, IsFieldPath s.field) ∧ (∀ s ∈ steps, s.operator ≠ .contains) ∧
    ∃ (b : Builder) (spec : Spec), Builder.ofSteps steps = .ok b ∧ b.build (some 1) = .ok spec ∧
      spec.parameters.map (·.1) = ["@a_b", "@n"] ∧ spec.run documents = .ok [entry 2 1 1 8] := by
  intro steps entry documents
  have hfields : ∀ s ∈ steps, IsFieldPath s.field := by decide +kernel
  have hrelations : ∀ s ∈ steps, s.operator ≠ .contains := by decide +kernel
  have hlimit : ∀ n ∈ some (1 : Int), 0 < n := by decide
  have hfits : limitLength (some 1) ≤ Numeral.maxDigits := by decide +kernel
  have hnames : (steps.map Step.parameter).eraseDups = ["@a_b", "@n"] := by decide +kernel
  have hvalues : ∀ s ∈ steps, s.value.isWritable = true := by decide +kernel
  have hdocuments : ∀ d ∈ documents, d.isWritable = true := by decide +kernel
  obtain ⟨htold, b, hsteps, -, hspec⟩ := run_comparisons hfields hrelations hlimit
  obtain ⟨spec, hbuild, hparameters, -, -, hrun⟩ := hspec hfits
  exact ⟨hfields, hrelations, b, spec, hsteps, hbuild, hparameters.trans hnames,
    (hrun documents).1 fun d hd => htold hvalues d (hdocuments d hd)⟩

theorem run_equality_of_not_isWritable {v : Json} (hv : v.isWritable = false) :
    let steps : List Step := [⟨"n", .relation .eq, v⟩]
    let document : Json := .obj [("id", .str "1"), ("n", Tree.int 1)]
    (∀ s ∈ steps, IsFieldPath s.field) ∧ (∀ s ∈ steps, s.operator ≠ .contains) ∧
    ∃ (b : Builder) (spec : Spec), Builder.ofSteps steps = .ok b ∧ b.build none = .ok spec ∧
      spec.run [document] = .error .unwritable := by
  intro steps document
  have hpath : IsFieldPath "n" := by decide +kernel
  have hfields : ∀ s ∈ steps, IsFieldPath s.field := List.forall_mem_singleton.2 hpath
  have hrelations : ∀ s ∈ steps, s.operator ≠ .contains :=
    List.forall_mem_singleton.2 Operator.noConfusion
  have hlimit : ∀ n ∈ (none : Option Int), 0 < n := by decide
  have hfield : document.resolve "n" = some (Tree.int 1) := rfl
  have hconditions : steps.map (fun s => s.boundCondition steps) = [.compares "n" .eq v] := by
    simp [steps, Step.boundCondition, firstValue?, Step.conditionOn]
  have htold : isConclusive [.compares "n" .eq v] document = false := by
    rw [isConclusive, Condition.isComparable_of_not_isWritable hfield hv, Bool.false_and]
  obtain ⟨b, hsteps, hbuild⟩ := build_ofSteps steps hlimit
  refine ⟨hfields, hrelations, b, builtSpec steps none, hsteps, hbuild, ?_⟩
  rw [run_builtSpec hfields [document] hlimit (Nat.zero_le _) (List.forall_mem_nil _), hconditions,
    meeting_of_not_conclusive ⟨document, List.mem_singleton_self _, htold⟩]
  rfl

/-- A document with a field is not compared with an integer that is too long to be written. -/
theorem long_equality_not_compared :
    let steps : List Step := [⟨"n", .relation .eq, Tree.int (tenPow Numeral.maxDigits)⟩]
    let document : Json := .obj [("id", .str "1"), ("n", Tree.int 1)]
    (∀ s ∈ steps, IsFieldPath s.field) ∧ (∀ s ∈ steps, s.operator ≠ .contains) ∧
    ∃ (b : Builder) (spec : Spec), Builder.ofSteps steps = .ok b ∧ b.build none = .ok spec ∧
      spec.run [document] = .error .unwritable :=
  run_equality_of_not_isWritable Json.isWritable_tenPow

/-- A query that was built from steps with different parameters is answered with the documents that
meet every step exactly if no `CONTAINS` stands in front of another step and all can be told of the
documents.  The first such `CONTAINS`, without its closing parenthesis, is reported as not
understood; without one, an integer that is too long to be written is reported.  No query is built if
the limit has too many digits to be written. -/
theorem run_built (hfields : ∀ s ∈ steps, IsFieldPath s.field)
    (hparameters : (steps.map Step.parameter).Nodup) (hlimit : ∀ n ∈ limit, 0 < n)
    (documents : List Json) :
    let told (d : Json) := isConclusive (steps.map Step.condition) d
    ((∀ s ∈ steps, s.value.isWritable = true) → ∀ d : Json, d.isWritable = true → told d = true) ∧
    ∃ b : Builder, Builder.ofSteps steps = .ok b ∧
      (Numeral.maxDigits < limitLength limit → b.build limit = .error .longLimit) ∧
      (limitLength limit ≤ Numeral.maxDigits → ∃ spec : Spec, b.build limit = .ok spec ∧
        (spec.run documents = .ok (within limit (documents.filter fun d =>
            steps.all fun s => s.condition.holds d)) ↔
          (∀ s ∈ steps.dropLast, s.operator ≠ .contains) ∧ ∀ d ∈ documents, told d = true) ∧
        (∀ s : Step, (steps.dropLast.find? fun t => t.operator = .contains) = some s →
          spec.run documents =
            .error (.unsupportedCondition (String.ofList s.text.dropLast))) ∧
        ((∀ s ∈ steps.dropLast, s.operator ≠ .contains) → (∃ d ∈ documents, told d = false) →
          spec.run documents = .error .unwritable)) := by
  intro told
  obtain ⟨b, hsteps, hbuild⟩ := build_ofSteps steps hlimit
  have hvalues : steps.map (fun s => s.boundCondition steps) = steps.map Step.condition := by
    refine List.map_congr_left fun s hs => ?_
    rw [Step.boundCondition, firstValue?_of_nodup hparameters hs]
    rfl
  refine ⟨fun hwritable d hd => isConclusive_map_conditionOn hwritable hd,
    b, hsteps, fun hlong => ?_, fun hfits => ?_⟩
  · rw [hbuild, if_neg (Nat.not_le.2 hlong)]
  · rw [if_pos hfits] at hbuild
    have hrun : (∀ s ∈ steps.dropLast, s.operator ≠ .contains) →
        (builtSpec steps limit).run documents =
          (meeting (steps.map Step.condition) documents).map (within limit) := by
      intro hlast
      rw [run_builtSpec hfields documents hlimit hfits hlast, hvalues]
    have hcontains : ∀ s : Step, (steps.dropLast.find? fun t => t.operator = .contains) = some s →
        (builtSpec steps limit).run documents =
          .error (.unsupportedCondition (String.ofList s.text.dropLast)) := by
      intro s hfind
      have hop := List.find?_some hfind
      rw [decide_eq_true_iff] at hop
      rw [run_builtSpec_of_contains hfields documents hlimit hfits hfind,
        Step.text_of_contains hop, List.dropLast_concat]
    have hlong : (∀ s ∈ steps.dropLast, s.operator ≠ .contains) →
        (∃ d ∈ documents, told d = false) →
        (builtSpec steps limit).run documents = .error .unwritable := by
      intro hlast hexists
      rw [hrun hlast, meeting_of_not_conclusive hexists]
      rfl
    refine ⟨builtSpec steps limit, hbuild, ⟨fun hanswer => ?_, fun hcan => ?_⟩, hcontains, hlong⟩
    · have hlast : ∀ s ∈ steps.dropLast, s.operator ≠ .contains := by
        intro s hs hop
        cases hfind : steps.dropLast.find? fun t => t.operator = .contains with
        | none =>
          rw [List.find?_eq_none] at hfind
          exact hfind s hs (decide_eq_true hop)
        | some t =>
          rw [hcontains t hfind] at hanswer
          cases hanswer
      refine ⟨hlast, (forall_or_exists_not_conclusive _ documents).resolve_right fun hexists => ?_⟩
      rw [hlong hlast hexists] at hanswer
      cases hanswer
    · rw [hrun hcan.1, meeting_of_conclusive hcan.2, satisfying_map]
      rfl

/-- A bound on a score and a text in a title, in this order: the first of the two documents that meet
both is the answer. -/
theorem run_built_score_title :
    let steps : List Step := [
      ⟨"score", .relation .ge, Tree.int 5⟩, ⟨"title", .contains, .str "match"⟩]
    let documents : List Json := [
      .obj [("id", .str "1"), ("score", Tree.int 3), ("title", .str "match")],
      .obj [("id", .str "2"), ("score", Tree.int 8), ("title", .str "Rematch")],
      .obj [("id", .str "3"), ("score", Tree.int 9), ("title", .str "a match")]]
    ∃ (b : Builder) (spec : Spec), Builder.ofSteps steps = .ok b ∧ b.build (some 1) = .ok spec ∧
      spec.run documents = .ok (within (some 1) (documents.filter fun d =>
        steps.all fun s => s.condition.holds d)) := by
  intro steps documents
  have hfields : ∀ s ∈ steps, IsFieldPath s.field := by decide +kernel
  have hparameters : (steps.map Step.parameter).Nodup := by decide +kernel
  have hlimit : ∀ n ∈ some (1 : Int), 0 < n := by decide
  have hfits : limitLength (some 1) ≤ Numeral.maxDigits := by decide +kernel
  have hlast : ∀ s ∈ steps.dropLast, s.operator ≠ .contains := by decide +kernel
  have hvalues : ∀ s ∈ steps, s.value.isWritable = true := by decide +kernel
  have hdocuments : ∀ d ∈ documents, d.isWritable = true := by decide +kernel
  obtain ⟨htold, b, hsteps, -, hspec⟩ := run_built hfields hparameters hlimit documents
  obtain ⟨spec, hbuild, hrun, -⟩ := hspec hfits
  exact ⟨b, spec, hsteps, hbuild,
    hrun.2 ⟨hlast, fun d hd => htold hvalues d (hdocuments d hd)⟩⟩

/-- The two steps in the other order are not answered: the document meets both, and the query that is
built from them is refused. -/
theorem contains_in_front_refused :
    let steps : List Step := [⟨"s", .contains, .str "text"⟩, ⟨"n", .relation .ge, Tree.int 2⟩]
    let document : Json :=
      .obj [("id", .str "2"), ("n", Tree.int 30), ("s", .str "TEXTUAL")]
    (∀ s ∈ steps, IsFieldPath s.field) ∧ (steps.map Step.parameter).Nodup ∧
    (∀ s ∈ steps, s.condition.holds document = true) ∧
    ∃ (b : Builder) (spec : Spec), Builder.ofSteps steps = .ok b ∧ b.build none = .ok spec ∧
      spec.run [document] = .error (.unsupportedCondition "CONTAINS(c.s, @s, true") := by
  intro steps document
  have hfields : ∀ s ∈ steps, IsFieldPath s.field := by decide +kernel
  have hparameters : (steps.map Step.parameter).Nodup := by decide +kernel
  have hholds : ∀ s ∈ steps, s.condition.holds document = true := by decide +kernel
  have hlimit : ∀ n ∈ (none : Option Int), 0 < n := by decide
  obtain ⟨b, hsteps, hbuild⟩ := build_ofSteps steps hlimit
  exact ⟨hfields, hparameters, hholds, b, builtSpec steps none, hsteps, hbuild,
    run_builtSpec_of_contains hfields [document] hlimit (Nat.zero_le _) rfl⟩

end Pigeonhole.Query
