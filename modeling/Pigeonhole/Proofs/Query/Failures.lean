import Pigeonhole.Proofs.Json.Assign
import Pigeonhole.Proofs.Query.Meeting
import Pigeonhole.Proofs.Query.Operands

/-!
# How queries fail

A query is read, its fragments are compiled in order, and the documents are looked at last.  So it
fails because of its statement or of its first fragment without a condition
(`exists_of_compileAll_error`), and because of the documents only if an integer among them or among
the parameters is too long to be written (`exists_not_isWritable_of_run`).  All other errors are told
to the sender, with one exception (`run_failures`): a comparison with `false` spelled with a long s.
-/

namespace Pigeonhole.Query

section Fragments

variable {α : Type} {bindings : List (String × Tree α)} {fragment : List Char}

theorem compile_of_isLongFalse {path token : List Char} {relation : Relation}
    (h : Form.ofFragment? fragment = some (.compares path relation token))
    (hlong : IsLongFalse token) :
    Condition.compile bindings fragment = .error (.malformedLiteral (String.ofList token)) := by
  rw [Condition.compile, h]
  simp only [Form.resolve, resolveOperand_of_isLongFalse hlong]
  rfl

theorem compile_cases (bindings : List (String × Tree α)) (fragment : List Char) :
    (∃ c, Condition.compile bindings fragment = .ok c) ∨
      (∃ e, Documented e ∧ Condition.compile bindings fragment = .error e) ∨
      ∃ path relation token, Form.ofFragment? fragment = some (.compares path relation token) ∧
        IsLongFalse token := by
  unfold Condition.compile
  split
  next form hform =>
    rcases operand_of_form hform with
      ⟨path, token, rfl, htoken⟩ | ⟨path, relation, token, rfl, htoken⟩
    · rcases resolveOperand_cases (.reading htoken) bindings with ⟨v, hv⟩ | ⟨e, he, herror⟩ | hlong
      · exact .inl ⟨.contains (String.ofList path) v, by simp only [Form.resolve, hv]; rfl⟩
      · exact .inr (.inl ⟨e, he, by simp only [Form.resolve, herror]; rfl⟩)
      · exact absurd hlong htoken.not_isLongFalse
    · rcases resolveOperand_cases htoken bindings with ⟨v, hv⟩ | ⟨e, he, herror⟩ | hlong
      · exact .inl ⟨.compares (String.ofList path) relation v, by simp only [Form.resolve, hv]; rfl⟩
      · exact .inr (.inl ⟨e, he, by simp only [Form.resolve, herror]; rfl⟩)
      · exact .inr (.inr ⟨path, relation, token, hform, hlong⟩)
  next => exact .inr (.inl ⟨_, .condition _, rfl⟩)

theorem exists_of_compileAll_error {fragments : List (List Char)} {e : QueryError}
    (h : compileAll bindings fragments = .error e) :
    ∃ before fragment after cs, fragments = before ++ fragment :: after ∧
      compileAll bindings before = .ok cs ∧ Condition.compile bindings fragment = .error e := by
  induction fragments with
  | nil => cases h
  | cons first rest ih =>
    rw [compileAll] at h
    cases hfirst : Condition.compile bindings first with
    | error e' =>
      rw [hfirst] at h
      cases h
      exact ⟨[], first, rest, [], rfl, rfl, hfirst⟩
    | ok c =>
      rw [hfirst] at h
      cases hrest : compileAll bindings rest with
      | ok cs => rw [hrest] at h; cases h
      | error e' =>
        rw [hrest] at h
        cases h
        obtain ⟨before, fragment, after, cs, rfl, hbefore, hfragment⟩ := ih hrest
        refine ⟨first :: before, fragment, after, c :: cs, rfl, ?_, hfragment⟩
        rw [compileAll, hfirst, hbefore]
        rfl

end Fragments

/-- The first fragment without a condition compares with `false` spelled with a long s. -/
def LongFalseFirst {α : Type} (bindings : List (String × Tree α)) (fragments : List (List Char))
    (token : List Char) : Prop :=
  ∃ before fragment after path relation, fragments = before ++ fragment :: after ∧
    (∃ cs, compileAll bindings before = .ok cs) ∧
    Form.ofFragment? fragment = some (.compares path relation token) ∧ IsLongFalse token

section Fragments

variable {α : Type} {bindings : List (String × Tree α)} {fragments : List (List Char)}

theorem compileAll_of_longFalseFirst {token : List Char}
    (h : LongFalseFirst bindings fragments token) :
    compileAll bindings fragments = .error (.malformedLiteral (String.ofList token)) := by
  obtain ⟨before, fragment, after, path, relation, rfl, ⟨cs, hbefore⟩, hform, hlong⟩ := h
  exact compileAll_append_cons_of_error hbefore (compile_of_isLongFalse hform hlong)

theorem compileAll_cases (bindings : List (String × Tree α)) (fragments : List (List Char)) :
    (∃ cs, compileAll bindings fragments = .ok cs) ∨
      (∃ e, Documented e ∧ compileAll bindings fragments = .error e) ∨
      ∃ token, LongFalseFirst bindings fragments token := by
  cases hall : compileAll bindings fragments with
  | ok cs => exact .inl ⟨cs, rfl⟩
  | error e =>
    obtain ⟨before, fragment, after, cs, rfl, hbefore, hfragment⟩ := exists_of_compileAll_error hall
    rcases compile_cases bindings fragment with
      ⟨c, hc⟩ | ⟨e', he', hfragment'⟩ | ⟨path, relation, token, hform, hlong⟩
    · rw [hc] at hfragment
      cases hfragment
    · rw [hfragment'] at hfragment
      cases hfragment
      exact .inr (.inl ⟨e, he', rfl⟩)
    · exact .inr (.inr ⟨token, before, fragment, after, path, relation, rfl, ⟨cs, hbefore⟩, hform,
        hlong⟩)

end Fragments

theorem ofSpec_cases (spec : Spec) :
    (∃ query, Parsed.ofSpec spec = .ok query) ∨
      ∃ e, Documented e ∧ Parsed.ofSpec spec = .error e := by
  unfold Parsed.ofSpec
  split
  next statement _ =>
    split
    next => exact .inl ⟨_, rfl⟩
    next hlong => exact .inr ⟨_, .long (Nat.lt_of_not_le hlong), rfl⟩
  next => exact .inr ⟨_, .query _, rfl⟩

theorem run_of_longFalseFirst {spec : Spec} {query : Parsed} {token : List Char}
    (hquery : Parsed.ofSpec spec = .ok query)
    (h : LongFalseFirst query.bindings query.fragments token) (documents : List Json) :
    Spec.run spec documents = .error (.malformedLiteral (String.ofList token)) := by
  simp only [Spec.run, hquery, bind, Except.bind, Parsed.execute, compileAll_of_longFalseFirst h]

theorem run_of_ofSpec {spec : Spec} {query : Parsed} (hquery : Parsed.ofSpec spec = .ok query)
    (documents : List Json) :
    Spec.run spec documents =
      (found query.bindings query.fragments documents).map query.shape.select := by
  simp only [Spec.run, hquery, bind, Except.bind, Parsed.execute_eq]

/-- A query that is read and whose fragments have conditions is answered, or an integer is too long
to be written. -/
theorem run_of_compileAll {spec : Spec} {query : Parsed} (hquery : Parsed.ofSpec spec = .ok query)
    {cs : List (Condition Empty)} (hcs : compileAll query.bindings query.fragments = .ok cs)
    (documents : List Json) :
    (∃ answer, Spec.run spec documents = .ok answer) ∨
      Spec.run spec documents = .error .unwritable ∧
        ∃ d ∈ documents, isConclusive cs d = false := by
  rw [run_of_ofSpec hquery, found_of_compileAll hcs]
  rcases forall_or_exists_not_conclusive cs documents with hall | hexists
  · exact .inl ⟨_, by rw [meeting_of_conclusive hall]; rfl⟩
  · exact .inr ⟨by rw [meeting_of_not_conclusive hexists]; rfl, hexists⟩

theorem bindings_of_ofSpec {spec : Spec} {query : Parsed} (h : Parsed.ofSpec spec = .ok query) :
    query.bindings = spec.bindings := by
  unfold Parsed.ofSpec at h
  split at h
  · split at h
    · obtain rfl := Except.ok.inj h
      rfl
    · cases h
  · cases h

theorem not_documented_unwritable : ¬ Documented .unwritable := fun h => nomatch h

/-- An integer that is too long to be written stands in a document or in the value of a parameter. -/
theorem exists_not_isWritable_of_run {spec : Spec} {documents : List Json}
    (h : Spec.run spec documents = .error .unwritable) :
    (∃ d ∈ documents, d.isWritable = false) ∨
      ∃ binding ∈ spec.parameters, binding.2.isWritable = false := by
  rcases ofSpec_cases spec with ⟨query, hquery⟩ | ⟨e, he, herror⟩
  · rcases compileAll_cases query.bindings query.fragments with
      ⟨cs, hcs⟩ | ⟨e, he, herror⟩ | ⟨token, htoken⟩
    · rcases run_of_compileAll hquery hcs documents with ⟨answer, hanswer⟩ | ⟨-, d, hd, hfalse⟩
      · rw [hanswer] at h
        cases h
      · by_contra hnone
        simp only [not_or, not_exists, not_and, Bool.not_eq_false] at hnone
        rw [bindings_of_ofSpec hquery] at hcs
        have hconclusive := isConclusive_of_compileAll hcs
          (fun binding hb => hnone.2 binding (mem_of_mem_assignAll hb)) (hnone.1 d hd)
        rw [hconclusive] at hfalse
        cases hfalse
    · rw [run_of_ofSpec hquery, found_of_error herror] at h
      obtain rfl := Except.error.inj h
      exact absurd he not_documented_unwritable
    · rw [run_of_longFalseFirst hquery htoken] at h
      cases h
  · simp only [Spec.run, herror, bind, Except.bind, Except.error.injEq] at h
    subst h
    exact absurd he not_documented_unwritable

/-- Every query is answered or refused with an error that is told, unless its first fragment without
a condition compares with `false` spelled with a long s: then the literal is what fails.  Beyond that
only an integer of a document or of a parameter can be too long to be compared. -/
theorem run_failures (spec : Spec) (documents : List (List (String × Json))) :
    let run := Spec.run spec (documents.map .obj)
    let stray (token : List Char) := ∃ query, Parsed.ofSpec spec = .ok query ∧
      LongFalseFirst query.bindings query.fragments token
    (((∃ found, run = .ok found) ∨ (∃ e, Documented e ∧ run = .error e) ∨
        run = .error .unwritable) ↔ ∀ token, ¬ stray token) ∧
      (∀ token, stray token → run = .error (.malformedLiteral (String.ofList token))) ∧
      (run = .error .unwritable → (∃ ms ∈ documents, (Tree.obj ms : Json).isWritable = false) ∨
        ∃ binding ∈ spec.parameters, binding.2.isWritable = false) := by
  intro run stray
  have hstray : ∀ token, stray token → run = .error (.malformedLiteral (String.ofList token)) := by
    rintro token ⟨query, hquery, hfirst⟩
    exact run_of_longFalseFirst hquery hfirst _
  refine ⟨⟨?_, fun hnone => ?_⟩, hstray, fun h => ?_⟩
  · rintro hrun token htoken
    have hfailed := hstray token htoken
    rcases hrun with ⟨found, hok⟩ | ⟨e, he, herror⟩ | hlong
    · rw [hok] at hfailed
      cases hfailed
    · rw [herror] at hfailed
      cases hfailed
      cases he
    · rw [hlong] at hfailed
      cases hfailed
  · rcases ofSpec_cases spec with ⟨query, hquery⟩ | ⟨e, he, herror⟩
    · rcases compileAll_cases query.bindings query.fragments with
        ⟨cs, hcs⟩ | ⟨e, he, herror⟩ | ⟨token, htoken⟩
      · exact (run_of_compileAll hquery hcs _).imp_right fun h => .inr h.1
      · refine .inr (.inl ⟨e, he, ?_⟩)
        simp only [run, run_of_ofSpec hquery, found_of_error herror]
        rfl
      · exact absurd ⟨query, hquery, htoken⟩ (hnone token)
    · refine .inr (.inl ⟨e, he, ?_⟩)
      simp only [run, Spec.run, herror, bind, Except.bind]
  · exact (exists_not_isWritable_of_run h).imp_left fun ⟨d, hd, hfalse⟩ => by
      obtain ⟨ms, hms, rfl⟩ := List.mem_map.1 hd
      exact ⟨ms, hms, hfalse⟩

/-- The form of `c.a = falſe` is that of a comparison, but its literal has no value. -/
theorem long_false_malformed :
    Spec.run { text := "SELECT * FROM c WHERE c.a = falſe" }
      [.obj [("id", .str "1"), ("a", .bool false)]] = .error (.malformedLiteral "falſe") := by
  have hparse : Statement.parse? "SELECT * FROM c WHERE c.a = falſe".toList =
      some { shape := .all none, clause := some "c.a = falſe".toList } := by decide +kernel
  have hfragments : fragments "c.a = falſe".toList = ["c.a = falſe".toList] := by decide +kernel
  have hform : Form.ofFragment? "c.a = falſe".toList =
      some (.compares ['a'] .eq "falſe".toList) := by decide +kernel
  have hlong : IsLongFalse "falſe".toList := ⟨by decide, by decide⟩
  have hquery : Parsed.ofSpec { text := "SELECT * FROM c WHERE c.a = falſe" } =
      .ok { text := "SELECT * FROM c WHERE c.a = falſe"
            shape := .all none
            fragments := ["c.a = falſe".toList]
            bindings := [] } := by
    rw [Parsed.ofSpec, hparse]
    simp only [Statement.fragments, hfragments]
    rfl
  exact run_of_longFalseFirst hquery
    ⟨[], _, [], ['a'], .eq, rfl, ⟨[], rfl⟩, hform, hlong⟩ _

end Pigeonhole.Query
