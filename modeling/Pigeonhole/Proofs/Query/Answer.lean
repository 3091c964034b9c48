import Pigeonhole.Proofs.Json.Same
import Pigeonhole.Proofs.Query.Failures

/-!
# Answers from JSON

`Parsed.answer` answers a query from values of any kind and may fail at one of them.  The values that
are JSON objects are answered as `Parsed.execute` answers them (`answer_objects`): operands,
conditions and their tests are the same among JSON values as among all values, and a condition has an
outcome on every JSON value of which it can be told (`holds?_ofJson`).

So a query fails with the error of its first fragment without a condition, whatever it is asked of,
and otherwise only if it cannot be told of a document (`answer_failures`).
-/

namespace Pigeonhole

/-! ## JSON values among all values -/

namespace Query

/-- Bindings to JSON values among those to all values. -/
def bindingsOfJson (bindings : List Binding) : List (String × Value) :=
  bindings.map fun (name, j) => (name, Tree.ofJson j)

theorem lookup_bindingsOfJson (bindings : List Binding) (name : String) :
    (bindingsOfJson bindings).lookup name = (bindings.lookup name).map Tree.ofJson := by
  induction bindings with
  | nil => rfl
  | cons binding rest ih =>
    obtain ⟨key, j⟩ := binding
    rw [bindingsOfJson, List.map_cons, List.lookup_cons, List.lookup_cons]
    cases name == key with
    | true => rfl
    | false => exact ih

/-! ## Conditions -/

theorem constant?_ofJson (token : List Char) :
    (constant? token : Option Value) = (constant? token : Option Json).map Tree.ofJson := by
  simp only [constant?]
  repeat' split
  all_goals rfl

theorem literal_ofJson (token : List Char) :
    (literal token : Except QueryError Value) =
      (literal token : Except QueryError Json).map Tree.ofJson := by
  unfold literal
  split
  next => rfl
  next =>
    rw [constant?_ofJson]
    cases (constant? token : Option Json) with
    | some v => rfl
    | none => cases numeral token <;> rfl

theorem resolveOperand_ofJson (bindings : List Binding) (token : List Char) :
    resolveOperand (bindingsOfJson bindings) token =
      (resolveOperand bindings token).map Tree.ofJson := by
  unfold resolveOperand
  split
  next =>
    simp only [lookup_bindingsOfJson]
    cases bindings.lookup (String.ofList token) <;> rfl
  next => exact literal_ofJson token

namespace Condition

/-- A condition with a JSON value among those with any value. -/
def ofJson : Condition Empty → Condition Foreign
  | contains path value => .contains path (Tree.ofJson value)
  | compares path relation value => .compares path relation (Tree.ofJson value)

theorem compile_ofJson (bindings : List Binding) (fragment : List Char) :
    compile (bindingsOfJson bindings) fragment = (compile bindings fragment).map ofJson := by
  unfold compile
  split
  next form _ =>
    cases form with
    | contains path token =>
      simp only [Form.resolve, resolveOperand_ofJson]
      cases resolveOperand bindings token <;> rfl
    | compares path relation token =>
      simp only [Form.resolve, resolveOperand_ofJson]
      cases resolveOperand bindings token <;> rfl
  next => rfl

theorem containsText_ofJson (field : Option Json) (value : Json) :
    containsText (field.map Tree.ofJson : Option Value) (Tree.ofJson value) =
      containsText field value := by
  cases field with
  | none => rfl
  | some v =>
    cases v with
    | str s => cases value <;> first | rfl | contradiction
    | foreign leaf => cases leaf
    | _ => rfl

theorem inOrder_ofJson (relation : Relation) (field : Option Json) (value : Json) :
    inOrder relation (field.map Tree.ofJson : Option Value) (Tree.ofJson value) =
      inOrder relation field value := by
  cases field with
  | none => rfl
  | some v =>
    cases v with
    | num a => cases value <;> first | rfl | contradiction
    | foreign leaf => cases leaf
    | _ => rfl

/-- A condition on JSON values has an outcome if it can be told. -/
theorem holds?_ofJson (c : Condition Empty) (document : Json) :
    c.ofJson.holds? (Tree.ofJson document) =
      if c.isComparable document then .ok (c.holds document) else .error .longInteger := by
  cases c with
  | contains path value =>
    rw [ofJson, holds?, Tree.resolve_ofJson, containsText_ofJson, holds]
    rfl
  | compares path relation value =>
    cases relation with
    | eq =>
      rw [ofJson, holds?, Tree.resolve_ofJson, holds, isComparable]
      cases document.resolve path with
      | none => rfl
      | some v => exact Json.same?_ofJson v value
    | _ => exact congrArg Except.ok (by rw [Tree.resolve_ofJson]; exact inOrder_ofJson _ _ _)

end Condition

theorem compileAll_ofJson (bindings : List Binding) (fragments : List (List Char)) :
    compileAll (bindingsOfJson bindings) fragments =
      (compileAll bindings fragments).map (List.map Condition.ofJson) := by
  induction fragments with
  | nil => rfl
  | cons fragment rest ih =>
    rw [compileAll, compileAll, Condition.compile_ofJson, ih]
    cases Condition.compile bindings fragment with
    | error e => rfl
    | ok c => cases compileAll bindings rest <;> rfl

/-! ## Answers -/

theorem meetsAll?_ofJson (cs : List (Condition Empty)) (document : Json) :
    meetsAll? (cs.map .ofJson) (Tree.ofJson document) =
      if isConclusive cs document then .ok (cs.all (·.holds document)) else .error .longInteger := by
  induction cs with
  | nil => rfl
  | cons c cs ih =>
    rw [List.map_cons, meetsAll?, Condition.holds?_ofJson, List.all_cons, isConclusive]
    cases c.isComparable document with
    | false => rfl
    | true =>
      cases c.holds document with
      | true => exact ih
      | false => rfl

theorem meeting?_ofJson (cs : List (Condition Empty)) (documents : List Json) :
    meeting? (cs.map .ofJson) (documents.map Tree.ofJson) =
      if documents.all (isConclusive cs) then .ok ((satisfying cs documents).map Tree.ofJson)
      else .error .longInteger := by
  induction documents with
  | nil => rfl
  | cons document rest ih =>
    rw [List.map_cons, meeting?, meetsAll?_ofJson, satisfying, List.filter_cons, List.all_cons, ih]
    cases isConclusive cs document with
    | false => rfl
    | true => cases cs.all (·.holds document) <;> cases rest.all (isConclusive cs) <;> rfl

theorem select_ofJson (shape : Shape) (found : List Json) :
    shape.select (found.map (Tree.ofJson : Json → Value)) =
      (shape.select found).map Tree.ofJson := by
  have hentry : ∀ d : Json, idEntry (Tree.ofJson d : Value) = Tree.ofJson (idEntry d) := by
    intro d
    rw [idEntry, idEntry, Tree.member?_ofJson]
    cases d.member? "id" <;> rfl
  cases shape with
  | count =>
    rw [Shape.select, Shape.select, List.length_map]
    rfl
  | ids =>
    rw [Shape.select, Shape.select, List.map_map, List.map_map]
    exact List.map_congr_left fun d _ => hentry d
  | all limit =>
    cases limit with
    | none => rfl
    | some n => rw [Shape.select, Shape.select, List.map_take]

/-- JSON objects among all values. -/
def objects (documents : List (List (String × Json))) : List Value :=
  documents.map fun members => Tree.ofJson (.obj members)

section Answers

variable {query : Parsed}

theorem answer_of_error {e : QueryError}
    (h : compileAll query.bindings query.fragments = .error e) (documents : List Value) :
    query.answer documents = .error (.query e) := by
  have hcompile := compileAll_ofJson query.bindings query.fragments
  rw [bindingsOfJson, h] at hcompile
  rw [Parsed.answer, hcompile]
  rfl

/-- JSON objects are answered as JSON, unless it cannot be told of one of them. -/
theorem answer_objects {cs : List (Condition Empty)}
    (h : compileAll query.bindings query.fragments = .ok cs)
    (documents : List (List (String × Json))) :
    query.answer (objects documents) =
      if (documents.map .obj).all (isConclusive cs) then
        .ok ((query.shape.select (satisfying cs (documents.map .obj))).map Tree.ofJson)
      else .error (.noText .longInteger) := by
  have hobjects : objects documents = (documents.map .obj).map Tree.ofJson := by
    rw [objects, List.map_map]
    rfl
  have hcompile := compileAll_ofJson query.bindings query.fragments
  rw [bindingsOfJson, h] at hcompile
  have hall : ((satisfying cs (documents.map .obj)).map Tree.ofJson).all isObject = true := by
    rw [List.all_eq_true]
    intro v hv
    obtain ⟨d, hd, rfl⟩ := List.mem_map.1 hv
    obtain ⟨members, -, rfl⟩ := List.mem_map.1 (List.mem_of_mem_filter hd)
    rfl
  have hmeeting := meeting?_ofJson cs (documents.map .obj)
  rw [Parsed.answer, hcompile, hobjects]
  simp only [Except.map, hmeeting]
  split
  next hfound =>
    split at hfound
    · cases hfound
    next hnot =>
      obtain rfl := Except.error.inj hfound
      rw [if_neg hnot]
  next hfound =>
    split at hfound
    next hcan =>
      -- only objects are asked for their ids
      obtain rfl := Except.ok.inj hfound
      rw [hall, Bool.not_true, Bool.and_false, if_neg Bool.false_ne_true, select_ofJson, if_pos hcan]
    · cases hfound

end Answers

/-! ## Failures -/

section Failures

variable {α : Type}

/-- The first fragment without a condition is refused with an error. -/
def FirstRefused (bindings : List (String × Tree α)) (fragments : List (List Char))
    (e : QueryError) : Prop :=
  ∃ before fragment after, fragments = before ++ fragment :: after ∧
    (∀ f ∈ before, ∃ c, Condition.compile bindings f = .ok c) ∧
    Condition.compile bindings fragment = .error e

theorem compileAll_eq_error_iff {bindings : List (String × Tree α)} {fragments : List (List Char)}
    {e : QueryError} :
    compileAll bindings fragments = .error e ↔ FirstRefused bindings fragments e := by
  constructor
  · intro h
    obtain ⟨before, fragment, after, cs, hfragments, hbefore, hfragment⟩ :=
      exists_of_compileAll_error h
    exact ⟨before, fragment, after, hfragments, exists_compileAll_iff.1 ⟨cs, hbefore⟩, hfragment⟩
  · rintro ⟨before, fragment, after, rfl, hbefore, hfragment⟩
    obtain ⟨cs, hcs⟩ := exists_compileAll_iff.2 hbefore
    exact compileAll_append_cons_of_error hcs hfragment

end Failures

section

variable {query : Parsed}

theorem execute_eq_error_iff {documents : List Json} {e : QueryError} :
    query.execute documents = .error e ↔ FirstRefused query.bindings query.fragments e ∨
      e = .unwritable ∧ ∃ d ∈ documents, query.isConclusive d = false := by
  rw [← compileAll_eq_error_iff]
  cases hcompile : compileAll query.bindings query.fragments with
  | error e' =>
    simp [Parsed.execute_of_error hcompile, Parsed.isConclusive, hcompile]
  | ok cs =>
    simp only [Parsed.execute_of_ok hcompile, Parsed.isConclusive, hcompile, reduceCtorEq, false_or]
    rcases forall_or_exists_not_conclusive cs documents with hall | hexists
    · rw [meeting_of_conclusive hall]
      refine iff_of_false (fun h => by cases h) ?_
      rintro ⟨-, d, hd, hfalse⟩
      exact Bool.false_ne_true (hfalse.symm.trans (hall d hd))
    · rw [meeting_of_not_conclusive hexists]
      simp only [Except.map, Except.error.injEq, hexists, and_true]
      exact eq_comm

theorem answer_eq_error_iff {documents : List (List (String × Json))} {e : AnswerError} :
    query.answer (objects documents) = .error e ↔
      (∃ e', e = .query e' ∧ FirstRefused query.bindings query.fragments e') ∨
        e = .noText .longInteger ∧ ∃ ms ∈ documents, query.isConclusive (.obj ms) = false := by
  simp only [← compileAll_eq_error_iff]
  cases hcompile : compileAll query.bindings query.fragments with
  | error e' =>
    simp only [answer_of_error hcompile, Parsed.isConclusive, hcompile, Except.error.injEq,
      reduceCtorEq, and_false, exists_false, or_false]
    exact ⟨fun h => ⟨e', h.symm, rfl⟩, fun ⟨e'', h, heq⟩ => by rw [h, heq]⟩
  | ok cs =>
    have htold : (∃ ms ∈ documents, isConclusive cs (.obj ms) = false) ↔
        ¬ (documents.map Tree.obj).all (isConclusive cs) = true := by
      simp
    simp only [answer_objects hcompile, Parsed.isConclusive, hcompile, reduceCtorEq, and_false,
      exists_false, false_or, htold]
    split
    next hcan => simp [hcan]
    next hnot => exact ⟨fun h => ⟨(Except.error.inj h).symm, hnot⟩, fun h => by rw [h.1]⟩

/-- Whatever JSON objects a query is asked of, it fails with the error of its first fragment without
a condition; if all fragments have one, it fails only if it cannot be told of an object, and it can
where the parameters and the object can be written.  A condition with a JSON value has an outcome on
every JSON value of which it can be told. -/
theorem answer_failures (query : Parsed) :
    (∀ (documents : List (List (String × Json))) (e : AnswerError),
      query.answer (objects documents) = .error e ↔
        (∃ e', e = .query e' ∧ FirstRefused query.bindings query.fragments e') ∨
          e = .noText .longInteger ∧ ∃ ms ∈ documents, query.isConclusive (.obj ms) = false) ∧
    (∀ (documents : List Json) (e : QueryError),
      query.execute documents = .error e ↔ FirstRefused query.bindings query.fragments e ∨
        e = .unwritable ∧ ∃ d ∈ documents, query.isConclusive d = false) ∧
    (∀ documents others : List (List (String × Json)),
      (∀ ms ∈ documents, query.isConclusive (.obj ms) = true) →
      (∀ ms ∈ others, query.isConclusive (.obj ms) = true) → ∀ e : AnswerError,
        query.answer (objects documents) = .error e ↔ query.answer (objects others) = .error e) ∧
    ((∀ binding ∈ query.bindings, binding.2.isWritable = true) →
      ∀ d : Json, d.isWritable = true → query.isConclusive d = true) ∧
    ∀ (bindings : List Binding) (fragment : List Char) (c : Condition Foreign),
      Condition.compile (bindingsOfJson bindings) fragment = .ok c →
        ∃ c' : Condition Empty, Condition.compile bindings fragment = .ok c' ∧
          ∀ document : Json, c.holds? (Tree.ofJson document) =
            if c'.isComparable document then .ok (c'.holds document)
            else .error .longInteger := by
  refine ⟨fun _ _ => answer_eq_error_iff, fun _ _ => execute_eq_error_iff, ?_,
    fun hbindings d hd => Parsed.isConclusive_of_isWritable hbindings hd, ?_⟩
  · intro documents others hdocuments hothers e
    have hnone : ∀ documents : List (List (String × Json)),
        (∀ ms ∈ documents, query.isConclusive (.obj ms) = true) →
        (query.answer (objects documents) = .error e ↔
          ∃ e', e = .query e' ∧ FirstRefused query.bindings query.fragments e') := by
      intro documents htold
      rw [answer_eq_error_iff, or_iff_left]
      rintro ⟨-, ms, hms, hfalse⟩
      exact Bool.false_ne_true (hfalse.symm.trans (htold ms hms))
    exact (hnone documents hdocuments).trans (hnone others hothers).symm
  · intro bindings fragment c h
    rw [Condition.compile_ofJson] at h
    cases hcompile : Condition.compile bindings fragment with
    | error e =>
      rw [hcompile] at h
      cases h
    | ok c' =>
      rw [hcompile] at h
      obtain rfl := Except.ok.inj h
      exact ⟨c', rfl, Condition.holds?_ofJson c'⟩

end

/-- A parameter that is not bound is missed whether there are documents or not. -/
theorem answer_failures_missing :
    let query : Parsed :=
      { text := "SELECT * FROM c WHERE c.a = 1 AND c.b = @b"
        shape := .all none
        fragments := ["c.a = 1".toList, "c.b = @b".toList]
        bindings := [("@a", .null)] }
    query.answer (objects []) = .error (.query (.missingParameter "@b")) ∧
      query.answer (objects [[("a", .null)]]) = .error (.query (.missingParameter "@b")) := by
  intro query
  have hempty : query.answer (objects []) = .error (.query (.missingParameter "@b")) :=
    ((answer_failures query).1 [] _).2 (.inl ⟨_, rfl, ["c.a = 1".toList], "c.b = @b".toList, [], rfl,
      by decide, rfl⟩)
  have htold : ∀ ms ∈ [[("a", Tree.null)]], query.isConclusive (.obj ms) = true := by
    decide +kernel
  exact ⟨hempty, ((answer_failures query).2.2.1 [] _ (List.forall_mem_nil _) htold _).1 hempty⟩

theorem answer_of_not_isWritable {v : Json} (hv : v.isWritable = false) :
    let query : Parsed :=
      { text := "SELECT * FROM c WHERE c.a = @x"
        shape := .all none
        fragments := ["c.a = @x".toList]
        bindings := [("@x", v)] }
    query.answer (objects []) = .ok [] ∧
      query.answer (objects [[("a", Tree.int 1)]]) = .error (.noText .longInteger) := by
  intro query
  have hcompile : compileAll query.bindings query.fragments = .ok [.compares "a" .eq v] := by
    have hfield : IsFieldPath "a" := by decide +kernel
    have hname : IsParameterName "@x" := ⟨['x'], rfl, by decide, by decide +kernel⟩
    have hbound : query.bindings.lookup "@x" = some v := rfl
    have hcondition := compile_compares hfield hname hbound .eq
    rw [show ("c." ++ "a" ++ " " ++ Relation.eq.symbol ++ " " ++ "@x").toList =
      "c.a = @x".toList by decide +kernel] at hcondition
    rw [show query.fragments = ["c.a = @x".toList] from rfl, compileAll, hcondition]
    rfl
  have htold : query.isConclusive (.obj [("a", Tree.int 1)]) = false := by
    have hfield : (.obj [("a", Tree.int 1)] : Json).resolve "a" = some (Tree.int 1) := rfl
    simp only [Parsed.isConclusive, hcompile, isConclusive,
      Condition.isComparable_of_not_isWritable hfield hv, Bool.false_and]
  refine ⟨answer_objects hcompile [], ((answer_failures query).1 _ _).2 (.inr ⟨rfl, ?_⟩)⟩
  exact ⟨_, List.mem_singleton_self _, htold⟩

/-- A parameter that is too long to be written fails if there is a document to compare it with. -/
theorem long_parameter_fails_late :
    let query : Parsed :=
      { text := "SELECT * FROM c WHERE c.a = @x"
        shape := .all none
        fragments := ["c.a = @x".toList]
        bindings := [("@x", Tree.int (tenPow Numeral.maxDigits))] }
    query.answer (objects []) = .ok [] ∧
      query.answer (objects [[("a", Tree.int 1)]]) = .error (.noText .longInteger) :=
  answer_of_not_isWritable Json.isWritable_tenPow

end Query

end Pigeonhole
