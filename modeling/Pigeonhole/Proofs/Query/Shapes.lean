import Pigeonhole.Proofs.Query.Meeting
import Pigeonhole.Proofs.Query.Statement

/-!
# One condition in every shape

`Shape.statement` writes a condition into a statement of each shape.  Whatever the text of the
condition is, all of them are read with the same clause (`parse?_statement`), so they fail for the
same reason or are answered from the same documents (`run_statements`).  Only a limit with more
digits than integers are read with is refused by itself.
-/

namespace Pigeonhole.Query

open Text

/-! ## Texts -/

/-- The statement of a shape without a condition. -/
def Shape.source : Shape → String
  | .count => "SELECT VALUE COUNT(1) FROM c"
  | .ids => "SELECT c.id FROM c"
  | .all none => "SELECT * FROM c"
  | .all (some n) => "SELECT TOP " ++ String.ofList (natDigits n) ++ " * FROM c"

/-- The statement of a shape with a condition. -/
def Shape.statement (condition : String) (shape : Shape) : String :=
  shape.source ++ " WHERE " ++ condition

/-- The limit that stands in the statement of a shape. -/
def Shape.limit : Shape → Option Int
  | .all limit => limit.map Int.ofNat
  | _ => none

theorem Shape.toList_statement (condition : String) (shape : Shape) :
    (shape.statement condition).toList =
      shape.source.toList ++ (" WHERE ".toList ++ condition.toList) := by
  rw [statement, String.toList_append, String.toList_append, List.append_assoc]

theorem intDigits_ofNat (n : Nat) : intDigits (Int.ofNat n) = natDigits n := by
  have hn : ¬ Int.ofNat n < 0 := by simp
  rw [intDigits, if_neg hn]
  rfl

theorem Shape.toList_source_all (limit : Option Nat) :
    (Shape.all limit).source.toList =
      "SELECT ".toList ++ (limitText (limit.map Int.ofNat) ++ "* FROM c".toList) := by
  cases limit with
  | none => simp [source, limitText]
  | some n =>
    have hdigits : limitText (some (Int.ofNat n)) = "TOP ".toList ++ (natDigits n ++ [' ']) := by
      rw [limitText, intDigits_ofNat]
    rw [Option.map_some, hdigits]
    simp [source]

/-! ## Reading -/

section

variable {s : List Char} {clause : Option (List Char)}

theorem ofTrimmed?_count (h : clause? s = some clause) :
    Statement.ofTrimmed? (Shape.count.source.toList ++ s) = some { shape := .count, clause } := by
  have hsource : Shape.count.source.toList ++ s =
      "SELECT".toList ++ (" VALUE COUNT(1)".toList ++ (" FROM c".toList ++ s)) := by
    simp [Shape.source]
  have hselect : dropKeyword "select".toList
      ("SELECT".toList ++ (" VALUE COUNT(1)".toList ++ (" FROM c".toList ++ s))) =
      some (" VALUE COUNT(1)".toList ++ (" FROM c".toList ++ s)) := rfl
  have hcount : (dropWord "value" (" VALUE COUNT(1)".toList ++ (" FROM c".toList ++ s))).bind
      (dropWord "count(1)") = some (" FROM c".toList ++ s) := rfl
  rw [hsource, Statement.ofTrimmed?, hselect]
  simp only [countTail?, hcount, Option.bind_some, ofSource?_from h, Option.some_or]

theorem ofTrimmed?_ids (h : clause? s = some clause) :
    Statement.ofTrimmed? (Shape.ids.source.toList ++ s) = some { shape := .ids, clause } := by
  have hsource : Shape.ids.source.toList ++ s =
      "SELECT".toList ++ (" c.id".toList ++ (" FROM c".toList ++ s)) := by
    simp [Shape.source]
  have hselect : dropKeyword "select".toList
      ("SELECT".toList ++ (" c.id".toList ++ (" FROM c".toList ++ s))) =
      some (" c.id".toList ++ (" FROM c".toList ++ s)) := rfl
  have hcount : countTail? (" c.id".toList ++ (" FROM c".toList ++ s)) = none := rfl
  have hids : dropWord "c.id" (" c.id".toList ++ (" FROM c".toList ++ s)) =
      some (" FROM c".toList ++ s) := rfl
  rw [hsource, Statement.ofTrimmed?, hselect]
  simp only [hcount, idsTail?, hids, Option.bind_some, ofSource?_from h, Option.some_or,
    Option.none_or]

theorem ofTrimmed?_source (h : clause? s = some clause) (shape : Shape) :
    Statement.ofTrimmed? (shape.source.toList ++ s) =
      some { shape, clause, limitDigits := limitLength shape.limit } := by
  cases shape with
  | count => exact ofTrimmed?_count h
  | ids => exact ofTrimmed?_ids h
  | all limit =>
    have hlimit : ∀ n ∈ limit.map Int.ofNat, 0 ≤ n := by
      cases limit <;> simp
    have hnat : (limit.map Int.ofNat).map Int.toNat = limit := by
      cases limit <;> rfl
    have hread := ofTrimmed?_limit hlimit h
    rw [hnat] at hread
    rw [Shape.toList_source_all, List.append_assoc, List.append_assoc]
    exact hread

end

/-- Every statement of a shape with a condition is read as this shape with this condition, without
blanks at its ends. -/
theorem parse?_statement {condition : String} (h : ∃ c ∈ condition.toList, isBlank c = false)
    (shape : Shape) :
    Statement.parse? (shape.statement condition).toList =
      some { shape, clause := some (stripLeft (stripRight condition.toList))
             limitDigits := limitLength shape.limit } := by
  obtain ⟨c, hc, hblank⟩ := h
  have hne : stripLeft (stripRight condition.toList) ≠ [] :=
    List.ne_nil_of_mem (mem_stripLeft hblank (mem_stripRight hblank hc))
  have hsource : ∃ rest, shape.source.toList = 'S' :: rest := by
    cases shape with
    | all limit => exact ⟨_, Shape.toList_source_all limit⟩
    | _ => exact ⟨_, rfl⟩
  have hleft : ∀ s, stripLeft (shape.source.toList ++ s) = shape.source.toList ++ s := by
    intro s
    obtain ⟨rest, hrest⟩ := hsource
    rw [hrest]
    exact stripLeft_cons_of_not_isBlank (by decide) _
  rw [Statement.parse?, Shape.toList_statement, strip, hleft, ← List.append_assoc,
    stripRight_append hblank hc, List.append_assoc]
  exact ofTrimmed?_source (clause?_where_stripLeft hne) shape

/-! ## Answers -/

theorem run_statement {condition : String} (h : ∃ c ∈ condition.toList, isBlank c = false)
    (shape : Shape) (hfits : limitLength shape.limit ≤ Numeral.maxDigits)
    (parameters : List Binding) (documents : List Json) :
    Spec.run { text := shape.statement condition, parameters } documents =
      (found (assignAll parameters) (fragments (stripLeft (stripRight condition.toList)))
        documents).map shape.select := by
  simp only [Spec.run, Parsed.ofSpec, parse?_statement h, if_pos hfits, bind, Except.bind,
    Parsed.execute_eq, Statement.fragments, Spec.bindings]

theorem run_statement_of_long {condition : String} (h : ∃ c ∈ condition.toList, isBlank c = false)
    (shape : Shape) (hlong : ¬ limitLength shape.limit ≤ Numeral.maxDigits)
    (parameters : List Binding) (documents : List Json) :
    Spec.run { text := shape.statement condition, parameters } documents =
      .error (.longInteger (limitLength shape.limit)) := by
  simp only [Spec.run, Parsed.ofSpec, parse?_statement h, if_neg hlong, bind, Except.bind]

/-- What is found among objects is objects. -/
theorem exists_map_obj_of_found {bindings : List Binding} {fragments : List (List Char)}
    {documents : List (List (String × Json))} {js : List Json}
    (h : found bindings fragments (documents.map .obj) = .ok js) :
    ∃ objects : List (List (String × Json)), js = objects.map .obj := by
  cases hcompile : compileAll bindings fragments with
  | error e => rw [found_of_error hcompile] at h; cases h
  | ok cs =>
    rw [found_of_compileAll hcompile, meeting] at h
    split at h
    · obtain rfl := Except.ok.inj h
      exact ⟨_, List.filter_map⟩
    · cases h

/-- The statements over one condition that is not blank fail for the same reason, or all of them are
answered from the objects that the selection of whole objects finds: with their number, with their
ids, with themselves and with the first of them.  A limit with more digits than are read is refused
for that, whatever the condition is. -/
theorem run_statements {condition : String} (h : ∃ c ∈ condition.toList, isBlank c = false)
    (parameters : List Binding) (n : Nat) (documents : List (List (String × Json))) :
    let run (shape : Shape) :=
      Spec.run { text := shape.statement condition, parameters } (documents.map .obj)
    let fits := (natDigits n).length ≤ Numeral.maxDigits
    ((∃ e, run .count = .error e ∧ run .ids = .error e ∧ run (.all none) = .error e ∧
        (fits → run (.all (some n)) = .error e)) ∨
      ∃ found : List (List (String × Json)),
        run .count = .ok [Tree.int found.length] ∧
        run .ids = .ok (found.map fun d => .obj [("id", (d.lookup "id").getD .null)]) ∧
        run (.all none) = .ok (found.map .obj) ∧
        (fits → run (.all (some n)) = .ok ((found.map .obj).take n))) ∧
    (¬ fits → run (.all (some n)) = .error (.longInteger (natDigits n).length)) := by
  intro run fits
  have hread : ∀ shape : Shape, limitLength shape.limit ≤ Numeral.maxDigits → run shape =
      (Query.found (assignAll parameters) (fragments (stripLeft (stripRight condition.toList)))
        (documents.map .obj)).map shape.select :=
    fun shape hfits => run_statement h shape hfits _ _
  have hshort : limitLength none ≤ Numeral.maxDigits := Nat.zero_le _
  refine ⟨?_, fun hlong => run_statement_of_long h (.all (some n)) hlong _ _⟩
  cases hfound : Query.found (assignAll parameters)
      (fragments (stripLeft (stripRight condition.toList))) (documents.map .obj) with
  | error e =>
    have herror : ∀ shape : Shape, limitLength shape.limit ≤ Numeral.maxDigits →
        run shape = .error e := by
      intro shape hfits
      rw [hread shape hfits, hfound]
      rfl
    exact .inl ⟨e, herror .count hshort, herror .ids hshort, herror (.all none) hshort,
      herror (.all (some n))⟩
  | ok js =>
    obtain ⟨objects, rfl⟩ := exists_map_obj_of_found hfound
    have hanswer : ∀ shape : Shape, limitLength shape.limit ≤ Numeral.maxDigits →
        run shape = .ok (shape.select (objects.map .obj)) := by
      intro shape hfits
      rw [hread shape hfits, hfound]
      rfl
    refine .inr ⟨objects, ?_, ?_, hanswer (.all none) hshort, hanswer (.all (some n))⟩
    · rw [hanswer .count hshort, Shape.select, List.length_map]
    · rw [hanswer .ids hshort, Shape.select, List.map_map]
      rfl

/-- A condition that itself holds the word `WHERE`, a break of line and a parameter, over two objects
of which one has no id. -/
theorem run_statements_nested :
    let condition := "\n c.s = ' WHERE (' AND c.n >= @n "
    let documents : List (List (String × Json)) := [
      [("id", .str "a"), ("s", .str " WHERE ("), ("n", Tree.int 3)],
      [("s", .str " WHERE ("), ("n", Tree.int 2)],
      [("id", .str "b"), ("s", .str " where ("), ("n", Tree.int 3)]]
    let run (shape : Shape) :=
      Spec.run { text := shape.statement condition, parameters := [("@n", Tree.int 2)] }
        (documents.map .obj)
    (∃ c ∈ condition.toList, isBlank c = false) ∧ (natDigits 1).length ≤ Numeral.maxDigits ∧
    ∃ found : List (List (String × Json)),
      run .count = .ok [Tree.int found.length] ∧
      run .ids = .ok (found.map fun d => .obj [("id", (d.lookup "id").getD .null)]) ∧
      run (.all none) = .ok (found.map .obj) ∧
      run (.all (some 1)) = .ok ((found.map .obj).take 1) := by
  intro condition documents run
  have hblank : ∃ c ∈ condition.toList, isBlank c = false := ⟨'c', by decide, by decide⟩
  have hfits : (natDigits 1).length ≤ Numeral.maxDigits := by decide +kernel
  refine ⟨hblank, hfits, ?_⟩
  obtain ⟨hrun, -⟩ := run_statements hblank [("@n", Tree.int 2)] 1 documents
  rcases hrun with ⟨e, hcount, -⟩ | ⟨found, hcount, hids, hall, htop⟩
  · have hanswered : (run .count).toBool = true := by decide +kernel
    have hrefused : (run .count).toBool = false := congrArg Except.toBool hcount
    rw [hanswered] at hrefused
    cases hrefused
  · exact ⟨found, hcount, hids, hall, htop hfits⟩

theorem run_comparison_of_long {n : Nat} (hlong : Numeral.maxDigits < (natDigits n).length) :
    let document : List (String × Json) := [("id", .str "1"), ("a", Tree.int 1)]
    let run (shape : Shape) :=
      Spec.run { text := shape.statement "c.a = @a", parameters := [("@a", Tree.int 1)] }
        [.obj document]
    run (.all none) = .ok [.obj document] ∧
    run (.all (some n)) = .error (.longInteger (natDigits n).length) := by
  intro document run
  have hblank : ∃ c ∈ "c.a = @a".toList, isBlank c = false := ⟨'c', by decide, by decide⟩
  refine ⟨?_, run_statement_of_long hblank (.all (some n)) (Nat.not_le.2 hlong) _ _⟩
  have hfragments : fragments (stripLeft (stripRight "c.a = @a".toList)) =
      [("c." ++ "a" ++ " " ++ Relation.eq.symbol ++ " " ++ "@a").toList] := by decide +kernel
  have hfield : IsFieldPath "a" := by decide +kernel
  have hname : IsParameterName "@a" := ⟨['a'], rfl, by decide, by decide +kernel⟩
  have hbound : (assignAll [("@a", (Tree.int 1 : Json))]).lookup "@a" = some (Tree.int 1) := rfl
  have hcompile : compileAll (assignAll [("@a", (Tree.int 1 : Json))])
      [("c." ++ "a" ++ " " ++ Relation.eq.symbol ++ " " ++ "@a").toList] =
      .ok [.compares "a" .eq (Tree.int 1)] := by
    rw [compileAll, compile_compares hfield hname hbound .eq]
    rfl
  have hmeeting : meeting [.compares "a" .eq (Tree.int 1)] [.obj document] =
      .ok [.obj document] := by
    have hholds : (Condition.compares "a" .eq (Tree.int 1)).holds (.obj document) = true := by
      decide +kernel
    rw [meeting_of_conclusive (List.forall_mem_singleton.2 (by decide +kernel))]
    simp [satisfying, hholds]
  have hrun := run_statement hblank (.all none) (Nat.zero_le _) [("@a", Tree.int 1)] [.obj document]
  rw [hfragments, found_of_compileAll hcompile, hmeeting] at hrun
  exact hrun

/-- A limit of one digit more than are read is refused, where the selection without a limit has an
answer. -/
theorem long_limit_refused :
    let document : List (String × Json) := [("id", .str "1"), ("a", Tree.int 1)]
    let run (shape : Shape) :=
      Spec.run { text := shape.statement "c.a = @a", parameters := [("@a", Tree.int 1)] }
        [.obj document]
    run (.all none) = .ok [.obj document] ∧
    run (.all (some (tenPow Numeral.maxDigits))) =
      .error (.longInteger (natDigits (tenPow Numeral.maxDigits)).length) :=
  run_comparison_of_long (lt_length_natDigits_tenPow Numeral.maxDigits)

end Pigeonhole.Query
