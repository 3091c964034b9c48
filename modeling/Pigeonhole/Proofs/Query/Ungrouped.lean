import Pigeonhole.Proofs.Query.Conjunction
import Pigeonhole.Proofs.Query.Named

/-!
# Conditions without grouping parentheses

Fragments that name a parameter, joined by `AND` as they are.  The condition is cut exactly between
them, but then every piece loses a parenthesis at its end, grouping or not (`fragments_ungrouped`).
So a `CONTAINS` is understood at no place of such a condition, and the first one is the error of the
statement; without one the answer is that of all comparisons (`run_ungrouped`).
-/

namespace Pigeonhole.Query

open Text

/-! ## Groups -/

/-- No group ends in front of a text. -/
def Continues (tail : List Char) : Prop := groupedAnd (')' :: tail) = none

theorem continues_nil : Continues [] := rfl

/-- Behind a joint no group begins but with a parenthesis. -/
theorem Joint.continues (j : Joint) {s : List Char} (hblank : ∀ c ∈ s.head?, isBlank c = false)
    (hne : s.head? ≠ some '(') : Continues (j.text ++ s) := by
  rw [Continues, groupedAnd, j.plainAnd_append hblank]
  cases s with
  | nil => rfl
  | cons c s =>
    have hc : c ≠ '(' := fun h => hne (by rw [List.head?_cons, h])
    split
    · rename_i heq
      exact absurd (List.cons.inj (Option.some.inj heq)).1 hc
    · rfl

/-- A condition whose pieces are not cut between parentheses does not look like a group. -/
theorem contains_groupMark_joined {first : List Char} {more : List (Joint × List Char)}
    (huncut : ∀ s ∈ first :: more.map (·.2), ∀ tail, Continues tail → Uncut groupedAnd s tail)
    (hne : ∀ s ∈ first :: more.map (·.2), s ≠ []) (hneat : ∀ s ∈ first :: more.map (·.2), Neat s) :
    contains groupMark (joined Joint.text first more) = false := by
  refine contains_groupMark_eq_false ?_
  induction more generalizing first with
  | nil => exact huncut first List.mem_cons_self [] continues_nil
  | cons entry more ih =>
    obtain ⟨j, next⟩ := entry
    rw [List.map_cons, List.forall_mem_cons] at huncut hne hneat
    have hnext := hneat.2 next List.mem_cons_self
    have hhead : (joined Joint.text next more).head? = next.head? :=
      head?_joined (hne.2 next List.mem_cons_self) more
    have hjoint : Uncut groupedAnd j.text (joined Joint.text next more ++ []) :=
      uncut_of_forall (fun c hc s => groupedAnd_of_ne (j.ne_parenthesis c hc).2 s) _
    rw [joined, uncut_append, uncut_append]
    refine ⟨huncut.1 _ ?_, hjoint, ih huncut.2 hne.2 hneat.2⟩
    rw [List.append_nil]
    refine j.continues ?_ ?_ <;> rw [hhead]
    · exact hnext.first_not_blank
    · exact hnext.first_ne

theorem Named.uncut_groupedAnd_text (n : Named) {tail : List Char} (h : Continues tail) :
    Uncut groupedAnd n.text tail := by
  have hbare : ∀ t, Uncut groupedAnd n.bare t :=
    uncut_of_forall fun c hc s => groupedAnd_of_ne (n.bare_ne_closing c hc) s
  rcases n.text_eq with htext | htext <;> rw [htext]
  · exact hbare tail
  · exact uncut_append.2 ⟨hbare _, h, trivial⟩

/-! ## Fragments -/

/-- Fragments as they are written, with one `AND` between them. -/
def ungrouped (named : List Named) : List Char := joinWith " AND ".toList (named.map Named.text)

theorem ungrouped_cons (n : Named) (named : List Named) :
    ungrouped (n :: named) =
      joined Joint.text n.text ((named.map Named.text).map fun s => (Joint.and, s)) :=
  joinWith_eq_joined Joint.text .and n.text (named.map Named.text)

/-- The fragments of a condition are neat, so it is neat itself and does not look like a group. -/
theorem neat_ungrouped (n : Named) (named : List Named) : Neat (ungrouped (n :: named)) := by
  rw [ungrouped_cons]
  refine neat_joined ?_ ?_ <;> rw [map_snd_marked, ← List.map_cons, List.forall_mem_map]
  · exact fun m _ => m.text_ne_nil
  · exact fun m _ => m.neat_text

theorem ungrouped_ne_nil (n : Named) (named : List Named) : ungrouped (n :: named) ≠ [] := by
  rw [ungrouped_cons, Ne, ← List.head?_eq_none_iff, head?_joined n.text_ne_nil,
    List.head?_eq_none_iff]
  exact n.text_ne_nil

theorem contains_groupMark_ungrouped (n : Named) (named : List Named) :
    contains groupMark (ungrouped (n :: named)) = false := by
  rw [ungrouped_cons]
  refine contains_groupMark_joined ?_ ?_ ?_ <;>
    rw [map_snd_marked, ← List.map_cons, List.forall_mem_map]
  · exact fun m _ tail => m.uncut_groupedAnd_text
  · exact fun m _ => m.text_ne_nil
  · exact fun m _ => m.neat_text

theorem splitBy_plainAnd_ungrouped (n : Named) (named : List Named) :
    splitBy plainAnd (ungrouped (n :: named)) = (n :: named).map Named.text := by
  rw [ungrouped_cons, splitBy_plainAnd_joined, map_snd_marked, List.map_cons]
  · rw [map_snd_marked, ← List.map_cons, List.forall_mem_map]
    exact fun m _ tail _ => m.uncut_plainAnd_text tail
  · rw [map_snd_marked, List.forall_mem_map]
    exact fun m _ => ⟨m.text_ne_nil, m.neat_text.first_not_blank⟩

/-- Every fragment of such a condition is without the parenthesis at its end. -/
theorem fragments_ungrouped {named : List Named} (hne : named ≠ []) :
    fragments (ungrouped named) = named.map Named.bare := by
  obtain ⟨n, named, rfl⟩ := List.exists_cons_of_ne_nil hne
  refine fragments_of_map_unwrap ?_ (List.forall_mem_map.2 fun m _ => m.bare_ne_nil)
  rw [conjuncts, (neat_ungrouped n named).strip_eq, contains_groupMark_ungrouped,
    if_neg Bool.false_ne_true, splitBy_plainAnd_ungrouped, List.map_map]
  refine List.map_congr_left fun m _ => ?_
  have hunwrap : unwrap ([] ++ m.text) = m.bare := m.unwrap_text (.inl rfl)
  rwa [List.nil_append] at hunwrap

/-- The fragments are whole if none of them is a `CONTAINS`. -/
theorem map_bare_eq_iff {named : List Named} :
    named.map Named.bare = named.map Named.text ↔ ∀ n ∈ named, n.operator ≠ .contains := by
  have hone : ∀ n : Named, n.bare = n.text ↔ n.operator ≠ .contains := by
    intro n
    cases h : n.operator with
    | relation r => simp [n.text_of_relation h]
    | contains => simp [n.text_of_contains h]
  rw [List.map_inj_left]
  exact forall₂_congr fun n _ => hone n

theorem Named.value_condition (n : Named) (v : Json) : (n.condition v).value = v := by
  cases hop : n.operator <;> simp only [Named.condition, hop] <;> rfl

/-! ## Statements -/

/-- The selection of the documents that meet a condition without grouping parentheses. -/
def ungroupedSpec (named : List Named) (parameters : List Binding) : Spec where
  text := (Shape.all none).statement (String.ofList (ungrouped named))
  parameters := parameters

section

variable {named : List Named} {parameters : List Binding} {values : String → Json}

theorem run_ungroupedSpec_eq (hne : named ≠ []) (documents : List Json) :
    (ungroupedSpec named parameters).run documents =
      found (assignAll parameters) (named.map Named.bare) documents := by
  obtain ⟨n, rest, rfl⟩ := List.exists_cons_of_ne_nil hne
  have hneat := neat_ungrouped n rest
  obtain ⟨c, s, hc⟩ := List.exists_cons_of_ne_nil (ungrouped_ne_nil n rest)
  have hblank : ∃ c ∈ (String.ofList (ungrouped (n :: rest))).toList, isBlank c = false := by
    rw [String.toList_ofList, hc]
    exact ⟨c, List.mem_cons_self, hneat.first_not_blank c (by rw [hc, List.head?_cons]; rfl)⟩
  rw [ungroupedSpec, run_statement hblank (.all none) (Nat.zero_le _), String.toList_ofList,
    stripRight_eq_self hneat.last_not_blank, stripLeft_eq_self hneat.first_not_blank,
    fragments_ungrouped hne]
  cases found (assignAll parameters) ((n :: rest).map Named.bare) documents <;> rfl

theorem run_ungroupedSpec (hne : named ≠ [])
    (hvalues : ∀ n ∈ named, (assignAll parameters).lookup n.name = some (values n.name))
    (h : ∀ n ∈ named, n.operator ≠ .contains) (documents : List Json) :
    (ungroupedSpec named parameters).run documents =
      meeting (named.map fun n => n.condition (values n.name)) documents := by
  have hcompile : compileAll (assignAll parameters) (named.map Named.bare) =
      .ok (named.map fun n => n.condition (values n.name)) :=
    compileAll_map fun n hn => n.compile_bare (h n hn) (hvalues n hn)
  rw [run_ungroupedSpec_eq hne, found_of_compileAll hcompile]

theorem run_ungroupedSpec_of_contains
    (hvalues : ∀ n ∈ named, (assignAll parameters).lookup n.name = some (values n.name))
    {n : Named} (hn : (named.find? fun m => m.operator = .contains) = some n)
    (documents : List Json) :
    (ungroupedSpec named parameters).run documents =
      .error (.unsupportedCondition (String.ofList n.text.dropLast)) := by
  obtain ⟨hop, before, after, rfl, hbefore⟩ := List.find?_eq_some_iff_append.1 hn
  rw [decide_eq_true_iff] at hop
  have hfirst : compileAll (assignAll parameters) (before.map Named.bare) =
      .ok (before.map fun m => m.condition (values m.name)) :=
    compileAll_map fun m hm =>
      m.compile_bare (by simpa using hbefore m hm) (hvalues m (List.mem_append_left _ hm))
  have hne : before ++ n :: after ≠ [] :=
    List.append_ne_nil_of_right_ne_nil _ (List.cons_ne_nil n after)
  have herror : compileAll (assignAll parameters)
      (before.map Named.bare ++ n.bare :: after.map Named.bare) =
        .error (.unsupportedCondition (String.ofList n.bare)) :=
    compileAll_append_cons_of_error hfirst (n.compile_bare_of_contains hop (assignAll parameters))
  rw [run_ungroupedSpec_eq hne, List.map_append, List.map_cons, found_of_error herror,
    n.text_of_contains hop, List.dropLast_concat]

/-- A condition without grouping parentheses has its fragments again exactly if none of them is a
`CONTAINS`, and its documents if moreover all can be told of them; it can where the values and the
documents can be written.  The first `CONTAINS` is refused, since it has lost its closing parenthesis;
without one, an integer that is too long to be written is reported. -/
theorem run_ungrouped (hne : named ≠ [])
    (hvalues : ∀ n ∈ named, (assignAll parameters).lookup n.name = some (values n.name))
    (documents : List Json) :
    let told (d : Json) := isConclusive (named.map fun n => n.condition (values n.name)) d
    (fragments (ungrouped named) = named.map Named.text ↔ ∀ n ∈ named, n.operator ≠ .contains) ∧
    ((ungroupedSpec named parameters).run documents =
        .ok (documents.filter fun d => named.all fun n => (n.condition (values n.name)).holds d) ↔
      (∀ n ∈ named, n.operator ≠ .contains) ∧ ∀ d ∈ documents, told d = true) ∧
    (∀ n, (named.find? fun m => m.operator = .contains) = some n →
      (ungroupedSpec named parameters).run documents =
        .error (.unsupportedCondition (String.ofList n.text.dropLast))) ∧
    ((∀ n ∈ named, n.operator ≠ .contains) → (∃ d ∈ documents, told d = false) →
      (ungroupedSpec named parameters).run documents = .error .unwritable) ∧
    ((∀ n ∈ named, (values n.name).isWritable = true) →
      ∀ d : Json, d.isWritable = true → told d = true) := by
  intro told
  have hrefused : ∀ n, (named.find? fun m => m.operator = .contains) = some n →
      (ungroupedSpec named parameters).run documents =
        .error (.unsupportedCondition (String.ofList n.text.dropLast)) :=
    fun n hn => run_ungroupedSpec_of_contains hvalues hn documents
  have hlong : (∀ n ∈ named, n.operator ≠ .contains) → (∃ d ∈ documents, told d = false) →
      (ungroupedSpec named parameters).run documents = .error .unwritable := by
    intro h hexists
    rw [run_ungroupedSpec hne hvalues h, meeting_of_not_conclusive hexists]
  refine ⟨?_, ⟨fun hrun => ?_, fun h => ?_⟩, hrefused, hlong, fun hwritable d hd => ?_⟩
  · rw [fragments_ungrouped hne, map_bare_eq_iff]
  · have hnone : ∀ n ∈ named, n.operator ≠ .contains := by
      intro n hn hop
      cases hfind : named.find? fun m => m.operator = .contains with
      | none => exact List.find?_eq_none.1 hfind n hn (decide_eq_true hop)
      | some m =>
        rw [hrefused m hfind] at hrun
        cases hrun
    refine ⟨hnone, (forall_or_exists_not_conclusive _ documents).resolve_right fun hexists => ?_⟩
    rw [hlong hnone hexists] at hrun
    cases hrun
  · rw [run_ungroupedSpec hne hvalues h.1, meeting_of_conclusive h.2, satisfying_map]
  · refine isConclusive_of_isWritable (List.forall_mem_map.2 fun n hn => ?_) hd
    rw [n.value_condition]
    exact hwritable n hn

end

/-- Two bounds on one number find the document between them. -/
theorem run_ungrouped_between :
    let document (n : Int) : Json := .obj [("id", .str "1"), ("n", Tree.int n)]
    let query : Spec :=
      { text := "SELECT * FROM c WHERE c.n >= @low AND c.n < @high"
        parameters := [("@low", Tree.int 3), ("@high", Tree.int 9)] }
    query.run [document 1, document 5, document 9] = .ok [document 5] := by
  intro document query
  let low : Named :=
    ⟨"n", .relation .ge, "@low", by decide +kernel, "low".toList, rfl, by decide, by decide +kernel⟩
  let high : Named :=
    ⟨"n", .relation .lt, "@high", by decide +kernel, "high".toList, rfl, by decide, by decide +kernel⟩
  let values (name : String) : Json := ((assignAll query.parameters).lookup name).getD .null
  have hvalues : ∀ n ∈ [low, high],
      (assignAll query.parameters).lookup n.name = some (values n.name) := by
    rw [List.forall_mem_cons, List.forall_mem_singleton]
    exact ⟨rfl, rfl⟩
  have hoperators : ∀ n ∈ [low, high], n.operator ≠ .contains := by decide
  have htext : ungroupedSpec [low, high] query.parameters = query :=
    congrArg (fun text => { query with text }) (by decide +kernel)
  let meets (d : Json) : Bool := [low, high].all fun n => (n.condition (values n.name)).holds d
  have hone : meets (document 1) = false := by decide +kernel
  have hfive : meets (document 5) = true := by decide +kernel
  have hnine : meets (document 9) = false := by decide +kernel
  have hfound : [document 1, document 5, document 9].filter meets = [document 5] := by
    simp only [List.filter, hone, hfive, hnine]
  have hwritable : ∀ n ∈ [low, high], (values n.name).isWritable = true := by decide +kernel
  have hdocuments : ∀ d ∈ [document 1, document 5, document 9], d.isWritable = true := by
    decide +kernel
  obtain ⟨-, hanswer, -, -, htold⟩ := run_ungrouped (List.cons_ne_nil low [high]) hvalues
    [document 1, document 5, document 9]
  have hrun := hanswer.2 ⟨hoperators, fun d hd => htold hwritable d (hdocuments d hd)⟩
  rw [htext] at hrun
  exact hrun.trans (congrArg Except.ok hfound)

/-- A `CONTAINS` is refused although the document meets it: its own parenthesis is taken off. -/
theorem contains_ungrouped_refused :
    let clause := "CONTAINS(c.s, @s, true)"
    let document : Json := .obj [("id", .str "1"), ("s", .str "text")]
    let query : Spec :=
      { text := "SELECT * FROM c WHERE " ++ clause, parameters := [("@s", .str "text")] }
    fragmentHolds query.bindings clause.toList document = true ∧
    fragments clause.toList ≠ [clause.toList] ∧
    query.run [document] = .error (.unsupportedCondition "CONTAINS(c.s, @s, true") := by
  intro clause document query
  let n : Named := ⟨"s", .contains, "@s", by decide +kernel, ['s'], rfl, by decide, by decide +kernel⟩
  let values (_ : String) : Json := .str "text"
  have hvalues : ∀ m ∈ [n], (assignAll query.parameters).lookup m.name = some (values m.name) := by
    rw [List.forall_mem_singleton]
    rfl
  have htext : ungroupedSpec [n] query.parameters = query :=
    congrArg (fun text => { query with text }) (by decide +kernel)
  have hfind : ([n].find? fun m => m.operator = .contains) = some n := rfl
  have hrefused := run_ungroupedSpec_of_contains hvalues hfind [document]
  have hn : String.ofList n.text.dropLast = "CONTAINS(c.s, @s, true" := by decide +kernel
  rw [htext, hn] at hrefused
  refine ⟨by decide +kernel, by decide +kernel, hrefused⟩

end Pigeonhole.Query
