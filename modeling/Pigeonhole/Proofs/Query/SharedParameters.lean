import Pigeonhole.Proofs.Json.Same
import Pigeonhole.Proofs.Query.Built

/-!
# Steps that share a parameter

Steps on one field share a parameter, and so do steps on fields that differ in points and underscores
only.  The first value of a parameter counts, so a later step filters on the value of the first one.
Values that are the same up to integral doubles meet the same documents (`holds_conditionOn_congr`),
so nothing is lost if the steps with one parameter agree on its value (`run_sharing`).
-/

namespace Pigeonhole.Query

open Text

/-! ## Values that are the same -/

section Same

variable {v w : Json}

theorem inOrder_of_ne (h : ∀ n, v ≠ .num n) (relation : Relation) (field : Option Json) :
    Condition.inOrder relation field v = false :=
  inOrder_eq_false fun _ b _ hb => absurd hb (h b)

theorem containsText_of_ne (h : ∀ s, v ≠ .str s) (field : Option Json) :
    Condition.containsText field v = false := by
  unfold Condition.containsText
  split
  · exact absurd rfl (h _)
  · rfl

theorem inOrder_congr (h : v.Equal w) (relation : Relation) (field : Option Json) :
    Condition.inOrder relation field v = Condition.inOrder relation field w := by
  cases v with
  | num m =>
    cases w with
    | num n =>
      have hplace : ∀ a : Number, a.compare? m = a.compare? n := fun a => Number.compare?_congr h
      unfold Condition.inOrder
      cases field with
      | none => rfl
      | some x => cases x <;> simp only [hplace]
    | foreign e => cases e
    | _ => cases h
  | _ =>
    rw [inOrder_of_ne, inOrder_of_ne]
    · rintro n rfl
      exact absurd h (by simp [Json.Equal])
    · exact fun n hn => by cases hn

theorem containsText_congr (h : v.Equal w) (field : Option Json) :
    Condition.containsText field v = Condition.containsText field w := by
  cases v with
  | str s =>
    cases w with
    | str t => rw [show s = t from h]
    | foreign e => cases e
    | _ => cases h
  | _ =>
    rw [containsText_of_ne, containsText_of_ne]
    · rintro n rfl
      exact absurd h (by simp [Json.Equal])
    · exact fun n hn => by cases hn

/-- Values that are the same are met by the same documents. -/
theorem holds_conditionOn_congr (s : Step) (h : v.same w = true) (d : Json) :
    (s.conditionOn v).holds d = (s.conditionOn w).holds d := by
  have hequal : v.Equal w := (Json.normalize_eq_iff v w).1 ((Json.same_iff v w).1 h)
  cases hop : s.operator with
  | contains =>
    simp only [Step.conditionOn, hop]
    exact containsText_congr hequal _
  | relation r =>
    simp only [Step.conditionOn, hop]
    cases r with
    | eq =>
      have hcanonical : Json.canonical v = Json.canonical w := beq_iff_eq.1 h
      simp only [Condition.holds, Json.same, hcanonical]
    | _ => exact inOrder_congr hequal _ _

end Same

/-! ## Steps -/

section Steps

variable {steps : List Step}

/-- Steps with one parameter agree on its value, up to integral doubles. -/
def Agree (steps : List Step) : Prop :=
  ∀ s ∈ steps, ∀ t ∈ steps, s.parameter = t.parameter → s.value.same t.value = true

/-- A step of an agreeing list filters on its own value. -/
theorem holds_boundCondition (h : Agree steps) {s : Step} (hs : s ∈ steps) (d : Json) :
    (s.boundCondition steps).holds d = s.condition.holds d := by
  have hsame : ((firstValue? steps s.parameter).getD s.value).same s.value = true := by
    rw [firstValue?]
    cases hfind : steps.find? fun t => t.parameter = s.parameter with
    | none => exact h s hs s hs rfl
    | some t =>
      have hparameter : t.parameter = s.parameter := by simpa using List.find?_some hfind
      exact h t (List.mem_of_find?_eq_some hfind) s hs hparameter
  exact holds_conditionOn_congr s hsame d

theorem filter_eq_filter_iff {p q : Json → Bool} {documents : List Json} :
    documents.filter p = documents.filter q ↔ ∀ d ∈ documents, p d = q d := by
  refine ⟨fun h d hd => ?_, fun h => List.filter_congr h⟩
  have hmem : d ∈ documents.filter p ↔ d ∈ documents.filter q := by rw [h]
  rw [List.mem_filter, List.mem_filter, and_iff_right hd, and_iff_right hd] at hmem
  exact Bool.eq_iff_iff.2 hmem

/-- A query that was built from comparisons filters with each of them on the first value of its
parameter, whenever all can be told of the documents; it can where the values and the documents can
be written.  That is the answer of the comparisons as they were given exactly if no document tells
these values from their own, and always if the steps that share a parameter agree on its value. -/
theorem run_sharing (hfields : ∀ s ∈ steps, IsFieldPath s.field)
    (hrelations : ∀ s ∈ steps, s.operator ≠ .contains) :
    let told (d : Json) := isConclusive (steps.map fun s => s.boundCondition steps) d
    ((∀ s ∈ steps, s.value.isWritable = true) → ∀ d : Json, d.isWritable = true → told d = true) ∧
    ∃ (b : Builder) (spec : Spec), Builder.ofSteps steps = .ok b ∧ b.build none = .ok spec ∧
      ∀ documents : List Json, (∀ d ∈ documents, told d = true) →
        spec.run documents = .ok (documents.filter fun d =>
          steps.all fun s => (s.boundCondition steps).holds d) ∧
        (spec.run documents = .ok (documents.filter fun d =>
            steps.all fun s => s.condition.holds d) ↔
          ∀ d ∈ documents, (steps.all fun s => (s.boundCondition steps).holds d) =
            steps.all fun s => s.condition.holds d) ∧
        (Agree steps → spec.run documents = .ok (documents.filter fun d =>
          steps.all fun s => s.condition.holds d)) := by
  intro told
  have hlimit : ∀ n ∈ (none : Option Int), 0 < n := fun n hn => absurd hn (Option.not_mem_none n)
  have hfits : limitLength none ≤ Numeral.maxDigits := Nat.zero_le _
  obtain ⟨b, hsteps, hbuild⟩ := build_ofSteps steps hlimit
  rw [if_pos hfits] at hbuild
  refine ⟨fun hvalues d hd => isConclusive_map_conditionOn (isWritable_firstValue? hvalues) hd,
    b, builtSpec steps none, hsteps, hbuild, fun documents htold => ?_⟩
  have hrun : (builtSpec steps none).run documents = .ok (documents.filter fun d =>
      steps.all fun s => (s.boundCondition steps).holds d) := by
    have hlast : ∀ s ∈ steps.dropLast, s.operator ≠ .contains := fun s hs =>
      hrelations s (List.dropLast_subset steps hs)
    rw [run_builtSpec hfields documents hlimit hfits hlast, meeting_of_conclusive htold,
      satisfying_map]
    rfl
  refine ⟨hrun, ?_, fun hagree => ?_⟩ <;> rw [hrun, Except.ok.injEq, filter_eq_filter_iff]
  intro d _
  rw [Bool.eq_iff_iff, List.all_eq_true, List.all_eq_true]
  exact forall₂_congr fun s hs => by rw [holds_boundCondition hagree hs]

end Steps

/-- Two fields that share a parameter may be compared with 1 and with 1.0, and the document that meets
both is found. -/
theorem run_sharing_integral :
    let steps : List Step := [
      ⟨"a.b", .relation .ge, Tree.int 1⟩, ⟨"n", .relation .lt, Tree.int 9⟩,
      ⟨"a_b", .relation .eq, .num (.double (Double.ofInt 1))⟩]
    let entry (b a n : Int) : Json := .obj [("id", .str "1"), ("a", .obj [("b", Tree.int b)]),
      ("a_b", Tree.int a), ("n", Tree.int n)]
    ∃ (b : Builder) (spec : Spec), Builder.ofSteps steps = .ok b ∧ b.build none = .ok spec ∧
      spec.run [entry 2 1 8, entry 0 1 8, entry 2 2 8] = .ok [entry 2 1 8] := by
  intro steps entry
  have hfields : ∀ s ∈ steps, IsFieldPath s.field := by decide +kernel
  have hrelations : ∀ s ∈ steps, s.operator ≠ .contains := by decide +kernel
  have hagree : Agree steps := by unfold Agree; decide +kernel
  let meets (d : Json) : Bool := steps.all fun s => s.condition.holds d
  have hfirst : meets (entry 2 1 8) = true := by decide +kernel
  have hsecond : meets (entry 0 1 8) = false := by decide +kernel
  have hthird : meets (entry 2 2 8) = false := by decide +kernel
  have hfound : [entry 2 1 8, entry 0 1 8, entry 2 2 8].filter meets = [entry 2 1 8] := by
    simp only [List.filter, hfirst, hsecond, hthird]
  have hvalues : ∀ s ∈ steps, s.value.isWritable = true := by decide +kernel
  have hdocuments : ∀ d ∈ [entry 2 1 8, entry 0 1 8, entry 2 2 8], d.isWritable = true := by
    decide +kernel
  obtain ⟨htold, b, spec, hsteps, hbuild, hrun⟩ := run_sharing hfields hrelations
  have hanswer := hrun _ fun d hd => htold hvalues d (hdocuments d hd)
  exact ⟨b, spec, hsteps, hbuild, (hanswer.2.2 hagree).trans (congrArg Except.ok hfound)⟩

/-- Of a lower and an upper bound on one field the upper one is compared with the lower value, so the
document between them is not found. -/
theorem bounds_on_one_field :
    let steps : List Step := [⟨"n", .relation .ge, Tree.int 1⟩, ⟨"n", .relation .lt, Tree.int 5⟩]
    let document : Json := .obj [("id", .str "1"), ("n", Tree.int 3)]
    (∀ s ∈ steps, IsFieldPath s.field) ∧ (∀ s ∈ steps, s.operator ≠ .contains) ∧
    (∀ s ∈ steps, s.condition.holds document = true) ∧
    ∃ (b : Builder) (spec : Spec), Builder.ofSteps steps = .ok b ∧ b.build none = .ok spec ∧
      spec.run [document] = .ok [] := by
  intro steps document
  have hfields : ∀ s ∈ steps, IsFieldPath s.field := by decide +kernel
  have hrelations : ∀ s ∈ steps, s.operator ≠ .contains := by decide +kernel
  have hholds : ∀ s ∈ steps, s.condition.holds document = true := by decide +kernel
  have hlimit : ∀ n ∈ (none : Option Int), 0 < n := fun n hn => absurd hn (Option.not_mem_none n)
  have hlast : ∀ s ∈ steps.dropLast, s.operator ≠ .contains := fun s hs =>
    hrelations s (List.dropLast_subset steps hs)
  have hmissed : (steps.all fun s => (s.boundCondition steps).holds document) = false := by
    decide +kernel
  have htold : ∀ d ∈ [document], isConclusive (steps.map fun s => s.boundCondition steps) d = true :=
    List.forall_mem_singleton.2 (by decide +kernel)
  obtain ⟨b, hsteps, hbuild⟩ := build_ofSteps steps hlimit
  refine ⟨hfields, hrelations, hholds, b, builtSpec steps none, hsteps, hbuild, ?_⟩
  rw [run_builtSpec hfields [document] hlimit (Nat.zero_le _) hlast, meeting_of_conclusive htold,
    satisfying_map]
  simp only [Except.map, within, List.filter, hmissed]

end Pigeonhole.Query
