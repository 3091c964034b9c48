import Pigeonhole.Proofs.Json.Assign
import Pigeonhole.Proofs.Query.Conditions
import Pigeonhole.Query.Builder

/-!
# Steps of building

A `Step` compares a field with a value.  After a list of steps the builder has the text of each, and
of several values for one parameter name that of the first (`ofSteps_eq`, `lookup_boundValues`), so
the parameters of the query are looked up by the first step that has the name.
-/

namespace Pigeonhole.Query

/-- The comparison of a field with a value, as one step of building. -/
structure Step where
  field : String
  operator : Operator
  value : Json

namespace Step

/-- The parameter of a step. -/
def parameter (s : Step) : String := parameterName s.field

/-- The clause of a step. -/
def clause (s : Step) : Clause := Clause.ofField s.field s.operator (Tree.ofJson s.value)

/-- The clause of a step as it is written. -/
def text (s : Step) : List Char := s.clause.text.toList

/-- The comparison of the field with a value. -/
def conditionOn (s : Step) (v : Json) : Condition Empty :=
  match s.operator with
  | .relation r => .compares s.field r v
  | .contains => .contains s.field v

/-- The comparison of the field with the value of the step. -/
def condition (s : Step) : Condition Empty := s.conditionOn s.value

end Step

theorem Operator.ofSymbol?_symbol (op : Operator) : Operator.ofSymbol? op.symbol = some op := by
  cases op with
  | relation r => cases r <;> decide +kernel
  | contains => decide +kernel

theorem Step.ofSymbol_clause (s : Step) :
    Clause.ofSymbol s.field s.operator.symbol (Tree.ofJson s.value) = .ok s.clause := by
  simp only [Clause.ofSymbol, Operator.ofSymbol?_symbol, Step.clause]

/-! ## Values of parameters -/

section AssignFirst

variable {α : Type}

theorem lookup_assignFirst (key name : String) (value : α) (ms : List (String × α)) :
    (assignFirst key value ms).lookup name =
      (ms.lookup name).or (if key = name then some value else none) := by
  unfold assignFirst
  by_cases hsome : (ms.lookup key).isSome = true
  · rw [if_pos hsome]
    split
    · rename_i heq
      rw [← heq, Option.or_of_isSome hsome]
    · rw [Option.or_none]
  · rw [if_neg hsome, List.lookup_append, List.lookup_cons]
    by_cases heq : key = name
    · rw [if_pos heq, heq, beq_self_eq_true]
    · rw [if_neg heq, beq_false_of_ne (Ne.symm heq)]
      rfl

theorem map_fst_assignFirst (key : String) (value : α) (ms : List (String × α)) :
    (assignFirst key value ms).map (·.1) =
      if key ∈ ms.map (·.1) then ms.map (·.1) else ms.map (·.1) ++ [key] := by
  unfold assignFirst
  by_cases hkey : key ∈ ms.map (·.1)
  · rw [if_pos (isSome_lookup_iff.2 hkey), if_pos hkey]
  · rw [if_neg (mt isSome_lookup_iff.1 hkey), if_neg hkey, List.map_append, List.map_singleton]

theorem assignFirst_map {β : Type} (f : α → β) (key : String) (value : α) (ms : List (String × α)) :
    assignFirst key (f value) (ms.map fun m => (m.1, f m.2)) =
      (assignFirst key value ms).map fun m => (m.1, f m.2) := by
  have hlookup : ((ms.map fun m => (m.1, f m.2)).lookup key).isSome = (ms.lookup key).isSome := by
    induction ms with
    | nil => rfl
    | cons m ms ih =>
      rw [List.map_cons, List.lookup_cons, List.lookup_cons]
      cases key == m.1 with
      | true => rfl
      | false => exact ih
  unfold assignFirst
  rw [hlookup]
  split
  · rfl
  · rw [List.map_append]
    rfl

end AssignFirst

/-- The values of the parameters after steps, in the order in which their names are first used. -/
def boundValues (steps : List Step) : List Binding :=
  steps.foldl (fun ms s => assignFirst s.parameter s.value ms) []

/-- The value of the first step with a parameter name. -/
def firstValue? (steps : List Step) (name : String) : Option Json :=
  (steps.find? fun s => s.parameter = name).map Step.value

theorem firstValue?_cons (s : Step) (steps : List Step) (name : String) :
    firstValue? (s :: steps) name =
      if s.parameter = name then some s.value else firstValue? steps name := by
  rw [firstValue?, List.find?_cons]
  by_cases heq : s.parameter = name
  · rw [if_pos heq, decide_eq_true heq]
    rfl
  · rw [if_neg heq, decide_eq_false heq]
    rfl

theorem lookup_boundValues (steps : List Step) (name : String) :
    (boundValues steps).lookup name = firstValue? steps name := by
  have hfold : ∀ ms : List Binding,
      (steps.foldl (fun ms s => assignFirst s.parameter s.value ms) ms).lookup name =
        (ms.lookup name).or (firstValue? steps name) := by
    induction steps with
    | nil => exact fun ms => (Option.or_none).symm
    | cons s steps ih =>
      intro ms
      rw [List.foldl_cons, ih, lookup_assignFirst, Option.or_assoc, firstValue?_cons]
      by_cases heq : s.parameter = name
      · rw [if_pos heq, if_pos heq, Option.some_or]
      · rw [if_neg heq, if_neg heq, Option.none_or]
  exact hfold []

/-- The names of the parameters stand once each, in the order in which they are first used. -/
theorem map_fst_boundValues (steps : List Step) :
    (boundValues steps).map (·.1) = (steps.map Step.parameter).eraseDups := by
  induction steps using List.reverseRecOn with
  | nil => rfl
  | append_singleton steps s ih =>
    have hlast : boundValues (steps ++ [s]) =
        assignFirst s.parameter s.value (boundValues steps) := by
      rw [boundValues, List.foldl_append]
      rfl
    rw [hlast, map_fst_assignFirst, ih, List.map_append, List.map_singleton, eraseDups_concat]
    simp only [List.mem_eraseDups]

theorem nodup_boundValues (steps : List Step) : ((boundValues steps).map (·.1)).Nodup := by
  rw [map_fst_boundValues]
  exact nodup_eraseDups _

/-- Steps with different parameters each have their own value. -/
theorem firstValue?_of_nodup {steps : List Step} (h : (steps.map Step.parameter).Nodup) {s : Step}
    (hs : s ∈ steps) : firstValue? steps s.parameter = some s.value := by
  induction steps with
  | nil => cases hs
  | cons t steps ih =>
    rw [List.map_cons, List.nodup_cons] at h
    rw [firstValue?_cons]
    rcases List.mem_cons.1 hs with rfl | hs
    · rw [if_pos rfl]
    · have hne : t.parameter ≠ s.parameter := fun heq => h.1 (heq ▸ List.mem_map_of_mem hs)
      rw [if_neg hne]
      exact ih h.2 hs

/-! ## Builders -/

namespace Builder

/-- The builder after steps, each with its operator given by its symbol. -/
def ofSteps (steps : List Step) : Except BuildError Builder :=
  steps.foldlM (fun b s => do
    return b.add (← Clause.ofSymbol s.field s.operator.symbol (Tree.ofJson s.value))) {}

theorem ofSteps_eq (steps : List Step) :
    ofSteps steps = .ok
      { clauses := steps.map fun s => s.clause.text
        bindings := (boundValues steps).map fun m => (m.1, Tree.ofJson m.2) } := by
  have hfold : ∀ (clauses : List String) (ms : List Binding),
      steps.foldlM (fun b s => do
        return b.add (← Clause.ofSymbol s.field s.operator.symbol (Tree.ofJson s.value)))
        ({ clauses, bindings := ms.map fun m => (m.1, Tree.ofJson m.2) } : Builder) =
      (.ok
        { clauses := clauses ++ steps.map fun s => s.clause.text
          bindings := (steps.foldl (fun ms s => assignFirst s.parameter s.value ms) ms).map
            fun m => (m.1, Tree.ofJson m.2) } : Except BuildError Builder) := by
    induction steps with
    | nil =>
      intro clauses ms
      rw [List.map_nil, List.append_nil]
      rfl
    | cons s steps ih =>
      intro clauses ms
      have hadd : ({ clauses, bindings := ms.map fun m => (m.1, Tree.ofJson m.2) } : Builder).add
          s.clause =
          { clauses := clauses ++ [s.clause.text]
            bindings := (assignFirst s.parameter s.value ms).map fun m => (m.1, Tree.ofJson m.2) } := by
        rw [← assignFirst_map]
        rfl
      have hrest := ih (clauses ++ [s.clause.text]) (assignFirst s.parameter s.value ms)
      rw [List.append_assoc] at hrest
      simp only [List.foldlM_cons, s.ofSymbol_clause, bind, Except.bind, pure, Except.pure, hadd]
      exact hrest
  exact hfold [] []

theorem jsonBindings?_map_ofJson (ms : List Binding) :
    jsonBindings? (ms.map fun m => (m.1, Tree.ofJson m.2)) = some ms := by
  induction ms with
  | nil => rfl
  | cons m ms ih =>
    simp only [List.map_cons, jsonBindings?, Tree.toJson?_ofJson, ih]
    rfl

end Builder

end Pigeonhole.Query
