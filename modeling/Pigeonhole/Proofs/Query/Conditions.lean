import Pigeonhole.Proofs.Query.Fragment
import Pigeonhole.Query.Execute

/-!
# Conditions of a list of fragments

How `compileAll` and `satisfying` go along the list of the fragments: the conditions of two lists
are joined, the first fragment without a condition decides the error, and a fragment depends on the
bindings only through its own operand (`compile_congr`).
-/

namespace Pigeonhole.Query

variable {α : Type} {bindings : List (String × Tree α)}

/-! ## Operands -/

/-- The operand of a form. -/
def Form.operand : Form → List Char
  | contains _ operand => operand
  | compares _ _ operand => operand

/-- The operands that fragments name or write out. -/
def operands (fragments : List (List Char)) : List (List Char) :=
  fragments.filterMap fun fragment => (Form.ofFragment? fragment).map Form.operand

theorem resolveOperand_congr {bindings' : List (String × Tree α)} {token : List Char}
    (h : bindings.lookup (String.ofList token) = bindings'.lookup (String.ofList token)) :
    resolveOperand bindings token = resolveOperand bindings' token := by
  simp only [resolveOperand, h]

theorem resolveOperand_parameter {name : String} (hname : IsParameterName name) {v : Tree α}
    (h : bindings.lookup name = some v) : resolveOperand bindings name.toList = .ok v := by
  obtain ⟨word, hword, -⟩ := hname
  have hhead : name.toList.head? = some '@' := by rw [hword, List.head?_cons]
  simp only [resolveOperand, if_pos hhead, String.ofList_toList, h]

theorem compile_congr {bindings' : List (String × Tree α)} {fragment : List Char}
    (h : ∀ form, Form.ofFragment? fragment = some form →
      bindings.lookup (String.ofList form.operand) =
        bindings'.lookup (String.ofList form.operand)) :
    Condition.compile bindings fragment = Condition.compile bindings' fragment := by
  unfold Condition.compile
  cases hform : Form.ofFragment? fragment with
  | none => rfl
  | some form =>
    have hoperand := resolveOperand_congr (h form hform)
    cases form with
    | contains path operand => simp only [Form.resolve, Form.operand] at hoperand ⊢; rw [hoperand]
    | compares path relation operand =>
      simp only [Form.resolve, Form.operand] at hoperand ⊢
      rw [hoperand]

theorem compile_compares {field name : String} (hfield : IsFieldPath field)
    (hname : IsParameterName name) {v : Tree α} (h : bindings.lookup name = some v)
    (relation : Relation) :
    Condition.compile bindings ("c." ++ field ++ " " ++ relation.symbol ++ " " ++ name).toList =
      .ok (.compares field relation v) := by
  simp only [Condition.compile, ofFragment?_compares hfield hname, Form.resolve,
    resolveOperand_parameter hname h, String.ofList_toList, bind, Except.bind, pure, Except.pure]

theorem compile_contains {field name : String} (hfield : IsFieldPath field)
    (hname : IsParameterName name) {v : Tree α} (h : bindings.lookup name = some v) :
    Condition.compile bindings ("CONTAINS(c." ++ field ++ ", " ++ name ++ ", true)").toList =
      .ok (.contains field v) := by
  simp only [Condition.compile, ofFragment?_contains hfield hname, Form.resolve,
    resolveOperand_parameter hname h, String.ofList_toList, bind, Except.bind, pure, Except.pure]

instance (fragment : List Char) :
    Decidable (∃ c, Condition.compile bindings fragment = .ok c) :=
  match Condition.compile bindings fragment with
  | .ok c => .isTrue ⟨c, rfl⟩
  | .error _ => .isFalse (by rintro ⟨_, h⟩; cases h)

/-- Only numbers are in order. -/
theorem inOrder_eq_false {relation : Relation} {field : Option (Tree α)} {value : Tree α}
    (h : ∀ a b, field = some (.num a) → value = .num b → a.compare? b = none) :
    Condition.inOrder relation field value = false := by
  unfold Condition.inOrder
  split
  next a b => rw [h a b rfl rfl, Option.any_none]
  next => rfl

/-! ## All fragments -/

theorem compileAll_congr {bindings' : List (String × Tree α)} {fragments : List (List Char)}
    (h : ∀ token ∈ operands fragments,
      bindings.lookup (String.ofList token) = bindings'.lookup (String.ofList token)) :
    compileAll bindings fragments = compileAll bindings' fragments := by
  induction fragments with
  | nil => rfl
  | cons fragment rest ih =>
    have hfirst : Condition.compile bindings fragment = Condition.compile bindings' fragment :=
      compile_congr fun form hform => h _ <|
        List.mem_filterMap.2 ⟨fragment, List.mem_cons_self, by rw [hform, Option.map_some]⟩
    have hrest : ∀ token ∈ operands rest, token ∈ operands (fragment :: rest) := fun token ht => by
      obtain ⟨other, ho, hother⟩ := List.mem_filterMap.1 ht
      exact List.mem_filterMap.2 ⟨other, List.mem_cons_of_mem _ ho, hother⟩
    rw [compileAll, compileAll, hfirst, ih fun token ht => h token (hrest token ht)]

/-- The conditions of one more fragment at the end; an error of the fragments before it stays. -/
theorem compileAll_concat {fragment : List Char} {c : Condition α}
    (h : Condition.compile bindings fragment = .ok c) (fragments : List (List Char)) :
    compileAll bindings (fragments ++ [fragment]) =
      (compileAll bindings fragments).map (· ++ [c]) := by
  induction fragments with
  | nil => simp [compileAll, h, bind, Except.bind, pure, Except.pure, Except.map]
  | cons first rest ih =>
    rw [List.cons_append, compileAll, compileAll, ih]
    cases Condition.compile bindings first with
    | error e => rfl
    | ok d => cases compileAll bindings rest <;> rfl

theorem compileAll_map {σ : Type} {l : List σ} {fragment : σ → List Char} {c : σ → Condition α}
    (h : ∀ x ∈ l, Condition.compile bindings (fragment x) = .ok (c x)) :
    compileAll bindings (l.map fragment) = .ok (l.map c) := by
  induction l with
  | nil => rfl
  | cons x l ih =>
    rw [List.map_cons, compileAll, h x List.mem_cons_self,
      ih fun y hy => h y (List.mem_cons_of_mem x hy)]
    rfl

/-- The first fragment without a condition decides the error. -/
theorem compileAll_append_cons_of_error {first rest : List (List Char)} {fragment : List Char}
    {cs : List (Condition α)} {e : QueryError} (hfirst : compileAll bindings first = .ok cs)
    (h : Condition.compile bindings fragment = .error e) :
    compileAll bindings (first ++ fragment :: rest) = .error e := by
  induction first generalizing cs with
  | nil => rw [List.nil_append, compileAll, h]; rfl
  | cons other first ih =>
    rw [compileAll] at hfirst
    rw [List.cons_append, compileAll]
    cases hother : Condition.compile bindings other with
    | error e' => rw [hother] at hfirst; cases hfirst
    | ok d =>
      rw [hother] at hfirst
      cases hmore : compileAll bindings first with
      | error e' => rw [hmore] at hfirst; cases hfirst
      | ok ds => rw [ih hmore]; rfl

/-- There are conditions if each fragment has one. -/
theorem exists_compileAll_iff {fragments : List (List Char)} :
    (∃ cs, compileAll bindings fragments = .ok cs) ↔
      ∀ fragment ∈ fragments, ∃ c, Condition.compile bindings fragment = .ok c := by
  induction fragments with
  | nil => exact ⟨fun _ => List.forall_mem_nil _, fun _ => ⟨[], rfl⟩⟩
  | cons fragment rest ih =>
    rw [List.forall_mem_cons, ← ih, compileAll]
    cases Condition.compile bindings fragment with
    | error e => simp [bind, Except.bind]
    | ok c =>
      cases compileAll bindings rest with
      | error e => simp [bind, Except.bind]
      | ok cs => simp [bind, Except.bind, pure, Except.pure]

/-- Whether a document meets a fragment, if the fragment has a condition. -/
def fragmentHolds (bindings : List Binding) (fragment : List Char) (document : Json) : Bool :=
  match Condition.compile bindings fragment with
  | .ok c => c.holds document
  | .error _ => false

theorem satisfying_compileAll {bindings : List Binding} {fragments : List (List Char)}
    {cs : List (Condition Empty)} (h : compileAll bindings fragments = .ok cs)
    (documents : List Json) :
    satisfying cs documents =
      documents.filter fun d => fragments.all fun fragment => fragmentHolds bindings fragment d := by
  have hall : ∀ d, cs.all (·.holds d) =
      fragments.all fun fragment => fragmentHolds bindings fragment d := by
    intro d
    induction fragments generalizing cs with
    | nil =>
      obtain rfl := Except.ok.inj h
      rfl
    | cons fragment rest ih =>
      rw [compileAll] at h
      cases hfirst : Condition.compile bindings fragment with
      | error e => rw [hfirst] at h; cases h
      | ok c =>
        rw [hfirst] at h
        cases hrest : compileAll bindings rest with
        | error e => rw [hrest] at h; cases h
        | ok cs' =>
          rw [hrest] at h
          obtain rfl := Except.ok.inj h
          rw [List.all_cons, List.all_cons, ih hrest, fragmentHolds, hfirst]
  exact List.filter_congr fun d _ => hall d

theorem satisfying_map {σ : Type} (condition : σ → Condition Empty) (l : List σ)
    (documents : List Json) :
    satisfying (l.map condition) documents =
      documents.filter fun d => l.all fun x => (condition x).holds d := by
  simp only [satisfying, List.all_map]
  rfl

/-- Conditions may be tested one list after the other. -/
theorem satisfying_append (cs ds : List (Condition Empty)) (documents : List Json) :
    satisfying (cs ++ ds) documents = satisfying ds (satisfying cs documents) := by
  simp only [satisfying, List.filter_filter, List.all_append, Bool.and_comm]

end Pigeonhole.Query
