import Pigeonhole.Proofs.Text.Class
import Pigeonhole.Query.Builder
import Pigeonhole.Query.Condition

/-!
# Fragments with a parameter

The two forms of a fragment whose operand is a parameter, as a builder writes them: `Form.ofFragment?`
takes them apart into the field path, the relation and the parameter name.  A field path is any text
of path characters (`IsFieldPath`), a parameter name any text of word characters after an `@`
(`IsParameterName`).
-/

namespace Pigeonhole.Query

open Text

/-- A text that can stand for a field in a fragment. -/
def IsFieldPath (field : String) : Prop :=
  field.toList ≠ [] ∧ ∀ c ∈ field.toList, isPathChar c = true

/-- A text that can stand for a parameter in a fragment. -/
def IsParameterName (name : String) : Prop :=
  ∃ word : List Char, name.toList = '@' :: word ∧ word ≠ [] ∧ ∀ c ∈ word, isWord c = true

instance (field : String) : Decidable (IsFieldPath field) :=
  inferInstanceAs (Decidable (_ ∧ _))

theorem IsFieldPath.parameterName {field : String} (h : IsFieldPath field) :
    IsParameterName (parameterName field) := by
  refine ⟨field.toList.map fun c => if c = '.' then '_' else c, String.toList_ofList, ?_, ?_⟩
  · rw [Ne, List.map_eq_nil_iff]
    exact h.1
  · intro d hd
    obtain ⟨c, hc, rfl⟩ := List.mem_map.1 hd
    have hpath := h.2 c hc
    rw [isPathChar, Bool.or_eq_true, decide_eq_true_iff] at hpath
    split
    · decide
    · rename_i hdot
      exact hpath.resolve_right hdot

theorem IsParameterName.eq_or_isWord {name : String} (h : IsParameterName name) {c : Char}
    (hc : c ∈ name.toList) : c = '@' ∨ isWord c = true := by
  obtain ⟨word, hname, -, hword⟩ := h
  rw [hname] at hc
  exact (List.mem_cons.1 hc).imp_right (hword c)

/-- A parameter begins like no sign. -/
theorem IsParameterName.head?_toList {name : String} (h : IsParameterName name) :
    ∀ c ∈ name.toList.head?, isBlank c = false ∧ c ≠ '=' := by
  obtain ⟨word, hword, -⟩ := h
  intro c hc
  rw [hword] at hc
  obtain rfl := Option.some.inj hc
  decide

/-! ## The parts of a fragment -/

/-- The field path after `c.` ends before the first other character. -/
theorem field?_append {head : Char} (hhead : foldLetter head = 'c') {path : List Char}
    (hne : path ≠ []) (hpath : ∀ c ∈ path, isPathChar c = true) {rest : List Char}
    (hrest : ∀ c ∈ rest.head?, isPathChar c = false) :
    field? (head :: '.' :: (path ++ rest)) = some (path, rest) := by
  have hkeyword : dropKeyword "c.".toList (head :: '.' :: (path ++ rest)) = some (path ++ rest) := by
    have hdot : dropKeyword ['.'] ('.' :: (path ++ rest)) = some (path ++ rest) := rfl
    rw [← hdot]
    exact if_pos hhead
  have htake : (path ++ rest).takeWhile isPathChar = path := by
    rw [List.takeWhile_append_of_pos hpath]
    cases rest with
    | nil => exact List.append_nil path
    | cons d rest =>
      rw [List.takeWhile_cons_of_neg (by rw [hrest d rfl]; exact Bool.false_ne_true),
        List.append_nil]
  have hdrop : (path ++ rest).dropWhile isPathChar = rest := by
    rw [List.dropWhile_append_of_pos hpath]
    cases rest with
    | nil => rfl
    | cons d rest =>
      exact List.dropWhile_cons_of_neg (by rw [hrest d rfl]; exact Bool.false_ne_true)
  simp only [field?, hkeyword, htake, hdrop, List.isEmpty_iff, if_neg hne]

theorem operandReadings_parameter {word : List Char} (hne : word ≠ [])
    (hword : ∀ c ∈ word, isWord c = true) {rest : List Char}
    (hrest : rest.takeWhile isWord = []) :
    operandReadings ('@' :: (word ++ rest)) = [('@' :: word, rest.dropWhile isWord)] := by
  simp only [operandReadings, List.takeWhile_append_of_pos hword, hrest, List.append_nil,
    List.dropWhile_append_of_pos hword, List.isEmpty_iff, if_neg hne]

theorem wholeOperand?_parameter {name : String} (h : IsParameterName name) :
    wholeOperand? name.toList = some name.toList := by
  obtain ⟨word, hname, hne, hword⟩ := h
  have hend : ([] : List Char).takeWhile isWord = [] := rfl
  have hreadings := operandReadings_parameter hne hword hend
  rw [List.append_nil] at hreadings
  rw [hname, wholeOperand?, hreadings]
  rfl

/-- A sign is read whole unless an equals sign follows. -/
theorem relation?_symbol (relation : Relation) {rest : List Char}
    (hrest : ∀ c ∈ rest.head?, c ≠ '=') :
    relation? (relation.symbol.toList ++ rest) = some (relation, rest) := by
  have hne : ∀ s, rest = '=' :: s → False := by
    rintro s rfl
    exact hrest '=' rfl rfl
  cases relation with
  | eq => rfl
  | le => rfl
  | ge => rfl
  | lt => exact relation?.eq_4 rest hne
  | gt => exact relation?.eq_5 rest hne

theorem stripLeft_symbol (relation : Relation) (rest : List Char) :
    stripLeft (relation.symbol.toList ++ rest) = relation.symbol.toList ++ rest := by
  cases relation <;> rfl

/-- A comparison, with any blanks around its sign, is decided by what its operand is. -/
theorem ofFragment?_comparison {head : Char} (hhead : foldLetter head = 'c') {path : List Char}
    (hne : path ≠ []) (hpath : ∀ c ∈ path, isPathChar c = true) {before after : List Char}
    (hbefore : ∀ c ∈ before, isBlank c = true) (hafter : ∀ c ∈ after, isBlank c = true)
    (relation : Relation) {operand : List Char}
    (hoperand : ∀ c ∈ operand.head?, isBlank c = false ∧ c ≠ '=') :
    Form.ofFragment?
        (head :: '.' :: (path ++ (before ++ (relation.symbol.toList ++ (after ++ operand))))) =
      (wholeOperand? operand).map (.compares path relation) := by
  have hnotContains : ∀ s, containsForm? (head :: '.' :: s) = none := by
    intro s
    have hkeyword : dropKeyword "contains(".toList (head :: '.' :: s) = none := if_pos hhead
    rw [containsForm?, hkeyword]
    rfl
  have hsign : ∀ c ∈ (before ++ (relation.symbol.toList ++ (after ++ operand))).head?,
      isPathChar c = false := by
    cases before with
    | nil =>
      intro c hc
      cases relation <;> obtain rfl := Option.some.inj hc <;> decide
    | cons d before =>
      intro c hc
      obtain rfl := Option.some.inj hc
      rw [Bool.eq_false_iff]
      intro hpath
      have hblank := hbefore d List.mem_cons_self
      rw [isBlank_of_isPathChar hpath] at hblank
      cases hblank
  have hnotEq : ∀ c ∈ (after ++ operand).head?, c ≠ '=' := by
    cases after with
    | nil => exact fun c hc => (hoperand c hc).2
    | cons d after =>
      rintro c hc rfl
      obtain rfl := Option.some.inj hc
      exact absurd (hafter _ List.mem_cons_self) (by decide)
  have hstart : stripLeft (after ++ operand) = operand := by
    rw [stripLeft_append_of_isBlank hafter]
    cases operand with
    | nil => rfl
    | cons c operand => exact stripLeft_cons_of_not_isBlank (hoperand c rfl).1 operand
  rw [Form.ofFragment?, hnotContains, Option.none_or, comparesForm?,
    field?_append hhead hne hpath hsign]
  simp only [Option.bind_eq_bind, Option.bind_some, stripLeft_append_of_isBlank hbefore,
    stripLeft_symbol, relation?_symbol relation hnotEq, hstart]
  cases wholeOperand? operand <;> rfl

/-! ## Fragments of builders -/

theorem ofFragment?_compares {field name : String} (hfield : IsFieldPath field)
    (hname : IsParameterName name) (relation : Relation) :
    Form.ofFragment? ("c." ++ field ++ " " ++ relation.symbol ++ " " ++ name).toList =
      some (.compares field.toList relation name.toList) := by
  have htext : ("c." ++ field ++ " " ++ relation.symbol ++ " " ++ name).toList =
      'c' :: '.' :: (field.toList ++ ([' '] ++ (relation.symbol.toList ++ ([' '] ++ name.toList)))) := by
    simp only [String.toList_append, List.append_assoc]
    rfl
  have hspace : ∀ c ∈ [' '], isBlank c = true := by decide
  rw [htext, ofFragment?_comparison (by decide) hfield.1 hfield.2 hspace hspace relation
    hname.head?_toList, wholeOperand?_parameter hname]
  rfl

/-- A `CONTAINS` is accepted if what follows its operand ends it. -/
theorem containsForm?_lead {field : String} (hfield : IsFieldPath field) {u : List Char}
    (hu : ∀ c ∈ u.head?, isBlank c = false) :
    containsForm? ("CONTAINS(c.".toList ++ (field.toList ++ ", ".toList ++ u)) =
      ((operandReadings u).find? fun reading => endsContains reading.2).map
        fun reading => .contains field.toList reading.1 := by
  have hkeyword : dropKeyword "contains(".toList
      ("CONTAINS(c.".toList ++ (field.toList ++ ", ".toList ++ u)) =
      some ('c' :: '.' :: (field.toList ++ ',' :: ' ' :: u)) := by
    rw [List.append_assoc]
    rfl
  have hfirst : ∀ s, stripLeft ('c' :: s) = 'c' :: s := fun s => rfl
  have hcomma : ∀ s, stripLeft (',' :: s) = ',' :: s := fun s => rfl
  have hoperand : stripLeft (' ' :: u) = u := by
    rw [show stripLeft (' ' :: u) = stripLeft u from rfl]
    exact stripLeft_eq_self hu
  have hpath : ∀ c ∈ (',' :: ' ' :: u).head?, isPathChar c = false := by
    intro c hc
    obtain rfl := Option.some.inj hc
    decide
  have hfield? : field? ('c' :: '.' :: (field.toList ++ ',' :: ' ' :: u)) =
      some (field.toList, ',' :: ' ' :: u) := field?_append (by decide) hfield.1 hfield.2 hpath
  rw [containsForm?, hkeyword]
  simp only [Option.bind_eq_bind, Option.bind_some, hfirst, hfield?, hcomma, hoperand]
  cases (operandReadings u).find? fun reading => endsContains reading.2 <;> rfl

/-- With a parameter, a `CONTAINS` is accepted if the text after the parameter ends it. -/
theorem containsForm?_append {field name : String} (hfield : IsFieldPath field)
    (hname : IsParameterName name) (rest : List Char) :
    containsForm? ("CONTAINS(c.".toList ++ (field.toList ++ ", ".toList ++
        (name.toList ++ ',' :: rest))) =
      if endsContains (',' :: rest) then some (.contains field.toList name.toList) else none := by
  have hat := hname.head?_toList
  obtain ⟨word, hword, hne, hmem⟩ := hname
  have hhead : ∀ c ∈ (name.toList ++ ',' :: rest).head?, isBlank c = false := by
    rw [hword] at hat ⊢
    exact fun c hc => (hat c hc).1
  have hcommaWord : (',' :: rest).takeWhile isWord = [] :=
    List.takeWhile_cons_of_neg (by decide)
  have hdrop : (',' :: rest).dropWhile isWord = ',' :: rest :=
    List.dropWhile_cons_of_neg (by decide)
  have hreadings := operandReadings_parameter hne hmem hcommaWord
  rw [hdrop] at hreadings
  rw [containsForm?_lead hfield hhead, hword, List.cons_append, hreadings, List.find?_cons,
    List.find?_nil]
  cases endsContains (',' :: rest) <;> rfl

theorem ofFragment?_contains {field name : String} (hfield : IsFieldPath field)
    (hname : IsParameterName name) :
    Form.ofFragment? ("CONTAINS(c." ++ field ++ ", " ++ name ++ ", true)").toList =
      some (.contains field.toList name.toList) := by
  have htext : ("CONTAINS(c." ++ field ++ ", " ++ name ++ ", true)").toList =
      "CONTAINS(c.".toList ++ (field.toList ++ ", ".toList ++
        (name.toList ++ ',' :: " true)".toList)) := by
    simp only [String.toList_append, List.append_assoc]
    rfl
  have hends : endsContains (',' :: " true)".toList) = true := by decide
  rw [htext, Form.ofFragment?, containsForm?_append hfield hname, if_pos hends, Option.some_or]

/-- A `CONTAINS` that has lost its last character is no fragment. -/
theorem ofFragment?_contains_dropLast {field name : String} (hfield : IsFieldPath field)
    (hname : IsParameterName name) :
    Form.ofFragment? ("CONTAINS(c." ++ field ++ ", " ++ name ++ ", true)").toList.dropLast =
      none := by
  have htext : ("CONTAINS(c." ++ field ++ ", " ++ name ++ ", true)").toList.dropLast =
      "CONTAINS(c.".toList ++ (field.toList ++ ", ".toList ++
        (name.toList ++ ',' :: " true".toList)) := by
    have hlast : ("CONTAINS(c." ++ field ++ ", " ++ name ++ ", true)").toList =
        ("CONTAINS(c.".toList ++ (field.toList ++ ", ".toList ++
          (name.toList ++ ',' :: " true".toList))) ++ [')'] := by
      simp only [String.toList_append, List.append_assoc]
      rfl
    rw [hlast, List.dropLast_concat]
  have hends : ¬ endsContains (',' :: " true".toList) = true := by decide
  rw [htext, Form.ofFragment?, containsForm?_append hfield hname, if_neg hends, Option.none_or]
  rfl

end Pigeonhole.Query
