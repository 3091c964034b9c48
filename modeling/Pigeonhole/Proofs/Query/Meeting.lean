import Pigeonhole.Proofs.Json.Written
import Pigeonhole.Proofs.Query.Conditions

/-!
# What can be told of documents

The fragments of a query find the documents that meet their conditions (`found`).  The conditions
are tested in order, and the first that a document does not meet decides, so what can be told goes
along the list of the conditions (`isConclusive_append`).  A test fails only on an integer that is
too long to be written.  Literals are never too long, so all can be told where the documents and the
parameters can be written (`isConclusive_of_compileAll`).
-/

namespace Pigeonhole.Query

/-! ## Values of conditions -/

section Values

variable {α : Type} {bindings : List (String × Tree α)}

/-- The value of a condition. -/
def Condition.value : Condition α → Tree α
  | contains _ value => value
  | compares _ _ value => value

/-- There are conditions of a kind if each fragment has one of this kind. -/
theorem exists_compileAll_forall {P : Condition α → Prop} {fragments : List (List Char)}
    (h : ∀ fragment ∈ fragments, ∃ c, Condition.compile bindings fragment = .ok c ∧ P c) :
    ∃ cs, compileAll bindings fragments = .ok cs ∧ ∀ c ∈ cs, P c := by
  induction fragments with
  | nil => exact ⟨[], rfl, List.forall_mem_nil _⟩
  | cons fragment rest ih =>
    obtain ⟨⟨c, hc, hP⟩, hrest⟩ := List.forall_mem_cons.1 h
    obtain ⟨cs, hcs, hall⟩ := ih hrest
    exact ⟨c :: cs, by rw [compileAll, hc, hcs]; rfl, List.forall_mem_cons.2 ⟨hP, hall⟩⟩

theorem isWritable_of_literal {token : List Char} {v : Tree α} (h : literal token = .ok v) :
    v.isWritable = true := by
  unfold literal at h
  split at h
  next body _ =>
    obtain rfl := Except.ok.inj h
    rfl
  next =>
    split at h
    next constant hconstant =>
      obtain rfl := Except.ok.inj h
      unfold constant? at hconstant
      simp only at hconstant
      split_ifs at hconstant <;> obtain rfl := Option.some.inj hconstant <;> rfl
    next =>
      cases hnumeral : numeral token with
      | error e => rw [hnumeral] at h; cases h
      | ok n =>
        rw [hnumeral] at h
        obtain rfl := Except.ok.inj h
        rw [Tree.isWritable_num]
        unfold numeral at hnumeral
        split at hnumeral
        · split at hnumeral
          · obtain rfl := Except.ok.inj hnumeral
            rfl
          · cases hnumeral
        · split at hnumeral
          next i hi =>
            obtain rfl := Except.ok.inj hnumeral
            exact Numeral.isWritable_of_readInt hi
          all_goals cases hnumeral

variable (hbindings : ∀ binding ∈ bindings, binding.2.isWritable = true)
include hbindings

theorem isWritable_of_resolveOperand {token : List Char} {v : Tree α}
    (h : resolveOperand bindings token = .ok v) : v.isWritable = true := by
  unfold resolveOperand at h
  split at h
  · cases hlookup : bindings.lookup (String.ofList token) with
    | none => simp only [hlookup] at h; cases h
    | some w =>
      simp only [hlookup] at h
      obtain rfl := Except.ok.inj h
      obtain ⟨before, after, rfl, -⟩ := List.lookup_eq_some_iff.1 hlookup
      exact hbindings _ (List.mem_append_right _ List.mem_cons_self)
  · exact isWritable_of_literal h

theorem isWritable_of_compile {fragment : List Char} {c : Condition α}
    (h : Condition.compile bindings fragment = .ok c) : c.value.isWritable = true := by
  unfold Condition.compile at h
  cases hform : Form.ofFragment? fragment with
  | none => rw [hform] at h; cases h
  | some form =>
    have hvalue : ∃ token v, resolveOperand bindings token = .ok v ∧ c.value = v := by
      rw [hform] at h
      cases form <;>
      · simp only [Form.resolve] at h
        cases hv : resolveOperand bindings _ with
        | error e => rw [hv] at h; cases h
        | ok v =>
          rw [hv] at h
          obtain rfl := Except.ok.inj h
          exact ⟨_, v, hv, rfl⟩
    obtain ⟨token, v, hv, hc⟩ := hvalue
    rw [hc]
    exact isWritable_of_resolveOperand hbindings hv

/-- The values of the conditions can be written if those of the parameters can. -/
theorem isWritable_of_compileAll {fragments : List (List Char)} {cs : List (Condition α)}
    (h : compileAll bindings fragments = .ok cs) : ∀ c ∈ cs, c.value.isWritable = true := by
  induction fragments generalizing cs with
  | nil =>
    obtain rfl := Except.ok.inj h
    exact List.forall_mem_nil _
  | cons fragment rest ih =>
    rw [compileAll] at h
    cases hfirst : Condition.compile bindings fragment with
    | error e => rw [hfirst] at h; cases h
    | ok c =>
      rw [hfirst] at h
      cases hrest : compileAll bindings rest with
      | error e => rw [hrest] at h; cases h
      | ok ds =>
        rw [hrest] at h
        obtain rfl := Except.ok.inj h
        exact List.forall_mem_cons.2 ⟨isWritable_of_compile hbindings hfirst, ih hrest⟩

end Values

/-! ## Documents that can be told apart -/

section Documents

variable {cs ds : List (Condition Empty)} {documents : List Json}

theorem isConclusive_of_forall {d : Json} (h : ∀ c ∈ cs, c.isComparable d = true) :
    isConclusive cs d = true := by
  induction cs with
  | nil => rfl
  | cons c cs ih =>
    obtain ⟨hc, hcs⟩ := List.forall_mem_cons.1 h
    rw [isConclusive, hc, ih hcs, Bool.or_true]
    rfl

theorem Condition.isComparable_of_isWritable {c : Condition Empty} {d : Json}
    (hd : d.isWritable = true) (hc : c.value.isWritable = true) : c.isComparable d = true := by
  cases c with
  | contains path value => rfl
  | compares path relation value =>
    cases relation with
    | eq =>
      rw [isComparable, Option.all_eq_true]
      intro field hfield
      rw [Tree.isWritable_of_resolve hfield hd, Bool.true_and]
      exact hc
    | _ => rfl

/-- Equality with a value that cannot be written is told of no document with the field. -/
theorem Condition.isComparable_of_not_isWritable {path : String} {value field : Json} {d : Json}
    (h : d.resolve path = some field) (hvalue : value.isWritable = false) :
    (compares path .eq value).isComparable d = false := by
  rw [isComparable, h, Option.all_some, hvalue, Bool.and_false]

theorem isConclusive_of_isWritable (hcs : ∀ c ∈ cs, c.value.isWritable = true) {d : Json}
    (hd : d.isWritable = true) : isConclusive cs d = true :=
  isConclusive_of_forall fun c hc => c.isComparable_of_isWritable hd (hcs c hc)

/-- Where the documents and the parameters can be written, all can be told. -/
theorem isConclusive_of_compileAll {bindings : List Binding} {fragments : List (List Char)}
    (hcompile : compileAll bindings fragments = .ok cs)
    (hbindings : ∀ binding ∈ bindings, binding.2.isWritable = true) {d : Json}
    (hd : d.isWritable = true) : isConclusive cs d = true :=
  isConclusive_of_isWritable (isWritable_of_compileAll hbindings hcompile) hd

theorem isConclusive_append (cs ds : List (Condition Empty)) (d : Json) :
    isConclusive (cs ++ ds) d =
      (isConclusive cs d && (!cs.all (·.holds d) || isConclusive ds d)) := by
  induction cs with
  | nil => rfl
  | cons c cs ih =>
    rw [List.cons_append, isConclusive, isConclusive, ih, List.all_cons]
    cases c.isComparable d <;> cases c.holds d <;> rfl

theorem meeting_of_conclusive (h : ∀ d ∈ documents, isConclusive cs d = true) :
    meeting cs documents = .ok (satisfying cs documents) := by
  rw [meeting, if_pos (List.all_eq_true.2 h)]

theorem meeting_of_not_conclusive (h : ∃ d ∈ documents, isConclusive cs d = false) :
    meeting cs documents = .error .unwritable := by
  rw [meeting, if_neg]
  rw [List.all_eq_true]
  obtain ⟨d, hd, hfalse⟩ := h
  exact fun hall => Bool.false_ne_true (hfalse.symm.trans (hall d hd))

theorem meeting_eq_ok_iff {js : List Json} :
    meeting cs documents = .ok js ↔
      (∀ d ∈ documents, isConclusive cs d = true) ∧ satisfying cs documents = js := by
  rw [meeting, ← List.all_eq_true]
  cases documents.all (isConclusive cs) <;> simp

theorem forall_or_exists_not_conclusive (cs : List (Condition Empty)) (documents : List Json) :
    (∀ d ∈ documents, isConclusive cs d = true) ∨ ∃ d ∈ documents, isConclusive cs d = false := by
  rw [or_iff_not_imp_left]
  intro h
  push Not at h
  simpa using h

end Documents

/-! ## Documents that are found -/

/-- The documents that fragments find. -/
def found (bindings : List Binding) (fragments : List (List Char)) (documents : List Json) :
    Except QueryError (List Json) := do
  meeting (← compileAll bindings fragments) documents

variable {bindings : List Binding} {fragments : List (List Char)} {documents : List Json}

theorem found_of_compileAll {cs : List (Condition Empty)}
    (h : compileAll bindings fragments = .ok cs) :
    found bindings fragments documents = meeting cs documents := by
  rw [found, h]
  rfl

theorem found_eq_ok_iff {js : List Json} :
    found bindings fragments documents = .ok js ↔
      ∃ cs, compileAll bindings fragments = .ok cs ∧ (∀ d ∈ documents, isConclusive cs d = true) ∧
        satisfying cs documents = js := by
  rw [found]
  cases compileAll bindings fragments with
  | error e => simp [bind, Except.bind]
  | ok cs =>
    simp only [bind, Except.bind, meeting_eq_ok_iff, Except.ok.injEq, exists_eq_left']

theorem found_of_error {e : QueryError} (h : compileAll bindings fragments = .error e) :
    found bindings fragments documents = .error e := by
  rw [found, h]
  rfl

/-- The answer of a query is made of the documents that its fragments find. -/
theorem Parsed.execute_eq (query : Parsed) (documents : List Json) :
    query.execute documents =
      (found query.bindings query.fragments documents).map query.shape.select := by
  rw [Parsed.execute, found]
  cases compileAll query.bindings query.fragments with
  | error e => rfl
  | ok cs =>
    simp only [bind, Except.bind]
    cases meeting cs documents <;> rfl

/-- What a query makes of documents that can be written can be written itself, if their number can. -/
theorem Shape.isWritable_select (shape : Shape) {found : List Json}
    (hfound : ∀ d ∈ found, d.isWritable = true)
    (hnumber : found.length < tenPow Numeral.maxDigits) :
    (Tree.arr (shape.select found) : Json).isWritable = true := by
  rw [Tree.isWritable_arr, List.all_eq_true]
  cases shape with
  | count =>
    rw [select, List.forall_mem_singleton]
    exact Json.isWritable_natCast hnumber
  | ids =>
    rw [select, List.forall_mem_map]
    intro d hd
    rw [idEntry, Tree.isWritable_obj, List.all_cons, List.all_nil, Bool.and_true]
    cases hid : d.member? "id" with
    | none => rfl
    | some id =>
      have hfield : d.descend ["id"] = some id := by
        rw [Tree.descend_cons, hid]
        rfl
      exact Tree.isWritable_of_descend hfield (hfound d hd)
  | all limit =>
    cases limit with
    | none => exact hfound
    | some n => exact fun d hd => hfound d (List.mem_of_mem_take hd)

theorem Parsed.isWritable_of_execute {query : Parsed} {answer : List Json}
    (h : query.execute documents = .ok answer) (hdocuments : ∀ d ∈ documents, d.isWritable = true)
    (hnumber : documents.length < tenPow Numeral.maxDigits) :
    (Tree.arr answer : Json).isWritable = true := by
  rw [Parsed.execute_eq] at h
  cases hfound : found query.bindings query.fragments documents with
  | error e =>
    rw [hfound] at h
    cases h
  | ok js =>
    rw [hfound] at h
    obtain rfl := Except.ok.inj h
    obtain ⟨cs, -, -, rfl⟩ := found_eq_ok_iff.1 hfound
    exact query.shape.isWritable_select (fun d hd => hdocuments d (List.mem_of_mem_filter hd))
      ((List.length_filter_le _ _).trans_lt hnumber)

section

variable {query : Parsed}

theorem Parsed.execute_of_error {e : QueryError}
    (h : compileAll query.bindings query.fragments = .error e) (documents : List Json) :
    query.execute documents = .error e := by
  rw [Parsed.execute_eq, found_of_error h]
  rfl

theorem Parsed.execute_of_ok {cs : List (Condition Empty)}
    (h : compileAll query.bindings query.fragments = .ok cs) (documents : List Json) :
    query.execute documents = (meeting cs documents).map query.shape.select := by
  rw [Parsed.execute_eq, found_of_compileAll h]

/-- Whether it can be told if a query finds a document; a query with a fragment without a condition
does not look at it. -/
def Parsed.isConclusive (query : Parsed) (document : Json) : Bool :=
  match compileAll query.bindings query.fragments with
  | .ok conditions => Query.isConclusive conditions document
  | .error _ => true

/-- Where the documents and the parameters can be written, all can be told. -/
theorem Parsed.isConclusive_of_isWritable
    (hbindings : ∀ binding ∈ query.bindings, binding.2.isWritable = true) {d : Json}
    (hd : d.isWritable = true) : query.isConclusive d = true := by
  unfold Parsed.isConclusive
  split
  next cs hcs => exact isConclusive_of_compileAll hcs hbindings hd
  next => rfl

end

end Pigeonhole.Query
