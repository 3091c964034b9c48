import Pigeonhole.Proofs.Query.Meeting
import Pigeonhole.Proofs.Store.Ledger

/-!
# Queries within a partition

A store keeps the partition key value of a document beside it, and a query reads the field out of
the document.  `execute_inPartition` says that the two agree after every run: a query over the
documents of one partition is the query over all documents with one more fragment, which compares
the partition key field with a fresh parameter.

The two look at different documents, so they differ if an integer is too long to be written: the
query over all documents fails for one that is outside the partition, and a partition key value that
cannot be written is asked for only of the documents that meet the fragments before it.
-/

namespace Pigeonhole

namespace Query

/-! ## One more comparison -/

/-- The query with the fragment that compares a field with a parameter, and the parameter bound. -/
def Parsed.scoped (query : Parsed) (field name : String) (v : Json) : Parsed :=
  { query with
    fragments := query.fragments ++
      [("c." ++ field ++ " " ++ Relation.eq.symbol ++ " " ++ name).toList]
    bindings := assign name v query.bindings }

/-- Whether a query finds a document. -/
def Parsed.finds (query : Parsed) (document : Json) : Bool :=
  match compileAll query.bindings query.fragments with
  | .ok conditions => conditions.all (·.holds document)
  | .error _ => false

section

variable {query : Parsed} {field name : String} {v : Json} {documents : List Json}

theorem compileAll_scoped (hfield : IsFieldPath field) (hname : IsParameterName name)
    (hfresh : name.toList ∉ operands query.fragments) (v : Json) :
    compileAll (query.scoped field name v).bindings (query.scoped field name v).fragments =
      (compileAll query.bindings query.fragments).map (· ++ [.compares field .eq v]) := by
  have hbound : (assign name v query.bindings).lookup name = some v := lookup_assign_self _ _ _
  have hothers : ∀ token ∈ operands query.fragments,
      (assign name v query.bindings).lookup (String.ofList token) =
        query.bindings.lookup (String.ofList token) := by
    intro token htoken
    refine lookup_assign_of_ne ?_ v query.bindings
    rintro rfl
    rw [String.toList_ofList] at hfresh
    exact hfresh htoken
  rw [← compileAll_congr hothers]
  exact compileAll_concat (compile_compares hfield hname hbound .eq) query.fragments

theorem isConclusive_concat (cs : List (Condition Empty)) {k d : Json}
    (hk : d.resolve field = some k) :
    isConclusive (cs ++ [.compares field .eq v]) d =
      (isConclusive cs d && (!cs.all (·.holds d) || k.isWritable && v.isWritable)) := by
  rw [isConclusive_append]
  simp [isConclusive, Condition.isComparable, hk]

theorem satisfying_concat (cs : List (Condition Empty)) (field : String) (v : Json)
    (documents : List Json) :
    satisfying (cs ++ [.compares field .eq v]) documents =
      satisfying cs (documents.filter (Ledger.inPartition field v)) := by
  have hinside : ∀ ds, satisfying [.compares field .eq v] ds =
      ds.filter (Ledger.inPartition field v) := by
    intro ds
    simp only [satisfying, List.all_cons, List.all_nil, Bool.and_true]
    rfl
  rw [satisfying_append, hinside, satisfying, satisfying, List.filter_comm]

/-- What holds of all holds of those without another property, and of those with it. -/
theorem all_eq_and_all_filter (p q : Json → Bool) (documents : List Json) :
    documents.all q = ((documents.all fun d => p d || q d) && (documents.filter p).all q) := by
  induction documents with
  | nil => rfl
  | cons d rest ih =>
    rw [List.all_cons, List.all_cons, ih, List.filter_cons]
    cases p d <;> cases hq : q d <;> simp only [List.all_cons, hq, reduceIte, Bool.or_true,
      Bool.or_false, Bool.true_and, Bool.false_and, Bool.and_false, Bool.false_eq_true]

/-- One more comparison of a field that can be written keeps the documents whose field has its value,
unless the query cannot tell of a document outside. -/
theorem Parsed.execute_scoped (hfield : IsFieldPath field) (hname : IsParameterName name)
    (hfresh : name.toList ∉ operands query.fragments) (hv : v.isWritable = true)
    (hkeys : ∀ d ∈ documents, ∃ k, d.resolve field = some k ∧ k.isWritable = true) :
    (query.scoped field name v).execute documents =
      if documents.all fun d => Ledger.inPartition field v d || query.isConclusive d then
        query.execute (documents.filter (Ledger.inPartition field v))
      else .error .unwritable := by
  have hscoped := compileAll_scoped hfield hname hfresh v
  cases hcompile : compileAll query.bindings query.fragments with
  | error e =>
    rw [hcompile] at hscoped
    simp [Parsed.execute_of_error hscoped, Parsed.execute_of_error hcompile, Parsed.isConclusive,
      hcompile]
  | ok cs =>
    rw [hcompile] at hscoped
    have htold : documents.all (Query.isConclusive (cs ++ [.compares field .eq v])) =
        documents.all (Query.isConclusive cs) := by
      rw [Bool.eq_iff_iff, List.all_eq_true, List.all_eq_true]
      refine forall₂_congr fun d hd => ?_
      obtain ⟨k, hk, hwritable⟩ := hkeys d hd
      rw [isConclusive_concat cs hk, hwritable, hv, Bool.and_self, Bool.or_true, Bool.and_true]
    have hshape : (query.scoped field name v).shape = query.shape := rfl
    -- the documents outside the partition decide whether the query is asked of those inside
    simp only [Parsed.execute_of_ok hscoped, Parsed.execute_of_ok hcompile, hshape,
      Parsed.isConclusive, hcompile, meeting, htold, satisfying_concat,
      all_eq_and_all_filter (Ledger.inPartition field v) (Query.isConclusive cs) documents]
    cases documents.all fun d => Ledger.inPartition field v d || Query.isConclusive cs d <;> rfl

/-- One more comparison with a value that cannot be written is never told, so the query fails as soon
as it finds a document. -/
theorem Parsed.execute_scoped_of_not_isWritable (hfield : IsFieldPath field)
    (hname : IsParameterName name) (hfresh : name.toList ∉ operands query.fragments)
    (hv : v.isWritable = false) (hkeys : ∀ d ∈ documents, ∃ k, d.resolve field = some k) :
    (query.scoped field name v).execute documents =
      if documents.all fun d => query.isConclusive d && !query.finds d then query.execute []
      else .error .unwritable := by
  have hscoped := compileAll_scoped hfield hname hfresh v
  cases hcompile : compileAll query.bindings query.fragments with
  | error e =>
    rw [hcompile] at hscoped
    simp [Parsed.execute_of_error hscoped, Parsed.execute_of_error hcompile, Parsed.isConclusive,
      Parsed.finds, hcompile]
  | ok cs =>
    rw [hcompile] at hscoped
    have htold : documents.all (Query.isConclusive (cs ++ [.compares field .eq v])) =
        documents.all fun d => Query.isConclusive cs d && !cs.all (·.holds d) := by
      rw [Bool.eq_iff_iff, List.all_eq_true, List.all_eq_true]
      refine forall₂_congr fun d hd => ?_
      obtain ⟨k, hk⟩ := hkeys d hd
      rw [isConclusive_concat cs hk, hv, Bool.and_false, Bool.or_false]
    have hshape : (query.scoped field name v).shape = query.shape := rfl
    simp only [Parsed.execute_of_ok hscoped, Parsed.execute_of_ok hcompile, hshape,
      Parsed.isConclusive, Parsed.finds, hcompile, meeting, htold]
    split
    next hnone =>
      have hempty : satisfying cs documents = [] := by
        refine List.filter_eq_nil_iff.2 fun d hd hholds => ?_
        have hfalse := List.all_eq_true.1 hnone d hd
        rw [hholds, Bool.not_true, Bool.and_false] at hfalse
        cases hfalse
      rw [satisfying_append, hempty]
      rfl
    next => rfl

end

end Query

namespace Store

open Query

/-! ## Partitions -/

/-- A query over one partition is the query over all documents with the partition key field compared
with a fresh parameter: it has the same answer or the same error, whatever was done to the store,
unless the query cannot tell of a document outside the partition.  It can tell of every document that
can be written if its parameters can be written.  For a partition key value that cannot be written
the listing fails if there are documents, and the query with the comparison fails as soon as it finds
one of them. -/
theorem execute_inPartition {field name : String} (hfield : IsFieldPath field)
    (hname : IsParameterName name) (calls : List Call) (v : Json) (query : Parsed)
    (hfresh : name.toList ∉ operands query.fragments) :
    let s := (empty field).after calls
    let inside := s.documents.filter (Ledger.inPartition field v)
    let narrowed := query.scoped field name v
    ((∀ binding ∈ query.bindings, binding.2.isWritable = true) →
      ∀ d : Json, d.isWritable = true → query.isConclusive d = true) ∧
    s.list none = .ok s.documents ∧
    (v.isWritable = true →
      s.list (some (Tree.ofJson v)) = .ok inside ∧
      narrowed.execute s.documents =
        if s.documents.all fun d => Ledger.inPartition field v d || query.isConclusive d then
          query.execute inside
        else .error .unwritable) ∧
    (v.isWritable = false →
      s.list (some (Tree.ofJson v)) =
        (if s.documents.isEmpty then .ok [] else .error (.noText .longInteger)) ∧
      narrowed.execute s.documents =
        if s.documents.all fun d => query.isConclusive d && !query.finds d then query.execute []
        else .error .unwritable) := by
  intro s inside narrowed
  have hsound : s.Sound := sound_after field calls
  have hfieldEq : s.field = field := field_after _ _
  have hkeys : ∀ d ∈ s.documents, ∃ k, d.resolve field = some k ∧ k.isWritable = true := by
    intro d hd
    obtain ⟨entry, hentry, rfl⟩ := List.mem_map.1 hd
    have hrow := hsound.row_sound entry hentry
    rw [hfieldEq] at hrow
    exact ⟨_, hrow.resolve_field, hrow.writable⟩
  refine ⟨fun hbindings d hd => Parsed.isConclusive_of_isWritable hbindings hd, rfl,
    fun hv => ⟨?_, Parsed.execute_scoped hfield hname hfresh hv hkeys⟩,
    fun hv => ⟨?_, Parsed.execute_scoped_of_not_isWritable hfield hname hfresh hv fun d hd =>
      (hkeys d hd).imp fun _ h => h.1⟩⟩
  · simp only [list, given_ofJson, Json.written?_ofJson, Json.written_of_isWritable hv]
    rw [hsound.inPartition_eq, hfieldEq]
  · simp only [list, given_ofJson, Json.written?_ofJson, Json.written_of_not hv, documents,
      List.isEmpty_map]

/-- The number of the documents above a bound in the partition of an array, of two documents of
which the other one is in the partition of null. -/
theorem execute_inPartition_array :
    let calls : List Call := [
      .upsert (.obj [("id", .str "a"), ("area", .null), ("n", Tree.int 7)]),
      .upsert (.obj [("id", .str "b"), ("area", .arr [Tree.int 1]), ("n", Tree.int 9)])]
    let query : Parsed :=
      { text := "SELECT VALUE COUNT(1) FROM c WHERE c.n > @n", shape := .count
        fragments := ["c.n > @n".toList], bindings := [("@n", Tree.int 5)] }
    IsFieldPath "area" ∧ IsParameterName "@pk" ∧ "@pk".toList ∉ operands query.fragments ∧
    ∃ inside all : List Json,
      ((empty "area").after calls).list (some (Tree.ofJson (.arr [Tree.int 1]))) = .ok inside ∧
      ((empty "area").after calls).list none = .ok all ∧
      query.execute inside = (query.scoped "area" "@pk" (.arr [Tree.int 1])).execute all := by
  intro calls query
  have hfield : IsFieldPath "area" := by decide +kernel
  have hname : IsParameterName "@pk" := ⟨['p', 'k'], rfl, by decide, by decide +kernel⟩
  have hfresh : "@pk".toList ∉ operands query.fragments := by decide +kernel
  have hv : (.arr [Tree.int 1] : Json).isWritable = true := by decide +kernel
  obtain ⟨htold, hall, hwritable, -⟩ :=
    execute_inPartition hfield hname calls (.arr [Tree.int 1]) query hfresh
  obtain ⟨hlist, hscoped⟩ := hwritable hv
  have hbindings : ∀ binding ∈ query.bindings, binding.2.isWritable = true := by decide +kernel
  have hdocuments : ∀ d ∈ ((empty "area").after calls).documents, d.isWritable = true := by
    decide +kernel
  refine ⟨hfield, hname, hfresh, _, _, hlist, hall, (hscoped.trans (if_pos ?_)).symm⟩
  rw [List.all_eq_true]
  intro d hd
  rw [htold hbindings d (hdocuments d hd), Bool.or_true]

theorem execute_inPartition_of_not_isWritable {v : Json} (hv : v.isWritable = false) :
    let s := (empty "area").after
      [.upsert (.obj [("id", .str "a"), ("area", .str "x"), ("n", Tree.int 1)])]
    let query : Parsed :=
      { text := "SELECT VALUE COUNT(1) FROM c WHERE c.n > @n", shape := .count
        fragments := ["c.n > @n".toList], bindings := [("@n", Tree.int 5)] }
    s.list (some (Tree.ofJson v)) = .error (.noText .longInteger) ∧
      (query.scoped "area" "@pk" v).execute s.documents = .ok [Tree.int 0] := by
  intro s query
  have hfield : IsFieldPath "area" := by decide +kernel
  have hname : IsParameterName "@pk" := ⟨['p', 'k'], rfl, by decide, by decide +kernel⟩
  have hfresh : "@pk".toList ∉ operands query.fragments := by decide +kernel
  have hsome : s.documents.isEmpty = false := by decide +kernel
  have hnone : s.documents.all (fun d => query.isConclusive d && !query.finds d) = true := by
    decide +kernel
  have hempty : query.execute [] = .ok [Tree.int 0] := by
    obtain ⟨cs, hcs⟩ := exists_compileAll_iff.2
      (show ∀ fragment ∈ query.fragments, ∃ c, Condition.compile query.bindings fragment = .ok c by
        decide +kernel)
    exact Parsed.execute_of_ok hcs []
  obtain ⟨-, -, -, hlong⟩ := execute_inPartition hfield hname
    [.upsert (.obj [("id", .str "a"), ("area", .str "x"), ("n", Tree.int 1)])] v query hfresh
  obtain ⟨hlist, hscoped⟩ := hlong hv
  rw [if_neg (by rw [hsome]; exact Bool.false_ne_true)] at hlist
  rw [if_pos hnone] at hscoped
  exact ⟨hlist, hscoped.trans hempty⟩

/-- The partition of an integer that is too long to be written is not listed, though the query with
the comparison is answered: no document meets its other fragment. -/
theorem long_partition_not_listed :
    let v : Json := Tree.int (tenPow Numeral.maxDigits)
    let s := (empty "area").after
      [.upsert (.obj [("id", .str "a"), ("area", .str "x"), ("n", Tree.int 1)])]
    let query : Parsed :=
      { text := "SELECT VALUE COUNT(1) FROM c WHERE c.n > @n", shape := .count
        fragments := ["c.n > @n".toList], bindings := [("@n", Tree.int 5)] }
    s.list (some (Tree.ofJson v)) = .error (.noText .longInteger) ∧
      (query.scoped "area" "@pk" v).execute s.documents = .ok [Tree.int 0] :=
  execute_inPartition_of_not_isWritable Json.isWritable_tenPow

end Store

end Pigeonhole
