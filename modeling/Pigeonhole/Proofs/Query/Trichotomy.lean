import Pigeonhole.Proofs.Query.Answer

/-!
# Comparisons of numbers

A field is equal to a value by their canonical texts, it is less or greater by their exact values.  For
numbers the two agree: every relation holds exactly if it allows the order of the two places
(`holds_compares_of_order`).  So one of less, equal and greater holds of two numbers and no more than
one, and nothing is in order with what is not a number (`compared_numbers`).  Only the texts of long
integers are not written, so of these it is not told whether they are equal.
-/

namespace Pigeonhole.Query

variable {path : String} {document value : Json} {a b : Number} {relation : Relation}

/-- A comparison of two numbers holds if its relation allows their order. -/
theorem holds_compares_of_order (h : document.resolve path = some (.num a)) {o : Ordering}
    (horder : a.compare? b = some o) (hequal : o = .eq ↔ a.place = b.place)
    (relation : Relation) :
    (Condition.compares path relation (.num b)).holds document = relation.allows o := by
  cases relation with
  | eq =>
    -- texts are equal at one place only, which is where the order is `eq`
    have hsame : Json.same (.num a) (.num b) = true ↔ a.place = b.place := by
      rw [Json.same_iff, Tree.normalize, Tree.normalize, Tree.num.injEq, Number.normalize_eq_iff]
    rw [Condition.holds, h, Option.any_some, Bool.eq_iff_iff, hsame, Relation.allows, beq_iff_eq,
      hequal]
  | _ => simp only [Condition.holds, h, Condition.inOrder, horder, Option.any_some]

/-- Nothing is less or greater than a value without an order to it. -/
theorem holds_compares_of_unordered (hrelation : relation ≠ .eq)
    (h : ∀ a b, document.resolve path = some (.num a) → value = .num b → a.compare? b = none) :
    (Condition.compares path relation value).holds document = false := by
  cases relation with
  | eq => exact absurd rfl hrelation
  | _ => exact inOrder_eq_false h

section Outcomes

variable (path document value)

/-- What comes of comparing the field at a path of a document with a value. -/
def compared (relation : Relation) : Except TextFault Bool :=
  (Condition.compares path relation (Tree.ofJson value)).holds? (Tree.ofJson document)

theorem compared_eq (relation : Relation) :
    compared path document value relation =
      if (Condition.compares path relation value).isComparable document then
        .ok ((Condition.compares path relation value).holds document)
      else .error .longInteger :=
  Condition.holds?_ofJson (.compares path relation value) document

variable {path document value}

/-- Nothing but equality asks for texts. -/
theorem compared_of_ne (hrelation : relation ≠ .eq) :
    compared path document value relation =
      .ok ((Condition.compares path relation value).holds document) := by
  rw [compared_eq]
  cases relation with
  | eq => exact absurd rfl hrelation
  | _ => rfl

theorem compared_of_unordered (hrelation : relation ≠ .eq)
    (h : ∀ a b, document.resolve path = some (.num a) → value = .num b → a.compare? b = none) :
    compared path document value relation = .ok false := by
  rw [compared_of_ne hrelation, holds_compares_of_unordered hrelation h]

/-- Equality of two numbers is told if both can be written. -/
theorem compared_eq_of_resolve (h : document.resolve path = some (.num a)) :
    compared path document (.num b) .eq =
      if a.isWritable && b.isWritable then
        .ok ((Condition.compares path .eq (.num b)).holds document)
      else .error .longInteger := by
  rw [compared_eq, Condition.isComparable, h, Option.all_some, Tree.isWritable_num,
    Tree.isWritable_num]

/-- A comparison of two numbers that is told allows their order or does not. -/
theorem compared_of_order (h : document.resolve path = some (.num a)) {o : Ordering}
    (horder : a.compare? b = some o) (hequal : o = .eq ↔ a.place = b.place)
    (htold : relation = .eq → a.isWritable = true ∧ b.isWritable = true) :
    compared path document (.num b) relation = .ok (relation.allows o) := by
  rw [← holds_compares_of_order h horder hequal]
  by_cases hrelation : relation = .eq
  · obtain ⟨ha, hb⟩ := htold hrelation
    rw [hrelation, compared_eq_of_resolve h, ha, hb, Bool.and_self, if_pos rfl]
  · exact compared_of_ne hrelation

end Outcomes

/-- Of two numbers one is less or greater than the other at an exact place on the line, or they are
equal, and the comparisons say which if both numbers can be written; equality is not told if one
cannot.  Nothing is less or greater than a value that is no number. -/
theorem compared_numbers (path : String) (document value : Json) :
    let outcome := compared path document value
    (∀ a b, document.resolve path = some (.num a) → value = .num b →
      (a ≠ .double .nan → b ≠ .double .nan →
        (∀ relation, relation ≠ .eq → ∃ holds, outcome relation = .ok holds) ∧
        (outcome .lt = .ok true ↔ a.place.Below b.place) ∧
        (outcome .gt = .ok true ↔ b.place.Below a.place) ∧
        (outcome .le = .ok true ↔ a.place.Below b.place ∨ a.place = b.place) ∧
        (outcome .ge = .ok true ↔ b.place.Below a.place ∨ a.place = b.place) ∧
        (a.isWritable = true → b.isWritable = true →
          (outcome .eq = .ok true ↔ a.place = b.place) ∧
          [Relation.lt, .eq, .gt].countP (outcome · = .ok true) = 1 ∧
          (outcome .le = .ok true ↔ outcome .lt = .ok true ∨ outcome .eq = .ok true) ∧
          (outcome .ge = .ok true ↔ outcome .gt = .ok true ∨ outcome .eq = .ok true))) ∧
      (a.isWritable = false ∨ b.isWritable = false → outcome .eq = .error .longInteger) ∧
      (a = .double .nan ∨ b = .double .nan →
        ∀ relation, relation ≠ .eq → outcome relation = .ok false)) ∧
    ((∀ n, document.resolve path ≠ some (.num n)) ∨ (∀ n, value ≠ .num n) →
      ∀ relation, relation ≠ .eq → outcome relation = .ok false) := by
  intro outcome
  refine ⟨?_, ?_⟩
  · rintro a b hfield rfl
    refine ⟨fun ha hb => ?_, fun hlong => ?_, fun hnan relation hrelation => ?_⟩
    · obtain ⟨o, horder, hlt, heq, hgt⟩ := Number.exists_compare? ha hb
      have hallows : ∀ relation, relation ≠ .eq → outcome relation = .ok (relation.allows o) :=
        fun relation hrelation => compared_of_order hfield horder heq (absurd · hrelation)
      have hequal : a.isWritable = true → b.isWritable = true →
          outcome .eq = .ok (Relation.eq.allows o) :=
        fun ha hb => compared_of_order hfield horder heq fun _ => ⟨ha, hb⟩
      rw [hallows .lt (by decide), hallows .gt (by decide), hallows .le (by decide),
        hallows .ge (by decide), ← hlt, ← heq, ← hgt]
      refine ⟨fun relation hrelation => ⟨_, hallows relation hrelation⟩, ?_, ?_, ?_, ?_,
        fun ha hb => ?_⟩
      · cases o <;> decide
      · cases o <;> decide
      · cases o <;> decide
      · cases o <;> decide
      · simp only [List.countP_cons, List.countP_nil, hequal ha hb, hallows .lt (by decide),
          hallows .gt (by decide)]
        cases o <;> decide
    · refine (compared_eq_of_resolve hfield).trans (if_neg ?_)
      rcases hlong with h | h <;> simp [h]
    · refine compared_of_unordered hrelation fun a' b' ha' hb' => ?_
      rw [hfield] at ha'
      cases ha'
      cases hb'
      exact Number.compare?_of_nan hnan
  · rintro (hfield | hvalue) relation hrelation
    · exact compared_of_unordered hrelation fun a _ ha _ => absurd ha (hfield a)
    · exact compared_of_unordered hrelation fun _ b _ hb => absurd hb (hvalue b)

/-- The double `2 ^ 53` is less than the integer after it, which is no double. -/
theorem compared_neighbours :
    let outcome := compared "n" (.obj [("n", .num (.double (.finite false 1076 0)))])
      (.num (.int 9007199254740993))
    [Relation.lt, .eq, .gt].countP (outcome · = .ok true) = 1 ∧
      (outcome .le = .ok true ↔ outcome .lt = .ok true ∨ outcome .eq = .ok true) ∧
      (outcome .ge = .ok true ↔ outcome .gt = .ok true ∨ outcome .eq = .ok true) := by
  have hnumbers := (compared_numbers "n" (.obj [("n", .num (.double (.finite false 1076 0)))])
    (.num (.int 9007199254740993))).1 _ _ rfl rfl
  obtain ⟨-, -, -, -, -, hequal⟩ := hnumbers.1 (by decide) (by decide)
  exact (hequal rfl (by decide +kernel)).2

theorem compared_self_of_not_isWritable {n : Number} (hn : n.isWritable = false) :
    let outcome := compared "n" (.obj [("n", .num n)]) (.num n)
    outcome .eq = .error .longInteger ∧ outcome .lt ≠ .ok true ∧ outcome .gt ≠ .ok true := by
  intro outcome
  have hne : n ≠ .double .nan := by
    rintro rfl
    cases hn
  have hnumbers := (compared_numbers "n" (.obj [("n", .num n)]) (.num n)).1 n n rfl rfl
  obtain ⟨-, hlt, hgt, -⟩ := hnumbers.1 hne hne
  have hself : ¬ n.place.Below n.place := by
    obtain ⟨o, -, hbelow, hequal, -⟩ := Number.exists_compare? hne hne
    rw [← hbelow, hequal.2 rfl]
    decide
  exact ⟨hnumbers.2.1 (.inl hn), fun h => hself (hlt.1 h), fun h => hself (hgt.1 h)⟩

/-- Of an integer that is too long to be written and itself none of less, equal and greater holds. -/
theorem long_integer_unequal_to_itself :
    let n : Number := .int (tenPow Numeral.maxDigits)
    let outcome := compared "n" (.obj [("n", .num n)]) (.num n)
    outcome .eq = .error .longInteger ∧ outcome .lt ≠ .ok true ∧ outcome .gt ≠ .ok true :=
  compared_self_of_not_isWritable ((Tree.isWritable_num _).symm.trans Json.isWritable_tenPow)

end Pigeonhole.Query
