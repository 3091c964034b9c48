import Pigeonhole.Proofs.Json.Fault
import Pigeonhole.Proofs.Store.Ledger

/-!
# Values with one text are equal

`Json.Equal` compares values part by part: numbers by the place where they stand, everything else as
it is, and the members of objects in their order.  It is what equality of canonical texts comes to
(`same_iff_equal`), so that storage keys never confuse two partition key values.  Values are compared
only if both are written, and equal values are written both or not at all.
-/

namespace Pigeonhole

namespace Json

mutual

/-- Whether values are equal part by part. -/
def Equal : Json → Json → Prop
  | .null, .null => True
  | .bool a, .bool b => a = b
  | .num m, .num n => m.place = n.place
  | .str s, .str t => s = t
  | .arr as, .arr bs => ItemsEqual as bs
  | .obj ms, .obj ns => MembersEqual ms ns
  | _, _ => False

/-- Whether arrays have equal items. -/
def ItemsEqual : List Json → List Json → Prop
  | [], [] => True
  | a :: as, b :: bs => Equal a b ∧ ItemsEqual as bs
  | _, _ => False

/-- Whether objects have equal members in one order. -/
def MembersEqual : List (String × Json) → List (String × Json) → Prop
  | [], [] => True
  | (key, a) :: ms, (key', b) :: ns => key = key' ∧ Equal a b ∧ MembersEqual ms ns
  | _, _ => False

end

mutual

theorem normalize_eq_iff (a b : Json) : a.normalize = b.normalize ↔ a.Equal b := by
  cases a with
  | num m =>
    cases b with
    | num n => simp [Tree.normalize, Equal, Number.normalize_eq_iff]
    | foreign e => cases e
    | _ => simp [Tree.normalize, Equal]
  | arr as =>
    cases b with
    | arr bs => simp [Tree.normalize, Equal, normalizeItems_eq_iff as bs]
    | foreign e => cases e
    | _ => simp [Tree.normalize, Equal]
  | obj ms =>
    cases b with
    | obj ns => simp [Tree.normalize, Equal, normalizeMembers_eq_iff ms ns]
    | foreign e => cases e
    | _ => simp [Tree.normalize, Equal]
  | foreign e => cases e
  | _ =>
    cases b with
    | foreign e => cases e
    | _ => simp [Tree.normalize, Equal]

theorem normalizeItems_eq_iff (as bs : List Json) :
    Tree.normalizeItems as = Tree.normalizeItems bs ↔ ItemsEqual as bs := by
  cases as with
  | nil => cases bs <;> simp [Tree.normalizeItems, ItemsEqual]
  | cons a as =>
    cases bs with
    | nil => simp [Tree.normalizeItems, ItemsEqual]
    | cons b bs =>
      rw [Tree.normalizeItems, Tree.normalizeItems, ItemsEqual, List.cons.injEq,
        normalize_eq_iff a b, normalizeItems_eq_iff as bs]

theorem normalizeMembers_eq_iff (ms ns : List (String × Json)) :
    Tree.normalizeMembers ms = Tree.normalizeMembers ns ↔ MembersEqual ms ns := by
  cases ms with
  | nil => cases ns <;> simp [Tree.normalizeMembers, MembersEqual]
  | cons m ms =>
    cases ns with
    | nil => simp [Tree.normalizeMembers, MembersEqual]
    | cons n ns =>
      obtain ⟨key, a⟩ := m
      obtain ⟨key', b⟩ := n
      rw [Tree.normalizeMembers, Tree.normalizeMembers, MembersEqual, List.cons.injEq,
        Prod.mk.injEq, normalize_eq_iff a b, normalizeMembers_eq_iff ms ns, and_assoc]

end

mutual

theorem normalize_normalize (v : Json) : v.normalize.normalize = v.normalize := by
  cases v with
  | num n => rw [Tree.normalize, Tree.normalize, n.normalize_normalize]
  | arr items => rw [Tree.normalize, Tree.normalize, normalizeItems_normalizeItems items]
  | obj members => rw [Tree.normalize, Tree.normalize, normalizeMembers_normalizeMembers members]
  | _ => rfl

theorem normalizeItems_normalizeItems (vs : List Json) :
    Tree.normalizeItems (Tree.normalizeItems vs) = Tree.normalizeItems vs := by
  cases vs with
  | nil => rfl
  | cons v vs =>
    rw [Tree.normalizeItems, Tree.normalizeItems, normalize_normalize v,
      normalizeItems_normalizeItems vs]

theorem normalizeMembers_normalizeMembers (ms : List (String × Json)) :
    Tree.normalizeMembers (Tree.normalizeMembers ms) = Tree.normalizeMembers ms := by
  cases ms with
  | nil => rfl
  | cons m ms =>
    obtain ⟨key, v⟩ := m
    rw [Tree.normalizeMembers, Tree.normalizeMembers, normalize_normalize v,
      normalizeMembers_normalizeMembers ms]

end

theorem same_normalize (v : Json) : same v.normalize v = true :=
  (same_iff _ _).2 (normalize_normalize v)

theorem same?_ofJson (a b : Json) :
    Value.same? (Tree.ofJson a) (Tree.ofJson b) =
      if a.isWritable && b.isWritable then .ok (a.same b) else .error .longInteger := by
  have hpresent : ∀ j : Json, (Tree.ofJson j : Value) ≠ .foreign .missing := by
    intro j
    cases j with
    | foreign e => cases e
    | _ => simp [Tree.ofJson]
  rw [Value.same?, written?_ofJson, written?_ofJson]
  · cases ha : a.isWritable with
    | false =>
      rw [written_of_not ha]
      rfl
    | true =>
      rw [written_of_isWritable ha]
      cases hb : b.isWritable with
      | false =>
        rw [written_of_not hb]
        rfl
      | true =>
        rw [written_of_isWritable hb]
        rfl
  · exact hpresent a
  · exact hpresent b

/-- Values are compared exactly if both are written, that is, if their integers are short.  Then they
are found the same exactly if they are equal with every integral double replaced by its integer, and
that is to be equal part by part.  Equal values are written both or not at all.  Entries have one
storage key exactly if their ids are equal and their partition key values are so. -/
theorem same_iff_equal (a b : Json) :
    (Value.same? (Tree.ofJson a) (Tree.ofJson b) =
      if a.isWritable && b.isWritable then .ok (a.same b) else .error .longInteger) ∧
    (a.isWritable = true ↔ Short a.integers) ∧
    (a.same b = true ↔ a.normalize = b.normalize) ∧
    (a.normalize = b.normalize ↔ a.Equal b) ∧
    (a.Equal b → a.isWritable = b.isWritable) ∧
    ∀ id id' : String, StorageKey.of id a = StorageKey.of id' b ↔ id = id' ∧ a.Equal b := by
  refine ⟨same?_ofJson a b, isWritable_iff_short a, same_iff a b, normalize_eq_iff a b,
    fun h => isWritable_of_same ((same_iff a b).2 ((normalize_eq_iff a b).2 h)), fun id id' => ?_⟩
  rw [StorageKey.of_eq_of_iff, same_iff, normalize_eq_iff]

/-- An integer with too many digits is equal to itself and is not compared with itself. -/
theorem long_integer_not_compared :
    let a : Json := Tree.int (tenPow Numeral.maxDigits)
    a.Equal a ∧ Value.same? (Tree.ofJson a) (Tree.ofJson a) = .error .longInteger := by
  intro a
  have hlong : a.isWritable = false := isWritable_tenPow
  refine ⟨rfl, ?_⟩
  rw [same?_ofJson, hlong]
  rfl

example : ¬ Equal (.obj [("a", .null), ("b", .bool true)])
    (.obj [("b", .bool true), ("a", .null)]) := by simp [Equal, MembersEqual]

end Json

end Pigeonhole
