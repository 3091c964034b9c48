import Pigeonhole.Json.Parser
import Pigeonhole.Proofs.Json.Written

/-!
# Faults of values

The text of a value is not read if there is a fault in the value: an integer with too many digits, or
too many arrays and objects inside each other.  `fault?` is the fault that counts, the first one as a
text is read.  There is none exactly if the integers are short enough and the value is not nested too
deeply (`fault?_eq_none_iff`).

The integers that stand for doubles have far fewer digits than are allowed, so `normalize` changes no
fault (`fault?_normalize`).
-/

namespace Pigeonhole

open Text Numeral

/-- Why the text of a value is not read. -/
inductive JsonFault where
  /-- An integer with more digits than are read. -/
  | longInteger
  /-- Too many arrays and objects inside each other. -/
  | tooDeep
deriving DecidableEq, Repr

/-- The error of a fault. -/
def JsonFault.toError : JsonFault → JsonError
  | longInteger => .longInteger
  | tooDeep => .tooDeep

/-- What is read, or the error if there is a fault. -/
def orFault {α : Type} (fault? : Option JsonFault) (a : α) : Except JsonError α :=
  match fault? with
  | none => .ok a
  | some fault => .error fault.toError

/-! ## Numbers -/

namespace Number

/-- The fault of a number that is an integer with too many digits. -/
def fault? : Number → Option JsonFault
  | .int n => if maxDigits < (natDigits n.natAbs).length then some .longInteger else none
  | .double _ => none

theorem fault?_normalize (n : Number) : n.normalize.fault? = n.fault? := by
  cases n with
  | int n => rfl
  | double x =>
    cases h : x.toInt? with
    | none => rw [normalize_double_of_none h]
    | some k =>
      have hlength := length_natDigits_of_toInt? h
      rw [normalize_double_of_some h, fault?, if_neg (by omega), fault?]

end Number

namespace Json

/-! ## Faults -/

mutual

/-- The fault that the text of a value is refused for, where `depth` arrays and objects may stand
inside each other. -/
def fault? : Nat → Json → Option JsonFault
  | _, .num n => n.fault?
  | 0, .arr _ => some .tooDeep
  | depth + 1, .arr items => itemsFault? depth items
  | 0, .obj _ => some .tooDeep
  | depth + 1, .obj members => membersFault? depth members
  | _, _ => none

/-- The first fault among the items of an array. -/
def itemsFault? (depth : Nat) : List Json → Option JsonFault
  | [] => none
  | v :: items => (fault? depth v).or (itemsFault? depth items)

/-- The first fault among the members of an object. -/
def membersFault? (depth : Nat) : List (String × Json) → Option JsonFault
  | [] => none
  | (_, v) :: members => (fault? depth v).or (membersFault? depth members)

end

mutual

/-- How many arrays and objects stand inside each other in a value. -/
def nesting : Json → Nat
  | .arr items => itemsNesting items + 1
  | .obj members => membersNesting members + 1
  | _ => 0

/-- How many arrays and objects stand inside each other in the items of an array. -/
def itemsNesting : List Json → Nat
  | [] => 0
  | v :: items => max (nesting v) (itemsNesting items)

/-- How many arrays and objects stand inside each other in the members of an object. -/
def membersNesting : List (String × Json) → Nat
  | [] => 0
  | (_, v) :: members => max (nesting v) (membersNesting members)

end

mutual

/-- The integers in a value. -/
def integers : Json → List Int
  | .num (.int n) => [n]
  | .arr items => itemsIntegers items
  | .obj members => membersIntegers members
  | _ => []

/-- The integers in the items of an array. -/
def itemsIntegers : List Json → List Int
  | [] => []
  | v :: items => integers v ++ itemsIntegers items

/-- The integers in the members of an object. -/
def membersIntegers : List (String × Json) → List Int
  | [] => []
  | (_, v) :: members => integers v ++ membersIntegers members

end

/-- Integers that may be read and written. -/
def Short (ns : List Int) : Prop := ∀ n ∈ ns, (natDigits n.natAbs).length ≤ maxDigits

theorem short_append {ms ns : List Int} : Short (ms ++ ns) ↔ Short ms ∧ Short ns :=
  List.forall_mem_append

mutual

/-- A value is written exactly if its integers are short. -/
theorem isWritable_iff_short (v : Json) : v.isWritable = true ↔ Short v.integers := by
  cases v with
  | num n =>
    rw [Tree.isWritable_num]
    cases n with
    | int n => simp [Number.isWritable, integers, Short]
    | double x => simp [Number.isWritable, integers, Short]
  | arr items => rw [Tree.isWritable_arr, integers, all_isWritable_iff_short items]
  | obj members => rw [Tree.isWritable_obj, integers, all_members_isWritable_iff_short members]
  | foreign e => cases e
  | _ => simp [integers, Short]

theorem all_isWritable_iff_short (vs : List Json) :
    vs.all Tree.isWritable = true ↔ Short (itemsIntegers vs) := by
  cases vs with
  | nil => simp [itemsIntegers, Short]
  | cons v vs =>
    rw [List.all_cons, Bool.and_eq_true, itemsIntegers, short_append, isWritable_iff_short v,
      all_isWritable_iff_short vs]

theorem all_members_isWritable_iff_short (ms : List (String × Json)) :
    (ms.all fun m => m.2.isWritable) = true ↔ Short (membersIntegers ms) := by
  cases ms with
  | nil => simp [membersIntegers, Short]
  | cons m ms =>
    obtain ⟨key, v⟩ := m
    rw [List.all_cons, Bool.and_eq_true, membersIntegers, short_append, isWritable_iff_short v,
      all_members_isWritable_iff_short ms]

end

theorem fault?_int_of_long {n : Nat} (h : maxDigits < (natDigits n).length) (depth : Nat) :
    fault? depth (.int n) = some .longInteger := if_pos h

mutual

/-- There is no fault in a value exactly if it is not nested too deeply and its integers are
short. -/
theorem fault?_eq_none_iff (v : Json) (depth : Nat) :
    v.fault? depth = none ↔ v.nesting ≤ depth ∧ Short v.integers := by
  cases v with
  | num n =>
    cases n with
    | int n => simp [fault?, Number.fault?, nesting, integers, Short]
    | double x => simp [fault?, Number.fault?, nesting, integers, Short]
  | arr items =>
    cases depth with
    | zero => simp [fault?, nesting]
    | succ depth =>
      rw [fault?, nesting, integers, Nat.add_le_add_iff_right]
      exact itemsFault?_eq_none_iff items depth
  | obj members =>
    cases depth with
    | zero => simp [fault?, nesting]
    | succ depth =>
      rw [fault?, nesting, integers, Nat.add_le_add_iff_right]
      exact membersFault?_eq_none_iff members depth
  | _ => simp [fault?, nesting, integers, Short]

theorem itemsFault?_eq_none_iff (vs : List Json) (depth : Nat) :
    itemsFault? depth vs = none ↔ itemsNesting vs ≤ depth ∧ Short (itemsIntegers vs) := by
  cases vs with
  | nil => simp [itemsFault?, itemsNesting, itemsIntegers, Short]
  | cons v vs =>
    rw [itemsFault?, Option.or_eq_none_iff, itemsNesting, itemsIntegers, Nat.max_le, short_append,
      fault?_eq_none_iff v depth, itemsFault?_eq_none_iff vs depth, and_and_and_comm]

theorem membersFault?_eq_none_iff (ms : List (String × Json)) (depth : Nat) :
    membersFault? depth ms = none ↔
      membersNesting ms ≤ depth ∧ Short (membersIntegers ms) := by
  cases ms with
  | nil => simp [membersFault?, membersNesting, membersIntegers, Short]
  | cons m ms =>
    obtain ⟨key, v⟩ := m
    rw [membersFault?, Option.or_eq_none_iff, membersNesting, membersIntegers, Nat.max_le,
      short_append, fault?_eq_none_iff v depth, membersFault?_eq_none_iff ms depth,
      and_and_and_comm]

end

mutual

theorem fault?_normalize (v : Json) (depth : Nat) : fault? depth v.normalize = fault? depth v := by
  cases v with
  | num n => exact n.fault?_normalize
  | arr items =>
    cases depth with
    | zero => rfl
    | succ depth => exact itemsFault?_normalizeItems items depth
  | obj members =>
    cases depth with
    | zero => rfl
    | succ depth => exact membersFault?_normalizeMembers members depth
  | _ => rfl

theorem itemsFault?_normalizeItems (vs : List Json) (depth : Nat) :
    itemsFault? depth (Tree.normalizeItems vs) = itemsFault? depth vs := by
  cases vs with
  | nil => rfl
  | cons v vs =>
    rw [Tree.normalizeItems, itemsFault?, itemsFault?, fault?_normalize v depth,
      itemsFault?_normalizeItems vs depth]

theorem membersFault?_normalizeMembers (ms : List (String × Json)) (depth : Nat) :
    membersFault? depth (Tree.normalizeMembers ms) = membersFault? depth ms := by
  cases ms with
  | nil => rfl
  | cons m ms =>
    obtain ⟨key, v⟩ := m
    rw [Tree.normalizeMembers, membersFault?, membersFault?, fault?_normalize v depth,
      membersFault?_normalizeMembers ms depth]

end

/-! ## Distinct keys -/

mutual

/-- No object in a value has two members of one key. -/
def Distinct : Json → Prop
  | .arr items => ItemsDistinct items
  | .obj members => (members.map (·.1)).Nodup ∧ MembersDistinct members
  | _ => True

/-- No object in the items of an array has two members of one key. -/
def ItemsDistinct : List Json → Prop
  | [] => True
  | v :: items => Distinct v ∧ ItemsDistinct items

/-- No object in the members of an object has two members of one key. -/
def MembersDistinct : List (String × Json) → Prop
  | [] => True
  | (_, v) :: members => Distinct v ∧ MembersDistinct members

end

theorem map_fst_normalizeMembers (ms : List (String × Json)) :
    (Tree.normalizeMembers ms).map (·.1) = ms.map (·.1) := by
  induction ms with
  | nil => rfl
  | cons m ms ih => rw [Tree.normalizeMembers, List.map_cons, List.map_cons, ih]

mutual

theorem Distinct.normalize {v : Json} (h : v.Distinct) : Distinct v.normalize := by
  cases v with
  | arr items => exact ItemsDistinct.normalizeItems h
  | obj members =>
    rw [Tree.normalize, Distinct, map_fst_normalizeMembers]
    exact ⟨h.1, MembersDistinct.normalizeMembers h.2⟩
  | _ => trivial

theorem ItemsDistinct.normalizeItems {vs : List Json} (h : ItemsDistinct vs) :
    ItemsDistinct (Tree.normalizeItems vs) := by
  cases vs with
  | nil => trivial
  | cons v vs => exact ⟨Distinct.normalize h.1, ItemsDistinct.normalizeItems h.2⟩

theorem MembersDistinct.normalizeMembers {ms : List (String × Json)} (h : MembersDistinct ms) :
    MembersDistinct (Tree.normalizeMembers ms) := by
  cases ms with
  | nil => trivial
  | cons m ms => exact ⟨Distinct.normalize h.1, MembersDistinct.normalizeMembers h.2⟩

end

end Json

end Pigeonhole
