import Pigeonhole.Proofs.Json.Embedding
import Pigeonhole.Proofs.Json.Writing
import Pigeonhole.Proofs.Number.Place
import Pigeonhole.Proofs.Text.Decimal

/-!
# Values that are written

A JSON value is written exactly if all its numbers are (`isWritable_arr`, `isWritable_obj`), among
other values as alone (`textFault?_ofJson`).  The integers that stand for doubles have far fewer
digits than are allowed, so `normalize` changes nothing about it (`isWritable_normalize`), and values
with one canonical text are written both or not at all (`isWritable_of_same`).
-/

namespace Pigeonhole

open Text Numeral

/-! ## Numbers -/

namespace Number

theorem length_natDigits_of_toInt? {x : Double} {k : Int} (h : x.toInt? = some k) :
    (natDigits k.natAbs).length ≤ maxDigits := by
  apply length_natDigits_le (by decide)
  calc k.natAbs < twoPow 1024 := Double.natAbs_lt_of_toInt? h
    _ ≤ twoPow maxDigits := twoPow_le (by decide)
    _ ≤ tenPow maxDigits := twoPow_le_tenPow maxDigits

theorem isWritable_normalize (n : Number) : n.normalize.isWritable = n.isWritable := by
  cases n with
  | int n => rfl
  | double x =>
    cases h : x.toInt? with
    | none => rw [normalize_double_of_none h]
    | some k =>
      rw [normalize_double_of_some h, isWritable, isWritable]
      exact decide_eq_true (length_natDigits_of_toInt? h)

theorem not_isWritable_of_long {n : Nat} (h : maxDigits < (natDigits n).length) :
    (Number.int n).isWritable = false := by
  rw [isWritable, Int.natAbs_natCast]
  exact decide_eq_false (Nat.not_le_of_lt h)

end Number

namespace Numeral

theorem asciiDigitValue?_lt {c : Char} {d : Nat} (h : asciiDigitValue? c = some d) : d < 10 := by
  unfold asciiDigitValue? at h
  split at h
  next hc =>
    obtain rfl := Option.some.inj h
    rw [isAsciiDigit, Bool.and_eq_true, decide_eq_true_iff, decide_eq_true_iff] at hc
    have hlast : c.toNat ≤ '9'.toNat := hc.2
    have hnine : '9'.toNat - '0'.toNat < 10 := by decide
    omega
  next => cases h

theorem lt_ten_of_mem_spanDigits {s : List Char} : ∀ d ∈ (spanDigits s).1, d < 10 := by
  induction s with
  | nil => exact List.forall_mem_nil _
  | cons c s ih =>
    rw [spanDigits]
    cases hc : asciiDigitValue? c with
    | none => exact List.forall_mem_nil _
    | some v => exact List.forall_mem_cons.2 ⟨asciiDigitValue?_lt hc, ih⟩

theorem length_natDigits_digitsValue {ds : List Nat} (hne : ds ≠ []) (h : ∀ d ∈ ds, d < 10) :
    (natDigits (digitsValue ds)).length ≤ ds.length :=
  length_natDigits_le (List.length_pos_of_ne_nil hne) (digitsValue_lt h)

/-- An integer that is read can be written. -/
theorem isWritable_of_readInt {s : List Char} {n : Int} (h : readInt s = .ok n) :
    (Number.int n).isWritable = true := by
  unfold readInt at h
  split at h
  next digits _ =>
    unfold signedInt at h
    split at h
    · cases h
    next ds hne hspan =>
      have hds : ∀ d ∈ ds, d < 10 := by
        have hmem := lt_ten_of_mem_spanDigits (s := (takeSign digits).2)
        rwa [hspan] at hmem
      by_cases hfits : ds.length ≤ maxDigits
      · have habs : n.natAbs = digitsValue ds := by
          rw [ofDigits, if_pos hfits] at h
          obtain rfl := Except.ok.inj h
          split <;> simp
        rw [Number.isWritable, habs]
        exact decide_eq_true ((length_natDigits_digitsValue hne hds).trans hfits)
      · rw [ofDigits, if_neg hfits] at h
        cases h
    · cases h
  · cases h

end Numeral

namespace Tree

variable {α : Type}

/-! ## Parts of values -/

theorem isNone_itemsTextFault? (leaf : α → Option TextFault) (items : List (Tree α)) :
    (itemsTextFault? leaf items).isNone = items.all fun v => (v.textFault? leaf).isNone := by
  induction items with
  | nil => rfl
  | cons v rest ih => rw [itemsTextFault?, Option.isNone_or, ih, List.all_cons]

theorem isNone_membersTextFault? (leaf : α → Option TextFault) (members : List (String × Tree α)) :
    (membersTextFault? leaf members).isNone =
      members.all fun m => (m.2.textFault? leaf).isNone := by
  induction members with
  | nil => rfl
  | cons m rest ih =>
    obtain ⟨key, v⟩ := m
    rw [membersTextFault?, Option.isNone_or, ih, List.all_cons]

@[simp] theorem isWritable_null : (null : Tree α).isWritable = true := rfl

@[simp] theorem isWritable_bool (b : Bool) : (bool b : Tree α).isWritable = true := rfl

@[simp] theorem isWritable_str (s : String) : (str s : Tree α).isWritable = true := rfl

@[simp] theorem isWritable_foreign (leaf : α) : (foreign leaf).isWritable = true := rfl

@[simp] theorem isWritable_num (n : Number) : (num n : Tree α).isWritable = n.isWritable := by
  rw [isWritable, textFault?]
  cases n.isWritable <;> rfl

@[simp] theorem isWritable_arr (items : List (Tree α)) :
    (arr items).isWritable = items.all isWritable :=
  isNone_itemsTextFault? _ items

@[simp] theorem isWritable_obj (members : List (String × Tree α)) :
    (obj members).isWritable = members.all (·.2.isWritable) :=
  isNone_membersTextFault? _ members

theorem isWritable_of_descend {names : List String} {v w : Tree α} (h : v.descend names = some w)
    (hv : v.isWritable = true) : w.isWritable = true := by
  induction names generalizing v with
  | nil =>
    obtain rfl := Option.some.inj h
    exact hv
  | cons name names ih =>
    rw [descend_cons, Option.bind_eq_some_iff] at h
    obtain ⟨u, hu, hw⟩ := h
    cases v with
    | obj members =>
      obtain ⟨before, after, rfl, -⟩ := List.lookup_eq_some_iff.1 hu
      rw [isWritable_obj, List.all_eq_true] at hv
      exact ih hw (hv (name, u) (List.mem_append_right _ List.mem_cons_self))
    | _ => cases hu

/-- What stands in a value that can be written can be written. -/
theorem isWritable_of_resolve {path : String} {v w : Tree α} (h : v.resolve path = some w)
    (hv : v.isWritable = true) : w.isWritable = true := isWritable_of_descend h hv

/-! ## Values among others -/

mutual

theorem textFault?_ofJson (leaf : α → Option TextFault) (v : Json) :
    (ofJson v : Tree α).textFault? leaf = if v.isWritable then none else some .longInteger := by
  cases v with
  | num n =>
    rw [ofJson, textFault?, isWritable_num]
  | arr items =>
    rw [ofJson, textFault?, itemsTextFault?_itemsOfJson leaf items, isWritable_arr]
  | obj members =>
    rw [ofJson, textFault?, membersTextFault?_membersOfJson leaf members, isWritable_obj]
  | foreign e => cases e
  | _ => rfl

theorem itemsTextFault?_itemsOfJson (leaf : α → Option TextFault) (items : List Json) :
    itemsTextFault? leaf (itemsOfJson items) =
      if items.all isWritable then none else some .longInteger := by
  cases items with
  | nil => rfl
  | cons v rest =>
    rw [itemsOfJson, itemsTextFault?, textFault?_ofJson leaf v,
      itemsTextFault?_itemsOfJson leaf rest, List.all_cons]
    cases v.isWritable <;> rfl

theorem membersTextFault?_membersOfJson (leaf : α → Option TextFault)
    (members : List (String × Json)) :
    membersTextFault? leaf (membersOfJson members) =
      if members.all (·.2.isWritable) then none else some .longInteger := by
  cases members with
  | nil => rfl
  | cons m rest =>
    obtain ⟨key, v⟩ := m
    rw [membersOfJson, membersTextFault?, textFault?_ofJson leaf v,
      membersTextFault?_membersOfJson leaf rest, List.all_cons]
    cases v.isWritable <;> rfl

end

@[simp] theorem isWritable_ofJson (v : Json) : (ofJson v : Tree α).isWritable = v.isWritable := by
  rw [isWritable, textFault?_ofJson]
  cases v.isWritable <;> rfl

mutual

theorem isWritable_normalize (v : Tree α) : v.normalize.isWritable = v.isWritable := by
  cases v with
  | num n => rw [normalize, isWritable_num, isWritable_num, n.isWritable_normalize]
  | arr items => rw [normalize, isWritable_arr, isWritable_arr, all_normalizeItems items]
  | obj members => rw [normalize, isWritable_obj, isWritable_obj, all_normalizeMembers members]
  | _ => rfl

theorem all_normalizeItems (items : List (Tree α)) :
    (normalizeItems items).all isWritable = items.all isWritable := by
  cases items with
  | nil => rfl
  | cons v rest =>
    rw [normalizeItems, List.all_cons, List.all_cons, isWritable_normalize v,
      all_normalizeItems rest]

theorem all_normalizeMembers (members : List (String × Tree α)) :
    ((normalizeMembers members).all fun m => m.2.isWritable) =
      members.all fun m => m.2.isWritable := by
  cases members with
  | nil => rfl
  | cons m rest =>
    obtain ⟨key, v⟩ := m
    rw [normalizeMembers, List.all_cons, List.all_cons, isWritable_normalize v,
      all_normalizeMembers rest]

end

/-! ## Related values -/

mutual

/-- Values that differ only in strings are written both or not at all. -/
theorem Related.isWritable_eq {R : String → String → Prop} {v w : Tree α} (h : v.Related R w) :
    v.isWritable = w.isWritable := by
  cases v <;> cases w <;> try exact h.elim
  case num.num =>
    obtain rfl : _ = _ := h
    rfl
  case arr.arr =>
    rw [isWritable_arr, isWritable_arr]
    exact ItemsRelated.all_isWritable_eq h
  case obj.obj =>
    rw [isWritable_obj, isWritable_obj]
    exact MembersRelated.all_isWritable_eq h
  all_goals rfl

theorem ItemsRelated.all_isWritable_eq {R : String → String → Prop} {vs ws : List (Tree α)}
    (h : ItemsRelated R vs ws) : vs.all isWritable = ws.all isWritable := by
  cases vs <;> cases ws <;> try exact h.elim
  case nil.nil => rfl
  case cons.cons =>
    rw [List.all_cons, List.all_cons, h.1.isWritable_eq, ItemsRelated.all_isWritable_eq h.2]

theorem MembersRelated.all_isWritable_eq {R : String → String → Prop}
    {ms ns : List (String × Tree α)} (h : MembersRelated R ms ns) :
    (ms.all fun m => m.2.isWritable) = ns.all fun m => m.2.isWritable := by
  cases ms <;> cases ns <;> try exact h.elim
  case nil.nil => rfl
  case cons.cons =>
    rw [List.all_cons, List.all_cons, h.2.1.isWritable_eq,
      MembersRelated.all_isWritable_eq h.2.2]

end

end Tree

namespace Json

theorem isWritable_natCast {n : Nat} (h : n < tenPow maxDigits) :
    (Tree.int n : Json).isWritable = true := by
  rw [Tree.int, Tree.isWritable_num]
  exact decide_eq_true (length_natDigits_le (by decide) h)

/-- An integer of one digit more than are written. -/
theorem isWritable_tenPow : (Tree.int (tenPow maxDigits) : Json).isWritable = false := by
  rw [Tree.int, Tree.isWritable_num]
  exact Number.not_isWritable_of_long (lt_length_natDigits_tenPow maxDigits)

theorem same_iff (a b : Json) : a.same b = true ↔ a.normalize = b.normalize := by
  rw [same, beq_iff_eq]
  constructor
  · exact write_inj .compact
  · intro h
    rw [canonical, canonical, h]

/-- Values with one canonical text are written both or not at all. -/
theorem isWritable_of_same {a b : Json} (h : a.same b = true) : a.isWritable = b.isWritable := by
  rw [← Tree.isWritable_normalize, (same_iff a b).1 h, Tree.isWritable_normalize]

/-! ## What is made of a value that is written -/

section

variable {α : Type} {j : Json} {a b : α}

theorem written_of_isWritable (h : j.isWritable = true) (a : α) : j.written a = .ok a := if_pos h

theorem written_of_not (h : j.isWritable = false) (a : α) :
    j.written a = .error .longInteger := by
  rw [written, h]
  rfl

theorem written_eq_ok_iff : j.written a = .ok b ↔ j.isWritable = true ∧ a = b := by
  rw [written]
  cases j.isWritable <;> simp

end

theorem written?_ofJson (j : Json) : Value.written? (Tree.ofJson j) = j.written j := by
  rw [Value.written?, Tree.toJson?_ofJson]

end Json

namespace Value

/-- A value that is written is JSON, and the same value. -/
theorem written?_eq_ok_iff {v : Value} {j : Json} :
    v.written? = .ok j ↔ v.toJson? = some j ∧ j.isWritable = true := by
  rw [written?]
  cases v.toJson? with
  | none => simp
  | some k =>
    simp only [Json.written_eq_ok_iff, Option.some.injEq]
    constructor
    · rintro ⟨hk, rfl⟩
      exact ⟨rfl, hk⟩
    · rintro ⟨rfl, hk⟩
      exact ⟨hk, rfl⟩

end Value

end Pigeonhole
