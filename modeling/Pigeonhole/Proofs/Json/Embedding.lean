import Pigeonhole.Json.Path
import Pigeonhole.Json.Printer

/-!
# JSON among values with foreign leaves

`Tree.ofJson` puts a JSON value among values that may have foreign leaves.  Every value without
foreign leaves is of this kind (`ofJson_of_toJson?`).  Members, paths and texts are those of the JSON
value.
-/

namespace Pigeonhole

namespace Tree

variable {α : Type}

/-! ## Values without foreign leaves -/

mutual

/-- A value without foreign leaves is a JSON value. -/
theorem ofJson_of_toJson? (v : Tree α) {j : Json} (h : v.toJson? = some j) : v = ofJson j := by
  cases v with
  | arr items =>
    rw [toJson?, Option.map_eq_some_iff] at h
    obtain ⟨js, hjs, rfl⟩ := h
    rw [itemsOfJson_of_itemsToJson? items hjs, ofJson]
  | obj members =>
    rw [toJson?, Option.map_eq_some_iff] at h
    obtain ⟨js, hjs, rfl⟩ := h
    rw [membersOfJson_of_membersToJson? members hjs, ofJson]
  | foreign a => cases h
  | _ =>
    obtain rfl := Option.some.inj h
    rfl

theorem itemsOfJson_of_itemsToJson? (vs : List (Tree α)) {js : List Json}
    (h : itemsToJson? vs = some js) : vs = itemsOfJson js := by
  cases vs with
  | nil =>
    obtain rfl := Option.some.inj h
    rfl
  | cons v vs =>
    rw [itemsToJson?] at h
    split at h
    · rename_i j rest hj hrest
      obtain rfl := Option.some.inj h
      rw [itemsOfJson, ← ofJson_of_toJson? v hj, ← itemsOfJson_of_itemsToJson? vs hrest]
    · cases h

theorem membersOfJson_of_membersToJson? (ms : List (String × Tree α)) {js : List (String × Json)}
    (h : membersToJson? ms = some js) : ms = membersOfJson js := by
  cases ms with
  | nil =>
    obtain rfl := Option.some.inj h
    rfl
  | cons m ms =>
    obtain ⟨key, v⟩ := m
    rw [membersToJson?] at h
    split at h
    · rename_i j rest hj hrest
      obtain rfl := Option.some.inj h
      rw [membersOfJson, ← ofJson_of_toJson? v hj, ← membersOfJson_of_membersToJson? ms hrest]
    · cases h

end

/-! ## Members and paths -/

theorem lookup_membersOfJson (ms : List (String × Json)) (key : String) :
    (membersOfJson ms : List (String × Tree α)).lookup key = (ms.lookup key).map ofJson := by
  induction ms with
  | nil => rfl
  | cons m rest ih =>
    obtain ⟨k, v⟩ := m
    simp only [membersOfJson, List.lookup_cons]
    cases key == k with
    | true => rfl
    | false => exact ih

theorem member?_ofJson (key : String) (v : Json) :
    (ofJson v : Tree α).member? key = (v.member? key).map ofJson := by
  cases v with
  | obj members => exact lookup_membersOfJson members key
  | foreign leaf => cases leaf
  | _ => rfl

theorem descend_ofJson (names : List String) (v : Json) :
    (ofJson v : Tree α).descend names = (v.descend names).map ofJson := by
  induction names generalizing v with
  | nil => rfl
  | cons name names ih =>
    rw [descend_cons, descend_cons, member?_ofJson]
    cases v.member? name with
    | none => rfl
    | some w => exact ih w

theorem resolve_ofJson (path : String) (v : Json) :
    (ofJson v : Tree α).resolve path = (v.resolve path).map ofJson :=
  descend_ofJson (segments path) v

end Tree

/-! ## Texts -/

namespace Json

variable {α : Type} (f : JsonFormat) (leaf : α → List Char) (bare : Empty → List Char)

mutual

/-- A JSON value has its own text, whatever the texts of foreign leaves are. -/
theorem print_ofJson (v : Json) (depth : Nat) :
    (Tree.ofJson v : Tree α).print f leaf depth = v.print f bare depth := by
  cases v with
  | bool b => cases b <;> rfl
  | arr items =>
    cases items with
    | nil => rfl
    | cons v rest =>
      rw [Tree.ofJson, Tree.itemsOfJson, Tree.print, Tree.print, print_ofJson v,
        printItems_itemsOfJson rest]
  | obj members =>
    cases members with
    | nil => rfl
    | cons m rest =>
      obtain ⟨key, v⟩ := m
      rw [Tree.ofJson, Tree.membersOfJson, Tree.print, Tree.print, print_ofJson v,
        printMembers_membersOfJson rest]
  | foreign e => cases e
  | _ => rfl

theorem printItems_itemsOfJson (items : List Json) (depth : Nat) :
    Tree.printItems f leaf depth (Tree.itemsOfJson items : List (Tree α)) =
      Tree.printItems f bare depth items := by
  cases items with
  | nil => rfl
  | cons v rest =>
    rw [Tree.itemsOfJson, Tree.printItems, Tree.printItems, print_ofJson v,
      printItems_itemsOfJson rest]

theorem printMembers_membersOfJson (members : List (String × Json)) (depth : Nat) :
    Tree.printMembers f leaf depth (Tree.membersOfJson members : List (String × Tree α)) =
      Tree.printMembers f bare depth members := by
  cases members with
  | nil => rfl
  | cons m rest =>
    obtain ⟨key, v⟩ := m
    rw [Tree.membersOfJson, Tree.printMembers, Tree.printMembers, print_ofJson v,
      printMembers_membersOfJson rest]

end

end Json

end Pigeonhole
