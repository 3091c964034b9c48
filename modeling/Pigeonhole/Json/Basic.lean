import Pigeonhole.Json.Key

/-!
# JSON trees

`Tree α` is the type of JSON values whose leaves may also be foreign values of type `α`.  A `Json`
has no foreign leaves, so documents and query results are JSON by their type.  A `Value` is what a
caller may hand in: JSON with leaves that are no JSON value, or that mark an absent value.
`Tree.toJson?` tells which values are JSON.

The members of an object keep their order, and `assign` keeps their keys distinct.
-/

namespace Pigeonhole

/-- JSON values with foreign leaves of type `α`. -/
inductive Tree (α : Type) where
  | null
  | bool (b : Bool)
  | num (n : Number)
  | str (s : String)
  | arr (items : List (Tree α))
  | obj (members : List (String × Tree α))
  | foreign (leaf : α)
deriving Inhabited

/-- JSON values. -/
abbrev Json := Tree Empty

/-- Values that are no JSON values. -/
inductive Foreign where
  /-- The mark of an absent value. -/
  | missing
  /-- An object of another kind. -/
  | object
  /-- A mapping in which some key is no string. -/
  | mapping (entries : List (Key × Tree Foreign))

/-- Values as callers hand them in. -/
abbrev Value := Tree Foreign

/-- Entries with the value of a key set: in place if the key is there, else at the end. -/
def assign {κ α : Type} [DecidableEq κ] (key : κ) (value : α) : List (κ × α) → List (κ × α)
  | [] => [(key, value)]
  | (k, v) :: rest => if k = key then (k, value) :: rest else (k, v) :: assign key value rest

/-- Entries from a list of assignments: a key keeps its first place and its last value. -/
def assignAll {κ α : Type} [DecidableEq κ] (pairs : List (κ × α)) : List (κ × α) :=
  pairs.foldl (fun members (key, value) => assign key value members) []

section Assign

variable {κ α : Type} [DecidableEq κ]

theorem lookup_assign_self (key : κ) (value : α) (entries : List (κ × α)) :
    (assign key value entries).lookup key = some value := by
  induction entries with
  | nil => simp [assign]
  | cons entry rest ih =>
    obtain ⟨k, v⟩ := entry
    by_cases h : k = key
    · subst h
      simp [assign]
    · have h' : (key == k) = false := by simp [Ne.symm h]
      simp [assign, h, List.lookup_cons, h', ih]

theorem lookup_assign_of_ne {key other : κ} (h : other ≠ key) (value : α)
    (entries : List (κ × α)) : (assign key value entries).lookup other = entries.lookup other := by
  have h' : (other == key) = false := by simp [h]
  induction entries with
  | nil => simp [assign, List.lookup_cons, h']
  | cons entry rest ih =>
    obtain ⟨k, v⟩ := entry
    by_cases hk : k = key
    · subst hk
      simp [assign, List.lookup_cons, h']
    · simp only [assign, hk, if_false, List.lookup_cons, ih]

end Assign

namespace Tree

variable {α β : Type}

/-- A string as a JSON value. -/
def ofString (s : List Char) : Tree α := .str (String.ofList s)

/-- An integer as a JSON value. -/
def int (n : Int) : Tree α := .num (.int n)

/-- A double as a JSON value. -/
def double (x : Double) : Tree α := .num (.double x)

/-- The value of a member, `none` if the value is no object or has no such key. -/
def member? (key : String) : Tree α → Option (Tree α)
  | .obj members => members.lookup key
  | _ => none

/-- Whether a value is a number; a boolean is none. -/
def isNumber : Tree α → Bool
  | .num _ => true
  | _ => false

mutual

/-- The value without its foreign leaves, `none` if it has any. -/
def toJson? : Tree α → Option Json
  | .null => some .null
  | .bool b => some (.bool b)
  | .num n => some (.num n)
  | .str s => some (.str s)
  | .arr items => (itemsToJson? items).map .arr
  | .obj members => (membersToJson? members).map .obj
  | .foreign _ => none

/-- The items of an array without foreign leaves. -/
def itemsToJson? : List (Tree α) → Option (List Json)
  | [] => some []
  | v :: rest =>
    match toJson? v, itemsToJson? rest with
    | some j, some js => some (j :: js)
    | _, _ => none

/-- The members of an object without foreign leaves. -/
def membersToJson? : List (String × Tree α) → Option (List (String × Json))
  | [] => some []
  | (key, v) :: rest =>
    match toJson? v, membersToJson? rest with
    | some j, some js => some ((key, j) :: js)
    | _, _ => none

end

/-- Whether a value has no foreign leaves. -/
def isJson (v : Tree α) : Bool := v.toJson?.isSome

mutual

/-- A JSON value among values with foreign leaves. -/
def ofJson : Json → Tree α
  | .null => .null
  | .bool b => .bool b
  | .num n => .num n
  | .str s => .str s
  | .arr items => .arr (itemsOfJson items)
  | .obj members => .obj (membersOfJson members)
  | .foreign leaf => nomatch leaf

/-- The items of an array among values with foreign leaves. -/
def itemsOfJson : List Json → List (Tree α)
  | [] => []
  | v :: rest => ofJson v :: itemsOfJson rest

/-- The members of an object among values with foreign leaves. -/
def membersOfJson : List (String × Json) → List (String × Tree α)
  | [] => []
  | (key, v) :: rest => (key, ofJson v) :: membersOfJson rest

end

mutual

theorem toJson?_ofJson (j : Json) : (ofJson j : Tree α).toJson? = some j := by
  cases j with
  | arr items => simp [ofJson, toJson?, itemsToJson?_itemsOfJson items]
  | obj members => simp [ofJson, toJson?, membersToJson?_membersOfJson members]
  | foreign leaf => exact nomatch leaf
  | _ => rfl

theorem itemsToJson?_itemsOfJson (js : List Json) :
    itemsToJson? (itemsOfJson js : List (Tree α)) = some js := by
  cases js with
  | nil => rfl
  | cons j rest => simp [itemsOfJson, itemsToJson?, toJson?_ofJson j, itemsToJson?_itemsOfJson rest]

theorem membersToJson?_membersOfJson (ms : List (String × Json)) :
    membersToJson? (membersOfJson ms : List (String × Tree α)) = some ms := by
  cases ms with
  | nil => rfl
  | cons m rest =>
    obtain ⟨key, j⟩ := m
    simp [membersOfJson, membersToJson?, toJson?_ofJson j, membersToJson?_membersOfJson rest]

end

mutual

/-- Every integral double replaced by the integer equal to it. -/
def normalize : Tree α → Tree α
  | .num n => .num n.normalize
  | .arr items => .arr (normalizeItems items)
  | .obj members => .obj (normalizeMembers members)
  | v => v

/-- The items of an array with integral doubles replaced. -/
def normalizeItems : List (Tree α) → List (Tree α)
  | [] => []
  | v :: rest => normalize v :: normalizeItems rest

/-- The members of an object with integral doubles replaced. -/
def normalizeMembers : List (String × Tree α) → List (String × Tree α)
  | [] => []
  | (key, v) :: rest => (key, normalize v) :: normalizeMembers rest

end

end Tree

/-- A value that may have been left out: the mark of an absent value counts as left out. -/
def Value.given : Option Value → Option Value
  | some (.foreign .missing) => none
  | v => v

/-- The members of a mapping under strings, `none` if the value is no mapping. -/
def Value.members? : Value → Option (List (String × Value))
  | .obj ms => some ms
  | .foreign (.mapping entries) => some (Key.stringEntries entries)
  | _ => none

/-- The entries of a mapping, `none` if the value is no mapping. -/
def Value.entries? : Value → Option (List (Key × Value))
  | .obj ms => some (ms.map fun (key, v) => (.str key, v))
  | .foreign (.mapping entries) => some entries
  | _ => none

/-- The mapping of entries: an object if all keys are strings. -/
def Value.ofEntries (entries : List (Key × Value)) : Value :=
  let ms := Key.stringEntries entries
  if ms.length = entries.length then .obj ms else .foreign (.mapping entries)

/-- Whether a value may be a partition key: null, a string, a number, a boolean, or an array of JSON
values. -/
def Value.isPartitionKey : Value → Bool
  | .null | .str _ | .bool _ | .num _ => true
  | .arr items => items.all (·.isJson)
  | _ => false

/-- Whether a JSON value may be a partition key: any but an object. -/
def Json.isPartitionKey : Json → Bool
  | .obj _ => false
  | _ => true

end Pigeonhole
