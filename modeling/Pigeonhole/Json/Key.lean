import Pigeonhole.Number.Basic

/-!
# Keys of mappings

The keys of a JSON object are strings.  A mapping of another kind may have keys that are null,
booleans or numbers, and two keys of it are the same one if they are equal as numbers.
-/

namespace Pigeonhole

/-- A key of a mapping. -/
inductive Key where
  | null
  | bool (b : Bool)
  | num (n : Number)
  | str (s : String)
  /-- A value of another kind, by its text. -/
  | other (text : String)
deriving DecidableEq, Repr

namespace Key

/-- The number that a key counts as; a boolean counts as one or zero. -/
def number? : Key → Option Number
  | bool b => some (.int (if b then 1 else 0))
  | num n => some n
  | _ => none

/-- Whether two numbers are equal by value; what is not a number is equal to itself. -/
def sameNumber (a b : Number) : Bool :=
  match a.extent?, b.extent? with
  | some x, some y => x.compare y == .eq
  | none, none => true
  | _, _ => false

/-- Whether two keys lead to one entry. -/
def same (a b : Key) : Bool :=
  match a.number?, b.number? with
  | some m, some n => sameNumber m n
  | none, none => a == b
  | _, _ => false

/-- The string that a key is, if it is one. -/
def string? : Key → Option String
  | str s => some s
  | _ => none

/-- A key as a key of JSON text. -/
def text : Key → String
  | null => "null"
  | bool b => if b then "true" else "false"
  | num n => String.ofList (n.text Double.jsonLayout)
  | str s => s
  | other text => text

/-- Entries with the value of a key set: in place if the key is there, else at the end.  A key that
is there stays as it is. -/
def assign {α : Type} (key : Key) (value : α) : List (Key × α) → List (Key × α)
  | [] => [(key, value)]
  | (k, v) :: rest => if k.same key then (k, value) :: rest else (k, v) :: assign key value rest

/-- Entries from a list of assignments. -/
def assignAll {α : Type} (pairs : List (Key × α)) : List (Key × α) :=
  pairs.foldl (fun entries (key, value) => assign key value entries) []

/-- The value of a key. -/
def lookup {α : Type} (key : Key) (entries : List (Key × α)) : Option α :=
  (entries.find? fun entry => entry.1.same key).map (·.2)

/-- The entries under strings. -/
def stringEntries {α : Type} (entries : List (Key × α)) : List (String × α) :=
  entries.filterMap fun (key, value) => key.string?.map (·, value)

theorem same_str (s : String) (key : Key) : key.same (.str s) = (key == .str s) := by
  cases key <;> rfl

end Key

end Pigeonhole
