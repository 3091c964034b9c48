import Pigeonhole.Json.Basic
import Pigeonhole.Text.Split

/-!
# Field paths

A field path is a list of member names joined by points; `resolve` descends along it.  A partition
key path is written with slashes, `/address/zip`, and denotes the field path `address.zip`.
-/

namespace Pigeonhole

namespace Tree

variable {α : Type}

/-- The value reached by descending along member names, `none` as soon as one is absent. -/
def descend : List String → Tree α → Option (Tree α)
  | [], v => some v
  | name :: names, v =>
    match v.member? name with
    | some w => descend names w
    | none => none

/-- The member names of a field path. -/
def segments (path : String) : List String :=
  (Text.splitOnChar '.' path.toList).map String.ofList

/-- The value at a field path. -/
def resolve (path : String) (v : Tree α) : Option (Tree α) := v.descend (segments path)

@[simp] theorem descend_nil (v : Tree α) : v.descend [] = some v := rfl

theorem descend_cons (name : String) (names : List String) (v : Tree α) :
    v.descend (name :: names) = (v.member? name).bind (descend names) := by
  simp only [descend]
  cases v.member? name <;> rfl

theorem descend_append (p q : List String) (v : Tree α) :
    v.descend (p ++ q) = (v.descend p).bind (descend q) := by
  induction p generalizing v with
  | nil => rfl
  | cons name p ih =>
    rw [List.cons_append, descend_cons, descend_cons, Option.bind_assoc]
    congr 1
    funext w
    exact ih w

end Tree

/-- The parts of a partition key path between its slashes, empty ones left out. -/
def partitionKeySegments (path : String) : List (List Char) :=
  (Text.splitOnChar '/' path.toList).filter (!·.isEmpty)

/-- The field path of a partition key path. -/
def partitionKeyField (path : String) : String :=
  String.ofList (Text.joinWith ['.'] (partitionKeySegments path))

end Pigeonhole
