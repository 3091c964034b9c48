import Pigeonhole.Schema.Issue
import Pigeonhole.Schema.Readers

/-!
# Checked values

A check turns a value into one of another type, or lists all that is wrong with it.  Checks of
several fields are combined by `<*>`, which joins the issues of both sides in order.
-/

namespace Pigeonhole

/-- A value that passed a check, or the issues it has. -/
inductive Checked (α : Type) where
  | ok (value : α)
  | issues (list : List Issue)
deriving Repr

namespace Checked

variable {α β : Type}

/-- The result of a check with a function applied to the value. -/
def map (f : α → β) : Checked α → Checked β
  | ok a => ok (f a)
  | issues list => issues list

/-- Both results, or the issues of both. -/
def apply (f : Checked (α → β)) (a : Checked α) : Checked β :=
  match f, a with
  | ok f, ok a => ok (f a)
  | ok _, issues list => issues list
  | issues list, ok _ => issues list
  | issues list, issues more => issues (list ++ more)

instance : Applicative Checked where
  pure := ok
  seq f a := f.apply (a ())
  map f a := a.map f

/-- A check with a single issue at the value itself. -/
def fail (kind : IssueKind) : Checked α := issues [⟨[], kind⟩]

/-- The check of a part, seen from the whole. -/
def under (step : Step) : Checked α → Checked α
  | ok a => ok a
  | issues list => issues (list.map (Issue.under step))

/-- A further check of a value that passed. -/
def andThen (a : Checked α) (f : α → Checked β) : Checked β :=
  match a with
  | ok a => f a
  | issues list => issues list

/-- A rule that a value has to keep. -/
def rule (holds : α → Bool) (message : String) (a : Checked α) : Checked α :=
  a.andThen fun a => if holds a then ok a else fail (.rule message)

/-- The checks of the items of a list. -/
def items (check : Value → Checked α) : Nat → List Value → Checked (List α)
  | _, [] => ok []
  | i, v :: rest => List.cons <$> (check v).under (.index i) <*> items check (i + 1) rest

/-- The checks of the members of a mapping. -/
def members (check : Value → Checked α) : List (String × Value) → Checked (List (String × α))
  | [] => ok []
  | (key, v) :: rest =>
    (fun a list => (key, a) :: list) <$> (check v).under (.key key) <*> members check rest

/-- The largest number that a key shows as a number. -/
def maxKeyNumber : Int := 9223372036854775807

/-- The step to the value of a key. -/
def stepOf : Key → Step
  | .str s => .key s
  | .null => .key "None"
  | .bool b => .number (if b then 1 else 0)
  | .num (.int n) =>
    if -maxKeyNumber ≤ n + 1 ∧ n ≤ maxKeyNumber then .number n
    else .key (String.ofList (Text.intDigits n))
  | .num (.double x) => .key (String.ofList (x.text Double.messageLayout))
  | .other text => .key text

/-- How the place of a key is shown that is no string. -/
def keyPlace : Step := .key "[key]"

/-- The check of a key, which has to be a string. -/
def entryKey (key : Key) : Checked String :=
  match key with
  | .str s => ok s
  | _ => .issues [⟨[stepOf key, keyPlace], .notString⟩]

/-- The checks of the entries of a mapping whose keys need not be strings. -/
def entries (check : Value → Checked α) : List (Key × Value) → Checked (List (String × α))
  | [] => ok []
  | (key, v) :: rest =>
    (fun key a list => (key, a) :: list) <$> entryKey key <*> (check v).under (stepOf key) <*>
      entries check rest

/-- The value of a check, or its issues as an error. -/
def toExcept : Checked α → Except (List Issue) α
  | ok a => .ok a
  | issues list => .error list

end Checked

/-- A number as a double.  An integer beyond all finite doubles is none. -/
def Number.asDouble : Number → Checked Double
  | .int n => if (Double.ofInt n).isFinite then .ok (Double.ofInt n) else .fail .notDouble
  | .double x => .ok x

namespace Value

/-- Any value passes. -/
def any (v : Value) : Checked Value := .ok v

/-- A string. -/
def asString : Value → Checked String
  | .str s => .ok s
  | _ => .fail .notString

/-- A list whose items pass a check. -/
def asList {α : Type} (check : Value → Checked α) : Value → Checked (List α)
  | .arr vs => Checked.items check 0 vs
  | _ => .fail .notList

/-- A mapping whose values pass a check. -/
def asMapping {α : Type} (check : Value → Checked α) : Value → Checked (List (String × α))
  | .obj ms => Checked.members check ms
  | .foreign (.mapping entries) => Checked.entries check entries
  | _ => .fail .notMapping

/-- A mapping read as a model; keys that are no strings are left out. -/
def asModel {α : Type} (check : List (String × Value) → Checked α) (v : Value) : Checked α :=
  match v.members? with
  | some ms => check ms
  | none => .fail .notModel

/-- A value that may be null. -/
def asOptional {α : Type} (check : Value → Checked α) : Value → Checked (Option α)
  | .null => .ok none
  | v => (check v).map some

/-- A double: a number, a boolean as one or zero, or a string that is a number. -/
def asDouble (readers : Readers) : Value → Checked Double
  | .num n => n.asDouble
  | .bool b => .ok (Double.ofInt (if b then 1 else 0))
  | .str s =>
    match readers.double? s.toList with
    | some x => .ok x
    | none => .fail .doubleText
  | _ => .fail .notDouble

/-- An integer: a number without a fraction, a boolean as one or zero, or a string that is an
integer. -/
def asInt (readers : Readers) : Value → Checked Int
  | .num (.int n) => .ok n
  | .num (.double x) =>
    match x.toInt? with
    | some n =>
      if -9223372036854775808 < n ∧ n < 9223372036854775808 then .ok n else .fail .tooLarge
    | none => .fail (if x.isFinite then .fractional else .notFinite)
  | .bool b => .ok (if b then 1 else 0)
  | .str s =>
    match readers.int s.toList with
    | .ok n => .ok n
    | .error .malformed => .fail .intText
    | .error (.tooLong _) => .fail .longIntText
  | _ => .fail .notInt

end Value

/-- A field of a model: its key, and a second key that is read where the first is absent. -/
structure Field where
  key : String
  secondKey : String

namespace Field

/-- A field with a single key. -/
def plain (key : String) : Field := ⟨key, key⟩

/-- The key by which a field stands in a mapping, and its value. -/
def find? (f : Field) (ms : List (String × Value)) : Option (String × Value) :=
  match ms.lookup f.key with
  | some v => some (f.key, v)
  | none => (ms.lookup f.secondKey).map (f.secondKey, ·)

/-- The key of a field in a written mapping. -/
def shown (f : Field) (short : Bool) : String := if short then f.secondKey else f.key

variable {α : Type}

/-- A field that has to be there. -/
def required (f : Field) (check : Value → Checked α) (ms : List (String × Value)) : Checked α :=
  match f.find? ms with
  | some (key, v) => (check v).under (.key key)
  | none => .issues [⟨[.key f.key], .missing⟩]

/-- A field with a default. -/
def optional (f : Field) (default : α) (check : Value → Checked α) (ms : List (String × Value)) :
    Checked α :=
  match f.find? ms with
  | some (key, v) => (check v).under (.key key)
  | none => .ok default

end Field

end Pigeonhole
