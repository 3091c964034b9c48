import Pigeonhole.Schema.Checked

/-!
# Values taken as mappings

Requests may be given as a mapping or as a list of pairs.  A pair is a list of two elements, a text
of two characters or a mapping of two keys.  Pairs whose first element is no string can name no
field and are left out.
-/

namespace Pigeonhole

/-- Why a value is not taken as a mapping. -/
inductive MappingError where
  /-- The value or one of its entries is no collection, or a key cannot be one. -/
  | noCollection
  /-- An entry has not two elements. -/
  | noPair
deriving DecidableEq, Repr

/-- The text of one character. -/
def charText (c : Char) : String := String.ofList [c]

/-- The first and second element of an entry of a list of pairs. -/
def Value.pair? : Value → Except MappingError (Value × Value)
  | .arr [k, v] => .ok (k, v)
  | .arr _ => .error .noPair
  | .obj [(k, _), (v, _)] => .ok (.str k, .str v)
  | .obj _ => .error .noPair
  | .str s =>
    match s.toList with
    | [k, v] => .ok (.str (charText k), .str (charText v))
    | _ => .error .noPair
  | _ => .error .noCollection

/-- The members of a list of pairs, in order. -/
def pairsToMembers : List Value → Except MappingError (List (String × Value))
  | [] => .ok []
  | entry :: rest => do
    match ← entry.pair? with
    | (.arr _, _) | (.obj _, _) => .error .noCollection
    | (.str key, v) => return (key, v) :: (← pairsToMembers rest)
    | _ => pairsToMembers rest

/-- The members of a value taken as a mapping; of several pairs with one key the last counts. -/
def Value.toMembers : Value → Except MappingError (List (String × Value))
  | .obj ms => .ok ms
  | .arr entries => (pairsToMembers entries).map assignAll
  | .str s => if s.isEmpty then .ok [] else .error .noPair
  | _ => .error .noCollection

end Pigeonhole
