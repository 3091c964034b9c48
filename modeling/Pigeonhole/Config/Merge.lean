import Pigeonhole.Json.Basic

/-!
# Merging mappings

Entries merged over others replace the values of their keys, and mappings are merged entry by entry.
Keys keep their places; new ones come last.  The keys need not be strings.
-/

namespace Pigeonhole.Value

mutual

/-- A value put over another one, if there is one: two mappings are merged. -/
def putOver (base : Option Value) : Value → Value
  | .obj members =>
    match base.bind entries? with
    | some entries => .ofEntries (mergeMembers entries members)
    | none => .obj members
  | .foreign leaf => putForeignOver base leaf
  | v => v

/-- A value that is no JSON value put over another one, if there is one. -/
def putForeignOver (base : Option Value) : Foreign → Value
  | .mapping upper =>
    match base.bind entries? with
    | some entries => .ofEntries (mergeEntries entries upper)
    | none => .foreign (.mapping upper)
  | leaf => .foreign leaf

/-- The entries of a base with members merged over them. -/
def mergeMembers (base : List (Key × Value)) : List (String × Value) → List (Key × Value)
  | [] => base
  | (key, v) :: rest =>
    mergeMembers (Key.assign (.str key) (putOver (Key.lookup (.str key) base) v) base) rest

/-- The entries of a base with entries merged over them. -/
def mergeEntries (base : List (Key × Value)) : List (Key × Value) → List (Key × Value)
  | [] => base
  | (key, v) :: rest =>
    mergeEntries (Key.assign key (putOver (Key.lookup key base) v) base) rest

end

end Pigeonhole.Value
