/-!
# Correlation ids

The records of one operation share a correlation id.  A scope binds an id for as long as it lasts: a
given one that is not empty, else the id bound around it, else a new one.  Leaving a scope, in
whatever way, restores the id bound before.
-/

namespace Pigeonhole.Log

/-- The bound correlation id, and how many new ids have been made. -/
structure Correlation where
  current : Option String := none
  made : Nat := 0
deriving DecidableEq, Repr

namespace Correlation

/-- The id that a scope binds; new ids are taken from a supply. -/
def scopeId (supply : Nat → String) (given : Option String) (c : Correlation) : String :=
  ((given.filter (!·.isEmpty)).or c.current).getD (supply c.made)

/-- Whether a scope needs a new id. -/
def needsNew (given : Option String) (c : Correlation) : Bool :=
  ((given.filter (!·.isEmpty)).or c.current).isNone

/-- Inside a scope. -/
def enter (supply : Nat → String) (given : Option String) (c : Correlation) : Correlation where
  current := some (c.scopeId supply given)
  made := if c.needsNew given then c.made + 1 else c.made

/-- After a scope, given what was bound before it. -/
def leave (before inside : Correlation) : Correlation := { inside with current := before.current }

end Correlation

end Pigeonhole.Log
