import Pigeonhole.Json.Basic

/-!
# Log records

A record says what happened, in which part of the program and how serious it is.  It may carry the
correlation id of the operation it belongs to, and a context of named values.
-/

namespace Pigeonhole.Log

/-- How serious a record is. -/
inductive Level where
  | debug
  | info
  | warning
  | error
  | critical
deriving DecidableEq, Repr

/-- The name of a level. -/
def Level.name : Level → String
  | debug => "DEBUG"
  | info => "INFO"
  | warning => "WARNING"
  | error => "ERROR"
  | critical => "CRITICAL"

/-- The number of a level; thresholds are compared with it. -/
def Level.rank : Level → Nat
  | debug => 10
  | info => 20
  | warning => 30
  | error => 40
  | critical => 50

/-- The level with this name. -/
def Level.ofName? (name : String) : Option Level :=
  [debug, info, warning, error, critical].find? (·.name = name)

/-- A log record. -/
structure Record where
  level : Level
  /-- The dotted name of the logger. -/
  logger : String
  /-- The message; a template if there are arguments. -/
  message : Value
  arguments : List Value := []
  /-- The correlation id, once it has been settled whether there is one. -/
  correlation : Option (Option String) := none
  context : List (String × Value) := []
  /-- The text of an exception. -/
  exception : Option String := none
  /-- Seconds since the beginning of 1970. -/
  created : Number := .int 0

namespace Record

/-- A record with a plain message. -/
def plain (level : Level) (logger message : String) : Record :=
  { level, logger, message := .str message }

/-- The correlation id of a record; an empty one counts as none. -/
def correlationId (r : Record) : Option String := r.correlation.join.filter (!·.isEmpty)

/-- The record under a correlation id. -/
def withCorrelation (r : Record) (id : Option String) : Record := { r with correlation := some id }

end Record

end Pigeonhole.Log
