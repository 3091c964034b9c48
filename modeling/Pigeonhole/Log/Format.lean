import Pigeonhole.Log.Correlation
import Pigeonhole.Log.Redaction
import Pigeonhole.Log.Template
import Pigeonhole.Log.Timestamp

/-!
# Lines of a log

A record is written as one JSON object or as a line of text.  Filters amend a record before that:
one settles its correlation id, the other masks secrets.  A record is not written if its message or
its time has no text, or if there is an integer in its context that is too long.
-/

namespace Pigeonhole.Log

/-- How records are written. -/
inductive Format where
  | json
  | text
deriving DecidableEq, Repr

/-- The format with a name. -/
def Format.ofName? : String → Option Format
  | "json" => some .json
  | "text" => some .text
  | _ => none

/-- The name of a format. -/
def Format.name : Format → String
  | .json => "json"
  | .text => "text"

/-- What amends a record before it is written. -/
inductive Filter where
  | correlation
  | secrets
deriving DecidableEq, Repr

/-- A record amended by a filter, given the correlation id that is bound. -/
def Filter.apply (current : Option String) : Filter → Record → Record
  | .correlation, r => if r.correlation.isSome then r else r.withCorrelation current
  | .secrets, r => r.redacted

/-- Why a record is not written. -/
inductive FormatError where
  | template (e : TemplateError)
  | time (e : TimeError)
  /-- The context holds an integer that is too long to be written. -/
  | longInteger
deriving DecidableEq, Repr

/-- The text of a foreign value in JSON lines. -/
def foreignText (leaf : Foreign) : List Char := Quoted.quote true leaf.message

/-- The members of the object of a record. -/
def Record.members (r : Record) (time message : List Char) : List (String × Value) :=
  [("timestamp", Tree.ofString time), ("level", .str r.level.name), ("logger", .str r.logger),
    ("message", Tree.ofString message)] ++
  (r.correlationId.toList.map fun id => ("correlation_id", .str id)) ++
  (if r.context.isEmpty then [] else [("context", .obj r.context)]) ++
  (r.exception.toList.map fun text => ("exception", .str text))

/-- Whether the integers in the context of a record can all be written. -/
def Record.isContextWritable (r : Record) : Bool := r.context.all (·.2.isWritable)

/-- The JSON line of a record. -/
def Record.jsonLine (r : Record) : Except FormatError (List Char) :=
  match isoTime r.created with
  | .error e => .error (.time e)
  | .ok time =>
    match r.text with
    | .error e => .error (.template e)
    | .ok message =>
      if r.isContextWritable then
        .ok (Tree.print .line foreignText 0 (.obj (r.members time message)))
      else .error .longInteger

/-- The fields after the bar of a line of text. -/
def Record.fields (r : Record) : List (List Char) :=
  (r.correlationId.toList.map fun id => "corr=".toList ++ id.toList) ++
    r.context.map fun (key, v) => key.toList ++ '=' :: (Value.display v).toList

/-- A text with fields before its first line break, after a bar. -/
def insertFields (text : List Char) (fields : List (List Char)) : List Char :=
  if fields.isEmpty then text
  else
    text.takeWhile (· != '\n') ++ " | ".toList ++ Text.joinWith [' '] fields ++
      text.dropWhile (· != '\n')

/-- A message with the text of an exception on the lines after it. -/
def withException (message : List Char) : Option String → List Char
  | none => message
  | some text =>
    message ++ (if message.getLast? = some '\n' then [] else ['\n']) ++ text.toList

/-- The beginning of a line of text: time, level and logger. -/
def Record.heading (r : Record) (time : List Char) : List Char :=
  time ++ " [".toList ++ r.level.name.toList ++ "] ".toList ++ r.logger.toList ++ ": ".toList

/-- The line of text of a record. -/
def Record.textLine (r : Record) : Except FormatError (List Char) :=
  match r.text with
  | .error e => .error (.template e)
  | .ok message =>
    match plainTime r.created with
    | .error e => .error (.time e)
    | .ok time =>
      if r.isContextWritable then
        .ok (insertFields (withException (r.heading time ++ message) r.exception) r.fields)
      else .error .longInteger

/-- A record in a format. -/
def Format.line : Format → Record → Except FormatError (List Char)
  | .json, r => r.jsonLine
  | .text, r => r.textLine

end Pigeonhole.Log
