import Pigeonhole.Files.Basic
import Pigeonhole.Log.ByteSize
import Pigeonhole.Log.Format
import Pigeonhole.Log.Rotation

/-!
# Logging

`Logging` is the state of a log: thresholds of loggers, and where records are written to.
`Logging.configure` sets it up and `Logging.emit` writes a record.  A setting that turns out to be
wrong stops the set-up where it is reached, and what was set before stays.
-/

namespace Pigeonhole.Log

/-- Settings of a log. -/
structure Settings where
  level : String := "INFO"
  /-- How the level is named in the record of the set-up, if not by its name. -/
  shownLevel : Option String := none
  format : String := "json"
  file : Option String := none
  /-- The files that are there already. -/
  files : Files := []
  rotationSize : String := "10MB"
  rotationCount : Int := 5
  moduleLevels : List (String × String) := []
deriving Repr

/-- Why a log is not set up. -/
inductive SetupError where
  | unknownFormat (name : String)
  /-- The file cannot be written to. -/
  | file (e : PathError)
  | size (e : SizeError)
  | unknownLevel
  /-- A name that is known, but not as a level: of a text. -/
  | textLevel
  /-- A name that is known, but not as a level: of a table. -/
  | tableLevel
deriving DecidableEq, Repr

/-- Where records go: to a stream of lines or to a rotated file. -/
inductive Target where
  | stream (lines : List (List Char))
  | file (f : RotatedFile)

/-- The state of a log. -/
structure Logging where
  /-- The threshold of loggers without one of their own. -/
  rootLevel : Nat := 30
  /-- The thresholds of loggers by name. -/
  levels : List (String × Nat) := []
  format : Format := .text
  targets : List Target := []

/-- A letter in capitals; a dotless i, a long s and the ligatures of s and t have plain ones. -/
def capital (c : Char) : List Char :=
  if c = 'ı' then ['I']
  else if c = 'ſ' then ['S']
  else if c = 'ﬅ' ∨ c = 'ﬆ' then ['S', 'T']
  else [c.toUpper]

/-- A text in capitals. -/
def capitals (s : String) : String := String.ofList (s.toList.flatMap capital)

/-- The names of thresholds with their numbers. -/
def thresholds : List (String × Nat) :=
  [("NOTSET", 0), ("DEBUG", 10), ("INFO", 20), ("WARNING", 30), ("WARN", 30), ("ERROR", 40),
    ("CRITICAL", 50), ("FATAL", 50)]

/-- The threshold with a name, in any letter case. -/
def readThreshold (name : String) : Except SetupError Nat :=
  let name := capitals name
  match thresholds.lookup name with
  | some n => .ok n
  | none =>
    if name = "BASIC_FORMAT" then .error .textLevel
    else if name = "_STYLES" then .error .tableLevel
    else .error .unknownLevel

/-- Whether a name is that of the root logger. -/
def isRoot (name : String) : Bool := name = "" || name = "root"

/-- The name that records of a logger show. -/
def loggerName (name : String) : String := if isRoot name then "root" else name

namespace Logging

/-- The log with the threshold of a logger set. -/
def setLevel (g : Logging) (name : String) (n : Nat) : Logging :=
  if isRoot name then { g with rootLevel := n } else { g with levels := assign name n g.levels }

/-- A logger's own name and the names above it, nearest first, given as parts from the last. -/
def namesAbove : List (List Char) → List String
  | [] => []
  | part :: rest => String.ofList (Text.joinWith ['.'] (part :: rest).reverse) :: namesAbove rest

/-- The threshold that counts for a logger: its own or the nearest one above that is set. -/
def effectiveLevel (g : Logging) (name : String) : Nat :=
  if isRoot name then g.rootLevel
  else
    let set := (namesAbove (Text.splitOnChar '.' name.toList).reverse).findSome? fun above =>
      (g.levels.lookup above).filter (· != 0)
    set.getD g.rootLevel

/-- Whether a record is written. -/
def accepts (g : Logging) (r : Record) : Bool := g.effectiveLevel r.logger ≤ r.level.rank

/-- The filters of every target. -/
def filters : List Filter := [.correlation, .secrets]

/-- A record written to targets; each amends it for itself and for the next. -/
def writeTo (format : Format) (current : Option String) : Record → List Target → List Target
  | _, [] => []
  | r, target :: rest =>
    let r := filters.foldl (fun r filter => filter.apply current r) r
    let written := match format.line r, target with
      | .ok line, .stream lines => .stream (lines ++ [line])
      | .ok line, .file f => .file (f.write line)
      | .error _, target => target
    written :: writeTo format current r rest

/-- The log after a record, given the correlation id that is bound. -/
def emit (g : Logging) (current : Option String) (r : Record) : Logging :=
  if g.accepts r then { g with targets := writeTo g.format current r g.targets } else g

/-- The log after several records. -/
def emitAll (g : Logging) (current : Option String) (records : List Record) : Logging :=
  records.foldl (fun g r => g.emit current r) g

/-- The rotated file of settings at a path. -/
def openRotated (s : Settings) (name : String) : Except SetupError RotatedFile := do
  (s.files.makeFolder name).mapError .file
  let limit ← (readSize s.rotationSize).mapError .size
  let text ← (s.files.openFile name).mapError .file
  return { name := String.ofList (Files.pathOf name).place.text
           limit := limit.toNat
           keep := s.rotationCount.toNat
           text := text.toList }

/-- The targets of settings: a stream, and a rotated file if one is named. -/
def targetsOf (s : Settings) : Except SetupError (List Target) :=
  match s.file.filter (!·.isEmpty) with
  | none => .ok [.stream []]
  | some name => (openRotated s name).map fun f => [.stream [], .file f]

/-- The log with the thresholds of several loggers set, up to the first that is unknown. -/
def setLevels (g : Logging) : List (String × String) → Logging × Except SetupError Unit
  | [] => (g, .ok ())
  | (name, level) :: rest =>
    match readThreshold level with
    | .error e => (g, .error e)
    | .ok n => (g.setLevel name n).setLevels rest

/-- The record of a log that has been set up. -/
def configuredRecord (s : Settings) (created : Number) : Record :=
  let file := (s.file.filter (!·.isEmpty)).getD "-"
  { Record.plain .debug "root" ("Logging configured: level=" ++ s.shownLevel.getD s.level ++
      ", format=" ++ s.format ++
      ", file=" ++ file) with created }

/-- Sets up a log. -/
def configure (g : Logging) (s : Settings) (current : Option String) (created : Number) :
    Logging × Except SetupError Unit :=
  match Format.ofName? s.format with
  | none => (g, .error (.unknownFormat s.format))
  | some format =>
    match targetsOf s with
    | .error e => (g, .error e)
    | .ok targets =>
      match readThreshold s.level with
      | .error e => (g, .error e)
      | .ok n =>
        match setLevels { g with rootLevel := n, format, targets } s.moduleLevels with
        | (g, .error e) => (g, .error e)
        | (g, .ok ()) => (g.emit current (configuredRecord s created), .ok ())

/-- The lines written to the stream. -/
def streamLines (g : Logging) : List (List Char) :=
  (g.targets.findSome? fun
    | .stream lines => some lines
    | .file _ => none).getD []

/-- The rotated file. -/
def file? (g : Logging) : Option RotatedFile :=
  g.targets.findSome? fun
    | .file f => some f
    | .stream _ => none

end Logging

/-- The names that the fields of a context cannot have: the parts of the record itself. -/
def reservedNames : List String := ["logger", "level", "message"]

/-- A record with a context, under the correlation id that is bound; `none` if a field of the
context has a reserved name. -/
def recordWithContext? (level : Level) (logger message : String) (context : List (String × Value))
    (current : Option String) : Option Record :=
  if context.any fun (name, _) => reservedNames.contains name then none
  else some { Record.plain level logger message with correlation := some current, context }

end Pigeonhole.Log
