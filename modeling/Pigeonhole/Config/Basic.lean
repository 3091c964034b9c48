import Pigeonhole.Log.Setup
import Pigeonhole.Schema.Request

/-!
# Configuration

A `Config` says how the program logs and which account it emulates.  `Config.check` reads one from
the members of a mapping, in which numbers may be given as strings, and `Config.masked` hides the
account key.
-/

namespace Pigeonhole

/-- How the program logs. -/
structure LoggingConfig where
  /-- The level, if one is set; `info` otherwise. -/
  level : Option Log.Level := none
  format : Log.Format := .json
  file : Option String := none
  rotationSize : String := "10MB"
  rotationCount : Int := 5
  moduleLevels : Option (List (String × String)) := none
deriving DecidableEq, Repr

/-- The emulated account. -/
structure EmulatorConfig where
  endpoint : String := "https://localhost:8081"
  key : String := ""
  /-- The request charge of every response. -/
  charge : Double := Double.one
deriving DecidableEq, Repr

/-- A configuration. -/
structure Config where
  version : String := "0.1.0"
  logging : LoggingConfig := {}
  emulator : EmulatorConfig := {}
deriving DecidableEq, Repr

namespace LoggingConfig

/-- The level that counts. -/
def effectiveLevel (c : LoggingConfig) : Log.Level := c.level.getD .info

/-- Checks a level by its name. -/
def checkLevel : Value → Checked (Option Log.Level)
  | .str name =>
    match Log.Level.ofName? name with
    | some level => .ok (some level)
    | none => .fail .notMember
  | _ => .fail .notMember

/-- Checks a format by its name. -/
def checkFormat (v : Value) : Checked Log.Format :=
  v.asString.andThen fun name =>
    match Log.Format.ofName? name with
    | some format => .ok format
    | none => .fail (.rule ("Log format must be 'json' or 'text': " ++ name))

/-- Checks the members of a mapping. -/
def check (readers : Readers) (ms : List (String × Value)) : Checked LoggingConfig :=
  mk <$> (Field.plain "level").optional none checkLevel ms
    <*> (Field.plain "format").optional .json checkFormat ms
    <*> (Field.plain "file").optional none (Value.asOptional Value.asString) ms
    <*> (Field.plain "rotation_size").optional "10MB" Value.asString ms
    <*> (Field.plain "rotation_count").optional 5 (Value.asInt readers) ms
    <*> (Field.plain "module_levels").optional none
      (Value.asOptional (Value.asMapping Value.asString)) ms

/-- The levels of loggers as a value. -/
def levelsValue (levels : List (String × String)) : Value :=
  .obj (levels.map fun (logger, level) => (logger, .str level))

/-- A configuration of the log as a value. -/
def toValue (c : LoggingConfig) : Value :=
  .obj [("level", .str c.effectiveLevel.name), ("format", .str c.format.name),
    ("file", optionValue .str c.file), ("rotation_size", .str c.rotationSize),
    ("rotation_count", Tree.int c.rotationCount),
    ("module_levels", optionValue levelsValue c.moduleLevels)]

/-- The settings of the log. -/
def settings (c : LoggingConfig) : Log.Settings where
  level := c.effectiveLevel.name
  shownLevel := if c.level.isSome then none else some "LogLevel.INFO"
  format := c.format.name
  file := c.file
  rotationSize := c.rotationSize
  rotationCount := c.rotationCount
  moduleLevels := c.moduleLevels.getD []

end LoggingConfig

namespace EmulatorConfig

/-- Whether a charge is zero or more. -/
def isCharge (x : Double) : Bool := x != .nan && !x.isNegative

/-- Checks a charge. -/
def checkCharge (readers : Readers) (v : Value) : Checked Double :=
  (v.asDouble readers).andThen fun x => if isCharge x then .ok x else .fail .tooSmall

/-- Checks the members of a mapping. -/
def check (readers : Readers) (ms : List (String × Value)) : Checked EmulatorConfig :=
  mk <$> (Field.plain "endpoint").optional "https://localhost:8081" Value.asString ms
    <*> (Field.plain "key").optional "" Value.asString ms
    <*> (Field.plain "request_charge").optional Double.one (checkCharge readers) ms

/-- A configuration of the account as a value. -/
def toValue (c : EmulatorConfig) : Value :=
  .obj [("endpoint", .str c.endpoint), ("key", .str c.key),
    ("request_charge", Tree.double c.charge)]

/-- The configuration with its key hidden, if there is one. -/
def masked (c : EmulatorConfig) : EmulatorConfig :=
  if c.key.isEmpty then c else { c with key := String.ofList Log.redacted }

end EmulatorConfig

namespace Config

/-- Checks a version: three numbers with points between them. -/
def checkVersion (v : Value) : Checked String :=
  let parts := fun (s : String) => Text.splitOnChar '.' s.toList
  (v.asString.rule (fun s => (parts s).length == 3) "Version must be in format x.y.z").rule
    (fun s => (parts s).all fun part => !part.isEmpty && part.all Text.isDigitLike)
    "Version components must be numeric"

/-- Checks the members of a mapping. -/
def check (readers : Readers) (ms : List (String × Value)) : Checked Config :=
  mk <$> (Field.plain "version").optional "0.1.0" checkVersion ms
    <*> (Field.plain "logging").optional {} (Value.asModel (LoggingConfig.check readers)) ms
    <*> (Field.plain "emulator").optional {} (Value.asModel (EmulatorConfig.check readers)) ms

/-- A configuration as a value. -/
def toValue (c : Config) : Value :=
  .obj [("version", .str c.version), ("logging", c.logging.toValue),
    ("emulator", c.emulator.toValue)]

/-- The configuration with the account key hidden. -/
def masked (c : Config) : Config := { c with emulator := c.emulator.masked }

/-- The text of a configuration with the account key hidden. -/
def shown (c : Config) : List Char :=
  c.masked.toValue.print .block Log.foreignText 0

/-- Whether a configuration can be shown: an integer with too many digits cannot be written. -/
def isShowable (c : Config) : Bool :=
  (Number.int c.logging.rotationCount).isWritable

end Config

end Pigeonhole
