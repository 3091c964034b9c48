import Pigeonhole.Config.Basic
import Pigeonhole.Config.Environment
import Pigeonhole.Config.Merge
import Pigeonhole.Files.Read

/-!
# Loading a configuration

A configuration is put together from a file, from variables of the environment and from overrides,
the later of which win, and is checked then.  A `Loader` keeps the configuration that was loaded
last and the file that was read last, from which it can be loaded again.  What YAML texts and numbers
given as strings mean is for the `Readers` to say.
-/

namespace Pigeonhole

/-- Why a configuration is not loaded. -/
inductive LoadError where
  /-- There is no file at the path. -/
  | noFile (path : String)
  /-- There is a folder at the path. -/
  | folder
  /-- The path is longer than any can be. -/
  | longPath
  | unknownSuffix (suffix : String)
  /-- The text is no JSON, or the configuration cannot be shown as JSON. -/
  | json (e : JsonError)
  /-- The text is no YAML. -/
  | yaml (e : Yaml.YamlError)
  /-- The request charge of the environment is no number. -/
  | charge
  /-- The file holds a list. -/
  | list
  /-- The file holds neither a mapping nor a list. -/
  | scalar
  /-- A key of the file is no string. -/
  | key
  | invalid (issues : List Issue)
deriving DecidableEq, Repr

/-- The message of a failure to load, where it has one of its own. -/
def LoadError.message? : LoadError → Option String
  | noFile path => some ("Configuration file not found: " ++ path)
  | unknownSuffix suffix => some ("Unsupported config file format: " ++ suffix)
  | _ => none

/-- What keeps a configuration. -/
structure Loader where
  config? : Option Config := none
  /-- The path of the file that was read last. -/
  file? : Option String := none

/-- What a configuration is loaded from besides the environment. -/
structure LoadRequest where
  /-- The path of a file; an empty one counts as none. -/
  file : Option String := none
  overrides : List (String × Value) := []

/-- What loading leaves behind. -/
structure Loaded where
  loader : Loader
  result : Except LoadError Config
  records : List Log.Record

namespace Loader

/-- The logger of loaders. -/
def loaderLogger : String := "localcosmos.core.config_manager"

/-- A record of progress. -/
def progress (text : String) : Log.Record := .plain .info loaderLogger text

/-- The value that a file holds. -/
def readFile (readers : Readers) (files : Files) (path : String) : Except LoadError Value :=
  match files.entry (String.ofList (Files.pathOf path).text) with
  | .error .tooLong => .error .longPath
  | .error _ => .error (.noFile path)
  | .ok .folder => .error .folder
  | .ok (.file text) =>
    if Files.isYaml path then (readYaml readers (.obj []) text).mapError .yaml
    else
      let suffix := String.ofList (Files.pathOf path).suffix
      if suffix = ".json" then (readJson text).mapError .json
      else .error (.unknownSuffix suffix)

/-- What the file of a request holds; without a file, an empty mapping. -/
def readBase (readers : Readers) (files : Files) : Option String → Except LoadError Value
  | none => .ok (.obj [])
  | some path => readFile readers files path

/-- The loader after a file was read. -/
def opened (l : Loader) : Option String → Loader
  | none => l
  | some path => { l with file? := some (String.ofList (Files.pathOf path).text) }

/-- The record of a file that was read. -/
def openedRecords : Option String → List Log.Record
  | none => []
  | some path => [progress ("Loaded configuration from file: " ++ path)]

/-- The record of members that were applied. -/
def appliedRecords (kind : String) (ms : List (String × Value)) : List Log.Record :=
  if ms.isEmpty then []
  else [progress ("Applied " ++ String.ofList (Text.natDigits ms.length) ++ " " ++ kind ++
    " overrides")]

/-- Why what a file holds is no mapping, if it is none. -/
def baseError? : Value → Option LoadError
  | .obj _ | .foreign (.mapping _) => none
  | .arr _ => some .list
  | _ => some .scalar

/-- Checks a configuration, of which all keys have to be strings. -/
def validate (readers : Readers) : Value → Except LoadError Config
  | .obj ms => (Config.check readers ms).toExcept.mapError .invalid
  | _ => .error .key

/-- A configuration that passed its check, if it can be shown. -/
def announced (c : Config) : Except LoadError Config :=
  if c.isShowable then .ok c else .error (.json .longInteger)

/-- The records of a check. -/
def validationRecords : Except LoadError Config → List Log.Record
  | .ok c =>
    progress "Configuration validated successfully" ::
      if c.isShowable then [progress ("Active configuration: " ++ String.ofList c.shown)] else []
  | .error (.invalid _) => [.plain .error loaderLogger "Configuration validation failed"]
  | .error _ => []

/-- The loader with the configuration that passed its check, if it did. -/
def kept (l : Loader) : Except LoadError Config → Loader
  | .ok c => { l with config? := some c }
  | .error _ => l

/-- Puts a configuration together from the mapping of a file, from the members of the environment
and from overrides, after the records so far.  A configuration that passes its check is kept before
it is shown. -/
def assemble (readers : Readers) (l : Loader) (records : List Log.Record) (base : Value)
    (settings overrides : List (String × Value)) : Loaded :=
  let merged := Value.putOver (some (Value.putOver (some base) (.obj settings))) (.obj overrides)
  let checked := validate readers merged
  { loader := l.kept checked
    result := checked.bind announced
    records := records ++ appliedRecords "environment variable" settings ++
      appliedRecords "CLI argument" overrides ++ validationRecords checked }

/-- Loads a configuration. -/
def load (readers : Readers) (l : Loader) (files : Files) (env : Environment)
    (request : LoadRequest) : Loaded :=
  let file := request.file.filter (!·.isEmpty)
  let started := [progress "Loading LocalCosmos configuration"]
  match readBase readers files file with
  | .error e => ⟨l, .error e, started⟩
  | .ok base =>
    let l := l.opened file
    let records := started ++ openedRecords file
    match env.members?, baseError? base with
    | none, _ => ⟨l, .error .charge, records⟩
    | some _, some e => ⟨l, .error e, records⟩
    | some settings, none => l.assemble readers records base settings request.overrides

/-- Loads a configuration again from the file that was read last. -/
def reload (readers : Readers) (l : Loader) (files : Files) (env : Environment) : Loaded :=
  l.load readers files env { file := l.file? }

end Loader

end Pigeonhole
