import Pigeonhole.Cli.Arguments
import Pigeonhole.Cli.Query
import Pigeonhole.Config.Loader

/-!
# The command line

`Cli.run` answers an invocation: it loads the configuration, sets up the log and runs a command,
either a query against the documents of a seed file or a look at the configuration.  Everything that
the command line shows or logs is part of the result, so the program itself only has to print it.
-/

namespace Pigeonhole.Cli

/-- What the command line is called with. -/
structure Invocation where
  arguments : List String
  files : Files
  environment : Environment
  /-- The correlation id of a query run. -/
  runId : String
  /-- The time of log records. -/
  now : Number := .int 0
  /-- How many milliseconds the query takes. -/
  elapsed : Double := Double.zero false

/-- A command. -/
inductive Command where
  | query
  | config
deriving DecidableEq, Repr

/-- What is shown on the output. -/
inductive Output where
  | nothing
  | version
  | help (command : Option Command)
  | config (c : Config)
  | response (r : FeedResponse Empty)

/-- An error that no part of the command line handles. -/
inductive Crash where
  | load (e : LoadError)
  | setup (e : Log.SetupError)
  | input (e : InputError)
  /-- A path with a character that none can hold. -/
  | path
  | request (e : Failure)

/-- How an invocation ends. -/
inductive Ending where
  | done
  | failed
  | misused
  | crashed (c : Crash)

/-- The result of an invocation. -/
structure Result where
  output : Output := .nothing
  /-- The log afterwards. -/
  log : Log.Logging := {}
  /-- The messages after the lines of the log. -/
  notes : List String := []
  ending : Ending := .done

/-- The exit code of an ending. -/
def Ending.code : Ending → Nat
  | done => 0
  | failed => 1
  | misused => 2
  | crashed _ => 1

/-- The names of the commands. -/
def commandNames : List String := ["config", "query"]

/-- The command with a name. -/
def Command.ofName? : String → Option Command
  | "query" => some .query
  | "config" => some .config
  | _ => none

/-! ## Texts -/

/-- The name of the program. -/
def programName : String := "localcosmos"

/-- The version of the program. -/
def programVersion : String := "0.1.0"

/-- How a command is called. -/
def usage : Option Command → String
  | none => "Usage: " ++ programName ++ " [OPTIONS] COMMAND [ARGS]..."
  | some .query => "Usage: " ++ programName ++ " query [OPTIONS] SEED_FILE QUERY"
  | some .config => "Usage: " ++ programName ++ " config [OPTIONS]"

/-- The text of an output. -/
def Output.text : Output → List Char
  | nothing => []
  | version => (programName ++ ", version " ++ programVersion ++ "\n").toList
  | help command => (usage command ++ "\n").toList
  | config c => c.shown ++ ['\n']
  | response r => Json.write .block (r.toTree false) ++ ['\n']

/-- The output with the time that a request took. -/
def Output.timed (duration : Number) : Output → Output
  | response r => .response (r.timed duration)
  | output => output

namespace Result

/-- The result of an error that is not handled. -/
def crashed (log : Log.Logging) (c : Crash) : Result := { log, ending := .crashed c }

/-- The crash that an error without a message is. -/
def crashOf : UsageError → Crash
  | .input e => .input e
  | _ => .path

/-- The result of a command line that is not understood. -/
def misused (command : Option Command) (log : Log.Logging) (e : UsageError) : Result :=
  match e.message? with
  | some message =>
    { log, notes := [usage command, "Error: " ++ message], ending := .misused }
  | none => .crashed log (crashOf e)

/-- The text of all messages: the lines of the log and the notes after them. -/
def messages (r : Result) : List Char :=
  (r.log.streamLines ++ r.notes.map String.toList).flatMap (· ++ ['\n'])

/-- The lines of the messages that report an error. -/
def errors (r : Result) : List (List Char) :=
  (Text.lines r.messages).filter fun line =>
    "[ERROR]".toList.isPrefixOf line || "Error:".toList.isPrefixOf line

end Result

/-! ## Options of the program -/

/-- The option that shows help. -/
def helpSwitch : Switch := { name := "--help", takesValue := false }

/-- The options in front of a command. -/
def programSwitches : List Switch :=
  [{ name := "--version", takesValue := false }, { name := "--config", letter := some 'c' },
    { name := "--log-level" }, helpSwitch]

/-- What the arguments in front of a command ask for. -/
inductive Request where
  | version
  | help
  /-- The rest of the arguments, with a configuration file and a log level if they are given. -/
  | command (rest : List String) (file : Option String) (level : Option Log.Level)

/-- A path at which there has to be a file. -/
def checkFile (files : Files) (hint path : String) : Except UsageError String :=
  match files.entry path with
  | .error .character => .error .pathCharacter
  | .error _ => .error (.noFile hint path)
  | .ok .folder => .error (.folder hint path)
  | .ok (.file text) => .ok text

/-- The level with a name in any letter case. -/
def readLevel (name : String) : Except UsageError Log.Level :=
  match Log.Level.ofName? (name.map Char.toUpper) with
  | some level => .ok level
  | none => .error (.noLevel name)

/-- Checks the last value of an option. -/
def checkOption (files : Files) (a : Arguments) (name : String) : Except UsageError Unit :=
  match name, a.value? name with
  | "--config", some path => (checkFile files "'--config' / '-c'" path).map fun _ => ()
  | "--log-level", some level => (readLevel level).map fun _ => ()
  | _, _ => .ok ()

/-- Reads the arguments in front of a command; options are checked in the order in which they are
first given. -/
def readRequest (files : Files) (arguments : List String) : Except UsageError Request :=
  match Arguments.parse programSwitches false arguments with
  | .error e => .error e
  | .ok a =>
    match (a.given.map (·.1)).find? fun name => name = "--version" || name = "--help" with
    | some name => .ok (if name = "--version" then .version else .help)
    | none =>
      match (a.given.map (·.1)).forM (checkOption files a) with
      | .error e => .error e
      | .ok () =>
        .ok (.command a.rest
          ((a.value? "--config").map fun path => String.ofList (Files.pathOf path).text)
          ((a.value? "--log-level").bind fun level => (readLevel level).toOption))

/-- The overrides of a log level. -/
def levelOverrides : Option Log.Level → List (String × Value)
  | some level => [("logging", .obj [("level", .str level.name)])]
  | none => []

/-! ## Queries -/

/-- The options of a query. -/
def querySwitches : List Switch :=
  [{ name := "--partition-key-path" }, { name := "--partition-key" },
    { name := "--param", letter := some 'p' }, helpSwitch]

/-- A query as it is given on the command line. -/
structure QueryRequest where
  seedName : String
  seedText : String
  text : String
  path : String
  partitionKey : Option String
  parameters : List String

/-- Reads the arguments of a query; `none` asks for help. -/
def readQuery (files : Files) (arguments : List String) : Except UsageError (Option QueryRequest) :=
  match Arguments.parse querySwitches true arguments with
  | .error e => .error e
  | .ok a =>
    if (a.value? "--help").isSome then .ok none
    else
      match a.rest with
      | [] => .error (.missingArgument "SEED_FILE")
      | seedName :: rest =>
        match checkFile files "'SEED_FILE'" seedName with
        | .error e => .error e
        | .ok seedText =>
          match rest with
          | [] => .error (.missingArgument "QUERY")
          | [text] =>
            .ok (some
              { seedName, seedText, text
                path := (a.value? "--partition-key-path").getD "/id"
                partitionKey := a.value? "--partition-key"
                parameters := a.values "--param" })
          | _ :: extra => .error (.extraArguments extra)

/-- What a query runs against and with. -/
structure Inputs where
  documents : List Value
  spec : Query.Spec
  partitionKey : Option Value

/-- Reads the inputs of a query. -/
def readInputs (readers : Readers) (q : QueryRequest) : Except InputError Inputs :=
  match readSeed readers q.seedName q.seedText with
  | .error e => .error e
  | .ok documents =>
    match q.parameters.mapM parseParameter, q.partitionKey.mapM (parameterValue ·.toList) with
    | .error e, _ => .error e
    | _, .error e => .error e
    | .ok parameters, .ok partitionKey =>
      .ok
        { documents, spec := { text := q.text, parameters }
          partitionKey := partitionKey.map Tree.ofJson }

/-- The logger of the command line. -/
def cliLogger : String := "localcosmos.cli"

/-- The log after records that are made now, under the id of a run. -/
def Invocation.emit (i : Invocation) (log : Log.Logging) (records : List Log.Record) :
    Log.Logging :=
  log.emitAll (some i.runId) (records.map fun r => { r with created := i.now })

/-- The beginning of records of a run. -/
def Invocation.heading (i : Invocation) : String := "Query run " ++ i.runId

/-- A record of a run. -/
def runRecord (level : Log.Level) (text : String) : Log.Record := .plain level cliLogger text

/-- The digits of a count. -/
def count (n : Nat) : String := String.ofList (Text.natDigits n)

/-- Runs a query. -/
def runInputs (i : Invocation) (c : Config) (log : Log.Logging) (path : String) (inputs : Inputs) :
    Result :=
  let charge := Number.double c.emulator.charge
  let o := runQuery i.elapsed inputs.documents inputs.spec path inputs.partitionKey charge
  let log := i.emit log
    (runRecord .info (i.heading ++ ": " ++ count inputs.documents.length ++ " seed documents") ::
      o.records)
  match o.result with
  | .ok reply =>
    match responseOf? reply with
    | some r =>
      { output := .response r
        log := i.emit log [runRecord .info
          (i.heading ++ " returned " ++ count r.resources.length ++ " resources")] }
    | none => { log }
  | .error e =>
    match e.message? with
    | some message =>
      { log := i.emit log [runRecord .error ("Query failed: " ++ message)]
        notes := ["[ERROR] " ++ message]
        ending := .failed }
    | none => .crashed log (.request e)

/-- The files with those of a log. -/
def filesWith (log : Log.Logging) (files : Files) : Files :=
  ((log.file?.map (·.files)).getD []).foldl
    (fun files (name, text) => files.write name (String.ofList text)) files

/-- Answers a call of the command for queries. -/
def answerQuery (readers : Readers) (i : Invocation) (c : Config) (log : Log.Logging)
    (arguments : List String) : Result :=
  match readQuery (filesWith log i.files) arguments with
  | .error e => .misused (some .query) log e
  | .ok none => { output := .help (some .query), log }
  | .ok (some q) =>
    match readInputs readers q with
    | .error e => .misused (some .query) log (.input e)
    | .ok inputs => runInputs i c log q.path inputs

/-- Answers a call of the command that shows the configuration. -/
def answerConfig (c : Config) (log : Log.Logging) (arguments : List String) : Result :=
  match Arguments.parse [helpSwitch] true arguments with
  | .error e => .misused (some .config) log e
  | .ok a =>
    if (a.value? "--help").isSome then { output := .help (some .config), log }
    else if a.rest.isEmpty then { output := .config c, log }
    else .misused (some .config) log (.extraArguments a.rest)

/-! ## The program -/

/-- Loads the configuration, sets up the log and answers a command. -/
def answerCommand (readers : Readers) (i : Invocation) (file : Option String)
    (level : Option Log.Level) (command : Command) (arguments : List String) : Result :=
  let request : LoadRequest := { file, overrides := levelOverrides level }
  match (Loader.load readers {} i.files i.environment request).result with
  | .error e => .crashed {} (.load e)
  | .ok c =>
    match Log.Logging.configure {} { c.logging.settings with files := i.files } none i.now with
    | (log, .error e) => .crashed log (.setup e)
    | (log, .ok ()) =>
      match command with
      | .query => answerQuery readers i c log arguments
      | .config => answerConfig c log arguments

/-- The result of a command that is not known; what stands in its place may be an option. -/
def unknownCommand (files : Files) (name : String) (rest : List String) : Result :=
  match readRequest files (name :: rest) with
  | .error e => .misused none {} e
  | .ok .version => { output := .version }
  | .ok .help => { output := .help none }
  | .ok (.command ..) =>
    .misused none {} (.noSuchCommand name (Text.similar commandNames name))

/-- Answers an invocation. -/
def run (readers : Readers) (i : Invocation) : Result :=
  if i.arguments.isEmpty then { notes := [usage none], ending := .misused }
  else
    match readRequest i.files i.arguments with
    | .error e => .misused none {} e
    | .ok .version => { output := .version }
    | .ok .help => { output := .help none }
    | .ok (.command [] _ _) => .misused none {} .missingCommand
    | .ok (.command (name :: rest) file level) =>
      match Command.ofName? name with
      | none => unknownCommand i.files name rest
      | some command => answerCommand readers i file level command rest

end Pigeonhole.Cli
