import Pigeonhole.Cli.Input
import Pigeonhole.Text.Quoted
import Pigeonhole.Text.Similarity

/-!
# Arguments of the command line

Options may be written long with `--` or short with `-`; a value follows as the next argument, after
an equals sign, or directly after a short option.  Two dashes alone end the options.
`Arguments.parse` separates the options from the other arguments.
-/

namespace Pigeonhole.Cli

/-- Why a command line is not understood. -/
inductive UsageError where
  /-- An option that is not known, with known ones that are close to it. -/
  | noSuchOption (name : String) (similar : List String)
  | needsValue (name : String)
  | takesNoValue (name : String)
  | missingArgument (name : String)
  | extraArguments (arguments : List String)
  /-- A command that is not known, with known ones that are close to it. -/
  | noSuchCommand (name : String) (similar : List String)
  | missingCommand
  /-- There is no file where an argument or option names one. -/
  | noFile (hint path : String)
  /-- There is a folder where an argument or option names a file. -/
  | folder (hint path : String)
  /-- The path holds a character that none can hold. -/
  | pathCharacter
  | noLevel (name : String)
  | input (e : InputError)
deriving DecidableEq, Repr

/-- A text in quotes. -/
def inQuotes (s : String) : String := String.ofList (Text.quoted s.toList)

/-- The names of the levels that can be chosen. -/
def levelNames : List String := ["debug", "info", "warning", "error", "critical"]

/-- What is asked about names that were perhaps meant, the names in the order of texts. -/
def suggestion : List String → String
  | [] => ""
  | [name] => " Did you mean " ++ inQuotes name ++ "?"
  | names =>
    " (Did you mean one of: " ++
      String.intercalate ", " ((names.mergeSort (· ≤ ·)).map inQuotes) ++ "?)"

/-- The message of an error, if it has one. -/
def UsageError.message? : UsageError → Option String
  | noSuchOption name similar =>
    some ("No such option " ++ inQuotes name ++ "." ++ suggestion similar)
  | needsValue name => some ("Option " ++ inQuotes name ++ " requires an argument.")
  | takesNoValue name => some ("Option " ++ inQuotes name ++ " does not take a value.")
  | missingArgument name => some ("Missing argument '" ++ name ++ "'.")
  | extraArguments [argument] => some ("Got unexpected extra argument (" ++ argument ++ ")")
  | extraArguments arguments =>
    some ("Got unexpected extra arguments (" ++ String.intercalate " " arguments ++ ")")
  | noSuchCommand name similar =>
    some ("No such command " ++ inQuotes name ++ "." ++ suggestion similar)
  | missingCommand => some "Missing command."
  | noFile hint path =>
    some ("Invalid value for " ++ hint ++ ": File " ++ inQuotes path ++ " does not exist.")
  | folder hint path =>
    some ("Invalid value for " ++ hint ++ ": File " ++ inQuotes path ++ " is a directory.")
  | pathCharacter => none
  | noLevel name => some ("Invalid value for '--log-level': " ++ inQuotes name ++
    " is not one of " ++ String.intercalate ", " (levelNames.map inQuotes) ++ ".")
  | input e => e.message?.map fun message => "Invalid value for " ++ e.hint ++ ": " ++ message

/-- An option of a command. -/
structure Switch where
  /-- The name that identifies it. -/
  name : String
  /-- A second, short name. -/
  letter : Option Char := none
  takesValue : Bool := true
deriving DecidableEq, Repr

/-- The options that were given, in order, and the other arguments. -/
structure Arguments where
  given : List (String × String) := []
  rest : List String := []
deriving Repr

namespace Arguments

/-- The arguments with options in front. -/
def withGiven (given : List (String × String)) (a : Arguments) : Arguments :=
  { a with given := given ++ a.given }

/-- The arguments with another one in front. -/
def withArgument (argument : String) (a : Arguments) : Arguments :=
  { a with rest := argument :: a.rest }

/-- The last value of an option. -/
def value? (a : Arguments) (name : String) : Option String := a.given.reverse.lookup name

/-- All values of an option, in order. -/
def values (a : Arguments) (name : String) : List String :=
  (a.given.filter (·.1 = name)).map (·.2)

/-- What an option is given: its name and its value, and whether the value is the next argument. -/
def takeValue (switch : Switch) (shown : String) (written next : Option String) :
    Except UsageError ((String × String) × Bool) :=
  match switch.takesValue, written, next with
  | true, some value, _ => .ok ((switch.name, value), false)
  | true, none, some value => .ok ((switch.name, value), true)
  | true, none, none => .error (.needsValue shown)
  | false, some _, _ => .error (.takesNoValue shown)
  | false, none, _ => .ok ((switch.name, ""), false)

/-- Reads short options written together; the first that takes a value takes all that follows. -/
def readLetters (switches : List Switch) (next : Option String) :
    List Char → Except UsageError (List (String × String) × Bool)
  | [] => .ok ([], false)
  | c :: rest =>
    let shown := String.ofList ['-', c]
    match switches.find? (·.letter = some c) with
    | none => .error (.noSuchOption shown [])
    | some switch =>
      if switch.takesValue then
        let written := if rest.isEmpty then none else some (String.ofList rest)
        (takeValue switch shown written next).map fun (option, used) => ([option], used)
      else
        (readLetters switches next rest).map fun (options, used) =>
          ((switch.name, "") :: options, used)

/-- Reads an argument that is an option, given the next argument, and says whether that one was
used. -/
def readOption (switches : List Switch) (argument : String) (next : Option String) :
    Except UsageError (List (String × String) × Bool) :=
  let s := argument.toList
  let name := String.ofList (s.takeWhile (· != '='))
  match switches.find? (·.name = name) with
  | some switch =>
    let written := match s.dropWhile (· != '=') with
      | [] => none
      | _ :: value => some (String.ofList value)
    (takeValue switch name written next).map fun (option, used) => ([option], used)
  | none =>
    match s with
    | '-' :: '-' :: _ =>
      .error (.noSuchOption name (Text.similar (switches.map (·.name)) name))
    | _ => readLetters switches next (s.drop 1)

/-- Whether an argument is an option. -/
def isOption (argument : String) : Bool :=
  match argument.toList with
  | '-' :: _ :: _ => true
  | _ => false

/-- Separates options from other arguments; unless options may stand among the others, the first
other argument ends them. -/
def parse (switches : List Switch) (mixed : Bool) (arguments : List String) :
    Except UsageError Arguments :=
  match arguments with
  | [] => .ok {}
  | argument :: rest =>
    if argument = "--" then .ok { rest }
    else if isOption argument then
      match readOption switches argument rest.head? with
      | .error e => .error e
      | .ok (given, false) => (parse switches mixed rest).map (·.withGiven given)
      | .ok (given, true) => (parse switches mixed rest.tail).map (·.withGiven given)
    else if mixed then (parse switches mixed rest).map (·.withArgument argument)
    else .ok { rest := argument :: rest }
termination_by arguments.length
decreasing_by all_goals simp only [List.length_cons, List.length_tail]; omega

end Arguments

end Pigeonhole.Cli
