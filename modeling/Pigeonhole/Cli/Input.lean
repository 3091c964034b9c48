import Pigeonhole.Files.Read

/-!
# Inputs of the command line

A query comes with parameters, each written as `NAME=VALUE`, and with a seed file that lists the
documents it runs against.
-/

namespace Pigeonhole.Cli

/-- Why an input is not taken. -/
inductive InputError where
  /-- A parameter without an equals sign. -/
  | noValue (raw : String)
  /-- A seed file that is neither JSON nor YAML. -/
  | unreadable
  /-- A seed file without a list. -/
  | noList
  /-- An entry of a seed file that is no object. -/
  | noObject (position : Nat)
  /-- A number, a date or a character that does not exist. -/
  | range
  /-- A character number beyond all that are looked up. -/
  | overflow
  /-- Too many collections inside each other. -/
  | depth
deriving DecidableEq, Repr

/-- The argument or option that an input was given by. -/
def InputError.hint : InputError → String
  | noValue _ => "--param"
  | _ => "SEED_FILE"

/-- What is wrong with an input; nothing is said about a value that does not exist. -/
def InputError.message? : InputError → Option String
  | noValue raw => some ("Expected NAME=VALUE, got '" ++ raw ++ "'")
  | unreadable => some "Cannot parse seed file"
  | noList => some "Seed file must contain a list of documents"
  | noObject position =>
    some ("Seed entry " ++ String.ofList (Text.natDigits position) ++ " is not an object")
  | range | overflow | depth => none

/-! ## Parameters -/

/-- The name of a parameter, with the mark that it has in queries. -/
def parameterName (s : List Char) : List Char :=
  let name := Text.strip s
  if name.head? = some '@' then name else '@' :: name

/-- The value that a text stands for: the JSON it is, or else a string. -/
def parameterValue (s : List Char) : Except InputError Json :=
  match Json.parse s with
  | .ok j => .ok j
  | .error .malformed => .ok (Tree.ofString s)
  | .error .longInteger | .error .halfPair => .error .range
  | .error .tooDeep => .error .depth

/-- Reads a parameter. -/
def parseParameter (raw : String) : Except InputError (String × Json) :=
  match raw.toList.dropWhile (· != '=') with
  | [] => .error (.noValue raw)
  | _ :: value =>
    let name := parameterName (raw.toList.takeWhile (· != '='))
    (parameterValue value).map (String.ofList name, ·)

/-! ## Seed files -/

/-- The value that a seed file holds; an empty YAML file has no documents. -/
def seedValue (readers : Readers) (name text : String) : Except InputError Value :=
  if Files.isYaml name then
    (readYaml readers (.arr []) text).mapError fun
      | .range => .range
      | .overflow => .overflow
      | .depth => .depth
      | _ => .unreadable
  else
    (readJson text).mapError fun
      | .malformed => .unreadable
      | .longInteger | .halfPair => .range
      | .tooDeep => .depth

/-- Whether a value is a mapping. -/
def isMapping (v : Value) : Bool := v.members?.isSome

/-- The documents of a seed file. -/
def readSeed (readers : Readers) (name text : String) : Except InputError (List Value) :=
  match seedValue readers name text with
  | .error e => .error e
  | .ok (.arr items) =>
    match items.findIdx? (!isMapping ·) with
    | some position => .error (.noObject position)
    | none => .ok items
  | .ok _ => .error .noList

end Pigeonhole.Cli
