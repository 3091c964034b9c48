import Pigeonhole.Cli.Basic
import Pigeonhole.Yaml.Reader
import Std.Time.DateTime.Timestamp

/-!
# The program

Reads what an invocation needs, lets `Cli.run` answer it, and prints and writes the result.
-/

namespace Pigeonhole.Program

/-- The texts by which an argument may name a file: as a whole, after an equals sign, or after a
short option. -/
def pathsIn (argument : String) : List String :=
  [argument, String.ofList ((argument.toList.dropWhile (· != '=')).drop 1),
    String.ofList (argument.toList.drop 2)]

/-- The files among paths that can be read. -/
def readFiles (paths : List String) : IO Files :=
  paths.filterMapM fun (path : String) => do
    try
      let text ← IO.FS.readFile path
      return some (path, text)
    catch _ => return none

/-- The variables that are set. -/
def readEnvironment : IO Environment :=
  Environment.names.filterMapM fun name => do
    return (← IO.getEnv name).map fun value => (name, value)

/-- A new correlation id. -/
def newId : IO String := do
  let bytes ← IO.getRandomBytes 6
  return String.ofList (bytes.toList.flatMap fun b => Text.hexDigits 2 b.toNat)

/-- The seconds since the beginning of 1970. -/
def secondsNow : IO Number := do
  let now ← Std.Time.Timestamp.now
  let nanoseconds := now.toNanosecondsSinceUnixEpoch.val.toNat
  return .double (Double.ofRatio false nanoseconds 1000000000)

/-- Writes the file of a log, and the files put aside. -/
def writeLog (f : Log.RotatedFile) : IO Unit := do
  let folder := String.ofList ((f.name.toList.reverse.dropWhile (· != '/')).reverse)
  if !folder.isEmpty then IO.FS.createDirAll folder
  for (name, text) in f.files do
    IO.FS.writeFile name (String.ofList text)

/-- What is said about an error that ends the program. -/
def crashText : Cli.Crash → String
  | .load e => e.message?.getD "The configuration is not valid."
  | .setup _ => "The log cannot be set up."
  | .input .depth => "There are too many collections inside each other."
  | .input _ => "There is a number, a date or a character that does not exist."
  | .path => "There is a path that no file can have."
  | .request e => e.text

/-- The result of an invocation, together with what the file of its log holds already. -/
def answer (i : Cli.Invocation) : IO Cli.Result := do
  match (Cli.run .plain i).log.file? with
  | none => return Cli.run .plain i
  | some f =>
    let written ← readFiles [f.name]
    return Cli.run .plain { i with files := i.files ++ written }

/-- Answers a command line, and returns its exit code. -/
def runProgram (arguments : List String) : IO UInt32 := do
  let files ← readFiles (arguments.flatMap pathsIn)
  let environment ← readEnvironment
  let started ← IO.monoNanosNow
  let result ← answer
    { arguments, files, environment, runId := ← newId, now := ← secondsNow }
  let ended ← IO.monoNanosNow
  let output := result.output.timed (.double (elapsedMilliseconds started ended))
  IO.print (String.ofList output.text)
  let errors ← IO.getStderr
  errors.putStr (String.ofList result.messages)
  match result.ending with
  | .crashed c => errors.putStrLn (crashText c)
  | _ => pure ()
  match result.log.file? with
  | some f => writeLog f
  | none => pure ()
  return result.ending.code.toUInt32

end Pigeonhole.Program

/-- Answers the command line. -/
def main (arguments : List String) : IO UInt32 := Pigeonhole.Program.runProgram arguments
