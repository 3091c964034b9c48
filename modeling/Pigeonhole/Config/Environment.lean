import Pigeonhole.Log.Setup
import Pigeonhole.Number.Numeral
import Pigeonhole.Text.Lowercase

/-!
# Environment variables

Some settings can be given by variables of the environment.  `Environment.members` writes those that
are set as members of a configuration; an empty variable counts as not set.
-/

namespace Pigeonhole

/-- The variables of the environment by their names. -/
abbrev Environment := List (String × String)

namespace Environment

/-- What the names of all variables start with. -/
def stem : String := "LOCALCOSMOS_"

/-- The names of all variables. -/
def names : List String :=
  ["LOG_LEVEL", "LOG_FORMAT", "LOG_FILE", "ENDPOINT", "KEY", "REQUEST_CHARGE"].map (stem ++ ·)

/-- A variable that is set. -/
def setting? (env : Environment) (name : String) : Option String :=
  (env.lookup (stem ++ name)).filter (!·.isEmpty)

/-- A variable as a member with a string. -/
def textMember (env : Environment) (name key : String) (f : String → String) :
    List (String × Value) :=
  ((env.setting? name).map fun s => (key, Tree.str (f s))).toList

/-- The members of the log's section. -/
def loggingMembers (env : Environment) : List (String × Value) :=
  env.textMember "LOG_LEVEL" "level" Log.capitals ++
    env.textMember "LOG_FORMAT" "format" (fun s => String.ofList (Text.lower s.toList)) ++
    env.textMember "LOG_FILE" "file" id

/-- The request charge as a member, `none` if the variable is no number. -/
def chargeMember? (env : Environment) : Option (List (String × Value)) :=
  match env.setting? "REQUEST_CHARGE" with
  | none => some []
  | some s => (Numeral.readDouble? s.toList).map fun x => [("request_charge", Tree.double x)]

/-- The members of the account's section, `none` if the request charge is no number. -/
def emulatorMembers? (env : Environment) : Option (List (String × Value)) :=
  env.chargeMember?.map fun charge =>
    env.textMember "ENDPOINT" "endpoint" id ++ env.textMember "KEY" "key" id ++ charge

/-- A section with its members, if there are any. -/
def sectionOf (key : String) (ms : List (String × Value)) : List (String × Value) :=
  if ms.isEmpty then [] else [(key, .obj ms)]

/-- The sections of a configuration that variables set, `none` if the request charge is no
number. -/
def members? (env : Environment) : Option (List (String × Value)) :=
  env.emulatorMembers?.map fun ms =>
    sectionOf "logging" env.loggingMembers ++ sectionOf "emulator" ms

end Environment

end Pigeonhole
