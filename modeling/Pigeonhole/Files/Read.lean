import Pigeonhole.Files.Basic
import Pigeonhole.Json.Parser
import Pigeonhole.Schema.Readers

/-!
# Reading files

The values that files hold.  In a YAML file a value that is null, false, zero or empty stands for an
empty collection.
-/

namespace Pigeonhole

/-- Whether a value is null, false, zero or empty. -/
def Value.isVoid : Value → Bool
  | .null => true
  | .bool b => !b
  | .num n => n.isZero
  | .str s => s.isEmpty
  | .arr items => items.isEmpty
  | .obj members => members.isEmpty
  | .foreign _ => false

/-- The value of a YAML text, and another one in place of a value that is null, false, zero or
empty. -/
def readYaml (readers : Readers) (void : Value) (text : String) : Except Yaml.YamlError Value :=
  (readers.yaml text.toList).map fun v => if v.isVoid then void else v

/-- The value of a JSON text. -/
def readJson (text : String) : Except JsonError Value := (Json.parse text.toList).map Tree.ofJson

end Pigeonhole
