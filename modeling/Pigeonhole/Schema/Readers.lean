import Pigeonhole.Json.Basic
import Pigeonhole.Number.Numeral
import Pigeonhole.Yaml.Error

/-!
# Readers

Two things about texts are not settled here, since others provide for them: which value a YAML text
stands for, and which number a string stands for in a numeric field.  `Readers` are the functions
that settle it, and whatever reads a configuration takes them as they come.
-/

namespace Pigeonhole

/-- What others provide for reading texts. -/
structure Readers where
  /-- The value of a YAML text. -/
  yaml : List Char → Except Yaml.YamlError Value
  /-- The integer that a string is in a numeric field. -/
  int : List Char → Except NumeralError Int
  /-- The double that a string is in a numeric field. -/
  double? : List Char → Option Double

end Pigeonhole
