/-!
# Errors of YAML text
-/

namespace Pigeonhole.Yaml

/-- Why a text is no YAML document. -/
inductive YamlError where
  /-- A character that no document may hold. -/
  | character
  /-- A text that falls into no tokens. -/
  | token
  /-- Tokens that form no node. -/
  | node
  /-- More than one document. -/
  | severalDocuments
  /-- A node that stands for no value. -/
  | value
  /-- A number, a date or a character that does not exist. -/
  | range
  /-- A character number beyond all that are looked up. -/
  | overflow
  /-- Too many collections inside each other. -/
  | depth
deriving DecidableEq, Repr

end Pigeonhole.Yaml
