import Pigeonhole.Schema.Readers
import Pigeonhole.Yaml.Node

/-!
# Readers of this library

`Readers.plain` reads the part of YAML that seed files and configurations are commonly written in:
block and flow collections with plain and quoted scalars.  Block scalars, anchors, aliases, tags and
directives are errors for it.  A program that is to read all of YAML brings its own reader.
-/

namespace Pigeonhole

/-- The readers of this library. -/
def Readers.plain : Readers := ⟨Yaml.parse, Numeral.fieldInt, Numeral.fieldDouble?⟩

end Pigeonhole
