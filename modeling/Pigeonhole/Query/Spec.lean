import Pigeonhole.Json.Basic

/-!
# Query specifications

A query as it is sent: its text, and values for the parameters that the text names.
-/

namespace Pigeonhole.Query

/-- A value bound to a parameter name. -/
abbrev Binding := String × Json

/-- A query text with parameters; a name may be bound several times. -/
structure Spec where
  text : String
  parameters : List Binding := []

/-- The parameters by name: the last binding of a name counts, at the place of its first. -/
def Spec.bindings (spec : Spec) : List Binding := assignAll spec.parameters

end Pigeonhole.Query
