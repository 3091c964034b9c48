import Pigeonhole.Query.Spec
import Pigeonhole.Schema.Checked

/-!
# Requests

The models of what callers send: databases, containers, queries and feed options.  Each has a check
from the members of a mapping, and `toValue` writes it back with its long or its short keys.
-/

namespace Pigeonhole

/-- A list of strings as a value. -/
def stringsValue (items : List String) : Value := .arr (items.map .str)

/-- A value or null. -/
def optionValue {α : Type} (write : α → Value) : Option α → Value
  | some a => write a
  | none => .null

/-- The paths of a partition key and its kind; only the first path counts. -/
structure PartitionKeyDefinition where
  paths : List String
  kind : String := "Hash"
deriving DecidableEq, Repr

/-- Paths that an index holds and leaves out; kept, but nothing is indexed. -/
structure IndexingPolicy where
  included : Option (List String) := none
  excluded : Option (List String) := none
deriving DecidableEq, Repr

/-- A request to create a database. -/
structure DatabaseRequest where
  id : String
deriving DecidableEq, Repr

/-- A request to create a container. -/
structure ContainerRequest where
  id : String
  partitionKey : PartitionKeyDefinition
  indexingPolicy : Option IndexingPolicy := none
deriving DecidableEq, Repr

/-- Options of a feed: the partition key value it is restricted to, if one is given. -/
structure FeedOptions where
  partitionKey : Option Value := none

namespace PartitionKeyDefinition

/-- Checks the members of a definition. -/
def check (ms : List (String × Value)) : Checked PartitionKeyDefinition :=
  mk <$> (Field.plain "paths").required
      (fun v => (v.asList Value.asString).rule (!·.isEmpty)
        "ContainerRequest.partitionKey.paths[0] is required") ms
    <*> (Field.plain "kind").optional "Hash" Value.asString ms

/-- A definition as a value. -/
def toValue (d : PartitionKeyDefinition) : Value :=
  .obj [("paths", stringsValue d.paths), ("kind", .str d.kind)]

end PartitionKeyDefinition

namespace IndexingPolicy

/-- The key of the paths that an index holds. -/
def includedField : Field := ⟨"includedPaths", "included_paths"⟩

/-- The key of the paths that an index leaves out. -/
def excludedField : Field := ⟨"excludedPaths", "excluded_paths"⟩

/-- Checks the mapping of one path. -/
def checkPath : Value → Checked String :=
  Value.asModel ((Field.plain "path").required Value.asString)

/-- Checks the members of a policy. -/
def check (ms : List (String × Value)) : Checked IndexingPolicy :=
  mk <$> includedField.optional none (Value.asOptional (Value.asList checkPath)) ms
    <*> excludedField.optional none (Value.asOptional (Value.asList checkPath)) ms

/-- Paths as a value. -/
def pathsValue (paths : List String) : Value := .arr (paths.map fun p => .obj [("path", .str p)])

/-- A policy as a value. -/
def toValue (short : Bool) (p : IndexingPolicy) : Value :=
  .obj [(includedField.shown short, optionValue pathsValue p.included),
    (excludedField.shown short, optionValue pathsValue p.excluded)]

end IndexingPolicy

/-- A string that is not empty. -/
def checkId (message : String) (v : Value) : Checked String := v.asString.rule (!·.isEmpty) message

namespace DatabaseRequest

/-- Checks the members of a request. -/
def check (ms : List (String × Value)) : Checked DatabaseRequest :=
  mk <$> (Field.plain "id").required (checkId "Database ID cannot be empty") ms

/-- A request as a value. -/
def toValue (r : DatabaseRequest) : Value := .obj [("id", .str r.id)]

end DatabaseRequest

namespace ContainerRequest

/-- The key of the partition key definition. -/
def keyField : Field := ⟨"partitionKey", "partition_key"⟩

/-- The key of the indexing policy. -/
def policyField : Field := ⟨"indexingPolicy", "indexing_policy"⟩

/-- Checks the members of a request. -/
def check (ms : List (String × Value)) : Checked ContainerRequest :=
  mk <$> (Field.plain "id").required (checkId "Container ID cannot be empty") ms
    <*> keyField.required (Value.asModel PartitionKeyDefinition.check) ms
    <*> policyField.optional none (Value.asOptional (Value.asModel IndexingPolicy.check)) ms

/-- A request as a value. -/
def toValue (short : Bool) (r : ContainerRequest) : Value :=
  .obj [("id", .str r.id),
    (keyField.shown short, r.partitionKey.toValue),
    (policyField.shown short, optionValue (IndexingPolicy.toValue short) r.indexingPolicy)]

end ContainerRequest

namespace Query

/-- A value without foreign leaves. -/
def checkJson (v : Value) : Checked Json :=
  match v.toJson? with
  | some j => .ok j
  | none => .fail (.rule "Parameter value must be JSON-compatible")

/-- Checks the members of a parameter. -/
def checkBinding (ms : List (String × Value)) : Checked Binding :=
  Prod.mk <$> (Field.plain "name").required Value.asString ms
    <*> (Field.plain "value").optional .null checkJson ms

/-- A parameter as a value. -/
def bindingValue (b : Binding) : Value :=
  .obj [("name", .str b.1), ("value", Tree.ofJson b.2)]

namespace Spec

/-- Checks the members of a query. -/
def check (ms : List (String × Value)) : Checked Spec :=
  mk <$> (Field.plain "query").required Value.asString ms
    <*> (Field.plain "parameters").optional [] (Value.asList (Value.asModel checkBinding)) ms

/-- A query as a value. -/
def toValue (spec : Spec) : Value :=
  .obj [("query", .str spec.text), ("parameters", .arr (spec.parameters.map bindingValue))]

end Spec

end Query

namespace FeedOptions

/-- The key of the partition key value. -/
def keyField : Field := ⟨"partitionKey", "partition_key"⟩

/-- Checks the members of options. -/
def check (ms : List (String × Value)) : Checked FeedOptions :=
  mk <$> keyField.optional none (fun v => .ok (some v)) ms

/-- Options as a value. -/
def toValue (short : Bool) (o : FeedOptions) : Value :=
  .obj [(keyField.shown short, o.partitionKey.getD .null)]

/-- The partition key value that a feed is restricted to. -/
def scope (o : FeedOptions) : Option Value := Value.given o.partitionKey

end FeedOptions

end Pigeonhole
