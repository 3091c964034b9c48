import Pigeonhole.Schema.Request

/-!
# Connection options

The model of what a connection is opened with: a database, and the containers it is to have with
their partition keys and the paths that their indexes leave out.
-/

namespace Pigeonhole

/-- The paths that an index leaves out. -/
inductive IndexExclusions where
  | none
  | all
  | paths (list : List String)
deriving DecidableEq, Repr

/-- A container that a connection is to have. -/
structure ContainerOptions where
  name : String
  /-- The partition key path without its leading slash. -/
  partitionKey : String
  indexExclusions : IndexExclusions := .none
deriving DecidableEq, Repr

/-- What a connection is opened with. -/
structure ConnectionOptions where
  endpoint : String := "https://localhost:8081"
  key : String := ""
  name : String
  containers : List ContainerOptions := []
deriving DecidableEq, Repr

namespace IndexExclusions

/-- How a place is shown that was read as one of the words. -/
def wordsPlace : Step := .key "literal['none','all']"

/-- How a place is shown that was read as a list of paths. -/
def listPlace : Step := .key "list[str]"

/-- Checks one of the words `none` and `all`, or a list of paths; a failure shows both readings. -/
def check (v : Value) : Checked IndexExclusions :=
  match v with
  | .str "none" => .ok none
  | .str "all" => .ok all
  | _ =>
    match v.asList Value.asString with
    | .ok list => .ok (paths list)
    | .issues list =>
      .issues (⟨[wordsPlace], .notLiteral⟩ :: list.map (Issue.under listPlace))

/-- Exclusions as a value. -/
def toValue : IndexExclusions → Value
  | none => .str "none"
  | all => .str "all"
  | paths list => stringsValue list

/-- A path in a policy. -/
def pathEntry (path : Value) : Value := .obj [("path", path)]

/-- The path of everything. -/
def everything : Value := .arr [pathEntry (.str "/*")]

/-- The policy that leaves out everything. -/
def excludeAll : Value := .obj [("excludedPaths", everything)]

/-- The policy that leaves out the system's own path and some others. -/
def exclude (list : List Value) : Value :=
  .obj [("includedPaths", everything),
    ("excludedPaths", .arr ((.str "/\"_etag\"/?" :: list).map pathEntry))]

/-- The policy of exclusions given as a value; of a text other than `all` every character is a
path. -/
def policyOfValue (v : Value) : Value :=
  match v with
  | .str "all" => excludeAll
  | .str s => exclude (s.toList.map fun c => .str (String.ofList [c]))
  | .arr list => exclude list
  | _ => exclude []

/-- The policy of exclusions, if there are any. -/
def policy? : IndexExclusions → Option Value
  | none => Option.none
  | all => some excludeAll
  | paths list => some (exclude (list.map .str))

end IndexExclusions

namespace ContainerOptions

def partitionKeyField : Field := ⟨"partitionKey", "partition_key"⟩

def exclusionsField : Field := ⟨"indexExclusions", "index_exclusions"⟩

/-- Checks the members of container options. -/
def check (ms : List (String × Value)) : Checked ContainerOptions :=
  mk <$> (Field.plain "name").required Value.asString ms
    <*> partitionKeyField.required Value.asString ms
    <*> exclusionsField.optional .none IndexExclusions.check ms

/-- Container options as a value. -/
def toValue (short : Bool) (o : ContainerOptions) : Value :=
  .obj [("name", .str o.name), (partitionKeyField.shown short, .str o.partitionKey),
    (exclusionsField.shown short, o.indexExclusions.toValue)]

/-- The request that creates the container. -/
def details (o : ContainerOptions) : Value :=
  .obj ([("id", .str o.name),
      ("partitionKey", .obj [("paths", stringsValue ["/" ++ o.partitionKey])])] ++
    o.indexExclusions.policy?.toList.map fun policy => ("indexingPolicy", policy))

end ContainerOptions

namespace ConnectionOptions

/-- Checks the members of connection options. -/
def check (ms : List (String × Value)) : Checked ConnectionOptions :=
  mk <$> (Field.plain "endpoint").optional "https://localhost:8081" Value.asString ms
    <*> (Field.plain "key").optional "" Value.asString ms
    <*> (Field.plain "name").required Value.asString ms
    <*> (Field.plain "containers").optional []
      (Value.asList (Value.asModel ContainerOptions.check)) ms

/-- Connection options as a value. -/
def toValue (short : Bool) (o : ConnectionOptions) : Value :=
  .obj [("endpoint", .str o.endpoint), ("key", .str o.key), ("name", .str o.name),
    ("containers", .arr (o.containers.map (ContainerOptions.toValue short)))]

end ConnectionOptions

end Pigeonhole
