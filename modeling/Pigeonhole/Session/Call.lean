import Pigeonhole.Account.Container
import Pigeonhole.Log.Correlation

/-!
# Calls

A call is a request to a container of a connection.  It is answered with plain documents in place of
responses, and leaves one record of what it did or why it failed, under its correlation id.  Records
hold sizes, the time it took, the partition key value and the query text, never documents or
parameter values.
-/

namespace Pigeonhole.Session

/-- A request to a container of a connection. -/
inductive Call where
  | getItem (id partitionKey : Value)
  | getItems (partitionKey : Value)
  | getIds (partitionKey : Value)
  | getCount
  | query (query options : Value)
  | upsertItem (item : Value)
  | deleteItem (id partitionKey : Value)

/-- The logger of calls. -/
def callLogger : String := "localcosmos.db.container"

/-- What a record says about a call. -/
structure Telemetry where
  action : String
  container : String
  charge : Double
  diagnostics : Diagnostics
  partitionKey : Option Value := none
  query : Option Value := none
  count : Option Nat := none

/-- The text of a query, `none` if it was given in a way that does not show it. -/
def queryText? : Value → Option Value
  | .str s => some (.str s)
  | .obj ms => some ((ms.lookup "query").getD .null)
  | _ => none

namespace Telemetry

/-- The partition key value that is shown: one that is given and not null. -/
def shownKey (t : Telemetry) : Option Value :=
  match Value.given t.partitionKey with
  | some .null => none
  | key => key

/-- The context of a record; `none` if the query text is not to be had. -/
def context? (t : Telemetry) : Option (List (String × Value)) := do
  let query ← match t.query with
    | some q => (queryText? q).map fun text => [("query", text)]
    | none => some []
  return [("action", .str t.action), ("container", .str t.container), ("ru", Tree.double t.charge),
      ("ms", .num t.diagnostics.duration), ("bytes", Tree.int t.diagnostics.payloadLength)] ++
    (t.shownKey.toList.map fun key => ("pkey", key)) ++ query ++
    (t.count.toList.map fun (n : Nat) => ("count", Tree.int (n : Int)))

/-- The record of a call that succeeded. -/
def record (id : String) (t : Telemetry) : Log.Record :=
  match t.context? with
  | some context =>
    { Log.Record.plain .info callLogger (t.action ++ " " ++ t.container) with
      correlation := some (some id), context }
  | none => .plain .error callLogger "LogDBAction"

end Telemetry

/-- The record of a call that failed. -/
def failureRecord (id tag : String) (e : Failure) : Log.Record :=
  (Log.Record.plain .error callLogger (tag ++ ": " ++ e.text)).withCorrelation (some id)

/-- The outcome of a call from the outcome of its action: what it answers, and its record. -/
def finish {α : Type} (id tag : String) (o : Outcome Container α) (answer : α → Json)
    (telemetry : α → Telemetry) : Outcome Container Json :=
  match o.result with
  | .ok a =>
    { state := o.state
      result := .ok (answer a)
      records := o.records ++ [(telemetry a).record id] }
  | .error e =>
    { state := o.state, result := .error e, records := o.records ++ [failureRecord id tag e] }

/-- Telemetry of a response with one resource. -/
def itemTelemetry (action name : String) (partitionKey : Option Value) (r : ItemResponse Empty) :
    Telemetry :=
  { action, container := name, charge := r.charge, diagnostics := r.diagnostics, partitionKey }

/-- Telemetry of a response with a list of resources. -/
def feedTelemetry (action name : String) (partitionKey query : Option Value)
    (r : FeedResponse Empty) : Telemetry :=
  { action, container := name, charge := r.charge, diagnostics := r.diagnostics, partitionKey, query
    count := some r.resources.length }

/-- The options of a feed that is restricted to a partition key value. -/
def partitionOptions (partitionKey : Value) : Value := .obj [("partitionKey", partitionKey)]

/-- The partition key value of feed options, if they can be read. -/
def optionsKey (options : Value) : Option Value :=
  match FeedOptions.ofValue options with
  | .ok o => o.scope
  | .error _ => none

/-- Answers a query. -/
def runQuery (name id : String) (c : Container) (elapsed : Double) (query options : Value) :
    Outcome Container Json :=
  finish id "Query" (c.query elapsed query options) (fun r => .arr r.resources)
    (feedTelemetry "QUERY" name (optionsKey options) (some query))

/-- The query of all ids. -/
def idsQuery : Value := .str "SELECT c.id FROM c"

/-- The query of the number of documents. -/
def countQuery : Value := .str "SELECT VALUE COUNT(1) FROM c"

/-- The items of an array. -/
def itemsOf : Json → List Json
  | .arr items => items
  | _ => []

/-- The ids of a list of id entries. -/
def idsOf (entries : Json) : Json := .arr ((itemsOf entries).filterMap (·.member? "id"))

/-- The first of a list, null if there is none. -/
def firstOf (entries : Json) : Json := (itemsOf entries).head?.getD .null

/-- The outcome with its result changed. -/
def mapResult (f : Json → Json) (o : Outcome Container Json) : Outcome Container Json :=
  o.map (fun c => c) f

/-- Answers a call to a container under a name, with a correlation id; the request takes so many
milliseconds. -/
def run (name id : String) (c : Container) (elapsed : Double) : Call → Outcome Container Json
  | .getItem item key =>
    finish id "GetItem" (c.read elapsed ⟨item, some key⟩) (·.resource)
      (itemTelemetry "READ" name (some key))
  | .getItems key =>
    finish id "GetItemsByPartitionKey" (c.readAll elapsed (partitionOptions key))
      (fun r => .arr r.resources) (feedTelemetry "READ_ALL" name (some key) none)
  | .getIds key => mapResult idsOf (runQuery name id c elapsed idsQuery (partitionOptions key))
  | .getCount => mapResult firstOf (runQuery name id c elapsed countQuery .null)
  | .query query options => runQuery name id c elapsed query options
  | .upsertItem item =>
    finish id "UpsertItem" (c.upsert elapsed item) (fun _ => .null)
      (itemTelemetry "UPSERT" name none)
  | .deleteItem item key =>
    finish id "DeleteItem" (c.delete elapsed ⟨item, some key⟩) (fun _ => .null)
      (itemTelemetry "DELETE" name (some key))

/-- Answers a call in a scope of its own: under the correlation id bound around it, or else a new one.
What was bound around it is bound again afterwards. -/
def perform (supply : Nat → String) (around : Log.Correlation) (name : String) (c : Container)
    (elapsed : Double) (call : Call) : Log.Correlation × Outcome Container Json :=
  let inside := around.enter supply none
  (around.leave inside, run name (inside.current.getD "") c elapsed call)

end Pigeonhole.Session
