import Pigeonhole.Account.Request
import Pigeonhole.Json.Display
import Pigeonhole.Log.Record
import Pigeonhole.Query.Execute
import Pigeonhole.Schema.Response
import Pigeonhole.Store.Basic

/-!
# Containers

A container has a store and what it was created with.  An `Action` is a request to its documents;
`Container.run` answers it with a response, the container afterwards and the log records; it is told
how many milliseconds that took.  An action that cannot be carried out changes nothing.  Only after
the action the payload is measured, so an integer in it that is too long to be written comes to light
then, and so does a charge that no response can show.  Half of a surrogate pair, which has no bytes,
would come to light there too; strings are made of characters here, and it is none.
-/

namespace Pigeonhole

/-- What an operation leaves behind: the state afterwards, a result or a failure, and log
records. -/
structure Outcome (σ α : Type) where
  state : σ
  result : Except Failure α
  records : List Log.Record := []

/-- The outcome of a failed operation: nothing but the failure. -/
def Outcome.failed {σ α : Type} (state : σ) (e : Failure) : Outcome σ α := ⟨state, .error e, []⟩

/-- The outcome with the state put into a larger one, and the result into another type. -/
def Outcome.map {σ τ α β : Type} (put : σ → τ) (f : α → β) (o : Outcome σ α) : Outcome τ β where
  state := put o.state
  result := o.result.map f
  records := o.records

/-- The outcome of a further operation after one that succeeded. -/
def Outcome.andThen {σ α β : Type} (o : Outcome σ α) (f : σ → α → Outcome σ β) : Outcome σ β :=
  match o.result with
  | .error e => { state := o.state, result := .error e, records := o.records }
  | .ok a =>
    let next := f o.state a
    { next with records := o.records ++ next.records }

/-- A container. -/
structure Container where
  id : String
  partitionKey : PartitionKeyDefinition
  indexingPolicy : Option IndexingPolicy
  /-- The request charge of every response. -/
  charge : Number
  store : Store

/-- The response to an action. -/
inductive Response where
  | item (r : ItemResponse Empty)
  | feed (r : FeedResponse Empty)

/-- A request to the documents of a container. -/
inductive Action where
  | upsert (item : Value)
  | read (address : Address)
  | delete (address : Address)
  | readAll (options : Value)
  | query (query options : Value)

/-- The options of an action that lists documents. -/
def Action.options? : Action → Option Value
  | readAll options => some options
  | query _ options => some options
  | _ => none

/-- The logger of containers. -/
def clientLogger : String := "localcosmos.emulator.client"

/-- The logger of stores. -/
def storeLogger : String := "localcosmos.emulator.store"

namespace Container

/-- The field path of the partition key. -/
def field (c : Container) : String := c.store.field

/-- A new container without documents. -/
def create (request : ContainerRequest) (charge : Number) : Container where
  id := request.id
  partitionKey := request.partitionKey
  indexingPolicy := request.indexingPolicy
  charge := charge
  store := Store.empty (partitionKeyField (request.partitionKey.paths.headD ""))

/-- The container with other documents. -/
def withStore (c : Container) (store : Store) : Container := { c with store }

/-- A debug record of the container. -/
def debug (text : String) : Log.Record := .plain .debug clientLogger text

/-- A debug record of the store. -/
def storeDebug (text : String) : Log.Record := .plain .debug storeLogger text

/-- The name of the container in records. -/
def quoted (c : Container) : String := "'" ++ c.id ++ "'"

/-- The response around a payload that can be written, if it passed its check; no other is sent. -/
def responded {α : Type} (payload : Json) (r : Checked α) : Except Failure α :=
  match Json.written payload r with
  | .error fault => .error (.noText fault)
  | .ok r => r.toExcept.mapError .invalid

section

variable (c : Container) (elapsed : Double)

/-- Stores an item. -/
def upsert (item : Value) : Outcome Container (ItemResponse Empty) :=
  match c.store.upsert item with
  | .error e => .failed c e
  | .ok (row, store) =>
    { state := c.withStore store
      result := responded row.document (ItemResponse.ofJson elapsed row.document c.charge)
      records := [storeDebug
        ("Upserted document '" ++ row.id ++ "' in partition " ++ row.key.partition)] }

/-- Reads the document at an address. -/
def read (address : Address) : Outcome Container (ItemResponse Empty) :=
  match c.store.read address with
  | .error e => .failed c e
  | .ok found =>
    match address.id.display? with
    | .error fault => .failed c (.noText fault)
    | .ok shown =>
      { state := c
        result := responded (found.getD .null)
          (ItemResponse.ofJson elapsed (found.getD .null) c.charge)
        records := [debug ("Read item '" ++ shown ++ "' from container " ++ c.quoted ++ " (" ++
          (if found.isSome then "hit" else "miss") ++ ")")] }

/-- Removes the document at an address. -/
def delete (address : Address) : Outcome Container (ItemResponse Empty) :=
  match c.store.delete address with
  | .error e => .failed c e
  | .ok (row, store) =>
    { state := c.withStore store
      result := responded row.document (ItemResponse.ofJson elapsed row.document c.charge)
      records :=
        [storeDebug ("Deleted document '" ++ row.id ++ "' from partition " ++ row.key.partition),
          debug ("Deleted item '" ++ row.id ++ "' from container " ++ c.quoted)] }

/-- The outcome of a feed that found these resources or failed. -/
def feed (description : String) (found : Except Failure (List Json)) :
    Outcome Container (FeedResponse Empty) :=
  match found with
  | .error e => .failed c e
  | .ok resources =>
    { state := c
      result := responded (.arr resources) (FeedResponse.ofJson elapsed resources c.charge)
      records := [debug (description ++ " on container " ++ c.quoted ++ " returned " ++
        String.ofList (Text.natDigits resources.length) ++ " resources")] }

/-- The documents of a feed. -/
def listed (options : FeedOptions) : Except Failure (List Json) :=
  c.store.list options.scope

/-- The answer to a query from the documents of a feed. -/
def queried (query : Value) (options : FeedOptions) :
    Except Failure (List Json) := do
  let spec ← Query.Spec.ofValue query
  let parsed ← (Query.Parsed.ofSpec spec).mapError .query
  let documents ← c.listed options
  (parsed.execute documents).mapError .query

/-- Lists documents. -/
def readAll (options : Value) : Outcome Container (FeedResponse Empty) :=
  match FeedOptions.ofValue options with
  | .error e => .failed c e
  | .ok options => c.feed elapsed "ReadAll" (c.listed options)

/-- Answers a query. -/
def query (query options : Value) : Outcome Container (FeedResponse Empty) :=
  match FeedOptions.ofValue options with
  | .error e => .failed c e
  | .ok options => c.feed elapsed "Query" (c.queried query options)

/-- Answers a request, which takes so many milliseconds. -/
def run : Action → Outcome Container Response
  | .upsert item => (c.upsert elapsed item).map (fun c => c) .item
  | .read address => (c.read elapsed address).map (fun c => c) .item
  | .delete address => (c.delete elapsed address).map (fun c => c) .item
  | .readAll options => (c.readAll elapsed options).map (fun c => c) .feed
  | .query query options => (c.query elapsed query options).map (fun c => c) .feed

end

end Container

end Pigeonhole
